import NanoDrone.Log.Config

/-! # Log control commands

Every function that a control command runs keeps the pool of ops, and does to the configuration
what the command is for.  Its specification is a `Returns` statement: started in a state with a
`Pool` it ends, in a state with one.  The exceptions are the functions that append settings, which
look up a type from the packet in `typeLength` and may find no entry (`ReturnsUnless`). -/

namespace NanoDrone.Log

variable {s : LogState} {lists : BlockPtr → List OpsPtr} {b : BlockPtr}

/-! ### Finding a block -/

namespace LogState

/-- The first block with an id. -/
def blockOf (s : LogState) (id : Int) : Option BlockPtr :=
  (List.finRange logMaxBlocks).find? fun i => (s.logBlocks i).id = id

theorem id_of_blockOf {id : Int} (h : s.blockOf id = some b) : (s.logBlocks b).id = id := by
  simpa using List.find?_some h

theorem allocated_of_blockOf {id : Int} (h : s.blockOf id = some b) (hid : id ≠ blockIdFree) :
    s.Allocated b := by
  unfold Allocated
  rwa [id_of_blockOf h]

theorem id_ne_of_blockOf {id : Int} (h : s.blockOf id = none) (b : BlockPtr) :
    (s.logBlocks b).id ≠ id := by
  simpa using List.find?_eq_none.mp h b (List.mem_finRange b)

theorem config_of_blockOf {id : Int} (h : s.blockOf id = some b) (hid : id ≠ blockIdFree) :
    s.config lists b = some ⟨id, s.items (lists b)⟩ := by
  rw [config_allocated (allocated_of_blockOf h hid), id_of_blockOf h]

theorem unknown_of_blockOf {id : Int} (h : s.blockOf id = none) :
    (s.config lists).Unknown id := by
  intro a blk hblk
  by_cases ha : s.Allocated a
  · rw [config_allocated ha] at hblk
    cases hblk
    exact id_ne_of_blockOf h a
  · rw [config_free ha] at hblk
    cases hblk

end LogState

theorem returns_findBlockIn {id : Int} {l : List BlockPtr} {Q : Option BlockPtr → LogState → Prop} :
    Returns (findBlockIn id l : LogM _) s Q ↔
      Q (l.find? fun i => (s.logBlocks i).id = id) s := by
  induction l with
  | nil => simp [findBlockIn]
  | cons i rest ih =>
      simp only [findBlockIn, returns_bind, returns_get, List.find?_cons]
      by_cases hid : (s.logBlocks i).id = id
      · simp [hid]
      · simp [hid, ih]

@[simp] theorem returns_findBlock {id : Int} {Q : Option BlockPtr → LogState → Prop} :
    Returns (findBlock id : LogM _) s Q ↔ Q (s.blockOf id) s := returns_findBlockIn

theorem findBlock_eq (s : LogState) (id : Int) :
    (findBlock id : LogM _) s = some (s.blockOf id, s) := by
  obtain ⟨r, t, heq, rfl, rfl⟩ :=
    (returns_findBlock (Q := fun r t => r = s.blockOf id ∧ t = s)).mpr ⟨rfl, rfl⟩
  exact heq

/-! ### Deleting blocks -/

/-- The state with the ops of a list freed. -/
def LogState.freeOps (s : LogState) (l : List OpsPtr) : LogState :=
  { s with logOps := fun o =>
      if o ∈ l then { s.logOps o with variablePtr := none } else s.logOps o }

theorem LogState.freeOps_next (s : LogState) (l : List OpsPtr) : (s.freeOps l).next = s.next := by
  funext o
  unfold next freeOps
  dsimp only
  split <;> rfl

/-- The links are read before an op is freed, and freeing leaves them. -/
theorem returns_freeList {p : Option OpsPtr} {l : List OpsPtr} {fuel : ℕ}
    (h : Linked s.next p l) (hfuel : l.length ≤ fuel) :
    Returns (freeList fuel p : LogM Unit) s (fun _ s' => s' = s.freeOps l) := by
  induction l generalizing s p fuel with
  | nil =>
      rw [Linked.nil_iff.mp h, freeList, returns_pure]
      simp [LogState.freeOps]
  | cons x xs ih =>
      obtain ⟨rfl, hxs⟩ := h
      cases fuel with
      | zero => simp at hfuel
      | succ fuel =>
          have hnext : (s.setOps x fun o => { o with variablePtr := none }).next = s.next := by
            rw [LogState.setOps_next]
            exact Function.update_eq_self ..
          simp only [freeList, opsFree, returns_bind, returns_get, returns_modify]
          rw [← hnext] at hxs ⊢
          refine (ih hxs (by simpa using hfuel)).mono ?_
          intro _ s' hs'
          rw [hs']
          unfold LogState.freeOps
          congr 1
          funext o
          rcases eq_or_ne o x with rfl | ho
          · simp
          · simp [LogState.setOps_of_ne s x ho, ho]

theorem returns_xTimerStop {Q : Unit → LogState → Prop} (h : (s.logBlocks b).timer ≠ none) :
    Returns (xTimerStop b : LogM Unit) s Q ↔
      Q () (s.setBlock b fun c =>
        { c with timer := c.timer.map ({ · with active := false }) }) := by
  simp only [xTimerStop, returns_bind, returns_get]
  cases htimer : (s.logBlocks b).timer with
  | none => exact absurd htimer h
  | some timer => simp

/-- Stopping changes a timer only. -/
theorem Pool.stop (h : Pool s lists) {id : Int} (hid : id ≠ blockIdFree) :
    Returns (logStopBlock id : LogM ℕ) s (fun _ s' =>
      Pool s' lists ∧ (∀ a, (s'.logBlocks a).id = (s.logBlocks a).id) ∧ s'.logOps = s.logOps) := by
  simp only [logStopBlock, returns_bind, returns_findBlock]
  cases hfind : s.blockOf id with
  | none => exact returns_pure.mpr ⟨h, fun _ => rfl, rfl⟩
  | some i =>
      have hi := LogState.allocated_of_blockOf hfind hid
      simp only [returns_bind, returns_pure]
      rw [returns_xTimerStop (h.timers i hi)]
      refine ⟨h.setBlock i (fun _ => rfl) (fun _ => rfl) (by simp), ?_, rfl⟩
      intro a
      rcases eq_or_ne a i with rfl | ha
      · simp
      · rw [LogState.setBlock_of_ne s i ha]

theorem Cleared.config (h : Cleared s) : s.config lists = fun _ => none :=
  funext fun b => LogState.config_free (h.blocks b)

theorem Pool.length_le (h : Pool s lists) (hb : s.Allocated b) :
    (lists b).length ≤ logMaxOps := by
  have := (h.linked b hb).length_le
  rwa [Fintype.card_fin] at this

/-- The timer is stopped and deleted, the ops are freed and so is the block. -/
theorem Pool.deleteBlock (h : Pool s lists) {id : Int} (hid : id ≠ blockIdFree) :
    Returns (logDeleteBlock id : LogM ℕ) s (fun _ s' => ∃ lists', Pool s' lists' ∧
      (s.config lists).Deletes id (s'.config lists')) := by
  simp only [logDeleteBlock, returns_bind, returns_findBlock]
  cases hfind : s.blockOf id with
  | none => exact returns_pure.mpr ⟨lists, h, Or.inl ⟨LogState.unknown_of_blockOf hfind, rfl⟩⟩
  | some i =>
      have hi := LogState.allocated_of_blockOf hfind hid
      simp only [returns_bind, returns_get]
      refine (returns_freeList (h.linked i hi) (h.length_le hi)).mono ?_
      intro _ s1 hs1
      have hblocks : s1.logBlocks = s.logBlocks := by rw [hs1]; rfl
      have htimer : (s1.logBlocks i).timer ≠ none := by
        rw [hblocks]
        exact h.timers i hi
      rw [if_pos (Option.isSome_iff_ne_none.mpr htimer)]
      simp only [returns_bind]
      rw [returns_xTimerStop htimer]
      simp only [xTimerDelete, setId, returns_modify, returns_pure]
      have hops : ∀ o, o ∉ lists i → s1.logOps o = s.logOps o := by
        intro o ho
        rw [hs1]
        simp [LogState.freeOps, ho]
      refine ⟨_, h.delete (b := i) ?_ ?_ ?_ hops ?_, Or.inr ⟨i, s.items (lists i), ?_, ?_⟩⟩
      · simp [LogState.Allocated]
      · intro a ha
        simp only [LogState.setBlock_of_ne _ i ha]
        rw [hblocks]
      · rw [← LogState.freeOps_next s (lists i), ← hs1]
        rfl
      · intro o ho
        rw [hs1]
        simp [LogState.freeOps, ho]
      · exact LogState.config_of_blockOf hfind hid
      · refine LogState.config_update ?_ ?_ (LogState.config_free (by simp [LogState.Allocated]))
        · intro a ha
          simp only [LogState.setBlock_of_ne _ i ha]
          rw [hblocks]
        · intro a ha
          rw [Function.update_of_ne ha]
          refine List.map_congr_left fun o ho => congrArg LogOps.item (hops o ?_)
          exact fun hoi => ha (h.disjoint a i o ho hoi)

/-! ### Reset -/

theorem Pool.resetBlock (h : Pool s lists) (i : BlockPtr) :
    Returns (resetBlock i : LogM Unit) s (fun _ s' => ∃ lists', Pool s' lists') := by
  simp only [Log.resetBlock, returns_bind, returns_get]
  by_cases hi : (s.logBlocks i).id = -1
  · rw [if_neg (not_not_intro hi)]
    exact returns_pure.mpr ⟨lists, h⟩
  · rw [if_pos hi]
    simp only [returns_bind, returns_get]
    refine (h.stop hi).mono ?_
    intro _ s1 hs1
    obtain ⟨h1, hid, -⟩ := hs1
    have hi1 : (s1.logBlocks i).id ≠ blockIdFree := by
      rw [hid]
      exact hi
    refine (h1.deleteBlock hi1).mono ?_
    rintro _ s2 ⟨lists2, h2, -⟩
    exact returns_pure.mpr ⟨lists2, h2⟩

theorem returns_freeIds :
    Returns ((List.finRange logMaxBlocks).forM (setId · blockIdFree) : LogM Unit) s
      (fun _ s' => FreeExcept [] s') := by
  refine Returns.forM (I := FreeExcept) (.all s) ?_
  intro i rest t ht
  exact returns_modify.mpr ht.setFree

/-- After the ids, the variables of all ops. -/
theorem returns_freeVariables (h : FreeExcept [] s) :
    Returns ((List.finRange logMaxOps).forM opsFree : LogM Unit) s (fun _ s' => Cleared s') := by
  refine (Returns.forM (I := ClearedExcept) h.cleared ?_).mono fun _ _ ht => ht.cleared
  intro x rest t ht
  exact returns_modify.mpr ht.opsFree

/-- A reset frees everything. -/
theorem returns_logReset (h : s.isInit = true → ∃ lists, Pool s lists) :
    Returns (logReset : LogM Unit) s (fun _ s' => Cleared s') := by
  have hfree : ∀ t : LogState, Returns ((List.finRange logMaxBlocks).forM (setId · blockIdFree)) t
      (fun _ t' => Returns ((List.finRange logMaxOps).forM opsFree) t' (fun _ s' => Cleared s')) :=
    fun t => returns_freeIds.mono fun _ _ ht => returns_freeVariables ht
  simp only [logReset, returns_bind, returns_get]
  cases hinit : s.isInit with
  | false =>
      simp only [Bool.false_eq_true, ↓reduceIte, returns_bind]
      exact hfree s
  | true =>
      simp only [↓reduceIte, returns_bind]
      refine (Returns.forM (I := fun _ t => ∃ lists, Pool t lists) (h hinit) ?_).mono ?_
      · intro i _ t ht
        obtain ⟨lists, ht⟩ := ht
        exact ht.resetBlock i
      · intro _ t _
        exact hfree t

/-! ### Start -/

theorem Pool.startBlock (h : Pool s lists) {id : Int} (hid : id ≠ blockIdFree) (period : ℕ) :
    Returns (logStartBlock id period) s (fun _ s' =>
      Pool s' lists ∧ s'.config lists = s.config lists) := by
  simp only [logStartBlock, returns_bind, returns_findBlock]
  cases hfind : s.blockOf id with
  | none => exact returns_pure.mpr ⟨h, rfl⟩
  | some i =>
      have hi := LogState.allocated_of_blockOf hfind hid
      dsimp only
      split
      · simp only [xTimerStart, returns_bind, returns_get]
        cases htimer : (s.logBlocks i).timer with
        | none => exact absurd htimer (h.timers i hi)
        | some timer =>
            simp only [returns_modify, returns_pure]
            refine ⟨h.setBlock i (fun _ => rfl) (fun _ => rfl) (by simp), ?_⟩
            refine LogState.config_congr ?_ rfl
            intro a
            rcases eq_or_ne a i with rfl | ha
            · simp
            · rw [LogState.setBlock_of_ne s i ha]
      · simp only [returns_bind, returns_modify, returns_pure]
        exact ⟨h.congr rfl (fun _ => rfl) (fun _ _ => rfl) h.timers, rfl⟩

/-! ### The size of the pool -/

theorem Pool.nodup (h : Pool s lists) (b : BlockPtr) : (lists b).Nodup := by
  by_cases hb : s.Allocated b
  · exact (h.linked b hb).nodup
  · rw [h.free b hb]
    exact List.nodup_nil

/-- An op is allocated exactly if it is in the list of one allocated block. -/
theorem Pool.used_iff (h : Pool s lists) (o : OpsPtr) :
    (s.logOps o).variablePtr ≠ none ↔ ∃! b, s.Allocated b ∧ o ∈ lists b := by
  constructor
  · intro ho
    obtain ⟨b, hb⟩ := h.owned o ho
    exact ⟨b, ⟨h.allocated hb, hb⟩, fun a ha => h.disjoint a b o ha.2 hb⟩
  · intro ⟨b, ⟨_, hb⟩, _⟩
    exact h.used b o hb

/-- The number of ops with variable `NULL`. -/
def LogState.freeCount (s : LogState) : ℕ :=
  (List.finRange logMaxOps).countP fun o => (s.logOps o).variablePtr.isNone

/-- The lists are a partition of the ops in use. -/
theorem Pool.freeCount_add (h : Pool s lists) :
    s.freeCount + ((List.finRange logMaxBlocks).map fun b => (lists b).length).sum = logMaxOps := by
  have hperm : ((List.finRange logMaxBlocks).flatMap lists).Perm
      ((List.finRange logMaxOps).filter fun o => (s.logOps o).variablePtr.isSome) := by
    refine (List.perm_ext_iff_of_nodup ?_ ((List.nodup_finRange _).filter _)).mpr ?_
    · refine List.nodup_flatMap.mpr ⟨fun b _ => h.nodup b, ?_⟩
      refine (List.nodup_finRange _).imp ?_
      intro a b hab o ha hb
      exact hab (h.disjoint a b o ha hb)
    · intro o
      simp only [List.mem_flatMap, List.mem_finRange, true_and, List.mem_filter]
      constructor
      · intro ⟨b, hb⟩
        exact Option.isSome_iff_ne_none.mpr (h.used b o hb)
      · intro ho
        exact h.owned o (Option.isSome_iff_ne_none.mp ho)
  have hlen := hperm.length_eq
  rw [List.length_flatMap, ← List.countP_eq_length_filter] at hlen
  have hall := List.length_eq_countP_add_countP (l := List.finRange logMaxOps)
    fun o => (s.logOps o).variablePtr.isNone
  simp only [List.length_finRange, Bool.not_eq_true, Option.isNone_eq_false_iff,
    Bool.decide_eq_true] at hall
  rw [hlen]
  exact hall.symm

/-- The op that `opsMalloc` returns. -/
def LogState.freeOp (s : LogState) : Option OpsPtr :=
  (List.finRange logMaxOps).find? fun o => (s.logOps o).variablePtr.isNone

theorem opsMalloc_eq (s : LogState) : opsMalloc s = some (s.freeOp, s) := rfl

theorem LogState.variablePtr_of_freeOp {o : OpsPtr} (h : s.freeOp = some o) :
    (s.logOps o).variablePtr = none := by
  simpa using List.find?_some h

/-- No op is found exactly if none is free. -/
theorem LogState.freeOp_eq_none : s.freeOp = none ↔ s.freeCount = 0 := by
  unfold freeOp freeCount
  rw [List.find?_eq_none, List.countP_eq_zero]

theorem sum_map_update {α : Type} [DecidableEq α] {l : List α} (hl : l.Nodup) {b : α} (hb : b ∈ l)
    (g : α → ℕ) (n : ℕ) :
    (l.map (Function.update g b n)).sum + g b = (l.map g).sum + n := by
  have hrest : (l.erase b).map (Function.update g b n) = (l.erase b).map g := by
    refine List.map_congr_left fun a ha => Function.update_of_ne ?_ ..
    rintro rfl
    exact hl.not_mem_erase ha
  rw [← List.sum_map_erase _ hb, ← List.sum_map_erase g hb, hrest, Function.update_self]
  omega

/-- An op that is appended is one fewer in the pool. -/
theorem Pool.freeCount_append (h : Pool s lists) {s' : LogState} {o : OpsPtr}
    (h' : Pool s' (Function.update lists b (lists b ++ [o]))) :
    s'.freeCount = s.freeCount - 1 := by
  have h1 := h.freeCount_add
  have h2 := h'.freeCount_add
  have hlengths : (fun a => (Function.update lists b (lists b ++ [o]) a).length) =
      Function.update (fun a => (lists a).length) b ((lists b).length + 1) := by
    funext a
    rcases eq_or_ne a b with rfl | ha
    · simp
    · rw [Function.update_of_ne ha, Function.update_of_ne ha]
  rw [hlengths] at h2
  have hsum := @sum_map_update BlockPtr _ _ (List.nodup_finRange logMaxBlocks) b
    (List.mem_finRange b) (fun a => (lists a).length) ((lists b).length + 1)
  omega

/-! ### Appending settings -/

/-- The width of the field that an op gives in a packet. -/
def LogState.fieldLength (s : LogState) (o : OpsPtr) : ℕ :=
  (typeLength (s.logOps o).logType).getD 0

theorem typeLength_of_le {t : ℕ} (h : t ≤ logFp16) : ∃ n, typeLength t = some n :=
  ⟨_, List.getElem?_eq_getElem (Nat.lt_succ_of_le h)⟩

theorem foldlM_typeLength {l : List OpsPtr} (h : ∀ o ∈ l, (s.logOps o).logType ≤ logFp16) (n : ℕ) :
    l.foldlM (fun len o => (typeLength (s.logOps o).logType).map (len + ·)) n =
      some (n + (l.map s.fieldLength).sum) := by
  induction l generalizing n with
  | nil => rfl
  | cons x xs ih =>
      obtain ⟨k, hk⟩ := typeLength_of_le (h x (List.mem_cons_self ..))
      have hx : s.fieldLength x = k := by rw [LogState.fieldLength, hk]; rfl
      rw [List.foldlM_cons, hk, List.map_cons, List.sum_cons, hx, ← Nat.add_assoc]
      exact ih (fun o ho => h o (List.mem_cons_of_mem _ ho)) (n + k)

/-- The sum of the widths of the fields. -/
theorem Pool.calcLength (h : Pool s lists) (hb : s.Allocated b) :
    Returns (blockCalcLength b) s (fun len s' =>
      len = ((lists b).map s.fieldLength).sum ∧ s' = s) := by
  simp only [blockCalcLength, returns_bind, returns_get, returns_lift]
  refine ⟨_, ?_, rfl, trivial⟩
  rw [walk_eq (h.linked b hb) (h.length_le hb), foldlM_typeLength (h.types b), Nat.zero_add]

/-- The op `o` was linked after the list `l` of the block `b`. -/
structure Appended (s s' : LogState) (b : BlockPtr) (o : OpsPtr) (l : List OpsPtr) : Prop where
  linked : Linked s'.next (s'.logBlocks b).ops (l ++ [o])
  other_next : ∀ a, a ∉ l → a ≠ o → s'.next a = s.next a
  only_next : ∀ a, ∃ n, s'.logOps a = { s.logOps a with next := n }
  only_ops : ∃ p, s'.logBlocks b = { s.logBlocks b with ops := p }
  other_blocks : ∀ a, a ≠ b → s'.logBlocks a = s.logBlocks a

theorem LogState.setNext_next (s : LogState) (o : OpsPtr) (n : Option OpsPtr) :
    (s.setOps o fun x => { x with next := n }).next = Function.update s.next o n :=
  s.setOps_next o _

theorem LogState.setNext_logOps (s : LogState) (o : OpsPtr) (n : Option OpsPtr) (a : OpsPtr) :
    ∃ m, (s.setOps o fun x => { x with next := n }).logOps a = { s.logOps a with next := m } := by
  rcases eq_or_ne a o with rfl | ha
  · exact ⟨n, s.setOps_self a _⟩
  · exact ⟨(s.logOps a).next, s.setOps_of_ne o ha _⟩

/-- The new op becomes the first one of an empty list, or the next one of the last op. -/
theorem returns_blockAppendOps {o : OpsPtr} {l : List OpsPtr}
    (hl : Linked s.next (s.logBlocks b).ops l) (ho : o ∉ l) :
    Returns (blockAppendOps b o) s (fun _ s' => Appended s s' b o l) := by
  simp only [blockAppendOps, returns_bind, returns_modify, returns_get]
  have hl1 : Linked (s.setOps o fun x => { x with next := none }).next (s.logBlocks b).ops l := by
    refine hl.congr ?_
    intro a ha
    have hao : a ≠ o := fun e => ho (by rwa [← e])
    rw [LogState.setNext_next, Function.update_of_ne hao]
  have ho1 : (s.setOps o fun x => { x with next := none }).next o = none := by
    rw [LogState.setNext_next, Function.update_self]
  generalize hs1 : (s.setOps o fun x => { x with next := none }) = s1 at hl1 ho1
  have hnext1 : ∀ a, a ≠ o → s1.next a = s.next a := by
    intro a ha
    rw [← hs1, LogState.setNext_next, Function.update_of_ne ha]
  have hops1 : ∀ a, ∃ n, s1.logOps a = { s.logOps a with next := n } := by
    rw [← hs1]
    exact s.setNext_logOps o none
  have hblocks1 : s1.logBlocks = s.logBlocks := by rw [← hs1]; rfl
  rw [hblocks1]
  cases hhead : (s.logBlocks b).ops with
  | none =>
      rw [hhead] at hl1
      obtain rfl : l = [] := hl1.unique rfl
      simp only [returns_set]
      refine ⟨?_, ?_, hops1, ⟨some o, ?_⟩, ?_⟩
      · rw [LogState.setBlock_self]
        exact Linked.singleton ho1
      · intro a _ ha
        exact hnext1 a ha
      · rw [LogState.setBlock_self, hblocks1]
      · intro a ha
        rw [LogState.setBlock_of_ne s1 b ha, hblocks1]
  | some first =>
      rw [hhead] at hl1
      rcases List.eq_nil_or_concat' l with rfl | ⟨pre, z, rfl⟩
      · cases Linked.nil_iff.mp hl1
      · have hlast : lastCell s1.next logMaxOps first = some z := by
          refine lastCell_eq hl1 ?_
          have := hl1.length_le
          rw [Fintype.card_fin, List.length_append, List.length_singleton] at this
          omega
        simp only [returns_bind, returns_lift, returns_set]
        refine ⟨z, hlast, ?_, ?_, ?_, ⟨some first, ?_⟩, ?_⟩
        · rw [LogState.setNext_next, LogState.setOps_logBlocks, hblocks1, hhead,
            List.append_assoc]
          exact hl1.snoc ho1 ho
        · intro a hal hao
          rw [LogState.setNext_next, Function.update_of_ne (fun e => hal (by simp [e]))]
          exact hnext1 a hao
        · intro a
          obtain ⟨n, hn⟩ := hops1 a
          obtain ⟨k, hk⟩ := s1.setNext_logOps z (some o) a
          exact ⟨k, by rw [hk, hn]⟩
        · rw [LogState.setOps_logBlocks, hblocks1, ← hhead]
        · intro a _
          rw [LogState.setOps_logBlocks, hblocks1]

/-- A free op that is given a variable and appended. -/
theorem Pool.appendOps (h : Pool s lists) (hb : s.Allocated b) {o : OpsPtr}
    (ho : (s.logOps o).variablePtr = none) {f : LogOps → LogOps}
    (hvar : (f (s.logOps o)).variablePtr ≠ none) (htype : (f (s.logOps o)).logType ≤ logFp16) :
    Returns (blockAppendOps b o) (s.setOps o f) (fun _ s' =>
      Pool s' (Function.update lists b (lists b ++ [o])) ∧
      (∀ a, (s'.logBlocks a).id = (s.logBlocks a).id) ∧
      s'.config (Function.update lists b (lists b ++ [o])) = Function.update (s.config lists) b
        (some ⟨(s.logBlocks b).id, s.items (lists b) ++ [(f (s.logOps o)).item]⟩)) := by
  have hnot : ∀ a, o ∉ lists a := fun a hmem => h.used a o hmem ho
  have hlinked : ∀ a, Linked s.next (s.logBlocks a).ops (lists a) →
      Linked (s.setOps o f).next (s.logBlocks a).ops (lists a) := by
    intro a ha
    refine ha.congr ?_
    intro p hp
    have hpo : p ≠ o := fun e => hnot a (by rwa [← e])
    rw [LogState.setOps_next, Function.update_of_ne hpo]
  refine (returns_blockAppendOps (hlinked b (h.linked b hb)) (hnot b)).mono ?_
  intro _ s' hs'
  have hblock : ∀ a, (s'.logBlocks a).id = (s.logBlocks a).id ∧
      (s'.logBlocks a).timer = (s.logBlocks a).timer := by
    intro a
    rcases eq_or_ne a b with rfl | ha
    · obtain ⟨p, hp⟩ := hs'.only_ops
      rw [hp]
      exact ⟨rfl, rfl⟩
    · rw [hs'.other_blocks a ha]
      exact ⟨rfl, rfl⟩
  have hitem : ∀ a, (s'.logOps a).item = ((s.setOps o f).logOps a).item := by
    intro a
    obtain ⟨n, hn⟩ := hs'.only_next a
    rw [hn]
    rfl
  have hold : ∀ a, s'.items (lists a) = s.items (lists a) := by
    intro a
    refine List.map_congr_left fun p hp => ?_
    have hpo : p ≠ o := fun e => hnot a (by rwa [← e])
    rw [hitem, LogState.setOps_of_ne s o hpo]
  refine ⟨h.append hb ho ?_ ?_ ?_ (fun a => (hblock a).1) (fun a => (hblock a).2) hs'.linked ?_,
    fun a => (hblock a).1, LogState.config_update (fun a _ => (hblock a).1) ?_ ?_⟩
  · intro a ha
    obtain ⟨n, hn⟩ := hs'.only_next a
    rw [hn, LogState.setOps_of_ne s o ha]
    exact ⟨rfl, rfl⟩
  · obtain ⟨n, hn⟩ := hs'.only_next o
    rw [hn, LogState.setOps_self]
    exact hvar
  · obtain ⟨n, hn⟩ := hs'.only_next o
    rw [hn, LogState.setOps_self]
    exact htype
  · intro a hab ha
    rw [hs'.other_blocks a hab]
    refine (hlinked a ha).congr ?_
    intro p hp
    exact hs'.other_next p (fun hpb => hab (h.disjoint a b p hp hpb))
      (fun e => hnot a (by rwa [← e]))
  · intro a ha
    rw [Function.update_of_ne ha]
    exact hold a
  · have hb' : s'.Allocated b := (LogState.allocated_congr (hblock b).1).mpr hb
    rw [LogState.config_allocated hb', Function.update_self, (hblock b).1, LogState.items,
      List.map_append, ← LogState.items, hold b, List.map_singleton, hitem, LogState.setOps_self]

/-- The indices of the settings that the loop of `logAppendBlock` reads. -/
inductive SettingAt (f : SettingFormat) (bytes : Bytes) : ℕ → Prop
  | first : SettingAt f bytes 0
  | toc {i : ℕ} : SettingAt f bytes i → (f.read bytes i).id ≠ f.memoryId →
      SettingAt f bytes (i + 1)
  | memory {i : ℕ} : SettingAt f bytes i → (f.read bytes i).id = f.memoryId →
      SettingAt f bytes (i + 2 + 1)

theorem SettingAt.after {f : SettingFormat} {bytes : Bytes} {i : ℕ} (h : SettingAt f bytes i) :
    SettingAt f bytes (f.after bytes i) := by
  unfold SettingFormat.after
  split
  · rename_i hid
    exact h.toc hid
  · rename_i hid
    exact h.memory (not_not.mp hid)

/-- A setting with a type that is not in `typeLength`. -/
def BadType (f : SettingFormat) (bytes : Bytes) (len : ℕ) : Prop :=
  ∃ i < len, SettingAt f bytes i ∧ typeLength ((f.read bytes i).logType &&& logTypeMask) = none

theorem variableGetIndexFrom_spec {logs : List LogVar} {id i n k : ℕ}
    (h : variableGetIndexFrom id logs i n = some k) :
    ∃ v, logs[k - i]? = some v ∧ i ≤ k ∧ v.type &&& logGroup = 0 := by
  induction logs generalizing i n with
  | nil => cases h
  | cons v rest ih =>
      unfold variableGetIndexFrom at h
      have hrest : ∀ {m}, variableGetIndexFrom id rest (i + 1) m = some k →
          ∃ w, (v :: rest)[k - i]? = some w ∧ i ≤ k ∧ w.type &&& logGroup = 0 := by
        intro m hm
        obtain ⟨w, hw, hle, htype⟩ := ih hm
        refine ⟨w, ?_, by omega, htype⟩
        rw [show k - i = k - (i + 1) + 1 by omega]
        exact hw
      split at h
      · rename_i hv
        split at h
        · cases h
          exact ⟨v, by simp, Nat.le_refl _, hv⟩
        · exact hrest h
      · exact hrest h

/-- A TOC variable has an address. -/
theorem address_ne_none {linker : Linker} {id varId : ℕ}
    (h : variableGetIndex linker.logs id = some varId) :
    (logsAt linker.logs varId).address ≠ none := by
  obtain ⟨v, hv, _, htype⟩ := variableGetIndexFrom_spec h
  rw [Nat.sub_zero] at hv
  have hat : logsAt linker.logs varId = v := by
    rw [logsAt, List.getD_eq_getElem?_getD, hv]
    rfl
  rw [hat]
  exact linker.address_ne v (List.mem_of_getElem? hv) htype

/-- The block `b` has got the ops `new` at its end. -/
def Extends (s : LogState) (lists : BlockPtr → List OpsPtr) (b : BlockPtr) (new : List LogOps)
    (s' : LogState) : Prop :=
  ∃ lists', Pool s' lists' ∧ (∀ a, (s'.logBlocks a).id = (s.logBlocks a).id) ∧
    s'.config lists' = Function.update (s.config lists) b
      (some ⟨(s.logBlocks b).id, s.items (lists b) ++ new⟩)

theorem Pool.extends_nil (h : Pool s lists) (hb : s.Allocated b) : Extends s lists b [] s := by
  refine ⟨lists, h, fun _ => rfl, ?_⟩
  rw [List.append_nil, ← LogState.config_allocated hb, Function.update_eq_self]

/-- The ops of a block that has got one more. -/
theorem items_of_config {s1 : LogState} {lists1 : BlockPtr → List OpsPtr} {items : List LogOps}
    (hb : s1.Allocated b) (hconfig : s1.config lists1 = Function.update (s.config lists) b
      (some ⟨(s.logBlocks b).id, items⟩)) : s1.items (lists1 b) = items := by
  have hself := congrFun hconfig b
  rw [LogState.config_allocated hb, Function.update_self] at hself
  exact congrArg Block.items (Option.some.inj hself)

/-- After one op, the rest. -/
theorem Extends.cons {s1 s2 : LogState} {lists1 : BlockPtr → List OpsPtr} {new : List LogOps}
    {o : LogOps} (h : Extends s1 lists1 b new s2) (hb : s1.Allocated b)
    (hid : ∀ a, (s1.logBlocks a).id = (s.logBlocks a).id)
    (hconfig : s1.config lists1 = Function.update (s.config lists) b
      (some ⟨(s.logBlocks b).id, s.items (lists b) ++ [o]⟩)) :
    Extends s lists b (o :: new) s2 := by
  obtain ⟨lists2, hpool, hid2, hconfig2⟩ := h
  refine ⟨lists2, hpool, fun a => (hid2 a).trans (hid a), ?_⟩
  rw [hconfig2, hconfig, Function.update_idem, hid, items_of_config hb hconfig, List.append_assoc,
    List.singleton_append]

theorem Pool.calcLength_items (h : Pool s lists) (hb : s.Allocated b) :
    Returns (blockCalcLength b) s (fun len s' =>
      len = itemsLength (s.items (lists b)) ∧ s' = s) := by
  refine (h.calcLength hb).mono ?_
  rintro len s' ⟨rfl, rfl⟩
  refine ⟨?_, rfl⟩
  rw [itemsLength, LogState.items, List.map_map]
  rfl

/-- A loop is a loop over one setting, and then the rest unless that failed. -/
theorem appendSettings_succ {f : SettingFormat} {logs : List LogVar} {settings : Settings}
    {len fuel i : ℕ} (hi : i < len) :
    appendSettings f logs b settings len (fuel + 1) i = (do
      let r ← appendSettings f logs b settings len 1 i
      if r = 0 then appendSettings f logs b settings len fuel (f.after settings.bytes i)
      else pure r) := by
  have herror : ∀ {r : ℕ} {k : LogM ℕ}, r ≠ 0 →
      (pure r : LogM ℕ) = (do let r ← pure r; if r = 0 then k else pure r) := by
    intro r k hr
    rw [pure_bind, if_neg hr]
  rw [appendSettings, appendSettings, if_pos hi, if_pos hi]
  unfold SettingFormat.after
  simp only [bind_assoc]
  refine bind_congr fun currentLength => bind_congr fun length => ?_
  by_cases hfull : currentLength + length > logMaxLen
  · rw [if_pos hfull, if_pos hfull]
    exact herror (by decide)
  · rw [if_neg hfull, if_neg hfull, bind_assoc]
    refine bind_congr fun r => ?_
    cases r with
    | none => exact herror (by decide)
    | some ops =>
        dsimp only
        by_cases hid : (f.read settings.bytes i).id ≠ f.memoryId
        · rw [if_pos hid, if_pos hid, if_pos hid]
          cases variableGetIndex logs (f.read settings.bytes i).id with
          | none => exact herror (by decide)
          | some varId => simp only [bind_assoc, appendSettings, pure_bind, ↓reduceIte]
        · rw [if_neg hid, if_neg hid, if_neg hid]
          simp only [bind_assoc, appendSettings, pure_bind, ↓reduceIte]

/-- The block `b` has got one more op. -/
def AppendsOne (s : LogState) (lists : BlockPtr → List OpsPtr) (b : BlockPtr) (item : LogOps)
    (s' : LogState) : Prop :=
  ∃ o, Pool s' (Function.update lists b (lists b ++ [o])) ∧
    (∀ a, (s'.logBlocks a).id = (s.logBlocks a).id) ∧
    s'.config (Function.update lists b (lists b ++ [o])) = Function.update (s.config lists) b
      (some ⟨(s.logBlocks b).id, s.items (lists b) ++ [item]⟩)

/-- One round either stops, or appends one op and goes on. -/
theorem Pool.appendRound (h : Pool s lists) (hb : s.Allocated b) (f : SettingFormat)
    (linker : Linker) (settings : Settings) {len i : ℕ} (hi : i < len) :
    ReturnsUnless (typeLength ((f.read settings.bytes i).logType &&& logTypeMask) = none)
      (Log.appendSettings f linker.logs b settings len 1 i) s (fun r s' =>
        r = settingAnswer f linker.logs (f.read settings.bytes i)
          (itemsLength (s.items (lists b))) s.freeCount ∧
        if r = 0 then AppendsOne s lists b (settingItem f linker.logs settings i) s'
        else s' = s) := by
  unfold Log.appendSettings settingAnswer settingItem
  rw [if_pos hi]
  dsimp only
  refine ReturnsUnless.bind (Or.inl (h.calcLength_items hb)) ?_
  rintro currentLength s1 ⟨hcurrent, hs1⟩
  subst hs1 hcurrent
  refine ReturnsUnless.lift_bind id ?_
  intro length hlength
  have htype : (f.read settings.bytes i).logType &&& logTypeMask ≤ logFp16 := by
    obtain ⟨hlt, _⟩ := List.getElem?_eq_some_iff.mp hlength
    exact Nat.le_of_lt_succ hlt
  rw [hlength, Option.getD_some]
  by_cases hfull : itemsLength (s1.items (lists b)) + length > logMaxLen
  · rw [if_pos hfull, if_pos hfull]
    exact Or.inl (returns_pure.mpr ⟨rfl, rfl⟩)
  · rw [if_neg hfull, if_neg hfull]
    refine ReturnsUnless.bind_of_eq (opsMalloc_eq s1) ?_
    cases hfree : s1.freeOp with
    | none =>
        rw [if_pos (LogState.freeOp_eq_none.mp hfree)]
        exact Or.inl (returns_pure.mpr ⟨rfl, rfl⟩)
    | some o =>
        have hcount : s1.freeCount ≠ 0 := by
          intro hzero
          rw [LogState.freeOp_eq_none.mpr hzero] at hfree
          cases hfree
        have ho := LogState.variablePtr_of_freeOp hfree
        rw [if_neg hcount]
        -- an op of either kind is appended
        have hnext : ∀ (g : LogOps → LogOps) {j : ℕ}, (g (s1.logOps o)).variablePtr ≠ none →
            (g (s1.logOps o)).logType = (f.read settings.bytes i).logType &&& logTypeMask →
            ReturnsUnless (some length = none) (do
              modify (·.setOps o g)
              blockAppendOps b o
              Log.appendSettings f linker.logs b settings len 0 j) s1 (fun r s' =>
                r = 0 ∧ AppendsOne s1 lists b (g (s1.logOps o)).item s') := by
          intro g j hvar htypeEq
          refine ReturnsUnless.bind_of_eq rfl ?_
          refine ReturnsUnless.bind (Or.inl (h.appendOps hb ho hvar (htypeEq ▸ htype))) ?_
          intro _ t2 h2
          exact Or.inl (returns_pure.mpr ⟨rfl, o, h2⟩)
        dsimp only
        by_cases hid : (f.read settings.bytes i).id ≠ f.memoryId
        · rw [if_pos hid, if_pos hid]
          cases hvarId : variableGetIndex linker.logs (f.read settings.bytes i).id with
          | none =>
              rw [if_pos ⟨hid, rfl⟩]
              exact Or.inl (returns_pure.mpr ⟨rfl, rfl⟩)
          | some varId =>
              rw [if_neg (fun hnone => Option.some_ne_none varId hnone.2)]
              refine (hnext (tocOps linker.logs varId _) (address_ne_none hvarId) rfl).mono ?_
              rintro r s' ⟨rfl, happend⟩
              exact ⟨rfl, happend⟩
        · rw [if_neg hid, if_neg hid, if_neg (fun hnone => hid hnone.1)]
          refine (hnext (memoryOps _ _) (Option.some_ne_none _) rfl).mono ?_
          rintro r s' ⟨rfl, happend⟩
          exact ⟨rfl, happend⟩

/-- The loop over the settings: every round appends one op or returns. -/
theorem Pool.appendSettings (h : Pool s lists) (hb : s.Allocated b) (f : SettingFormat)
    (linker : Linker) (settings : Settings) (len fuel : ℕ) {i : ℕ}
    (hi : SettingAt f settings.bytes i) :
    ReturnsUnless (BadType f settings.bytes len)
      (Log.appendSettings f linker.logs b settings len fuel i) s (fun r s' =>
        Extends s lists b (settingsResult f linker.logs settings len fuel i
          (itemsLength (s.items (lists b))) s.freeCount).1 s' ∧
        r = (settingsResult f linker.logs settings len fuel i
          (itemsLength (s.items (lists b))) s.freeCount).2) := by
  induction fuel generalizing s lists i with
  | zero => exact Or.inl (returns_pure.mpr ⟨h.extends_nil hb, rfl⟩)
  | succ fuel ih =>
      by_cases hlen : i < len
      · rw [appendSettings_succ hlen, settingsResult_succ hlen]
        refine ReturnsUnless.bind ((h.appendRound hb f linker settings hlen).imp
          fun hn => ⟨i, hlen, hi, hn⟩) ?_
        rintro r s1 ⟨rfl, hround⟩
        split
        · rename_i hzero
          rw [if_pos hzero] at hround
          obtain ⟨o, h1, hid1, hconfig1⟩ := hround
          have hb1 : s1.Allocated b := (LogState.allocated_congr (hid1 b)).mpr hb
          have hrest := ih h1 hb1 hi.after
          rw [items_of_config hb1 hconfig1, itemsLength_append, settingItem_length,
            h.freeCount_append h1] at hrest
          refine hrest.mono ?_
          rintro _ s2 ⟨h2, hr⟩
          exact ⟨h2.cons hb1 hid1 hconfig1, hr⟩
        · rename_i hstop
          rw [if_neg hstop] at hround
          rw [hround]
          exact Or.inl (returns_pure.mpr ⟨h.extends_nil hb, rfl⟩)
      · unfold Log.appendSettings settingsResult
        rw [if_neg hlen, if_neg hlen]
        exact Or.inl (returns_pure.mpr ⟨h.extends_nil hb, rfl⟩)

theorem Pool.appendBlock (h : Pool s lists) {id : Int} (hid : id ≠ blockIdFree)
    (f : SettingFormat) (linker : Linker) (settings : Settings) (len : ℕ) :
    ReturnsUnless (BadType f settings.bytes len)
      (Log.appendBlock f linker.logs id settings len) s (fun r s' => ∃ lists', Pool s' lists' ∧
        Config.AppendResult f linker.logs settings len s.freeCount id r (s.config lists)
          (s'.config lists')) := by
  unfold Log.appendBlock
  refine ReturnsUnless.bind_of_eq (findBlock_eq s id) ?_
  cases hfind : s.blockOf id with
  | none =>
      exact Or.inl (returns_pure.mpr
        ⟨lists, h, Or.inl ⟨LogState.unknown_of_blockOf hfind, rfl, rfl⟩⟩)
  | some i =>
      have hi := LogState.allocated_of_blockOf hfind hid
      refine (h.appendSettings hi f linker settings len len .first).mono ?_
      rintro r s' ⟨⟨lists', hpool, -, hconfig⟩, hr⟩
      rw [LogState.id_of_blockOf hfind] at hconfig
      exact ⟨lists', hpool, Or.inr
        ⟨i, _, LogState.config_of_blockOf hfind hid, hconfig, hr⟩⟩

/-! ### Creating blocks -/

/-- The first free block, with an id, perhaps a timer, and no ops. -/
def LogState.withNewBlock (s : LogState) (i : BlockPtr) (id : Int) (created : Bool) : LogState :=
  (s.setBlock i fun b => { b with id := id }).setBlock i fun b =>
    { b with timer := if created then some {} else none, ops := none }

theorem LogState.withNewBlock_self (s : LogState) (i : BlockPtr) (id : Int) (created : Bool) :
    (s.withNewBlock i id created).logBlocks i =
      ⟨id, if created then some {} else none, (s.logBlocks i).droppedPackets, none⟩ := by
  simp [withNewBlock]

theorem LogState.withNewBlock_of_ne (s : LogState) {i a : BlockPtr} (id : Int) (created : Bool)
    (h : a ≠ i) : (s.withNewBlock i id created).logBlocks a = s.logBlocks a := by
  rw [withNewBlock, setBlock_of_ne _ i h, setBlock_of_ne _ i h]

/-- A free block may change as long as it stays free. -/
theorem Pool.set_free (h : Pool s lists) {i : BlockPtr} (hi : ¬ s.Allocated i) {s' : LogState}
    (hops : s'.logOps = s.logOps) (hother : ∀ a, a ≠ i → s'.logBlocks a = s.logBlocks a)
    (hfree : ¬ s'.Allocated i) : Pool s' lists := by
  have hne : ∀ {a}, s.Allocated a → a ≠ i := fun ha e => hi (e ▸ ha)
  refine h.congr hops ?_ ?_ ?_
  · intro a
    rcases eq_or_ne a i with rfl | ha
    · rw [not_not.mp hi, not_not.mp hfree]
    · rw [hother a ha]
  · intro a ha
    rw [hother a (hne ha)]
  · intro a ha
    rw [hother a (hne ha)]
    exact h.timers a ha

/-- A new block has no ops. -/
theorem Pool.withNewBlock (h : Pool s lists) {id : Int} (hid : id ≠ blockIdFree)
    (hunknown : s.blockOf id = none) {i : BlockPtr} (hi : s.blockOf blockIdFree = some i) :
    Pool (s.withNewBlock i id true) lists ∧ (s.withNewBlock i id true).Allocated i := by
  have hself := s.withNewBlock_self i id true
  have hfree : ¬ s.Allocated i := not_not.mpr (LogState.id_of_blockOf hi)
  have halloc : (s.withNewBlock i id true).Allocated i := by
    unfold LogState.Allocated
    rw [hself]
    exact hid
  refine ⟨h.create hfree rfl (fun a ha => s.withNewBlock_of_ne id true ha) ?_ halloc ?_ ?_, halloc⟩
  · rw [hself]
    exact LogState.id_ne_of_blockOf hunknown
  · rw [hself]
    exact Option.some_ne_none _
  · rw [hself]

theorem Pool.createBlock (h : Pool s lists) {id : Int} (hid : id ≠ blockIdFree)
    (f : SettingFormat) (linker : Linker) (created : Bool) (settings : Settings) (len : ℕ) :
    ReturnsUnless (BadType f settings.bytes len)
      (Log.createBlock f linker.logs created id settings len) s
      (fun r s' => ∃ lists', Pool s' lists' ∧
        Config.CreateResult f linker.logs settings len s.freeCount created id r (s.config lists)
          (s'.config lists')) := by
  unfold Log.createBlock
  refine ReturnsUnless.bind_of_eq (findBlock_eq s id) ?_
  cases hnew : s.blockOf id with
  | some i =>
      refine Or.inl (returns_pure.mpr ⟨lists, h, Or.inl ⟨fun hunknown => ?_, rfl, rfl⟩⟩)
      exact hunknown i _ (LogState.config_of_blockOf hnew hid) rfl
  | none =>
      have hunknown : (s.config lists).Unknown id := LogState.unknown_of_blockOf hnew
      refine ReturnsUnless.bind_of_eq (findBlock_eq s blockIdFree) ?_
      cases hfind : s.blockOf blockIdFree with
      | none =>
          refine Or.inl (returns_pure.mpr
            ⟨lists, h, Or.inr (Or.inl ⟨hunknown, Or.inl fun a => ?_, rfl, rfl⟩)⟩)
          rw [LogState.config_allocated (LogState.id_ne_of_blockOf hfind a)]
          exact Option.some_ne_none _
      | some i =>
          have hi : ¬ s.Allocated i := not_not.mpr (LogState.id_of_blockOf hfind)
          have hself := s.withNewBlock_self i id created
          have hother : ∀ a, a ≠ i → (s.withNewBlock i id created).logBlocks a = s.logBlocks a :=
            fun a ha => s.withNewBlock_of_ne id created ha
          refine ReturnsUnless.bind_of_eq rfl ?_
          refine ReturnsUnless.bind_of_eq rfl ?_
          refine ReturnsUnless.bind_of_eq rfl ?_
          change ReturnsUnless _ (if ((s.withNewBlock i id created).logBlocks i).timer.isNone then _
            else _) (s.withNewBlock i id created) _
          rw [hself]
          cases created with
          | false =>
              simp only [Bool.false_eq_true, ↓reduceIte, Option.isNone_none]
              have hfree : ∀ a, (((s.withNewBlock i id false).setBlock i fun b =>
                  { b with id := blockIdFree }).logBlocks a).id = (s.logBlocks a).id := by
                intro a
                rcases eq_or_ne a i with rfl | ha
                · rw [LogState.setBlock_self]
                  exact (LogState.id_of_blockOf hfind).symm
                · rw [LogState.setBlock_of_ne _ i ha, hother a ha]
              refine ReturnsUnless.bind_of_eq rfl (Or.inl (returns_pure.mpr
                ⟨lists, ?_, Or.inr (Or.inl
                  ⟨hunknown, Or.inr rfl, LogState.config_congr hfree rfl, rfl⟩)⟩))
              refine h.set_free hi rfl ?_ ?_
              · intro a ha
                rw [LogState.setBlock_of_ne _ i ha]
                exact hother a ha
              · simp [LogState.Allocated]
          | true =>
              obtain ⟨hpool, halloc⟩ := h.withNewBlock hid hnew hfind
              have hconfig : (s.withNewBlock i id true).config lists =
                  Function.update (s.config lists) i (some ⟨id, []⟩) := by
                refine LogState.config_update ?_ (fun _ _ => rfl) ?_
                · intro a ha
                  rw [hother a ha]
                · rw [LogState.config_allocated halloc, hself, h.free i hi]
                  rfl
              refine (hpool.appendBlock hid f linker settings len).mono ?_
              rintro _ s' ⟨lists', hs', happend⟩
              rw [hconfig] at happend
              exact ⟨lists', hs', Or.inr (Or.inr
                ⟨hunknown, rfl, i, LogState.config_free hi, happend⟩)⟩

/-! ### Commands -/

/-- How the settings of a command are laid out. -/
def ControlPacket.format (p : ControlPacket) : Option SettingFormat :=
  match (p.data 0).toNat with
  | controlCreateBlock => some opsSetting
  | controlAppendBlock => some opsSetting
  | controlCreateBlockV2 => some opsSettingV2
  | controlAppendBlockV2 => some opsSettingV2
  | _ => none

/-- A setting of the packet has a type that is not in `typeLength`. -/
def ControlPacket.BadType (p : ControlPacket) : Prop :=
  ∃ f, p.format = some f ∧ Log.BadType f (fun i => p.data (2 + i)) (settingsLen p f)

theorem ControlPacket.not_badType {p : ControlPacket} (h : ∀ f ∈ p.format, ∀ i < settingsLen p f,
    typeLength ((f.read (fun i => p.data (2 + i)) i).logType &&& logTypeMask) ≠ none) :
    ¬ p.BadType :=
  fun ⟨f, hf, i, hi, _, ht⟩ => h f hf i hi ht

/-- Every command keeps the pool and does to the configuration what it may, whatever it answers. -/
theorem Pool.controlProcess (h : Pool s lists) (linker : Linker) (created : Bool)
    (p : ControlPacket) :
    ReturnsUnless p.BadType (logControlProcess linker created p) s (fun _ s' => ∃ lists',
      Pool s' lists' ∧ (s.config lists).Step linker p (s'.config lists')) := by
  have hid : ((p.data 1).toNat : Int) ≠ blockIdFree := by
    unfold blockIdFree
    omega
  have hcreate : ∀ f, p.format = some f → ReturnsUnless p.BadType
      (Log.createBlock f linker.logs created (p.data 1).toNat (p.settings linker)
        (settingsLen p f)) s (fun _ s' => ∃ lists', Pool s' lists' ∧
          (s.config lists).Creates (p.data 1).toNat (p.items linker f) (s'.config lists')) := by
    intro f hf
    refine ((h.createBlock hid f ..).mono ?_).imp fun hbad => ⟨f, hf, hbad⟩
    rintro r s' ⟨lists', hs', hresult⟩
    exact ⟨lists', hs', hresult.creates⟩
  have happend : ∀ f, p.format = some f → ReturnsUnless p.BadType
      (Log.appendBlock f linker.logs (p.data 1).toNat (p.settings linker) (settingsLen p f)) s
      (fun _ s' => ∃ lists', Pool s' lists' ∧
        (s.config lists).Appends (p.data 1).toNat (p.items linker f) (s'.config lists')) := by
    intro f hf
    refine ((h.appendBlock hid f ..).mono ?_).imp fun hbad => ⟨f, hf, hbad⟩
    rintro r s' ⟨lists', hs', hresult⟩
    exact ⟨lists', hs', hresult.appends⟩
  have hcommand : ReturnsUnless p.BadType (controlCommand linker created p) s (fun _ s' =>
      ∃ lists', Pool s' lists' ∧ (s.config lists).Step linker p (s'.config lists')) := by
    unfold controlCommand Config.Step
    dsimp only
    split
    · rename_i hp
      rw [hp]
      exact hcreate opsSetting (by simp only [ControlPacket.format, hp])
    · rename_i hp
      rw [hp]
      exact happend opsSetting (by simp only [ControlPacket.format, hp])
    · rename_i hp
      rw [hp]
      exact Or.inl (h.deleteBlock hid)
    · rename_i hp
      rw [hp]
      exact Or.inl ((h.startBlock hid _).mono fun _ _ hs' => ⟨lists, hs'⟩)
    · rename_i hp
      rw [hp]
      refine Or.inl ((h.stop hid).mono ?_)
      intro _ s' ⟨hs', hids, hops⟩
      exact ⟨lists, hs', LogState.config_congr hids hops⟩
    · rename_i hp
      rw [hp]
      refine Or.inl ((returns_logReset fun _ => ⟨lists, h⟩).bind ?_)
      intro _ s' hs'
      exact returns_pure.mpr ⟨_, hs'.pool, hs'.config⟩
    · rename_i hp
      rw [hp]
      exact hcreate opsSettingV2 (by simp only [ControlPacket.format, hp])
    · rename_i hp
      rw [hp]
      exact happend opsSettingV2 (by simp only [ControlPacket.format, hp])
    · refine Or.inl (returns_pure.mpr ⟨lists, h, ?_⟩)
      split <;> first | rfl | contradiction
  exact hcommand.bind fun _ s' hs' => Or.inl (returns_pure.mpr hs')

theorem returns_logInit (hboot : s.isInit = false) :
    Returns logInit s (fun _ s' =>
      Pool s' (fun _ => []) ∧ s'.config (fun _ => []) = fun _ => none) := by
  simp only [logInit, returns_bind, returns_get, hboot, Bool.false_eq_true, ↓reduceIte]
  have hinit : Returns ((List.finRange logMaxBlocks).forM (setId · blockIdFree) : LogM Unit) s
      (fun _ s' => s'.isInit = false) := by
    refine Returns.forM (I := fun _ (t : LogState) => t.isInit = false) hboot ?_
    intro i _ t ht
    rw [setId, returns_modify]
    exact ht
  refine hinit.mono ?_
  intro _ s1 h1
  refine (returns_logReset fun h => absurd h (by simp [h1])).mono ?_
  intro _ s2 h2
  rw [returns_modify]
  exact ⟨h2.pool.congr rfl (fun _ => rfl) (fun _ _ => rfl) h2.pool.timers, h2.config⟩

/-! ### Runs -/

/-- The state after a run has a configuration that the commands may have led to. -/
theorem controlRun_unless {s0 : LogState} (hboot : s0.isInit = false) (linker : Linker)
    (packets : List (Bool × ControlPacket)) :
    ReturnsUnless (∃ c ∈ packets, c.2.BadType) (controlRun linker packets) s0 (fun _ s =>
      ∃ lists, Pool s lists ∧ Config.Run linker (packets.map Prod.snd) (s.config lists)) := by
  refine ReturnsUnless.bind (Or.inl (returns_logInit hboot)) ?_
  intro _ s1 ⟨h1, hnone⟩
  refine (ReturnsUnless.forM (I := fun rest t => ∃ done, packets = done ++ rest ∧ ∃ lists,
    Pool t lists ∧ Config.Run linker (done.map Prod.snd) (t.config lists))
    ⟨[], rfl, _, h1, ?_⟩ ?_).mono ?_
  · rw [hnone]
    exact .start
  · rintro c rest t hc ⟨done, rfl, lists, ht, hrun⟩
    refine ReturnsUnless.bind
      ((ht.controlProcess linker c.1 c.2).imp fun hbad => ⟨c, hc, hbad⟩) ?_
    intro _ t' ⟨lists', ht', hstep⟩
    refine Or.inl (returns_pure.mpr ⟨done ++ [c], by simp, lists', ht', ?_⟩)
    rw [List.map_append]
    exact hrun.step hstep
  · rintro _ s ⟨done, hdone, lists, hs, hrun⟩
    rw [hdone, List.append_nil]
    exact ⟨lists, hs, hrun⟩

theorem controlRun_config {s0 : LogState} (hboot : s0.isInit = false) (linker : Linker)
    {packets : List (Bool × ControlPacket)} (htypes : ∀ c ∈ packets, ¬ c.2.BadType) :
    Returns (controlRun linker packets) s0 (fun _ s => ∃ lists, Pool s lists ∧
      Config.Run linker (packets.map Prod.snd) (s.config lists)) :=
  (controlRun_unless hboot linker packets).returns fun ⟨c, hc, hbad⟩ => htypes c hc hbad

/-- **The pool of ops.**  After `logInit` and any control packets whose settings have types of
`typeLength`, on a table without a variable at `NULL`, the ids of the allocated blocks are distinct,
their lists of ops end and do not repeat an op, an op is in one of the lists exactly if it has a
variable, and never in two, and the free ops and the lists make up the whole pool. -/
theorem controlRun_pool {s0 : LogState} (hboot : s0.isInit = false) (linker : Linker)
    {packets : List (Bool × ControlPacket)} (htypes : ∀ c ∈ packets, ¬ c.2.BadType) :
    Returns (controlRun linker packets) s0 (fun _ s => ∃ lists, Pool s lists ∧
      (∀ b, s.Allocated b → (lists b).Nodup) ∧
      (∀ o, (s.logOps o).variablePtr ≠ none ↔ ∃! b, s.Allocated b ∧ o ∈ lists b) ∧
      s.freeCount + ((List.finRange logMaxBlocks).map fun b => (lists b).length).sum =
        logMaxOps) := by
  refine (controlRun_config hboot linker htypes).mono ?_
  rintro _ s ⟨lists, hs, -⟩
  exact ⟨lists, hs, fun b _ => hs.nodup b, hs.used_iff, hs.freeCount_add⟩

/-- A block with a TOC variable and a memory variable, an id that is in use, and a deletion. -/
theorem controlRun_pool_small : Returns (controlRun
    ⟨[⟨0x81, none⟩, ⟨3, some 0x20000100⟩, ⟨0x80, none⟩], 0x20000000, by decide⟩
    [(true, .ofBytes [0, 7, 3, 0, 0x13, 255, 0, 1, 0, 0x20]), (true, .ofBytes [6, 7, 1, 0, 0]),
      (true, .ofBytes [2, 7])]) .zero (fun _ s => ∃ lists, Pool s lists ∧
      (∀ b, s.Allocated b → (lists b).Nodup) ∧
      (∀ o, (s.logOps o).variablePtr ≠ none ↔ ∃! b, s.Allocated b ∧ o ∈ lists b) ∧
      s.freeCount + ((List.finRange logMaxBlocks).map fun b => (lists b).length).sum =
        logMaxOps) := by
  refine controlRun_pool rfl _ ?_
  simp only [List.forall_mem_cons]
  exact ⟨ControlPacket.not_badType (by decide +kernel),
    ControlPacket.not_badType (by decide +kernel), ControlPacket.not_badType (by decide +kernel),
    by simp⟩

end NanoDrone.Log
