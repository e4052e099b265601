import NanoDrone.Log.Accesses
import NanoDrone.Log.Freeing
import NanoDrone.Log.RunBlock

/-! # Indices of `typeLength`

The type of a setting is masked to four bits and kept in its op.  Not only the command that brings
it uses it as an index of `typeLength`: so do later commands, when they calculate the length of the
block, and `logRunBlock`, also when the op has been freed in between.

`typeLength_inTable_iff` says that the types of the settings that are reached decide for all of
them. -/

namespace NanoDrone.Log

variable {s : LogState} {lists : BlockPtr → List OpsPtr} {b : BlockPtr}

/-- No index of `typeLength` is out of the table. -/
def InTable (accesses : List Access) : Prop := ∀ k, .typeLength k ∈ accesses → k ≤ logFp16

theorem inTable_nil : InTable [] := fun _ hk => absurd hk List.not_mem_nil

theorem inTable_append {l l' : List Access} : InTable (l ++ l') ↔ InTable l ∧ InTable l' := by
  unfold InTable
  simp only [List.mem_append, or_imp, forall_and]

theorem inTable_setting {i k : ℕ} {l : List Access} :
    InTable (.setting i :: .typeLength k :: l) ↔ k ≤ logFp16 ∧ InTable l := by
  unfold InTable
  simp only [List.mem_cons, reduceCtorEq, Access.typeLength.injEq, false_or, or_imp, forall_and,
    forall_eq]

/-! ### Runs -/

/-- `logRunBlock`, with the results of `crtpIsConnected` and `crtpSendPacket`. -/
def logRunBlock (env : Surroundings) (timestamp : ℕ) (blk : BlockPtr) (connected : Bool)
    (sent : Int) : LogM Unit := do
  let s ← get
  let _ ← StateT.lift (logRunBlockLocked env timestamp blk (s.logBlocks blk).ops s).2
  if connected then
    if sent = 0 then
      modify (·.setBlock blk fun b => { b with droppedPackets := b.droppedPackets + 1 })
    else pure ()
  else logReset

/-- The loop of `logRunBlock` looks up the type of an op with a value, unless it is that of a
float. -/
def looksUp (env : Surroundings) (timestamp : ℕ) (o : LogOps) : Bool :=
  (acquireValue env timestamp o).isSome && o.logType != logFloat && o.logType != logFp16

/-- The accesses of `logRunBlock`. -/
def runBlockAccesses (env : Surroundings) (timestamp : ℕ) (blk : BlockPtr) (s : LogState) :
    List Access :=
  let ops := (logRunBlockLocked env timestamp blk (s.logBlocks blk).ops s).1
  (ops.filter fun o => looksUp env timestamp (s.logOps o)).map fun o =>
    .typeLength (s.logOps o).logType

/-- A control packet, or an execution of `logRunBlock`. -/
inductive LogCall where
  | control (created : Bool) (p : ControlPacket)
  | runBlock (env : Surroundings) (timestamp : ℕ) (blk : BlockPtr) (connected : Bool) (sent : Int)

namespace LogCall

def prog (linker : Linker) : LogCall → LogM Unit
  | control created p => do
      let _ ← logControlProcess linker created p
  | runBlock env timestamp blk connected sent => logRunBlock env timestamp blk connected sent

def accesses (linker : Linker) (s : LogState) : LogCall → List Access
  | control created p => controlAccesses linker created p s
  | runBlock env timestamp blk _ _ => runBlockAccesses env timestamp blk s

end LogCall

/-- The accesses of a run, as long as the calls have a result. -/
def runAccesses (linker : Linker) : List LogCall → LogState → List Access
  | [], _ => []
  | c :: calls, s =>
      c.accesses linker s ++
        match c.prog linker s with
        | some (_, s') => runAccesses linker calls s'
        | none => []

/-! ### The settings that are reached -/

/-- The settings that the loop comes to when the fields of the block take up `used` bytes and the
pool has `free` ops. -/
def settingsReached (f : SettingFormat) (logs : List LogVar) (settings : Settings) (len : ℕ) :
    ℕ → ℕ → ℕ → ℕ → List ℕ
  | 0, _, _, _ => []
  | fuel + 1, i, used, free =>
      if i < len then
        i :: if settingAnswer f logs (f.read settings.bytes i) used free = 0 then
          settingsReached f logs settings len fuel (f.after settings.bytes i)
            (used + (typeLength ((f.read settings.bytes i).logType &&& logTypeMask)).getD 0)
            (free - 1)
        else []
      else []

/-- The bytes that the fields of a block take up. -/
def LogState.usedLength (s : LogState) (b : BlockPtr) : ℕ :=
  ((blockCalcLength b s).map Prod.fst).getD 0

/-- The settings of the packet that are reached in a state. -/
def ControlPacket.reached (p : ControlPacket) (linker : Linker) (created : Bool) (s : LogState)
    (f : SettingFormat) : List ℕ :=
  let id : Int := (p.data 1).toNat
  let len := settingsLen p f
  if p.Creates then
    if s.blockOf id = none ∧ s.blockOf blockIdFree ≠ none ∧ created = true then
      settingsReached f linker.logs (p.settings linker) len len 0 0 s.freeCount
    else []
  else
    match s.blockOf id with
    | none => []
    | some b =>
        settingsReached f linker.logs (p.settings linker) len len 0 (s.usedLength b) s.freeCount

/-- The type of a setting is one of `typeLength`. -/
def SettingFormat.TypeKnown (f : SettingFormat) (bytes : Bytes) (i : ℕ) : Prop :=
  (f.read bytes i).logType &&& logTypeMask ≤ logFp16

/-- The types of the settings that are reached are known. -/
def LogCall.TypesKnown (linker : Linker) (s : LogState) : LogCall → Prop
  | control created p =>
      ∀ f ∈ p.format, ∀ i ∈ p.reached linker created s f, f.TypeKnown (p.settings linker).bytes i
  | runBlock .. => True

/-- So it is for every packet of a run, in the state in which it is received. -/
def TypesKnown (linker : Linker) : List LogCall → LogState → Prop
  | [], _ => True
  | c :: calls, s =>
      c.TypesKnown linker s ∧ ∀ r, c.prog linker s = some r → TypesKnown linker calls r.2

/-! ### The types of the ops -/

/-- The types of all ops are in the table, also of those that are free. -/
def LogState.KnownTypes (s : LogState) : Prop := ∀ o, (s.logOps o).logType ≤ logFp16

theorem LogState.KnownTypes.setOps (h : s.KnownTypes) (o : OpsPtr) {f : LogOps → LogOps}
    (hf : (f (s.logOps o)).logType ≤ logFp16) : (s.setOps o f).KnownTypes := by
  intro a
  rcases eq_or_ne a o with rfl | ha
  · rwa [LogState.setOps_self]
  · rw [LogState.setOps_of_ne s o ha]
    exact h a

/-- From known types to known types. -/
def KeepsTypes (s s' : LogState) : Prop := s.KnownTypes → s'.KnownTypes

theorem keepsTypes_freeing : Freeing KeepsTypes where
  refl _ := id
  trans h h' hs := h' (h hs)
  setBlock _ _ _ _ := id
  opsFree _ o h := h.setOps o (h o)
  schedule _ _ := id

theorem keepsTypes_blockAppendOps (o : OpsPtr) : Within KeepsTypes (blockAppendOps b o) := by
  refine keepsTypes_freeing.bind (Freeing.of_modify fun s hs => hs.setOps o (hs o)) fun _ s => ?_
  refine ReturnsUnless.bind_of_eq rfl ?_
  split
  · exact Or.inl (returns_set.mpr id)
  · refine ReturnsUnless.lift_bind (fun _ => trivial) fun last _ => ?_
    exact Or.inl (returns_set.mpr fun hs => hs.setOps last (hs last))

theorem keepsTypes_appendSettings (f : SettingFormat) (logs : List LogVar) (settings : Settings)
    (len fuel i : ℕ) : Within KeepsTypes (appendSettings f logs b settings len fuel i) := by
  have hR := keepsTypes_freeing
  induction fuel generalizing i with
  | zero => exact hR.of_pure 0
  | succ fuel ih =>
      unfold appendSettings
      refine Freeing.ite ?_ (hR.of_pure 0)
      dsimp only
      refine hR.bind (hR.bind hR.of_get fun s => hR.of_lift _) fun currentLength => ?_
      cases htype : typeLength ((f.read settings.bytes i).logType &&& logTypeMask) with
      | none => exact fun _ => Or.inr ⟨rfl, trivial⟩
      | some length =>
          -- the type that is stored has been looked up
          have hknown := le_of_typeLength htype
          refine hR.bind (hR.of_lift _) fun length => Freeing.ite (hR.of_pure _) ?_
          refine hR.bind (hR.bind hR.of_get fun s => hR.of_pure _) fun ops => ?_
          cases ops with
          | none => exact hR.of_pure _
          | some o =>
              have hnext : ∀ {g : LogOps → LogOps} {j : ℕ},
                  (∀ s : LogState, (g (s.logOps o)).logType ≤ logFp16) →
                  Within KeepsTypes (do
                    modify (·.setOps o g)
                    blockAppendOps b o
                    appendSettings f logs b settings len fuel j) :=
                fun hg => hR.bind (Freeing.of_modify fun s hs => hs.setOps o (hg s)) fun _ =>
                  hR.bind (keepsTypes_blockAppendOps o) fun _ => ih _
              refine Freeing.ite ?_ (hnext fun _ => hknown)
              cases variableGetIndex logs (f.read settings.bytes i).id with
              | none => exact hR.of_pure _
              | some varId => exact hnext fun _ => hknown

theorem keepsTypes_appendBlock (f : SettingFormat) (logs : List LogVar) (id : Int)
    (settings : Settings) (len : ℕ) :
    Within KeepsTypes (appendBlock f logs id settings len) := by
  refine keepsTypes_freeing.bind (within_findBlock keepsTypes_freeing id) fun r => ?_
  cases r with
  | none => exact keepsTypes_freeing.of_pure _
  | some block => exact keepsTypes_appendSettings f logs settings len len 0

theorem keepsTypes_createBlock (f : SettingFormat) (logs : List LogVar) (created : Bool) (id : Int)
    (settings : Settings) (len : ℕ) :
    Within KeepsTypes (createBlock f logs created id settings len) := by
  have hR := keepsTypes_freeing
  refine hR.bind (within_findBlock hR id) fun r => ?_
  cases r with
  | some _ => exact hR.of_pure _
  | none =>
      refine hR.bind (within_findBlock hR blockIdFree) fun r => ?_
      cases r with
      | none => exact hR.of_pure _
      | some i =>
          refine hR.bind (Freeing.of_modify fun _ h => h) fun _ => ?_
          refine hR.bind (Freeing.of_modify fun _ h => h) fun _ => ?_
          refine hR.bind hR.of_get fun s => ?_
          refine Freeing.ite ?_ (keepsTypes_appendBlock f logs id settings len)
          exact hR.bind (within_setFree hR i) fun _ => hR.of_pure _

/-- A call keeps the types known. -/
theorem LogCall.keepsTypes (linker : Linker) (c : LogCall) : Within KeepsTypes (c.prog linker) := by
  have hR := keepsTypes_freeing
  cases c with
  | control created p =>
      refine hR.bind (within_logControlProcess hR ?_) fun _ => hR.of_pure _
      exact fun f _ id settings len =>
        ⟨keepsTypes_createBlock f linker.logs created id settings len,
          keepsTypes_appendBlock f linker.logs id settings len⟩
  | runBlock env timestamp blk connected sent =>
      refine hR.bind hR.of_get fun s => hR.bind (hR.of_lift _) fun _ => ?_
      refine Freeing.ite (Freeing.ite (Freeing.of_modify fun _ => id) (hR.of_pure _)) ?_
      exact within_logReset hR

/-! ### The accesses of a call -/

theorem LogState.KnownTypes.calcAccesses (h : s.KnownTypes) : InTable (calcAccesses b s) := by
  intro k hk
  obtain ⟨o, _, ho⟩ := List.mem_map.mp hk
  cases ho
  exact h o

theorem LogState.KnownTypes.runBlockAccesses (h : s.KnownTypes) (env : Surroundings)
    (timestamp : ℕ) : InTable (runBlockAccesses env timestamp b s) := by
  intro k hk
  obtain ⟨o, _, ho⟩ := List.mem_map.mp hk
  cases ho
  exact h o

/-- A round whose setting has a known type, and what follows. -/
theorem Pool.appendAccesses_succ (h : Pool s lists) (hb : s.Allocated b) (f : SettingFormat)
    (linker : Linker) (settings : Settings) {len fuel i : ℕ} (hi : i < len)
    (hknown : f.TypeKnown settings.bytes i) :
    ∃ r s', Log.appendSettings f linker.logs b settings len 1 i s = some (r, s') ∧
      r = settingAnswer f linker.logs (f.read settings.bytes i)
        (itemsLength (s.items (lists b))) s.freeCount ∧
      (r = 0 → AppendsOne s lists b (settingItem f linker.logs settings i) s') ∧
      appendAccesses f linker.logs b settings len (fuel + 1) i s =
        calcAccesses b s ++ .setting i ::
          .typeLength ((f.read settings.bytes i).logType &&& logTypeMask) ::
            if r = 0 then
              appendAccesses f linker.logs b settings len fuel (f.after settings.bytes i) s'
            else [] := by
  obtain ⟨n, hn⟩ := typeLength_of_le hknown
  obtain ⟨r, s', heq, hr, hround⟩ := (h.appendRound hb f linker settings hi).returns (by simp [hn])
  have hlen : (blockCalcLength b s).isSome :=
    blockCalcLength_isSome_iff.mpr ⟨lists b, h.linked b hb, h.types b⟩
  refine ⟨r, s', heq, hr, fun hzero => ?_, ?_⟩
  · rwa [if_pos hzero] at hround
  · rw [appendAccesses, if_pos hi, if_pos hlen, heq]
    cases r <;> rfl

/-- The loop over the settings looks up known types exactly if the settings that are reached have
such types. -/
theorem Pool.inTable_appendAccesses_iff (h : Pool s lists) (hb : s.Allocated b)
    (htypes : s.KnownTypes) (f : SettingFormat) (linker : Linker) (settings : Settings)
    (len fuel i : ℕ) :
    InTable (appendAccesses f linker.logs b settings len fuel i s) ↔
      ∀ j ∈ settingsReached f linker.logs settings len fuel i (itemsLength (s.items (lists b)))
        s.freeCount, f.TypeKnown settings.bytes j := by
  induction fuel generalizing s lists i with
  | zero => exact iff_of_true inTable_nil fun _ hj => absurd hj List.not_mem_nil
  | succ fuel ih =>
      by_cases hi : i < len
      · rw [settingsReached, if_pos hi, List.forall_mem_cons]
        by_cases hknown : f.TypeKnown settings.bytes i
        · obtain ⟨r, s', heq, hr, happend, haccesses⟩ :=
            h.appendAccesses_succ hb f linker settings hi hknown
          rw [haccesses, inTable_append, inTable_setting, ← hr]
          simp only [htypes.calcAccesses, true_and]
          refine and_congr Iff.rfl ?_
          by_cases hzero : r = 0
          · obtain ⟨o, h', hid', hconfig'⟩ := happend hzero
            have hb' : s'.Allocated b := (LogState.allocated_congr (hid' b)).mpr hb
            have htypes' : s'.KnownTypes :=
              (keepsTypes_appendSettings f linker.logs settings len 1 i s).of_eq heq htypes
            have hrest := ih h' hb' htypes' (f.after settings.bytes i)
            rw [items_of_config hb' hconfig', itemsLength_append, settingItem_length,
              h.freeCount_append h'] at hrest
            rw [if_pos hzero, if_pos hzero]
            exact hrest
          · rw [if_neg hzero, if_neg hzero]
            exact iff_of_true inTable_nil fun _ hj => absurd hj List.not_mem_nil
        · refine iff_of_false (fun hin => hknown ?_) fun hall => hknown hall.1
          have hlen : (blockCalcLength b s).isSome :=
            blockCalcLength_isSome_iff.mpr ⟨lists b, h.linked b hb, h.types b⟩
          rw [appendAccesses, if_pos hi, if_pos hlen, inTable_append, inTable_setting] at hin
          exact hin.2.1
      · rw [appendAccesses, settingsReached, if_neg hi, if_neg hi]
        exact iff_of_true inTable_nil fun _ hj => absurd hj List.not_mem_nil

theorem Pool.usedLength_eq (h : Pool s lists) (hb : s.Allocated b) :
    s.usedLength b = itemsLength (s.items (lists b)) := by
  obtain ⟨n, t, heq, rfl, -⟩ := h.calcLength_items hb
  rw [LogState.usedLength, heq]
  rfl

/-- The same for a command: in a pool it looks up known types exactly if its settings have them. -/
theorem Pool.inTable_controlAccesses_iff (h : Pool s lists) (htypes : s.KnownTypes)
    (linker : Linker) (created : Bool) (p : ControlPacket) :
    InTable (controlAccesses linker created p s) ↔
      (LogCall.control created p).TypesKnown linker s := by
  have hid : ((p.data 1).toNat : Int) ≠ blockIdFree := by
    unfold blockIdFree
    omega
  rw [controlAccesses, LogCall.TypesKnown]
  cases hf : p.format with
  | none => exact iff_of_true inTable_nil fun f hf => by cases hf
  | some f =>
      have hnil : InTable [] ↔ ∀ i ∈ ([] : List ℕ), f.TypeKnown (p.settings linker).bytes i :=
        iff_of_true inTable_nil fun _ hi => absurd hi List.not_mem_nil
      simp only [Option.mem_some_iff, forall_eq', ControlPacket.reached]
      split
      · unfold createAccesses
        cases hunknown : s.blockOf (p.data 1).toNat with
        | some a => simpa using hnil
        | none =>
            cases hfree : s.blockOf blockIdFree with
            | none => simpa using hnil
            | some i =>
                cases created with
                | false => simpa using hnil
                | true =>
                    obtain ⟨hpool, halloc⟩ := h.withNewBlock hid hunknown hfree
                    have hempty : lists i = [] :=
                      h.free i (not_not.mpr (LogState.id_of_blockOf hfree))
                    have hloop := hpool.inTable_appendAccesses_iff halloc htypes f linker
                      (p.settings linker) (settingsLen p f) (settingsLen p f) 0
                    rw [hempty] at hloop
                    rw [if_pos ⟨rfl, Option.some_ne_none i, rfl⟩]
                    dsimp only
                    rw [if_pos rfl, blockAccesses]
                    rw [LogState.blockOf_withNewBlock hunknown]
                    exact hloop
      · unfold blockAccesses
        cases hfind : s.blockOf (p.data 1).toNat with
        | none => exact hnil
        | some a =>
            have ha := LogState.allocated_of_blockOf hfind hid
            dsimp only
            rw [h.usedLength_eq ha]
            exact h.inTable_appendAccesses_iff ha htypes f linker _ _ _ 0

/-! ### Runs -/

/-- What holds between the calls. -/
def LogState.Ready (s : LogState) : Prop := (∃ lists, Pool s lists) ∧ s.KnownTypes

theorem LogState.Ready.inTable_iff (h : s.Ready) (linker : Linker) (c : LogCall) :
    InTable (c.accesses linker s) ↔ c.TypesKnown linker s := by
  obtain ⟨⟨lists, hpool⟩, htypes⟩ := h
  cases c with
  | control created p => exact hpool.inTable_controlAccesses_iff htypes linker created p
  | runBlock env timestamp blk connected sent =>
      exact iff_of_true (htypes.runBlockAccesses env timestamp) trivial

theorem Pool.runBlock (h : Pool s lists) (env : Surroundings) (timestamp : ℕ) (blk : BlockPtr)
    (connected : Bool) (sent : Int) :
    ReturnsUnless True (Log.logRunBlock env timestamp blk connected sent) s
      (fun _ s' => ∃ lists', Pool s' lists') := by
  refine ReturnsUnless.bind_of_eq rfl (ReturnsUnless.lift_bind (fun _ => trivial) fun _ _ => ?_)
  split
  · split
    · exact Or.inl (returns_modify.mpr
        ⟨lists, h.setBlock blk (fun _ => rfl) (fun _ => rfl) (fun _ => id)⟩)
    · exact Or.inl (returns_pure.mpr ⟨lists, h⟩)
  · exact Or.inl ((returns_logReset fun _ => ⟨lists, h⟩).mono fun _ _ hs' => ⟨_, hs'.pool⟩)

theorem LogState.Ready.next (h : s.Ready) {linker : Linker} {c : LogCall} {r : Unit × LogState}
    (hr : c.prog linker s = some r) : r.2.Ready := by
  obtain ⟨⟨lists, hpool⟩, htypes⟩ := h
  refine ⟨?_, (c.keepsTypes linker s).of_eq hr htypes⟩
  cases c with
  | control created p =>
      have hstep : ReturnsUnless p.BadType ((LogCall.control created p).prog linker) s
          (fun _ s' => ∃ lists', Pool s' lists') :=
        (hpool.controlProcess linker created p).bind fun _ _ ⟨lists', hs', _⟩ =>
          Or.inl (returns_pure.mpr ⟨lists', hs'⟩)
      exact hstep.of_eq hr
  | runBlock env timestamp blk connected sent =>
      exact (hpool.runBlock env timestamp blk connected sent).of_eq hr

theorem LogState.Ready.run (h : s.Ready) (linker : Linker) (calls : List LogCall) :
    InTable (runAccesses linker calls s) ↔ TypesKnown linker calls s := by
  induction calls generalizing s with
  | nil => exact iff_of_true inTable_nil trivial
  | cons c calls ih =>
      rw [runAccesses, TypesKnown, inTable_append, h.inTable_iff]
      refine and_congr Iff.rfl ?_
      cases hr : c.prog linker s with
      | none => exact iff_of_true inTable_nil nofun
      | some r =>
          simp only [Option.some.injEq, forall_eq']
          exact ih (h.next hr)

theorem keepsTypes_logInit : Within KeepsTypes logInit := by
  have hR := keepsTypes_freeing
  refine hR.bind hR.of_get fun s => Freeing.ite (hR.of_pure _) ?_
  refine hR.bind (hR.forM (within_setFree hR) _) fun _ => hR.bind (within_logReset hR) fun _ => ?_
  exact Freeing.of_modify fun _ => id

/-- **Indices of `typeLength`.**  In every run of control packets and executions of `logRunBlock`
after `logInit`, in any order and with no variable at `NULL`, all indices of `typeLength` are in the
table exactly if every packet, where it is received, has known types in the settings that are
reached. -/
theorem typeLength_inTable_iff (linker : Linker) (calls : List LogCall) :
    Returns logInit .zero (fun _ s =>
      InTable (runAccesses linker calls s) ↔ TypesKnown linker calls s) := by
  obtain ⟨u, s, heq, hpool, -⟩ := returns_logInit (s := .zero) rfl
  refine ⟨u, s, heq, LogState.Ready.run ⟨⟨_, hpool⟩, ?_⟩ linker calls⟩
  exact (keepsTypes_logInit .zero).of_eq heq fun _ => Nat.zero_le _

/-- A block with a setting of type 9. -/
theorem typeLength_outside : Returns logInit .zero (fun _ s => ¬ InTable (runAccesses
    ⟨[⟨3, some 0x20000100⟩], 0x20000000, by decide⟩
    [.control true (.ofBytes [0, 7, 9, 0])] s)) := by
  have hrun : ((logInit .zero).map fun r => decide (.typeLength 9 ∈ runAccesses
      ⟨[⟨3, some 0x20000100⟩], 0x20000000, by decide⟩
      [.control true (.ofBytes [0, 7, 9, 0])] r.2)) = some true := by
    decide +kernel
  obtain ⟨⟨u, s⟩, hs, hnine⟩ := Option.map_eq_some_iff.mp hrun
  refine ⟨u, s, hs, fun hin => ?_⟩
  have hle : 9 ≤ logFp16 := hin 9 (of_decide_eq_true hnine)
  exact absurd hle (by decide)

end NanoDrone.Log
