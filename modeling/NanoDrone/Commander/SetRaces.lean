import NanoDrone.Commander.Watchdog

/-! # Concurrent sets

Any number of calls of `commanderSetSetpoint` interleaved at their accesses to the queues.  A call
compares its priority with the stored one first and overwrites the two queues later, by four
accesses of their own, so a call of a higher priority may come and go in between.

`arbitrated_iff` says for which calls every interleaving ends with the setpoint and the priority
of one call of the highest priority: those whose priorities, where they can be accepted at all,
are equal.  In one direction the invariant `Racing` follows where each call stands (`SetStage`);
in the other one a call is held up after its comparison until all others are done. -/

namespace NanoDrone.Commander

/-- A call of `commanderSetSetpoint`; `now` is `k_uptime_ticks()`. -/
structure SetCall where
  setpoint : Setpoint
  priority : Int
  now : ℕ
deriving DecidableEq, Repr

namespace SetCall

def prog (c : SetCall) : Action Result := commanderSetSetpoint c.setpoint c.priority c.now

/-- The setpoint that the call stores if it is accepted. -/
def stamped (c : SetCall) : Setpoint := { c.setpoint with timestamp := uint32 c.now }

/-- The priority is not below that of `commanderInit`. -/
def Eligible (c : SetCall) : Prop := priorityDisable ≤ c.priority

instance (c : SetCall) : Decidable c.Eligible := inferInstanceAs (Decidable (_ ≤ _))

end SetCall

/-- The queues hold this setpoint and this priority. -/
def Stores (s : Shared) (sp : Setpoint) (p : Int) : Prop :=
  s.setpointQueue.items = [sp] ∧ s.priorityQueue.items = [p]

/-- What is stored comes from one call, and no call has a higher priority; it is what
`commanderInit` stored if all calls have a lower priority than that. -/
def Arbitrated (calls : List SetCall) (s : Shared) : Prop :=
  (∃ c ∈ calls, c.Eligible ∧ Stores s c.stamped c.priority ∧
    ∀ c' ∈ calls, c'.priority ≤ c.priority) ∨
  (∀ c ∈ calls, c.priority < priorityDisable) ∧ Stores s nullSetpoint priorityDisable

/-- The calls one after the other. -/
def setInOrder (order : List SetCall) (s : Shared) : Shared :=
  order.foldl (fun s c => (c.prog.exec s).2.2) s

/-- Some sequential order of the calls stores the same from `init` on. -/
def Serializable (calls : List SetCall) (init s : Shared) : Prop :=
  ∃ order, order.Perm calls ∧
    s.setpointQueue.items = (setInOrder order init).setpointQueue.items ∧
    s.priorityQueue.items = (setInOrder order init).priorityQueue.items

/-- The calls left and the state after a schedule. -/
def runSets (initTick : ℕ) (s0 : Shared) (calls : List SetCall) (schedule : List ℕ) :
    List (Action Result) × Shared :=
  (runPool schedule (calls.map SetCall.prog) (commanderInit initTick s0)).2

/-! ### Where a call stands -/

/-- Before which access a call of `commanderSetSetpoint` stands. -/
inductive SetStage where
  | peeking
  | gettingSetpoint
  | puttingSetpoint
  | gettingPriority
  | puttingPriority
  | disabling
  | finished (accepted : Bool) (result : Result)
deriving DecidableEq, Repr

namespace SetStage

/-- The call has taken the stored setpoint out. -/
def TookSetpoint : SetStage → Prop
  | peeking | gettingSetpoint | finished false _ => False
  | _ => True

/-- The call has taken the stored priority out. -/
def TookPriority : SetStage → Prop
  | puttingPriority | disabling | finished true _ => True
  | _ => False

/-- The call has been accepted. -/
def Accepted : SetStage → Prop
  | peeking | finished false _ => False
  | _ => True

theorem TookPriority.setpoint {k : SetStage} (h : k.TookPriority) : k.TookSetpoint := by
  cases k with
  | finished accepted result => cases accepted <;> exact h
  | _ => first | exact h | trivial

end SetStage

namespace SetCall

/-- What is left of the call at a stage. -/
def rest (c : SetCall) : SetStage → Action Result
  | .peeking => c.prog
  | .gettingSetpoint => do
      let _ ← getSetpoint
      let _ ← putSetpoint c.stamped
      let _ ← getPriority
      let _ ← putPriority c.priority
      if c.priority > priorityHighlevel then highLevelDisable
      pure (.set c.stamped)
  | .puttingSetpoint => do
      let _ ← putSetpoint c.stamped
      let _ ← getPriority
      let _ ← putPriority c.priority
      if c.priority > priorityHighlevel then highLevelDisable
      pure (.set c.stamped)
  | .gettingPriority => do
      let _ ← getPriority
      let _ ← putPriority c.priority
      if c.priority > priorityHighlevel then highLevelDisable
      pure (.set c.stamped)
  | .puttingPriority => do
      let _ ← putPriority c.priority
      if c.priority > priorityHighlevel then highLevelDisable
      pure (.set c.stamped)
  | .disabling => do
      highLevelDisable
      pure (.set c.stamped)
  | .finished _ result => pure result

/-- The stage after the next access. -/
def next (c : SetCall) (s : Shared) : SetStage → SetStage
  | .peeking =>
      match s.priorityQueue.peek with
      | none => .finished false .assertFailed
      | some currentPriority =>
          if c.priority ≥ currentPriority then .gettingSetpoint
          else .finished false (.set c.setpoint)
  | .gettingSetpoint => .puttingSetpoint
  | .puttingSetpoint => .gettingPriority
  | .gettingPriority => .puttingPriority
  | .puttingPriority =>
      if c.priority > priorityHighlevel then .disabling else .finished true (.set c.stamped)
  | .disabling => .finished true (.set c.stamped)
  | .finished accepted result => .finished accepted result

/-- The state after the next access. -/
def access (c : SetCall) (s : Shared) : SetStage → Shared
  | .gettingSetpoint => { s with setpointQueue := s.setpointQueue.get.2 }
  | .puttingSetpoint => { s with setpointQueue := (s.setpointQueue.put c.stamped).2 }
  | .gettingPriority => { s with priorityQueue := s.priorityQueue.get.2 }
  | .puttingPriority => { s with priorityQueue := (s.priorityQueue.put c.priority).2 }
  | .disabling => { s with plannerDisabled := s.plannerDisabled + 1 }
  | .peeking | .finished _ _ => s

/-- The next access of a call is the one of its stage. -/
theorem access_rest {c : SetCall} {k : SetStage} {event : Shared → Event}
    {update : Shared → Shared} {cont : Shared → Action Result}
    (h : c.rest k = .act event update cont) (s : Shared) :
    update s = c.access s k ∧ cont s = c.rest (c.next s k) := by
  cases k with
  | peeking =>
      cases h
      refine ⟨rfl, ?_⟩
      change Prog.bind (.done s.priorityQueue.peek) _ = _
      unfold next
      cases hp : s.priorityQueue.peek with
      | none => rfl
      | some currentPriority =>
          change (if c.priority ≥ currentPriority then _ else _) = c.rest (if _ then _ else _)
          split
          · rfl
          · rfl
  | gettingSetpoint => cases h; exact ⟨rfl, rfl⟩
  | puttingSetpoint => cases h; exact ⟨rfl, rfl⟩
  | gettingPriority => cases h; exact ⟨rfl, rfl⟩
  | puttingPriority =>
      cases h
      refine ⟨rfl, ?_⟩
      change (if c.priority > priorityHighlevel then _ else _) = c.rest (if _ then _ else _)
      split
      · rfl
      · rfl
  | disabling => cases h; exact ⟨rfl, rfl⟩
  | finished accepted result => cases h

theorem rest_done {c : SetCall} {k : SetStage} {r : Result} (h : c.rest k = .done r) :
    ∃ accepted, k = .finished accepted r := by
  cases k with
  | finished accepted result =>
      cases h
      exact ⟨accepted, rfl⟩
  | _ => cases h

theorem next_peeking {c : SetCall} {s : Shared} {p : Int} (hp : s.priorityQueue.peek = some p)
    (hle : p ≤ c.priority) : c.next s .peeking = .gettingSetpoint := by
  simp only [next, hp]
  exact if_pos hle

/-- A call is accepted by its comparison, and stays so. -/
theorem next_accepted {c : SetCall} {s : Shared} {k : SetStage} (h : (c.next s k).Accepted) :
    k.Accepted ∨ k = .peeking ∧ ∃ p ∈ s.priorityQueue.items, p ≤ c.priority := by
  cases k with
  | peeking =>
      refine Or.inr ⟨rfl, ?_⟩
      unfold next at h
      cases hp : s.priorityQueue.peek with
      | none =>
          rw [hp] at h
          exact absurd h (by simp [SetStage.Accepted])
      | some p =>
          rw [hp] at h
          by_cases hle : c.priority ≥ p
          · exact ⟨p, MsgQueue.mem_of_peek hp, hle⟩
          · simp [hle, SetStage.Accepted] at h
  | finished accepted result => exact Or.inl h
  | _ => exact Or.inl trivial

/-- A call ends without being accepted when it finds no priority, or a higher one. -/
theorem next_rejected {c : SetCall} {s : Shared} {k : SetStage} {r : Result}
    (h : c.next s k = .finished false r) : k = .finished false r ∨ k = .peeking ∧
      (s.priorityQueue.items = [] ∨ ∃ p ∈ s.priorityQueue.items, c.priority < p) := by
  cases k with
  | peeking =>
      refine Or.inr ⟨rfl, ?_⟩
      unfold next at h
      cases hp : s.priorityQueue.peek with
      | none => exact Or.inl (MsgQueue.items_of_peek hp)
      | some p =>
          rw [hp] at h
          by_cases hle : c.priority ≥ p
          · simp [hle] at h
          · exact Or.inr ⟨p, MsgQueue.mem_of_peek hp, Int.not_le.mp hle⟩
  | finished accepted result => exact Or.inl h
  | puttingPriority =>
      simp only [next] at h
      split at h <;> cases h
  | _ => cases h

theorem next_tookPriority {c : SetCall} {s : Shared} {k : SetStage} (h : k.TookPriority) :
    (c.next s k).TookPriority := by
  cases k with
  | puttingPriority =>
      simp only [next]
      split <;> trivial
  | disabling => trivial
  | finished accepted result => exact h
  | _ => exact absurd h (by simp [SetStage.TookPriority])

end SetCall

/-! ### Calls of equal priorities -/

/-- The calls that can be accepted have one priority. -/
def SamePriority (calls : List SetCall) : Prop :=
  ∀ c ∈ calls, ∀ c' ∈ calls, c.Eligible → c'.Eligible → c.priority = c'.priority

/-- Every call stands at its stage, a queue is empty only while a call is between its get and its
put, and what is stored comes from an eligible call once a call has written. -/
structure Racing (calls : List SetCall) (stage : ℕ → SetStage) (ps : List (Action Result))
    (s : Shared) : Prop where
  length : ps.length = calls.length
  programs : ∀ (i : ℕ) (c : SetCall), calls[i]? = some c → ps[i]? = some (c.rest (stage i))
  setpoint : s.setpointQueue.Overwritten (∃ i < calls.length, stage i = .puttingSetpoint)
    (∀ i < calls.length, ¬ (stage i).TookSetpoint)
    (fun sp => ∃ c ∈ calls, c.Eligible ∧ c.stamped = sp) nullSetpoint
  priority : s.priorityQueue.Overwritten (∃ i < calls.length, stage i = .puttingPriority)
    (∀ i < calls.length, ¬ (stage i).TookPriority)
    (fun p => ∃ c ∈ calls, c.Eligible ∧ c.priority = p) priorityDisable
  accepted : ∀ (i : ℕ) (c : SetCall), calls[i]? = some c → (stage i).Accepted → c.Eligible
  rejected : ∀ (i : ℕ) (c : SetCall), calls[i]? = some c → c.Eligible →
    ∀ r, stage i = .finished false r → ∃ j < calls.length, (stage j).TookPriority

namespace Racing

variable {calls : List SetCall} {stage : ℕ → SetStage} {ps : List (Action Result)} {s : Shared}

theorem init (initTick : ℕ) (s0 : Shared) (calls : List SetCall) :
    Racing calls (fun _ => .peeking) (calls.map SetCall.prog) (commanderInit initTick s0) where
  length := List.length_map _
  programs i c hc := by rw [List.getElem?_map, hc]; rfl
  setpoint := ⟨rfl, nofun, fun a ha => Or.inr ⟨List.mem_singleton.mp ha, fun _ _ h => h⟩⟩
  priority := ⟨rfl, nofun, fun a ha => Or.inr ⟨List.mem_singleton.mp ha, fun _ _ h => h⟩⟩
  accepted _ _ _ h := absurd h id
  rejected _ _ _ _ _ h := by cases h

section
variable {i : ℕ} {c : SetCall} {k : SetStage} {n : ℕ}

/-- A stage that the moving call is not at stays taken. -/
theorem exists_update {k' : SetStage} (hi : stage i ≠ k') (h : ∃ j < n, stage j = k') :
    ∃ j < n, Function.update stage i k j = k' := by
  obtain ⟨j, hj, hp⟩ := h
  have hji : j ≠ i := fun e => hi (by rwa [← e])
  refine ⟨j, hj, ?_⟩
  rwa [Function.update_of_ne hji]

theorem forall_update {P : SetStage → Prop} (hk : ¬ P k) (h : ∀ j < n, ¬ P (stage j)) :
    ∀ j < n, ¬ P (Function.update stage i k j) := by
  intro j hj
  rcases eq_or_ne j i with rfl | hji
  · rwa [Function.update_self]
  · rw [Function.update_of_ne hji]
    exact h j hj

/-- What the next access does to the setpoint queue. -/
theorem setpoint_access (h : Racing calls stage ps s) (hc : calls[i]? = some c) :
    (c.access s (stage i)).setpointQueue.Overwritten
      (∃ j < calls.length, Function.update stage i (c.next s (stage i)) j = .puttingSetpoint)
      (∀ j < calls.length, ¬ (Function.update stage i (c.next s (stage i)) j).TookSetpoint)
      (fun sp => ∃ c ∈ calls, c.Eligible ∧ c.stamped = sp) nullSetpoint := by
  have hi : i < calls.length := (List.getElem?_eq_some_iff.mp hc).1
  -- a call that has taken the setpoint out is no call that has not
  have htook : (stage i).TookSetpoint → ∀ {P : Prop}, (∀ j < calls.length,
      ¬ (stage j).TookSetpoint) → P := fun ht _ hall => absurd ht (hall i hi)
  cases hk : stage i with
  | peeking =>
      refine h.setpoint.mono (exists_update (by simp [hk])) ?_
      refine forall_update ?_
      simp only [SetCall.next]
      split
      · exact id
      · split
        · exact id
        · exact id
  | gettingSetpoint => exact h.setpoint.get ⟨i, hi, Function.update_self ..⟩
  | puttingSetpoint =>
      have hacc := h.accepted i c hc (by rw [hk]; trivial)
      exact h.setpoint.put ⟨c, List.mem_of_getElem? hc, hacc, rfl⟩ (htook (by rw [hk]; trivial))
  | finished accepted result =>
      have hsame : Function.update stage i (c.next s (.finished accepted result)) = stage := by
        rw [SetCall.next, ← hk, Function.update_eq_self]
      rw [hsame]
      exact h.setpoint
  | _ =>
      exact h.setpoint.mono (exists_update (by simp [hk])) (htook (by rw [hk]; trivial))

/-- What the next access does to the priority queue. -/
theorem priority_access (h : Racing calls stage ps s) (hc : calls[i]? = some c) :
    (c.access s (stage i)).priorityQueue.Overwritten
      (∃ j < calls.length, Function.update stage i (c.next s (stage i)) j = .puttingPriority)
      (∀ j < calls.length, ¬ (Function.update stage i (c.next s (stage i)) j).TookPriority)
      (fun p => ∃ c ∈ calls, c.Eligible ∧ c.priority = p) priorityDisable := by
  have hi : i < calls.length := (List.getElem?_eq_some_iff.mp hc).1
  have htook : (stage i).TookPriority → ∀ {P : Prop}, (∀ j < calls.length,
      ¬ (stage j).TookPriority) → P := fun ht _ hall => absurd ht (hall i hi)
  cases hk : stage i with
  | peeking =>
      refine h.priority.mono (exists_update (by simp [hk])) ?_
      refine forall_update ?_
      simp only [SetCall.next]
      split
      · exact id
      · split
        · exact id
        · exact id
  | gettingPriority => exact h.priority.get ⟨i, hi, Function.update_self ..⟩
  | puttingPriority =>
      have hacc := h.accepted i c hc (by rw [hk]; trivial)
      exact h.priority.put ⟨c, List.mem_of_getElem? hc, hacc, rfl⟩ (htook (by rw [hk]; trivial))
  | finished accepted result =>
      have hsame : Function.update stage i (c.next s (.finished accepted result)) = stage := by
        rw [SetCall.next, ← hk, Function.update_eq_self]
      rw [hsame]
      exact h.priority
  | gettingSetpoint => exact h.priority.mono (exists_update (by simp [hk])) (forall_update id)
  | puttingSetpoint => exact h.priority.mono (exists_update (by simp [hk])) (forall_update id)
  | disabling =>
      exact h.priority.mono (exists_update (by simp [hk])) (htook (by rw [hk]; trivial))

end

/-- The next access of one of the calls. -/
theorem step (hp : SamePriority calls) (h : Racing calls stage ps s) {i : ℕ}
    {event : Shared → Event} {update : Shared → Shared} {cont : Shared → Action Result}
    (hi : ps[i]? = some (.act event update cont)) :
    ∃ stage', Racing calls stage' (ps.set i (cont s)) (update s) := by
  have hlt : i < calls.length := by
    rw [← h.length]
    exact (List.getElem?_eq_some_iff.mp hi).1
  obtain ⟨c, hc⟩ : ∃ c, calls[i]? = some c := ⟨_, List.getElem?_eq_getElem hlt⟩
  have hmem := List.mem_of_getElem? hc
  have hprog := h.programs i c hc
  rw [hi, Option.some.injEq] at hprog
  obtain ⟨hupdate, hcont⟩ := SetCall.access_rest hprog.symm s
  rw [hupdate, hcont]
  -- priorities that are stored are those of eligible calls, or the first one
  have hstored : ∀ p ∈ s.priorityQueue.items,
      priorityDisable ≤ p ∧ (c.Eligible → p ≤ c.priority) := by
    intro p hmemp
    rcases h.priority.items p hmemp with ⟨c', hc', he, rfl⟩ | ⟨rfl, _⟩
    · exact ⟨he, fun hce => Int.le_of_eq (hp c' hc' c hmem he hce)⟩
    · exact ⟨Int.le_refl _, id⟩
  refine ⟨Function.update stage i (c.next s (stage i)), ?_, ?_, h.setpoint_access hc,
    h.priority_access hc, ?_, ?_⟩
  · rw [List.length_set, h.length]
  · intro j d hd
    rcases eq_or_ne j i with rfl | hji
    · rw [hc, Option.some.injEq] at hd
      rw [Function.update_self, ← hd, List.getElem?_set_self (by rw [h.length]; exact hlt)]
    · rw [Function.update_of_ne hji, List.getElem?_set_ne (Ne.symm hji)]
      exact h.programs j d hd
  · intro j d hd hacc
    rcases eq_or_ne j i with rfl | hji
    · rw [hc, Option.some.injEq] at hd
      subst hd
      rw [Function.update_self] at hacc
      rcases SetCall.next_accepted hacc with hold | ⟨_, p, hmemp, hle⟩
      · exact h.accepted j c hc hold
      · exact Int.le_trans (hstored p hmemp).1 hle
    · rw [Function.update_of_ne hji] at hacc
      exact h.accepted j d hd hacc
  · intro j d hd he r hr
    have hkeep : (∃ a < calls.length, (stage a).TookPriority) → ∃ a < calls.length,
        (Function.update stage i (c.next s (stage i)) a).TookPriority := by
      intro ⟨a, ha, htook⟩
      refine ⟨a, ha, ?_⟩
      rcases eq_or_ne a i with rfl | hai
      · rw [Function.update_self]
        exact SetCall.next_tookPriority htook
      · rwa [Function.update_of_ne hai]
    apply hkeep
    rcases eq_or_ne j i with rfl | hji
    · rw [hc, Option.some.injEq] at hd
      subst hd
      rw [Function.update_self] at hr
      rcases SetCall.next_rejected hr with hold | ⟨_, hempty | ⟨p, hmemp, hlt'⟩⟩
      · exact h.rejected j c hc he r hold
      · -- the queue is empty: another call is between its get and its put
        obtain ⟨a, ha, hput⟩ := h.priority.empty hempty
        exact ⟨a, ha, by rw [hput]; trivial⟩
      · exact absurd ((hstored p hmemp).2 he) (Int.not_le.mpr hlt')
    · rw [Function.update_of_ne hji] at hr
      exact h.rejected j d hd he r hr

/-- When all calls are over, what is stored is from one of them, or nothing was accepted. -/
theorem arbitrated (hp : SamePriority calls) (h : Racing calls stage ps s) (hf : Finished ps) :
    Arbitrated calls s := by
  have hover : ∀ i < calls.length, ∃ accepted r, stage i = .finished accepted r := by
    intro i hi
    have hprog := h.programs i _ (List.getElem?_eq_getElem hi)
    obtain ⟨r, hr⟩ := hf _ (List.mem_of_getElem? hprog)
    obtain ⟨accepted, ha⟩ := SetCall.rest_done hr
    exact ⟨accepted, r, ha⟩
  obtain ⟨sp, hsp, hspFrom⟩ := h.setpoint.single (by
    intro ⟨i, hi, hk⟩
    obtain ⟨accepted, r, ho⟩ := hover i hi
    rw [hk] at ho
    cases ho)
  obtain ⟨p, hpr, hprFrom⟩ := h.priority.single (by
    intro ⟨i, hi, hk⟩
    obtain ⟨accepted, r, ho⟩ := hover i hi
    rw [hk] at ho
    cases ho)
  by_cases he : ∃ c ∈ calls, c.Eligible
  · obtain ⟨c0, hc0, he0⟩ := he
    -- an eligible call was accepted, or it found one that had been
    have htook : ∃ j < calls.length, (stage j).TookPriority := by
      obtain ⟨i, hi, rfl⟩ := List.getElem_of_mem hc0
      obtain ⟨accepted, r, ho⟩ := hover i hi
      cases accepted with
      | true => exact ⟨i, hi, by rw [ho]; trivial⟩
      | false => exact h.rejected i _ (List.getElem?_eq_getElem hi) he0 r ho
    obtain ⟨j, hj, htook⟩ := htook
    rcases hspFrom with ⟨c, hc, hce, rfl⟩ | ⟨_, hnone⟩
    · rcases hprFrom with ⟨d, hd, hde, rfl⟩ | ⟨_, hnone⟩
      · rw [hp d hd c hc hde hce] at hpr
        refine Or.inl ⟨c, hc, hce, ⟨hsp, hpr⟩, fun c' hc' => ?_⟩
        by_cases hce' : c'.Eligible
        · exact Int.le_of_eq (hp c' hc' c hc hce' hce)
        · exact Int.le_of_lt (Int.lt_of_lt_of_le (Int.not_le.mp hce') hce)
      · exact absurd htook (hnone j hj)
    · exact absurd htook.setpoint (hnone j hj)
  · have hnone : ∀ c ∈ calls, ¬ c.Eligible := fun c hc hce => he ⟨c, hc, hce⟩
    refine Or.inr ⟨fun c hc => Int.not_le.mp (hnone c hc), ?_⟩
    rcases hspFrom with ⟨c, hc, hce, _⟩ | ⟨rfl, _⟩
    · exact absurd hce (hnone c hc)
    · rcases hprFrom with ⟨c, hc, hce, _⟩ | ⟨rfl, _⟩
      · exact absurd hce (hnone c hc)
      · exact ⟨hsp, hpr⟩

/-- In every interleaving of calls of equal priorities. -/
theorem run (hp : SamePriority calls) (initTick : ℕ) (s0 : Shared) (schedule : List ℕ)
    (hf : Finished (runSets initTick s0 calls schedule).1) :
    Arbitrated calls (runSets initTick s0 calls schedule).2 := by
  obtain ⟨stage, h⟩ := runPool_rule (I := fun ps s => ∃ stage, Racing calls stage ps s)
    ⟨_, Racing.init initTick s0 calls⟩ (fun ps s i event update next h hi => by
      obtain ⟨stage, h⟩ := h
      exact h.step hp hi) schedule
  exact h.arbitrated hp hf

end Racing

/-! ### Sequential orders -/

theorem SetCall.exec_of_le {c : SetCall} {s : Shared} {sp : Setpoint} {p : Int}
    (h : Holds s sp p) (hp : p ≤ c.priority) :
    Holds (c.prog.exec s).2.2 c.stamped c.priority := setSetpoint_accepted h hp

theorem SetCall.exec_of_lt {c : SetCall} {s : Shared} {sp : Setpoint} {p : Int}
    (h : Holds s sp p) (hp : c.priority < p) : (c.prog.exec s).2.2 = s :=
  setSetpoint_rejected h (Int.not_le.mpr hp)

/-- The stored priority stays below a bound of the calls. -/
theorem setInOrder_holds {order : List SetCall} {s : Shared} {sp : Setpoint} {p q : Int}
    (h : Holds s sp p) (hp : p ≤ q) (hq : ∀ c ∈ order, c.priority ≤ q) :
    ∃ sp' p', Holds (setInOrder order s) sp' p' ∧ p' ≤ q := by
  induction order generalizing s sp p with
  | nil => exact ⟨sp, p, h, hp⟩
  | cons c order ih =>
      have hrest : ∀ d ∈ order, d.priority ≤ q := fun d hd => hq d (List.mem_cons_of_mem _ hd)
      change ∃ sp' p', Holds (setInOrder order (c.prog.exec s).2.2) sp' p' ∧ p' ≤ q
      by_cases hc : p ≤ c.priority
      · exact ih (SetCall.exec_of_le h hc) (hq c List.mem_cons_self) hrest
      · rw [SetCall.exec_of_lt h (Int.not_le.mp hc)]
        exact ih h hp hrest

theorem setInOrder_of_lt {order : List SetCall} {s : Shared} {sp : Setpoint} {p : Int}
    (h : Holds s sp p) (hlt : ∀ c ∈ order, c.priority < p) : setInOrder order s = s := by
  induction order with
  | nil => rfl
  | cons c order ih =>
      change setInOrder order (c.prog.exec s).2.2 = s
      rw [SetCall.exec_of_lt h (hlt c List.mem_cons_self)]
      exact ih (fun d hd => hlt d (List.mem_cons_of_mem _ hd))

/-- What is arbitrated is stored by the order in which the call it comes from is the last one. -/
theorem Arbitrated.serializable {calls : List SetCall} {init s : Shared} (h : Arbitrated calls s)
    (hinit : Holds init nullSetpoint priorityDisable) : Serializable calls init s := by
  rcases h with ⟨c, hc, he, hs, hmax⟩ | ⟨hlt, hs⟩
  · obtain ⟨pre, post, rfl⟩ := List.append_of_mem hc
    refine ⟨(pre ++ post) ++ [c], ?_, ?_⟩
    · exact (List.perm_append_singleton c (pre ++ post)).trans List.perm_middle.symm
    · have hrest : ∀ d ∈ pre ++ post, d.priority ≤ c.priority := by
        intro d hd
        refine hmax d ?_
        rw [List.mem_append] at hd ⊢
        exact hd.imp_right (List.mem_cons_of_mem _)
      obtain ⟨sp', p', hpre, hle⟩ := setInOrder_holds hinit he hrest
      have hlast := SetCall.exec_of_le hpre hle
      rw [setInOrder, List.foldl_append]
      exact ⟨hs.1.trans hlast.setpoint.symm, hs.2.trans hlast.priority.symm⟩
  · refine ⟨calls, List.Perm.refl _, ?_⟩
    rw [setInOrder_of_lt hinit hlt]
    exact ⟨hs.1.trans hinit.setpoint.symm, hs.2.trans hinit.priority.symm⟩

/-! ### A call that is held up -/

/-- Run alone the program keeps one element in each queue. -/
def KeepsHolds (p : Action Result) : Prop :=
  ∀ s sp q, Holds s sp q → ∃ sp' q', Holds (p.exec s).2.2 sp' q'

theorem keepsHolds_prog (c : SetCall) : KeepsHolds c.prog := by
  intro s sp q h
  by_cases hq : q ≤ c.priority
  · exact ⟨_, _, SetCall.exec_of_le h hq⟩
  · rw [SetCall.exec_of_lt h (Int.not_le.mp hq)]
    exact ⟨sp, q, h⟩

theorem keepsHolds_done (r : Result) : KeepsHolds (.done r) := fun _ sp q h => ⟨sp, q, h⟩

/-- An accepted call that goes on after its comparison overwrites what is stored by then. -/
theorem SetCall.exec_accepted {c : SetCall} {s : Shared} {sp : Setpoint} {p : Int}
    (h : Holds s sp p) : Holds ((c.rest .gettingSetpoint).exec s).2.2 c.stamped c.priority := by
  have hset := MsgQueue.put_get_of_one (a := c.stamped) h.setpoint_one
  have hpri := MsgQueue.put_get_of_one (a := c.priority) h.priority_one
  simp only [SetCall.rest]
  split <;> refine ⟨?_, ?_, ?_, ?_⟩ <;>
    simp [getSetpoint, putSetpoint, getPriority, putPriority, highLevelDisable, hset, hpri,
      h.setpoint_one, h.priority_one]

/-- The other programs can be run to their ends while the one at `i` is held up. -/
theorem exists_schedule_others (i : ℕ) {js : List ℕ} (hjs : i ∉ js) {ps : List (Action Result)}
    {s : Shared} {sp : Setpoint} {q : Int} (h : Holds s sp q)
    (hps : ∀ j p, j ≠ i → ps[j]? = some p → KeepsHolds p) :
    ∃ schedule sp' q', Holds (runPool schedule ps s).2.2 sp' q' ∧
      (runPool schedule ps s).2.1.length = ps.length ∧
      (runPool schedule ps s).2.1[i]? = ps[i]? ∧
      ∀ j ∈ js, ∀ p, (runPool schedule ps s).2.1[j]? = some p → ∃ r, p = .done r := by
  induction js generalizing ps s sp q with
  | nil => exact ⟨[], sp, q, h, rfl, rfl, nofun⟩
  | cons j js ih =>
      rw [List.mem_cons, not_or] at hjs
      obtain ⟨hij, hjs⟩ := hjs
      cases hj : ps[j]? with
      | none =>
          obtain ⟨schedule, sp', q', h', hlen, hi', hdone⟩ := ih hjs h hps
          refine ⟨schedule, sp', q', h', hlen, hi', ?_⟩
          intro a ha p hp
          rcases List.mem_cons.mp ha with rfl | ha
          · have hlt := (List.getElem?_eq_some_iff.mp hp).1
            rw [hlen] at hlt
            exact absurd hlt (Nat.not_lt.mpr (List.getElem?_eq_none_iff.mp hj))
          · exact hdone a ha p hp
      | some p =>
          have hlt := (List.getElem?_eq_some_iff.mp hj).1
          obtain ⟨n, hn⟩ := runPool_alone hj s
          obtain ⟨sp1, q1, h1⟩ := hps j p (Ne.symm hij) hj s sp q h
          have hps1 : ∀ a p', a ≠ i → (ps.set j (.done (p.exec s).2.1))[a]? = some p' →
              KeepsHolds p' := by
            intro a p' hai ha
            rcases eq_or_ne a j with rfl | haj
            · rw [List.getElem?_set_self hlt, Option.some.injEq] at ha
              rw [← ha]
              exact keepsHolds_done _
            · rw [List.getElem?_set_ne (Ne.symm haj)] at ha
              exact hps a p' hai ha
          obtain ⟨schedule, sp', q', h', hlen, hi', hdone⟩ := ih hjs h1 hps1
          refine ⟨List.replicate n j ++ schedule, sp', q', ?_⟩
          rw [runPool_append, hn]
          refine ⟨h', hlen.trans (List.length_set ..), ?_, ?_⟩
          · rw [hi', List.getElem?_set_ne (Ne.symm hij)]
          · intro a ha p' hp'
            rcases List.mem_cons.mp ha with rfl | ha
            · rw [runPool_done (List.getElem?_set_self hlt), Option.some.injEq] at hp'
              exact ⟨_, hp'.symm⟩
            · exact hdone a ha p' hp'

/-- A call that is accepted at first and held up until all others are done has the last word. -/
theorem exists_schedule_last (initTick : ℕ) (s0 : Shared) {calls : List SetCall} {c : SetCall}
    (hc : c ∈ calls) (he : c.Eligible) :
    ∃ schedule, Finished (runSets initTick s0 calls schedule).1 ∧
      Stores (runSets initTick s0 calls schedule).2 c.stamped c.priority := by
  obtain ⟨i, hi, hci⟩ := List.getElem_of_mem hc
  have hilen : i < (calls.map SetCall.prog).length := by rwa [List.length_map]
  have hinit := holds_init s0 initTick
  -- the comparison
  have hpeek : (runPool [i] (calls.map SetCall.prog) (commanderInit initTick s0)).2 =
      ((calls.map SetCall.prog).set i (c.rest .gettingSetpoint), commanderInit initTick s0) := by
    have hprog : (calls.map SetCall.prog)[i]? = some (c.rest .peeking) := by
      rw [List.getElem?_map, List.getElem?_eq_getElem hi, hci]
      rfl
    have hcont := (SetCall.access_rest (c := c) (k := .peeking) rfl (commanderInit initTick s0)).2
    rw [SetCall.next_peeking hinit.peek_priority he] at hcont
    rw [runPool, hprog]
    exact congrArg (fun q => ((calls.map SetCall.prog).set i q, commanderInit initTick s0)) hcont
  have hothers : ∀ j p, j ≠ i → ((calls.map SetCall.prog).set i (c.rest .gettingSetpoint))[j]? =
      some p → KeepsHolds p := by
    intro j p hji hp
    rw [List.getElem?_set_ne (Ne.symm hji)] at hp
    obtain ⟨d, _, rfl⟩ := List.mem_map.mp (List.mem_of_getElem? hp)
    exact keepsHolds_prog d
  have hnot : i ∉ (List.range calls.length).filter (· ≠ i) := by simp
  obtain ⟨schedule, sp, q, h, hlen, hi', hdone⟩ := exists_schedule_others i hnot hinit hothers
  rw [List.getElem?_set_self hilen] at hi'
  rw [List.length_set, List.length_map] at hlen
  -- the rest of the call
  obtain ⟨n, hn⟩ := runPool_alone hi' (runPool schedule
    ((calls.map SetCall.prog).set i (c.rest .gettingSetpoint)) (commanderInit initTick s0)).2.2
  have hlast := SetCall.exec_accepted (c := c) h
  refine ⟨[i] ++ (schedule ++ List.replicate n i), ?_⟩
  unfold runSets
  rw [runPool_append, hpeek, runPool_append, hn]
  refine ⟨?_, hlast.setpoint, hlast.priority⟩
  intro p hp
  obtain ⟨j, hj, rfl⟩ := List.getElem_of_mem hp
  rw [List.length_set, hlen] at hj
  rcases eq_or_ne j i with rfl | hji
  · exact ⟨_, List.getElem_set_self _⟩
  · rw [List.getElem_set_ne (Ne.symm hji)]
    exact hdone j (by simp [hj, hji]) _ (List.getElem?_eq_getElem _)

/-! ### The arbitration -/

/-- **When sets cannot race.**  All interleavings of the calls end with what one call of the
highest priority stores, as in a sequential order, if and only if no two of the calls have
different priorities from that of `commanderInit` on. -/
theorem arbitrated_iff (initTick : ℕ) (s0 : Shared) (calls : List SetCall) :
    (∀ schedule, Finished (runSets initTick s0 calls schedule).1 →
      Arbitrated calls (runSets initTick s0 calls schedule).2 ∧
      Serializable calls (commanderInit initTick s0) (runSets initTick s0 calls schedule).2) ↔
    SamePriority calls := by
  constructor
  · intro hall
    -- of two calls the one with the lower priority can have the last word
    have hle : ∀ c ∈ calls, ∀ c' ∈ calls, c.Eligible → c'.priority ≤ c.priority := by
      intro c hc c' hc' he
      obtain ⟨schedule, hf, hs⟩ := exists_schedule_last initTick s0 hc he
      rcases (hall schedule hf).1 with ⟨d, hd, _, hsd, hmax⟩ | ⟨hlt, _⟩
      · have hpd : c.priority = d.priority := by
          have := hs.2.symm.trans hsd.2
          simpa using this
        rw [hpd]
        exact hmax c' hc'
      · exact absurd he (Int.not_le.mpr (hlt c hc))
    intro c hc c' hc' he he'
    exact Int.le_antisymm (hle c' hc' c hc he') (hle c hc c' hc' he)
  · intro hp schedule hf
    have h := Racing.run hp initTick s0 schedule hf
    exact ⟨h, h.serializable (holds_init s0 initTick)⟩

/-- A call of priority 2 comes and goes while one of priority 1 is between its comparison and its
first get: the lower priority is stored. -/
theorem lower_priority_last :
    Finished (runSets 0 blank [⟨nullSetpoint, 1, 5⟩, ⟨nullSetpoint, 2, 6⟩]
      [0, 1, 1, 1, 1, 1, 1, 0, 0, 0, 0]).1 ∧
    ¬ Arbitrated [⟨nullSetpoint, 1, 5⟩, ⟨nullSetpoint, 2, 6⟩]
      (runSets 0 blank [⟨nullSetpoint, 1, 5⟩, ⟨nullSetpoint, 2, 6⟩]
        [0, 1, 1, 1, 1, 1, 1, 0, 0, 0, 0]).2 := by
  refine ⟨?_, ?_⟩
  · intro p hp
    change p ∈ [Prog.done _, Prog.done _] at hp
    simp only [List.mem_cons, List.not_mem_nil, or_false] at hp
    rcases hp with rfl | rfl
    · exact ⟨_, rfl⟩
    · exact ⟨_, rfl⟩
  · have hstored : (runSets 0 blank [⟨nullSetpoint, 1, 5⟩, ⟨nullSetpoint, 2, 6⟩]
        [0, 1, 1, 1, 1, 1, 1, 0, 0, 0, 0]).2.priorityQueue.items = [1] := by decide
    rintro (⟨c, _, _, hs, hmax⟩ | ⟨hlt, _⟩)
    · have hc : [c.priority] = [1] := hs.2.symm.trans hstored
      have h2 := hmax ⟨nullSetpoint, 2, 6⟩ (by simp)
      rw [List.cons.inj hc |>.1] at h2
      exact absurd h2 (by decide)
    · exact absurd (hlt ⟨nullSetpoint, 1, 5⟩ (by simp)) (by decide)

end NanoDrone.Commander
