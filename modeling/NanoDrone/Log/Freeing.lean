import NanoDrone.Log.Control

/-! # Commands that only free

Some accesses of the log commands only free: they change a block without giving it an id, or set
the variable of an op to `NULL`.  A relation between states that is kept by these (`Freeing`) is
kept by the commands that are made of them, wherever they start. -/

namespace NanoDrone.Log

/-- The accesses that only free stay in the relation. -/
structure Freeing (R : LogState → LogState → Prop) : Prop where
  refl : ∀ s, R s s
  trans : ∀ {s s' s''}, R s s' → R s' s'' → R s s''
  setBlock : ∀ s b f, (∀ c : LogBlock, (f c).id = c.id ∨ (f c).id = blockIdFree) →
    R s (s.setBlock b f)
  opsFree : ∀ s o, R s (s.setOps o fun x => { x with variablePtr := none })
  schedule : ∀ s b, R s (scheduleRunBlock b s)

/-- The program stays in the relation, from any state. -/
def Within (R : LogState → LogState → Prop) {α : Type} (x : LogM α) : Prop :=
  ∀ s, ReturnsUnless True x s (fun _ s' => R s s')

variable {R : LogState → LogState → Prop} (hR : Freeing R)

namespace Freeing

variable {α β : Type}

include hR in
theorem bind {x : LogM α} {f : α → LogM β} (hx : Within R x) (hf : ∀ a, Within R (f a)) :
    Within R (x >>= f) :=
  fun s => (hx s).bind fun a s' hs' => (hf a s').mono fun _ _ hs'' => hR.trans hs' hs''

include hR in
theorem of_pure (a : α) : Within R (pure a) := fun s => Or.inl (returns_pure.mpr (hR.refl s))

include hR in
theorem of_get : Within R get := fun s => Or.inl (returns_get.mpr (hR.refl s))

include hR in
theorem of_lift (o : Option α) : Within R (StateT.lift o) := by
  intro s
  cases o with
  | none => exact Or.inr ⟨rfl, trivial⟩
  | some a => exact Or.inl ⟨a, s, rfl, hR.refl s⟩

theorem of_modify {f : LogState → LogState} (hf : ∀ s, R s (f s)) : Within R (modify f) :=
  fun s => Or.inl (returns_modify.mpr (hf s))

theorem of_throw : Within R (throw () : LogM α) := fun _ => Or.inr ⟨rfl, trivial⟩

include hR in
theorem forM {f : α → LogM PUnit} (hf : ∀ a, Within R (f a)) (l : List α) :
    Within R (l.forM f) := by
  induction l with
  | nil => exact hR.of_pure _
  | cons a rest ih => exact hR.bind (hf a) fun _ => ih

theorem ite {c : Prop} [Decidable c] {x y : LogM α} (hx : Within R x) (hy : Within R y) :
    Within R (if c then x else y) := by
  split
  · exact hx
  · exact hy

end Freeing

include hR

theorem within_findBlock (id : Int) : Within R (findBlock id) :=
  fun s => Or.inl (returns_findBlock.mpr (hR.refl s))

theorem within_setFree (i : BlockPtr) : Within R (setId i blockIdFree) :=
  Freeing.of_modify fun s => hR.setBlock s i _ fun _ => Or.inr rfl

theorem within_opsFree (o : OpsPtr) : Within R (opsFree o) :=
  Freeing.of_modify fun s => hR.opsFree s o

theorem within_freeList (fuel : ℕ) (p : Option OpsPtr) : Within R (freeList fuel p) := by
  induction fuel generalizing p with
  | zero =>
      cases p with
      | none => exact hR.of_pure _
      | some o => exact Freeing.of_throw
  | succ fuel ih =>
      cases p with
      | none => exact hR.of_pure _
      | some o => exact hR.bind hR.of_get fun s => hR.bind (within_opsFree hR o) fun _ => ih _

theorem within_xTimerStop (i : BlockPtr) : Within R (xTimerStop i) := by
  refine hR.bind hR.of_get fun s => ?_
  cases (s.logBlocks i).timer with
  | none => exact Freeing.of_throw
  | some timer => exact Freeing.of_modify fun s => hR.setBlock s i _ fun _ => Or.inl rfl

theorem within_logStopBlock (id : Int) : Within R (logStopBlock id) := by
  refine hR.bind (within_findBlock hR id) fun r => ?_
  cases r with
  | none => exact hR.of_pure _
  | some i => exact hR.bind (within_xTimerStop hR i) fun _ => hR.of_pure _

theorem within_logDeleteBlock (id : Int) : Within R (logDeleteBlock id) := by
  refine hR.bind (within_findBlock hR id) fun r => ?_
  cases r with
  | none => exact hR.of_pure _
  | some i =>
      have hdelete : Within R (xTimerDelete i) :=
        Freeing.of_modify fun s => hR.setBlock s i _ fun _ => Or.inl rfl
      have hend : Within R (do
          setId i blockIdFree
          pure 0 : LogM ℕ) := hR.bind (within_setFree hR i) fun _ => hR.of_pure _
      refine hR.bind hR.of_get fun s => hR.bind (within_freeList hR _ _) fun _ => ?_
      refine hR.bind hR.of_get fun t => ?_
      exact Freeing.ite (hR.bind (within_xTimerStop hR i) fun _ => hR.bind hdelete fun _ => hend)
        hend

theorem within_logReset : Within R (logReset : LogM Unit) := by
  have hreset : ∀ i, Within R (resetBlock i) := by
    intro i
    refine hR.bind hR.of_get fun s => Freeing.ite ?_ (hR.of_pure _)
    exact hR.bind hR.of_get fun t => hR.bind (within_logStopBlock hR _) fun _ =>
      hR.bind hR.of_get fun u => hR.bind (within_logDeleteBlock hR _) fun _ => hR.of_pure _
  have hend : Within R (do
      (List.finRange logMaxBlocks).forM (setId · blockIdFree)
      (List.finRange logMaxOps).forM opsFree : LogM Unit) :=
    hR.bind (hR.forM (within_setFree hR) _) fun _ => hR.forM (within_opsFree hR) _
  refine hR.bind hR.of_get fun s => Freeing.ite ?_ hend
  exact hR.bind (hR.forM hreset _) fun _ => hend

theorem within_logStartBlock (id : Int) (period : ℕ) : Within R (logStartBlock id period) := by
  refine hR.bind (within_findBlock hR id) fun r => ?_
  cases r with
  | none => exact hR.of_pure _
  | some i =>
      have htimer : Within R (xTimerStart i period) := by
        refine hR.bind hR.of_get fun s => ?_
        cases (s.logBlocks i).timer with
        | none => exact Freeing.of_throw
        | some timer => exact Freeing.of_modify fun s => hR.setBlock s i _ fun _ => Or.inl rfl
      have hschedule : Within R (modify (scheduleRunBlock i)) :=
        Freeing.of_modify fun s => hR.schedule s i
      exact Freeing.ite (hR.bind htimer fun _ => hR.of_pure _)
        (hR.bind hschedule fun _ => hR.of_pure _)

/-- A command stays in the relation if those do that create and append. -/
theorem within_logControlProcess {linker : Linker} {created : Bool} {p : ControlPacket}
    (hp : ∀ f ∈ p.format, ∀ id settings len,
      Within R (createBlock f linker.logs created id settings len) ∧
      Within R (appendBlock f linker.logs id settings len)) :
    Within R (logControlProcess linker created p) := by
  refine hR.bind ?_ fun _ => hR.of_pure _
  unfold ControlPacket.format at hp
  unfold controlCommand
  split
  · rename_i h
    exact (hp opsSetting (by simp [h]) _ _ _).1
  · rename_i h
    exact (hp opsSetting (by simp [h]) _ _ _).2
  · exact within_logDeleteBlock hR _
  · exact within_logStartBlock hR _ _
  · exact within_logStopBlock hR _
  · exact hR.bind (within_logReset hR) fun _ => hR.of_pure _
  · rename_i h
    exact (hp opsSettingV2 (by simp [h]) _ _ _).1
  · rename_i h
    exact (hp opsSettingV2 (by simp [h]) _ _ _).2
  · exact hR.of_pure _

end NanoDrone.Log
