import NanoDrone.Commander.Commander
import Mathlib.Data.List.Basic

/-! # Peeks between a get and a put

The commander overwrites a queue by a `get` and a `put`.  `Filled q tr` says of a trace of
accesses that the last `get` or `put` on the queue `q` in it was a `put`, or that there was none.
Along every interleaving of calls a queue holds an element exactly then (`Tracks`), so a peek
finds one exactly when no call has taken the element out since the last `put`. -/

namespace NanoDrone.Commander

/-- Whether the queue `q` is filled after one more event. -/
def fillStep (q : Queue) (full : Bool) : Event → Bool
  | .get q' _ => if q' = q then false else full
  | .put q' _ => if q' = q then true else full
  | .peek _ _ => full
  | .internal => full

/-- The last `get` or `put` on the queue was a `put`, or there was none. -/
def filled (q : Queue) (tr : List Event) : Bool := tr.foldl (fillStep q) true

theorem filled_snoc (q : Queue) (tr : List Event) (e : Event) :
    filled q (tr ++ [e]) = fillStep q (filled q tr) e := by
  simp [filled]

/-- Every peek of the trace shows whether its queue was filled before it. -/
def PeeksShow (tr : List Event) : Prop :=
  ∀ pre q found post, tr = pre ++ .peek q found :: post → found = filled q pre

theorem PeeksShow.snoc {tr : List Event} {e : Event} (h : PeeksShow tr)
    (he : ∀ q found, e = .peek q found → found = filled q tr) : PeeksShow (tr ++ [e]) := by
  intro pre q found post htr
  rcases List.eq_nil_or_concat' post with rfl | ⟨post', x, rfl⟩
  · obtain ⟨rfl, hlast⟩ := List.append_inj' htr rfl
    exact he q found (List.cons.inj hlast).1
  · rw [← List.cons_append, ← List.append_assoc] at htr
    exact h pre q found post' (List.append_inj' htr rfl).1

/-- The queues hold one element or none, as the trace says. -/
structure Tracks (tr : List Event) (s : Shared) : Prop where
  setpoint_one : s.setpointQueue.maxMsgs = 1
  priority_one : s.priorityQueue.maxMsgs = 1
  setpoint_filled : filled .setpoint tr = !s.setpointQueue.items.isEmpty
  priority_filled : filled .priority tr = !s.priorityQueue.items.isEmpty
  peeks : PeeksShow tr

/-! ### Every action keeps the trace and the queues together -/

/-- An action that keeps `Tracks`. -/
def Keeps (event : Shared → Event) (update : Shared → Shared) : Prop :=
  ∀ tr s, Tracks tr s → Tracks (tr ++ [event s]) (update s)

theorem keeps_peekSetpoint : peekSetpoint.Acts Keeps := by
  rw [peekSetpoint, Prog.acts_atomically]
  intro tr s h
  refine ⟨h.setpoint_one, h.priority_one, ?_, ?_, h.peeks.snoc ?_⟩
  · rw [filled_snoc]
    exact h.setpoint_filled
  · rw [filled_snoc]
    exact h.priority_filled
  · intro q found he
    cases he
    rw [h.setpoint_filled, MsgQueue.isSome_peek]

theorem keeps_peekPriority : peekPriority.Acts Keeps := by
  rw [peekPriority, Prog.acts_atomically]
  intro tr s h
  refine ⟨h.setpoint_one, h.priority_one, ?_, ?_, h.peeks.snoc ?_⟩
  · rw [filled_snoc]
    exact h.setpoint_filled
  · rw [filled_snoc]
    exact h.priority_filled
  · intro q found he
    cases he
    rw [h.priority_filled, MsgQueue.isSome_peek]

theorem keeps_getSetpoint : getSetpoint.Acts Keeps := by
  rw [getSetpoint, Prog.acts_atomically]
  intro tr s h
  refine ⟨h.setpoint_one, h.priority_one, ?_, ?_, h.peeks.snoc (fun q found he => by cases he)⟩
  · rw [filled_snoc]
    simp only [fillStep, ↓reduceIte, MsgQueue.get_items_of_one h.setpoint_one]
    rfl
  · rw [filled_snoc]
    exact h.priority_filled

theorem keeps_getPriority : getPriority.Acts Keeps := by
  rw [getPriority, Prog.acts_atomically]
  intro tr s h
  refine ⟨h.setpoint_one, h.priority_one, ?_, ?_, h.peeks.snoc (fun q found he => by cases he)⟩
  · rw [filled_snoc]
    exact h.setpoint_filled
  · rw [filled_snoc]
    simp only [fillStep, ↓reduceIte, MsgQueue.get_items_of_one h.priority_one]
    rfl

theorem keeps_putSetpoint (setpoint : Setpoint) : (putSetpoint setpoint).Acts Keeps := by
  rw [putSetpoint, Prog.acts_atomically]
  intro tr s h
  refine ⟨(MsgQueue.put_maxMsgs _ _).trans h.setpoint_one, h.priority_one, ?_, ?_,
    h.peeks.snoc (fun q found he => by cases he)⟩
  · rw [filled_snoc]
    simp only [fillStep, ↓reduceIte, MsgQueue.put_isEmpty_of_one h.setpoint_one]
    rfl
  · rw [filled_snoc]
    exact h.priority_filled

theorem keeps_putPriority (priority : Int) : (putPriority priority).Acts Keeps := by
  rw [putPriority, Prog.acts_atomically]
  intro tr s h
  refine ⟨h.setpoint_one, (MsgQueue.put_maxMsgs _ _).trans h.priority_one, ?_, ?_,
    h.peeks.snoc (fun q found he => by cases he)⟩
  · rw [filled_snoc]
    exact h.setpoint_filled
  · rw [filled_snoc]
    simp only [fillStep, ↓reduceIte, MsgQueue.put_isEmpty_of_one h.priority_one]
    rfl

/-- Actions that leave both queues alone. -/
theorem keeps_internal {α : Type} {f : Shared → α × Shared}
    (h1 : ∀ s, (f s).2.setpointQueue = s.setpointQueue)
    (h2 : ∀ s, (f s).2.priorityQueue = s.priorityQueue) :
    (Prog.atomically f (fun _ => Event.internal)).Acts Keeps := by
  rw [Prog.acts_atomically]
  intro tr s h
  refine ⟨by rw [h1]; exact h.setpoint_one, by rw [h2]; exact h.priority_one, ?_, ?_,
    h.peeks.snoc (fun q found he => by cases he)⟩
  · rw [filled_snoc, h1]
    exact h.setpoint_filled
  · rw [filled_snoc, h2]
    exact h.priority_filled

theorem keeps_overwritePriority {α : Type} (priority : Int) {next : Action α}
    (h : next.Acts Keeps) : (do
      let _ ← getPriority
      let _ ← putPriority priority
      next : Action α).Acts Keeps :=
  keeps_getPriority.bind fun _ => (keeps_putPriority priority).bind fun _ => h

/-- Every call is made of such actions. -/
theorem keeps_call (ticksPerSec : ℕ) (call : Call) : (call.prog ticksPerSec).Acts Keeps := by
  have hstate : ∀ (state : State) (r : Result), (do
      setLastState state
      pure r : Action Result).Acts Keeps := fun state r =>
    (keeps_internal (fun _ => rfl) (fun _ => rfl)).bind fun _ => Prog.acts_pure _
  cases call with
  | setSetpoint setpoint priority now =>
      refine keeps_peekPriority.bind fun r => ?_
      cases r with
      | none => exact Prog.acts_pure _
      | some currentPriority =>
          dsimp only
          split
          · refine keeps_getSetpoint.bind fun _ => (keeps_putSetpoint _).bind fun _ =>
              keeps_overwritePriority priority ?_
            split
            · exact (keeps_internal (fun _ => rfl) (fun _ => rfl)).bind fun _ => Prog.acts_pure _
            · exact Prog.acts_pure _
          · exact Prog.acts_pure _
  | relaxPriority =>
      exact (keeps_internal (fun _ => rfl) (fun _ => rfl)).bind fun _ =>
        keeps_overwritePriority _ (Prog.acts_pure _)
  | getSetpoint buffer state now =>
      refine keeps_peekSetpoint.bind fun r => ?_
      refine (keeps_internal (fun _ => rfl) (fun _ => rfl)).bind fun _ => ?_
      dsimp only
      split
      · exact hstate _ _
      · split
        · exact keeps_overwritePriority _ (hstate _ _)
        · exact hstate _ _
  | getActivePriority =>
      refine keeps_peekPriority.bind fun r => ?_
      cases r with
      | none => exact Prog.acts_pure _
      | some priority => exact Prog.acts_pure _

/-! ### Runs -/

/-- The trace of calls interleaved by a schedule after `commanderInit`. -/
def trace (ticksPerSec : ℕ) (s0 : Shared) (initTick : ℕ) (calls : List Call)
    (schedule : List ℕ) : List Event :=
  (runPool schedule (calls.map (Call.prog ticksPerSec)) (commanderInit initTick s0)).1

theorem tracks_init (s0 : Shared) (initTick : ℕ) : Tracks [] (commanderInit initTick s0) := by
  refine ⟨rfl, rfl, rfl, rfl, ?_⟩
  intro pre q found post h
  simp at h

/-- In every run a peek finds an element exactly when its queue was filled. -/
theorem peeksShow_trace (ticksPerSec : ℕ) (s0 : Shared) (initTick : ℕ) (calls : List Call)
    (schedule : List ℕ) : PeeksShow (trace ticksPerSec s0 initTick calls schedule) := by
  have hpool : ∀ p ∈ calls.map (Call.prog ticksPerSec), p.Acts Keeps := by
    intro p hp
    obtain ⟨call, _, rfl⟩ := List.mem_map.mp hp
    exact keeps_call ticksPerSec call
  have := runPool_invariant hpool (tracks_init s0 initTick) schedule
  rw [List.nil_append] at this
  exact this.peeks

end NanoDrone.Commander
