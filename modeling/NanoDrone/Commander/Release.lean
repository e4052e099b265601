import NanoDrone.Commander.Watchdog

/-! # Release of the priority

A source of setpoints with a high priority keeps the others out.  When it dies its last setpoint
grows old, and `commanderGetSetpoint` is to release the priority then, unless it has been relaxed
already.  It does so between the two time-outs only: a setpoint that is first looked at after the
second one keeps its priority.  `release_iff` states this for every state of every run of calls, at
any ticks. -/

namespace NanoDrone.Commander

/-- Whether the priority was relaxed since the last set that was accepted. -/
def relaxedNext (s : Shared) (relaxed : Bool) : Call → Bool
  | .setSetpoint _ priority _ => if accepts s priority then false else relaxed
  | .relaxPriority => true
  | .getSetpoint .. => relaxed
  | .getActivePriority => relaxed

/-- The state and this, after a run of calls. -/
def afterCalls (ticksPerSec : ℕ) (s : Shared) (calls : List Call) : Shared × Bool :=
  calls.foldl (fun t call => (after ticksPerSec t.1 call, relaxedNext t.1 t.2 call)) (s, false)

/-- The stored setpoint is older at `now` than a time-out. -/
def olderThan (timeout : ℕ) (s : Shared) (now : ℕ) : Prop :=
  ∃ sp, s.setpointQueue.peek = some sp ∧ timeout < age sp now

/-- Nothing keeps a source out. -/
def Released (s : Shared) : Prop :=
  s.priorityQueue.peek = some priorityDisable ∧
    ∀ priority, priorityDisable ≤ priority → accepts s priority = true

/-- A get that finds the setpoint older than the stabilize time-out leaves the priority released or
relaxed. -/
def ReleasesOld (ticksPerSec : ℕ) (s : Shared) (relaxed : Bool) (buffer : Setpoint) (state : State)
    (now : ℕ) : Prop :=
  olderThan (wdtTimeoutStabilize ticksPerSec) s now → relaxed = false →
    Released (after ticksPerSec s (.getSetpoint buffer state now))

/-! ### Runs -/

/-- Every call leaves both queues with one element. -/
theorem Holds.after {s : Shared} {sp : Setpoint} {p : Int} (h : Holds s sp p) (ticksPerSec : ℕ)
    (call : Call) : ∃ sp' p', Holds (Commander.after ticksPerSec s call) sp' p' := by
  cases call with
  | setSetpoint new priority now =>
      by_cases hp : p ≤ priority
      · exact ⟨_, _, setSetpoint_accepted h hp⟩
      · refine ⟨sp, p, ?_⟩
        rw [Commander.after, Call.prog, setSetpoint_rejected h hp]
        exact h
  | relaxPriority => exact ⟨sp, _, relaxPriority_holds h⟩
  | getSetpoint buffer state now =>
      exact ⟨sp, _, getSetpoint_release h ticksPerSec buffer state now⟩
  | getActivePriority =>
      refine ⟨sp, p, ?_⟩
      rw [Commander.after, Call.prog, getActivePriority_state h]
      exact h

theorem holds_afterCalls (ticksPerSec initTick : ℕ) (s0 : Shared) (calls : List Call) :
    ∃ sp p, Holds (afterCalls ticksPerSec (commanderInit initTick s0) calls).1 sp p := by
  unfold afterCalls
  generalize hs : (commanderInit initTick s0, false) = t
  have ht : ∃ sp p, Holds t.1 sp p := ⟨_, _, by rw [← hs]; exact holds_init s0 initTick⟩
  clear hs
  induction calls generalizing t with
  | nil => exact ht
  | cons call calls ih =>
      obtain ⟨sp, p, h⟩ := ht
      exact ih _ (h.after ticksPerSec call)

theorem Holds.released_iff {s : Shared} {sp : Setpoint} {p : Int} (h : Holds s sp p) :
    Released s ↔ p = priorityDisable := by
  unfold Released accepts
  rw [h.peek_priority]
  constructor
  · rintro ⟨hp, -⟩
    exact Option.some.inj hp
  · rintro rfl
    exact ⟨rfl, fun priority hle => decide_eq_true hle⟩

theorem Holds.olderThan_iff {s : Shared} {sp : Setpoint} {p : Int} (h : Holds s sp p)
    (timeout now : ℕ) : olderThan timeout s now ↔ timeout < age sp now := by
  unfold olderThan
  rw [h.peek_setpoint]
  simp

/-- **Release of the priority.**  In every state after `commanderInit` and any calls at any ticks, a
get does what it is to do with an old setpoint exactly if this is not also older than the shutdown
time-out, or the priority was relaxed or released before. -/
theorem release_iff (ticksPerSec initTick : ℕ) (s0 : Shared) (calls : List Call)
    (buffer : Setpoint) (state : State) (now : ℕ) :
    let t := afterCalls ticksPerSec (commanderInit initTick s0) calls
    ReleasesOld ticksPerSec t.1 t.2 buffer state now ↔
      (olderThan (wdtTimeoutStabilize ticksPerSec) t.1 now →
        ¬ olderThan (wdtTimeoutShutdown ticksPerSec) t.1 now ∨ t.2 = true ∨ Released t.1) := by
  obtain ⟨sp, p, h⟩ := holds_afterCalls ticksPerSec initTick s0 calls
  dsimp only
  generalize afterCalls ticksPerSec (commanderInit initTick s0) calls = t at h
  unfold ReleasesOld
  rw [h.olderThan_iff, h.olderThan_iff, h.released_iff]
  refine imp_congr_right fun hold => ?_
  have hget : Holds (Commander.after ticksPerSec t.1 (.getSetpoint buffer state now)) sp _ :=
    getSetpoint_release h ticksPerSec buffer state now
  rw [hget.released_iff]
  by_cases hexpired : wdtTimeoutShutdown ticksPerSec < age sp now
  · rw [if_pos hexpired]
    cases t.2 <;> simp [hexpired]
  · rw [if_neg hexpired, if_pos hold]
    exact iff_of_true (fun _ => rfl) (Or.inl hexpired)

/-- A source of priority 2 sets at tick 0 and is not looked at before tick 3000: the get does not
release it. -/
theorem release_missed :
    ¬ ReleasesOld 1000 (afterCalls 1000 (commanderInit 0 blank)
      [.setSetpoint { nullSetpoint with thrust := 1 } 2 0]).1
      (afterCalls 1000 (commanderInit 0 blank)
        [.setSetpoint { nullSetpoint with thrust := 1 } 2 0]).2 nullSetpoint [] 3000 := by
  intro h
  have hreleased := h ⟨{ nullSetpoint with thrust := 1 }, rfl, by decide⟩ rfl
  exact absurd hreleased.1 (by decide)

end NanoDrone.Commander
