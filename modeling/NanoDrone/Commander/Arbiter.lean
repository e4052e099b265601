import NanoDrone.Commander.Watchdog

/-! # The commander as an arbiter

What the commander is for: it holds one setpoint with the priority of its source, and decides
which source may replace it.  `Arbiter` says so without queues: a setpoint, its priority, and what
the high-level commander has been told.  A set is accepted exactly when its priority is at least
the stored one, a relax lowers the priority, and a get can only disable it.

`follows_arbiter` shows that `commander.c` is this arbiter in every sequence of complete calls. -/

namespace NanoDrone.Commander

/-- The setpoint and the priority of the source that flies the drone, the state of the last get,
the state that the high-level commander was told last, and how often its planner was disabled. -/
structure Arbiter where
  setpoint : Setpoint
  priority : Int
  lastState : State
  toldState : Option State
  plannerDisabled : ℕ
deriving DecidableEq, Repr

namespace Arbiter

/-- The arbiter after `commanderInit`. -/
def init (s0 : Shared) : Arbiter where
  setpoint := nullSetpoint
  priority := priorityDisable
  lastState := s0.lastState
  toldState := s0.toldState
  plannerDisabled := s0.plannerDisabled

/-- An accepted set stores the setpoint stamped with the tick, and the priority; the planner is
disabled by a priority above that of the high-level commander.  A rejected one changes nothing. -/
def set (a : Arbiter) (new : Setpoint) (priority : Int) (now : ℕ) : Arbiter :=
  if a.priority ≤ priority then
    { a with
      setpoint := { new with timestamp := uint32 now }
      priority := priority
      plannerDisabled :=
        if priority > priorityHighlevel then a.plannerDisabled + 1 else a.plannerDisabled }
  else a

/-- Only the priority and the state told to the high-level commander change. -/
def relax (a : Arbiter) : Arbiter :=
  { a with priority := priorityLowest, toldState := some a.lastState }

/-- The stored setpoint is older than the stabilize time-out, but not than the shutdown one. -/
def Levels (a : Arbiter) (ticksPerSec now : ℕ) : Prop :=
  ¬ age a.setpoint now > wdtTimeoutShutdown ticksPerSec ∧
  age a.setpoint now > wdtTimeoutStabilize ticksPerSec

instance (a : Arbiter) (ticksPerSec now : ℕ) : Decidable (a.Levels ticksPerSec now) :=
  inferInstanceAs (Decidable (_ ∧ _))

/-- The setpoint stays, and the priority can only become `COMMANDER_PRIORITY_DISABLE`. -/
def get (a : Arbiter) (ticksPerSec : ℕ) (state : State) (now : ℕ) : Arbiter :=
  { a with
    priority := if a.Levels ticksPerSec now then priorityDisable else a.priority
    lastState := state }

def next (a : Arbiter) (ticksPerSec : ℕ) : Call → Arbiter
  | .setSetpoint new priority now => a.set new priority now
  | .relaxPriority => a.relax
  | .getSetpoint _ state now => a.get ticksPerSec state now
  | .getActivePriority => a

/-- What a call returns: a set stamps the caller's setpoint exactly if it is accepted. -/
def answer (a : Arbiter) (ticksPerSec : ℕ) : Call → Result
  | .setSetpoint new priority now =>
      .set (if a.priority ≤ priority then { new with timestamp := uint32 now } else new)
  | .relaxPriority => .relaxed
  | .getSetpoint _ _ now =>
      .got (if age a.setpoint now > wdtTimeoutShutdown ticksPerSec then nullSetpoint
        else if age a.setpoint now > wdtTimeoutStabilize ticksPerSec then levelSetpoint a.setpoint
        else a.setpoint)
  | .getActivePriority => .active a.priority

end Arbiter

/-- The state of `commander.c` is that of an arbiter: each queue holds one element. -/
structure Represents (s : Shared) (a : Arbiter) : Prop where
  holds : Holds s a.setpoint a.priority
  lastState : s.lastState = a.lastState
  toldState : s.toldState = a.toldState
  plannerDisabled : s.plannerDisabled = a.plannerDisabled

namespace Represents

variable {s : Shared} {a : Arbiter}

theorem init (initTick : ℕ) (s0 : Shared) : Represents (commanderInit initTick s0) (.init s0) :=
  ⟨holds_init s0 initTick, rfl, rfl, rfl⟩

/-- A call of the code is a step of the arbiter, with the same answer. -/
def Step (a : Arbiter) (ticksPerSec : ℕ) (s : Shared) (call : Call) : Prop :=
  ((call.prog ticksPerSec).exec s).2.1 = a.answer ticksPerSec call ∧
  Represents (after ticksPerSec s call) (a.next ticksPerSec call)

theorem set (h : Represents s a) (ticksPerSec : ℕ) (new : Setpoint) (priority : Int) (now : ℕ) :
    Step a ticksPerSec s (.setSetpoint new priority now) := by
  have hpeek := h.holds.peek_priority
  unfold Step after
  simp only [Arbiter.answer, Arbiter.next, Arbiter.set]
  by_cases hp : a.priority ≤ priority
  · rw [if_pos hp, if_pos hp]
    have hholds : Holds ((commanderSetSetpoint new priority now).exec s).2.2
        { new with timestamp := uint32 now } priority := setSetpoint_accepted h.holds hp
    refine ⟨?_, hholds, ?_, ?_, ?_⟩ <;>
    · simp only [Call.prog, commanderSetSetpoint, peekPriority, Prog.exec_bind,
        Prog.exec_atomically, hpeek]
      rw [if_pos hp]
      split
      · simp [getSetpoint, putSetpoint, getPriority, putPriority, highLevelDisable, h.lastState,
          h.toldState, h.plannerDisabled]
      · simp [getSetpoint, putSetpoint, getPriority, putPriority, h.lastState, h.toldState,
          h.plannerDisabled]
  · rw [if_neg hp, if_neg hp]
    have hsame : ((Call.prog ticksPerSec (.setSetpoint new priority now)).exec s).2.2 = s :=
      setSetpoint_rejected h.holds hp
    rw [hsame]
    refine ⟨?_, h⟩
    simp only [Call.prog, commanderSetSetpoint, peekPriority, Prog.exec_bind,
      Prog.exec_atomically, hpeek]
    rw [if_neg hp]
    rfl

theorem relax (h : Represents s a) (ticksPerSec : ℕ) : Step a ticksPerSec s .relaxPriority := by
  refine ⟨rfl, relaxPriority_holds h.holds, h.lastState, ?_, h.plannerDisabled⟩
  change some s.lastState = some a.lastState
  rw [h.lastState]

theorem get (h : Represents s a) (ticksPerSec : ℕ) (buffer : Setpoint) (state : State) (now : ℕ) :
    Step a ticksPerSec s (.getSetpoint buffer state now) := by
  have hpri := MsgQueue.put_get_of_one (a := priorityDisable) h.holds.priority_one
  have hage : ∀ t, uint32Sub (uint32 now) a.setpoint.timestamp > t ↔ age a.setpoint now > t :=
    fun _ => Iff.rfl
  unfold Step after
  simp only [Call.prog, commanderGetSetpoint, peekSetpoint, setLastUpdate, Prog.exec_bind,
    Prog.exec_atomically, h.holds.peek_setpoint, Option.getD_some, hage, Arbiter.answer,
    Arbiter.next, Arbiter.get, Arbiter.Levels]
  by_cases hshut : age a.setpoint now > wdtTimeoutShutdown ticksPerSec
  · simp only [hshut, ↓reduceIte, not_true_eq_false, false_and]
    exact ⟨rfl, ⟨h.holds.setpoint_one, h.holds.setpoint, h.holds.priority_one, h.holds.priority⟩,
      rfl, h.toldState, h.plannerDisabled⟩
  · by_cases hstab : age a.setpoint now > wdtTimeoutStabilize ticksPerSec
    · simp only [hshut, hstab, ↓reduceIte, not_false_eq_true, and_self]
      refine ⟨rfl, ⟨h.holds.setpoint_one, h.holds.setpoint, ?_, hpri⟩, rfl, h.toldState,
        h.plannerDisabled⟩
      simp [getPriority, putPriority, setLastState, h.holds.priority_one]
    · simp only [hshut, hstab, ↓reduceIte, and_false]
      exact ⟨rfl, ⟨h.holds.setpoint_one, h.holds.setpoint, h.holds.priority_one, h.holds.priority⟩,
        rfl, h.toldState, h.plannerDisabled⟩

theorem getActivePriority (h : Represents s a) (ticksPerSec : ℕ) :
    Step a ticksPerSec s .getActivePriority := by
  refine ⟨?_, ?_⟩
  · simp only [Call.prog, commanderGetActivePriority, peekPriority, Prog.exec_bind,
      Prog.exec_atomically, h.holds.peek_priority]
    rfl
  · rw [after, Call.prog, getActivePriority_state h.holds]
    exact h

theorem step (h : Represents s a) (ticksPerSec : ℕ) (call : Call) : Step a ticksPerSec s call := by
  cases call with
  | setSetpoint new priority now => exact h.set ticksPerSec new priority now
  | relaxPriority => exact h.relax ticksPerSec
  | getSetpoint buffer state now => exact h.get ticksPerSec buffer state now
  | getActivePriority => exact h.getActivePriority ticksPerSec

theorem run (h : Represents s a) (ticksPerSec : ℕ) (calls : List Call) :
    Represents (calls.foldl (after ticksPerSec) s)
      (calls.foldl (fun a call => a.next ticksPerSec call) a) := by
  induction calls generalizing s a with
  | nil => exact h
  | cons call calls ih => exact ih (h.step ticksPerSec call).2

end Represents

/-- **The commander is the arbiter.**  After any sequence of complete calls both queues hold one
element, the setpoint and the priority of the arbiter, and the next call has its answer and its
effect. -/
theorem follows_arbiter (ticksPerSec initTick : ℕ) (s0 : Shared) (calls : List Call) :
    Represents (calls.foldl (after ticksPerSec) (commanderInit initTick s0))
      (calls.foldl (fun a call => a.next ticksPerSec call) (.init s0)) ∧
    ∀ call, Represents.Step (calls.foldl (fun a call => a.next ticksPerSec call) (.init s0))
      ticksPerSec (calls.foldl (after ticksPerSec) (commanderInit initTick s0)) call := by
  have h := (Represents.init initTick s0).run ticksPerSec calls
  exact ⟨h, h.step ticksPerSec⟩

end NanoDrone.Commander
