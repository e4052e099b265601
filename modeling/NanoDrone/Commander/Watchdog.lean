import NanoDrone.Commander.Commander
import Mathlib.Tactic.Common

/-! # The watchdog over long runs

Sequential runs of the commander's calls at non-decreasing ticks.  `Watch` follows a run with
what the code does not keep: the tick, counted without bound, at which the stored setpoint was
accepted, and whether a call has since found it older than the shutdown time-out.

The code compares the low 32 bits of the age, so an old setpoint looks fresh again for a while
after every 2^32 ticks.  `never_revived` shows that this is the only way for an expired setpoint
to come back. -/

namespace NanoDrone.Commander

/-- Both queues hold one element. -/
structure Holds (s : Shared) (sp : Setpoint) (p : Int) : Prop where
  setpoint_one : s.setpointQueue.maxMsgs = 1
  setpoint : s.setpointQueue.items = [sp]
  priority_one : s.priorityQueue.maxMsgs = 1
  priority : s.priorityQueue.items = [p]

theorem Holds.peek_setpoint {s : Shared} {sp : Setpoint} {p : Int} (h : Holds s sp p) :
    s.setpointQueue.peek = some sp := by
  rw [MsgQueue.peek, h.setpoint]
  rfl

theorem Holds.peek_priority {s : Shared} {sp : Setpoint} {p : Int} (h : Holds s sp p) :
    s.priorityQueue.peek = some p := by
  rw [MsgQueue.peek, h.priority]
  rfl

theorem holds_init (s0 : Shared) (initTick : ℕ) :
    Holds (commanderInit initTick s0) nullSetpoint priorityDisable := ⟨rfl, rfl, rfl, rfl⟩

/-! ### The calls run alone -/

/-- A set is accepted when its priority is at least the stored one, and then replaces both. -/
theorem setSetpoint_accepted {s : Shared} {sp new : Setpoint} {p priority : Int} {now : ℕ}
    (h : Holds s sp p) (hp : p ≤ priority) :
    Holds ((commanderSetSetpoint new priority now).exec s).2.2
      { new with timestamp := uint32 now } priority := by
  unfold commanderSetSetpoint peekPriority
  rw [Prog.exec_bind, Prog.exec_atomically]
  simp only [h.peek_priority]
  rw [if_pos hp]
  have hset := MsgQueue.put_get_of_one (a := { new with timestamp := uint32 now }) h.setpoint_one
  have hpri := MsgQueue.put_get_of_one (a := priority) h.priority_one
  split <;> refine ⟨?_, ?_, ?_, ?_⟩ <;>
    simp [getSetpoint, putSetpoint, getPriority, putPriority, highLevelDisable, hset, hpri,
      h.setpoint_one, h.priority_one]

theorem setSetpoint_rejected {s : Shared} {sp new : Setpoint} {p priority : Int} {now : ℕ}
    (h : Holds s sp p) (hp : ¬ p ≤ priority) :
    ((commanderSetSetpoint new priority now).exec s).2.2 = s := by
  unfold commanderSetSetpoint peekPriority
  rw [Prog.exec_bind, Prog.exec_atomically]
  simp only [h.peek_priority]
  rw [if_neg hp, Prog.exec_pure]

theorem relaxPriority_holds {s : Shared} {sp : Setpoint} {p : Int} (h : Holds s sp p) :
    Holds (commanderRelaxPriority.exec s).2.2 sp priorityLowest := by
  have hpri := MsgQueue.put_get_of_one (a := priorityLowest) h.priority_one
  refine ⟨?_, ?_, ?_, ?_⟩ <;>
    simp [commanderRelaxPriority, highLevelTellState, getPriority, putPriority, hpri,
      h.setpoint_one, h.setpoint, h.priority_one]

/-- The age of the stored setpoint as `commanderGetSetpoint` computes it. -/
def age (sp : Setpoint) (now : ℕ) : ℕ := uint32Sub (uint32 now) sp.timestamp

theorem getSetpoint_expired {s : Shared} {sp buffer : Setpoint} {p : Int} {state : State}
    {ticksPerSec now : ℕ} (h : Holds s sp p) (ha : wdtTimeoutShutdown ticksPerSec < age sp now) :
    ((commanderGetSetpoint ticksPerSec buffer state now).exec s).2.1 = .got nullSetpoint ∧
    Holds ((commanderGetSetpoint ticksPerSec buffer state now).exec s).2.2 sp p := by
  unfold age at ha
  unfold commanderGetSetpoint peekSetpoint setLastUpdate
  simp only [Prog.exec_bind, Prog.exec_atomically, h.peek_setpoint, Option.getD_some]
  rw [if_pos ha]
  exact ⟨rfl, h.setpoint_one, h.setpoint, h.priority_one, h.priority⟩

/-- A get never changes the stored setpoint; the priority is released only between the two
time-outs. -/
theorem getSetpoint_release {s : Shared} {sp : Setpoint} {p : Int} (h : Holds s sp p)
    (ticksPerSec : ℕ) (buffer : Setpoint) (state : State) (now : ℕ) :
    Holds ((commanderGetSetpoint ticksPerSec buffer state now).exec s).2.2 sp
      (if wdtTimeoutShutdown ticksPerSec < age sp now then p
      else if wdtTimeoutStabilize ticksPerSec < age sp now then priorityDisable
      else p) := by
  have hpri := MsgQueue.put_get_of_one (a := priorityDisable) h.priority_one
  unfold age commanderGetSetpoint peekSetpoint setLastUpdate
  simp only [Prog.exec_bind, Prog.exec_atomically, h.peek_setpoint, Option.getD_some]
  split
  · exact ⟨h.setpoint_one, h.setpoint, h.priority_one, h.priority⟩
  · split
    · refine ⟨?_, ?_, ?_, ?_⟩ <;>
        simp [getPriority, putPriority, setLastState, hpri, h.setpoint_one, h.setpoint,
          h.priority_one]
    · exact ⟨h.setpoint_one, h.setpoint, h.priority_one, h.priority⟩

theorem getSetpoint_holds {s : Shared} {sp : Setpoint} {p : Int} (h : Holds s sp p)
    (ticksPerSec : ℕ) (buffer : Setpoint) (state : State) (now : ℕ) :
    ∃ p', Holds ((commanderGetSetpoint ticksPerSec buffer state now).exec s).2.2 sp p' :=
  ⟨_, getSetpoint_release h ticksPerSec buffer state now⟩

theorem getActivePriority_state {s : Shared} {sp : Setpoint} {p : Int} (h : Holds s sp p) :
    (commanderGetActivePriority.exec s).2.2 = s := by
  unfold commanderGetActivePriority peekPriority
  simp only [Prog.exec_bind, Prog.exec_atomically, h.peek_priority]
  rfl

/-! ### Runs -/

/-- What the run knows of the stored setpoint: the tick of its acceptance, and whether a call has
replaced it by `nullSetpoint` since. -/
structure Watch where
  accepted : ℕ
  expired : Bool
deriving DecidableEq, Repr

/-- A set of this priority is accepted. -/
def accepts (s : Shared) (priority : Int) : Bool :=
  match s.priorityQueue.peek with
  | some p => decide (p ≤ priority)
  | none => false

/-- A get at this tick finds the stored setpoint older than the shutdown time-out. -/
def expires (ticksPerSec : ℕ) (s : Shared) (now : ℕ) : Bool :=
  match s.setpointQueue.peek with
  | some sp => decide (wdtTimeoutShutdown ticksPerSec < age sp now)
  | none => false

def Watch.next (ticksPerSec : ℕ) (w : Watch) (s : Shared) : Call → Watch
  | .setSetpoint _ priority now => if accepts s priority then ⟨now, false⟩ else w
  | .getSetpoint _ _ now => ⟨w.accepted, w.expired || expires ticksPerSec s now⟩
  | .relaxPriority => w
  | .getActivePriority => w

/-- The tick of a call, which is the one before where the call reads no clock. -/
def Call.tick (before : ℕ) : Call → ℕ
  | .setSetpoint _ _ now => now
  | .getSetpoint _ _ now => now
  | .relaxPriority => before
  | .getActivePriority => before

/-- The ticks do not go back. -/
def Ordered : ℕ → List Call → Prop
  | _, [] => True
  | t, call :: calls => t ≤ call.tick t ∧ Ordered (call.tick t) calls

/-- A run of calls, one after the other. -/
def after (ticksPerSec : ℕ) (s : Shared) (call : Call) : Shared :=
  ((call.prog ticksPerSec).exec s).2.2

/-- An expired setpoint does not come back: every get returns `nullSetpoint` until a set is
accepted. -/
def NeverRevived (ticksPerSec : ℕ) : Watch → Shared → List Call → Prop
  | _, _, [] => True
  | w, s, call :: calls =>
      (∀ buffer state now, call = .getSetpoint buffer state now → w.expired = true →
        ((call.prog ticksPerSec).exec s).2.1 = .got nullSetpoint) ∧
      NeverRevived ticksPerSec (w.next ticksPerSec s call) (after ticksPerSec s call) calls

/-- No get looks at an expired setpoint whose age has passed 2^32 ticks and whose low 32 bits are
within the shutdown time-out. -/
def NoWrappedGet (ticksPerSec : ℕ) : Watch → Shared → List Call → Prop
  | _, _, [] => True
  | w, s, call :: calls =>
      (∀ buffer state now, call = .getSetpoint buffer state now → w.expired = true →
        2 ^ 32 ≤ now - w.accepted →
        wdtTimeoutShutdown ticksPerSec < uint32 (now - w.accepted)) ∧
      NoWrappedGet ticksPerSec (w.next ticksPerSec s call) (after ticksPerSec s call) calls

/-- The state of a run at tick `t`: the stored timestamp is the low part of the tick of the
acceptance, and an expired setpoint is older than the time-out. -/
structure Watched (ticksPerSec t : ℕ) (w : Watch) (s : Shared) (sp : Setpoint) (p : Int) :
    Prop where
  holds : Holds s sp p
  stamp : sp.timestamp = uint32 w.accepted
  past : w.accepted ≤ t
  old : w.expired = true → wdtTimeoutShutdown ticksPerSec < t - w.accepted

/-- The age that the code computes is the low part of the age. -/
theorem Watched.age_eq {ticksPerSec t now : ℕ} {w : Watch} {s : Shared} {sp : Setpoint} {p : Int}
    (h : Watched ticksPerSec t w s sp p) (ht : t ≤ now) :
    age sp now = uint32 (now - w.accepted) := by
  have hp := h.past
  unfold age uint32Sub
  rw [h.stamp]
  unfold uint32
  omega

/-- One call of a run. -/
theorem Watched.step {ticksPerSec t : ℕ} {w : Watch} {s : Shared} {sp : Setpoint} {p : Int}
    {call : Call} (h : Watched ticksPerSec t w s sp p) (ht : t ≤ call.tick t) :
    ∃ sp' p', Watched ticksPerSec (call.tick t) (w.next ticksPerSec s call)
      (after ticksPerSec s call) sp' p' := by
  have hpast := h.past
  cases call with
  | setSetpoint new priority now =>
      simp only [Call.tick, Watch.next, accepts, h.holds.peek_priority] at ht ⊢
      by_cases hp : p ≤ priority
      · rw [if_pos (by simpa using hp)]
        exact ⟨_, _, setSetpoint_accepted h.holds hp, rfl, Nat.le_refl _, fun he => by cases he⟩
      · rw [if_neg (by simpa using hp)]
        refine ⟨sp, p, ?_, h.stamp, by omega, fun he => ?_⟩
        · rw [after, Call.prog, setSetpoint_rejected h.holds hp]
          exact h.holds
        · have := h.old he
          omega
  | relaxPriority => exact ⟨sp, _, relaxPriority_holds h.holds, h.stamp, h.past, h.old⟩
  | getSetpoint buffer state now =>
      simp only [Call.tick, Watch.next, expires, h.holds.peek_setpoint] at ht ⊢
      obtain ⟨p', hp'⟩ := getSetpoint_holds h.holds ticksPerSec buffer state now
      refine ⟨sp, p', hp', h.stamp, Nat.le_trans hpast ht, fun he => ?_⟩
      simp only [Bool.or_eq_true, decide_eq_true_eq] at he ⊢
      rcases he with he | he
      · have := h.old he
        omega
      · -- the low part of an age is at most the age
        rw [h.age_eq ht] at he
        exact Nat.lt_of_lt_of_le he (Nat.mod_le _ _)
  | getActivePriority =>
      refine ⟨sp, p, ?_, h.stamp, h.past, h.old⟩
      rw [after, Call.prog, getActivePriority_state h.holds]
      exact h.holds

theorem Watched.run {ticksPerSec t : ℕ} {w : Watch} {s : Shared} {sp : Setpoint} {p : Int}
    {calls : List Call} (h : Watched ticksPerSec t w s sp p) (ho : Ordered t calls)
    (hw : NoWrappedGet ticksPerSec w s calls) : NeverRevived ticksPerSec w s calls := by
  induction calls generalizing t w s sp p with
  | nil => trivial
  | cons call calls ih =>
      refine ⟨?_, ?_⟩
      · rintro buffer state now rfl he
        have hold := h.old he
        have ht : t ≤ now := ho.1
        refine (getSetpoint_expired h.holds ?_).1
        rw [h.age_eq ht]
        by_cases hwrap : 2 ^ 32 ≤ now - w.accepted
        · exact hw.1 buffer state now rfl he hwrap
        · unfold uint32
          omega
      · obtain ⟨sp', p', hstep⟩ := h.step ho.1
        exact ih hstep ho.2 hw.2

/-- **An expired setpoint stays away.**  In every run after `commanderInit` with non-decreasing
ticks in which no get falls into the time when the age of an expired setpoint has wrapped
around, no expired setpoint comes back. -/
theorem never_revived {ticksPerSec initTick : ℕ} {s0 : Shared} {calls : List Call}
    (ho : Ordered initTick calls)
    (hw : NoWrappedGet ticksPerSec ⟨0, false⟩ (commanderInit initTick s0) calls) :
    NeverRevived ticksPerSec ⟨0, false⟩ (commanderInit initTick s0) calls := by
  have h : Watched ticksPerSec initTick ⟨0, false⟩ (commanderInit initTick s0) nullSetpoint
      priorityDisable :=
    ⟨holds_init s0 initTick, rfl, Nat.zero_le _, fun he => by cases he⟩
  exact h.run ho hw

/-- The variables of `commander.c` before `commanderInit`. -/
def blank : Shared := ⟨.init 1, .init 1, false, [], 0, none, 0⟩

/-- A thrust of one, at tick 0, expires after 2000 ticks of a millisecond and is back after 2^32
ticks. -/
theorem revived_after_wrap : ¬ NeverRevived 1000 ⟨0, false⟩ (commanderInit 0 blank)
    [.setSetpoint { nullSetpoint with thrust := 1 } 2 0, .getSetpoint nullSetpoint [] 2001,
      .getSetpoint nullSetpoint [] (2 ^ 32)] := by
  intro h
  have := h.2.2.1 nullSetpoint [] (2 ^ 32) rfl (by decide)
  exact absurd this (by decide)

/-- The same run with the last get 3000 ticks later. -/
theorem never_revived_small : NeverRevived 1000 ⟨0, false⟩ (commanderInit 0 blank)
    [.setSetpoint { nullSetpoint with thrust := 1 } 2 0, .getSetpoint nullSetpoint [] 2001,
      .getSetpoint nullSetpoint [] (2 ^ 32 + 3000)] := by
  apply never_revived
  · simp [Ordered, Call.tick]
  · refine ⟨?_, ?_, ?_, trivial⟩
    · intro _ _ _ h
      cases h
    · intro _ _ _ _ he
      cases he
    · intro buffer state now h _ _
      cases h
      decide

end NanoDrone.Commander
