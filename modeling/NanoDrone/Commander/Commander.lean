import NanoDrone.Lib.Interleaving
import NanoDrone.Lib.MsgQueue
import Mathlib.Algebra.Ring.Nat

/-! # The commander (`commander.c`)

The commander keeps the current setpoint and its priority in two message queues of one element.
A new value is written by taking the old one out and putting the new one in, two calls of the
queue.  The calls are programs of atomic actions (`Prog`): each access to a queue is one action
that shows an event, and the accesses to other variables are actions of their own.  Run alone
(`Prog.exec`) a program is the sequential call, in a pool it is interleaved with others.

Ticks are counted from boot without bound; a `uint32_t` holds their low 32 bits.  Floats are bit
patterns.  The firmware is built with assertions, so a failed one ends the call.

A message that is taken out is copied to `release_setpoint_data` or `release_priority_data`.  Nothing
reads these two, and the first is declared `const`; the copies are left out, and with them whatever
a write to a constant does. -/

namespace NanoDrone

/-- The low 32 bits of a counter. -/
def uint32 (n : ℕ) : ℕ := n % 2 ^ 32

/-- Subtraction of `uint32_t` values. -/
def uint32Sub (a b : ℕ) : ℕ := (a + (2 ^ 32 - b % 2 ^ 32)) % 2 ^ 32

namespace Commander

/-- `stab_mode_t`. -/
inductive StabMode where
  | modeDisable
  | modeAbs
  | modeVelocity
deriving DecidableEq, Repr

/-- `struct vec3_s`. -/
structure Vec where
  timestamp : ℕ
  x : UInt32
  y : UInt32
  z : UInt32
deriving DecidableEq, Repr

/-- `attitude_t`. -/
structure Attitude where
  timestamp : ℕ
  roll : UInt32
  pitch : UInt32
  yaw : UInt32
deriving DecidableEq, Repr

/-- `quaternion_t`. -/
structure Quaternion where
  q0 : UInt32
  q1 : UInt32
  q2 : UInt32
  q3 : UInt32
deriving DecidableEq, Repr

/-- The field `mode` of `setpoint_t`. -/
structure Modes where
  x : StabMode
  y : StabMode
  z : StabMode
  roll : StabMode
  pitch : StabMode
  yaw : StabMode
  quat : StabMode
deriving DecidableEq, Repr

/-- `setpoint_t`. -/
structure Setpoint where
  timestamp : ℕ
  attitude : Attitude
  attitudeRate : Attitude
  attitudeQuaternion : Quaternion
  thrust : UInt32
  position : Vec
  velocity : Vec
  acceleration : Vec
  velocityBody : Bool
  mode : Modes
deriving DecidableEq, Repr

/-- Static structs are zero-initialized, so this is `modeDisable` for all modes and zero for all
physical values. -/
def nullSetpoint : Setpoint where
  timestamp := 0
  attitude := ⟨0, 0, 0, 0⟩
  attitudeRate := ⟨0, 0, 0, 0⟩
  attitudeQuaternion := ⟨0, 0, 0, 0⟩
  thrust := 0
  position := ⟨0, 0, 0, 0⟩
  velocity := ⟨0, 0, 0, 0⟩
  acceleration := ⟨0, 0, 0, 0⟩
  velocityBody := false
  mode := ⟨.modeDisable, .modeDisable, .modeDisable, .modeDisable, .modeDisable, .modeDisable,
    .modeDisable⟩

/-- `state_t`, which the commander only copies: its words. -/
abbrev State := List UInt32

/-- `COMMANDER_PRIORITY_DISABLE`. -/
def priorityDisable : Int := 0

/-- `COMMANDER_PRIORITY_LOWEST`. -/
def priorityLowest : Int := 1

/-- `COMMANDER_PRIORITY_HIGHLEVEL`. -/
def priorityHighlevel : Int := 1

/-- `k_ms_to_ticks_ceil32` at a rate of `ticksPerSec`. -/
def msToTicksCeil32 (ticksPerSec ms : ℕ) : ℕ := uint32 ((ms * ticksPerSec + 999) / 1000)

/-- `COMMANDER_WDT_TIMEOUT_STABILIZE`. -/
def wdtTimeoutStabilize (ticksPerSec : ℕ) : ℕ := msToTicksCeil32 ticksPerSec 500

/-- `COMMANDER_WDT_TIMEOUT_SHUTDOWN`. -/
def wdtTimeoutShutdown (ticksPerSec : ℕ) : ℕ := msToTicksCeil32 ticksPerSec 2000

/-! ### The state -/

/-- The variables of `commander.c`, and what it tells the high-level commander: the state it was
told last and how often its planner was disabled. -/
structure Shared where
  setpointQueue : MsgQueue Setpoint
  priorityQueue : MsgQueue Int
  isInit : Bool
  lastState : State
  lastUpdate : ℕ
  toldState : Option State
  plannerDisabled : ℕ

inductive Queue where
  | setpoint
  | priority
deriving DecidableEq, Repr

/-- What an action shows: an access to a queue and whether it succeeded. -/
inductive Event where
  | peek (q : Queue) (found : Bool)
  | get (q : Queue) (found : Bool)
  | put (q : Queue) (ok : Bool)
  | internal
deriving DecidableEq, Repr

/-- What a call returns; the setpoint is the caller's after the call. -/
inductive Result where
  | set (setpoint : Setpoint)
  | relaxed
  | got (setpoint : Setpoint)
  | active (priority : Int)
  | assertFailed
deriving DecidableEq, Repr

abbrev Action := Prog Shared Event

def peekSetpoint : Action (Option Setpoint) :=
  .atomically (fun s => (s.setpointQueue.peek, s)) (fun r => .peek .setpoint r.isSome)

/-- `k_msgq_get(&setpointQueue, &release_setpoint_data, K_NO_WAIT)` without the copy to the constant. -/
def getSetpoint : Action (Option Setpoint) :=
  .atomically (fun s => (s.setpointQueue.get.1, { s with setpointQueue := s.setpointQueue.get.2 }))
    (fun r => .get .setpoint r.isSome)

def putSetpoint (setpoint : Setpoint) : Action Bool :=
  .atomically (fun s => ((s.setpointQueue.put setpoint).1,
    { s with setpointQueue := (s.setpointQueue.put setpoint).2 })) (.put .setpoint)

def peekPriority : Action (Option Int) :=
  .atomically (fun s => (s.priorityQueue.peek, s)) (fun r => .peek .priority r.isSome)

def getPriority : Action (Option Int) :=
  .atomically (fun s => (s.priorityQueue.get.1, { s with priorityQueue := s.priorityQueue.get.2 }))
    (fun r => .get .priority r.isSome)

def putPriority (priority : Int) : Action Bool :=
  .atomically (fun s => ((s.priorityQueue.put priority).1,
    { s with priorityQueue := (s.priorityQueue.put priority).2 })) (.put .priority)

/-- Setting variables that are not queues. -/
def setLastUpdate (t : ℕ) : Action Unit :=
  .atomically (fun s => ((), { s with lastUpdate := t })) (fun _ => .internal)

def setLastState (state : State) : Action Unit :=
  .atomically (fun s => ((), { s with lastState := state })) (fun _ => .internal)

/-- `crtpCommanderHighLevelTellState(&lastState)`. -/
def highLevelTellState : Action Unit :=
  .atomically (fun s => ((), { s with toldState := some s.lastState })) (fun _ => .internal)

/-- `crtpCommanderHighLevelDisable()`. -/
def highLevelDisable : Action Unit :=
  .atomically (fun s => ((), { s with plannerDisabled := s.plannerDisabled + 1 }))
    (fun _ => .internal)

/-! ### The calls -/

/-- `commanderInit` at tick `now`. -/
def commanderInit (now : ℕ) (s : Shared) : Shared :=
  { s with
    setpointQueue := ((MsgQueue.init 1).put nullSetpoint).2
    priorityQueue := ((MsgQueue.init 1).put priorityDisable).2
    lastUpdate := uint32 now
    isInit := true }

/-- `commanderSetSetpoint`; `now` is `k_uptime_ticks()`, and `release_setpoint_data` is not written. -/
def commanderSetSetpoint (setpoint : Setpoint) (priority : Int) (now : ℕ) : Action Result := do
  match ← peekPriority with
  | none => pure .assertFailed
  | some currentPriority =>
      if priority ≥ currentPriority then do
        let setpoint := { setpoint with timestamp := uint32 now }
        -- This is a potential race
        let _ ← getSetpoint
        let _ ← putSetpoint setpoint
        let _ ← getPriority
        let _ ← putPriority priority
        if priority > priorityHighlevel then highLevelDisable
        pure (.set setpoint)
      else pure (.set setpoint)

def commanderRelaxPriority : Action Result := do
  highLevelTellState
  let _ ← getPriority
  let _ ← putPriority priorityLowest
  pure .relaxed

/-- The setpoint of a stabilize time-out: level, with Z as it is. -/
def levelSetpoint (sp : Setpoint) : Setpoint :=
  { sp with
    mode := { sp.mode with x := .modeDisable, y := .modeDisable, roll := .modeAbs,
                           pitch := .modeAbs, yaw := .modeVelocity }
    attitude := { sp.attitude with roll := 0, pitch := 0 }
    attitudeRate := { sp.attitudeRate with yaw := 0 } }

/-- `commanderGetSetpoint`; `buffer` is what the caller's setpoint holds before the call and
`now` is `xTaskGetTickCount()`. -/
def commanderGetSetpoint (ticksPerSec : ℕ) (buffer : Setpoint) (state : State) (now : ℕ) :
    Action Result := do
  -- the result of the peek is not tested
  let setpoint := (← peekSetpoint).getD buffer
  setLastUpdate setpoint.timestamp
  let age := uint32Sub (uint32 now) setpoint.timestamp
  if age > wdtTimeoutShutdown ticksPerSec then do
    setLastState state
    pure (.got nullSetpoint)
  else if age > wdtTimeoutStabilize ticksPerSec then do
    let _ ← getPriority
    let _ ← putPriority priorityDisable
    setLastState state
    pure (.got (levelSetpoint setpoint))
  else do
    setLastState state
    pure (.got setpoint)

def commanderGetActivePriority : Action Result := do
  match ← peekPriority with
  | none => pure .assertFailed
  | some priority => pure (.active priority)

/-- A call with its arguments. -/
inductive Call where
  | setSetpoint (setpoint : Setpoint) (priority : Int) (now : ℕ)
  | relaxPriority
  | getSetpoint (buffer : Setpoint) (state : State) (now : ℕ)
  | getActivePriority

def Call.prog (ticksPerSec : ℕ) : Call → Action Result
  | setSetpoint setpoint priority now => commanderSetSetpoint setpoint priority now
  | relaxPriority => commanderRelaxPriority
  | getSetpoint buffer state now => commanderGetSetpoint ticksPerSec buffer state now
  | getActivePriority => commanderGetActivePriority

end Commander

end NanoDrone
