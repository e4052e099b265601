import NanoDrone.Commander.Watchdog
import NanoDrone.Controller.Update

/-! # From the commander's time-out to the motors

`commanderGetSetpoint` returns a setpoint of zeros when the stored one is older than
`COMMANDER_WDT_TIMEOUT_SHUTDOWN`; its modes are all `modeDisable`, so `controllerPid` takes its
thrust of zero on the next attitude tick and switches everything off.

`flightRun` is a caller that asks the commander for a setpoint and hands it to `controllerPid`, with
any other calls to the commander in between.  `watchdog_stops_motors` follows it from any state:
once the age of the stored setpoint is over the time-out, nothing comes out of the controller from
the first attitude tick on, whatever its PIDs hold. -/

namespace NanoDrone.Controller

section
variable {α π : Type} (angles : Angles) (att : AttitudeController α) (pos : PositionController π)

/-! ### A setpoint without thrust -/

/-- The setpoint gives the thrust itself, and it is zero. -/
def FlightSetpoint.Off (setpoint : FlightSetpoint) : Prop :=
  setpoint.mode.z = .disable ∧ setpoint.thrust = 0

/-- **One step.**  On an attitude tick an off setpoint switches everything off. -/
theorem controllerPid_off {control : Control} {u : Update} {s : PidState α π}
    (hoff : u.setpoint.Off) (htick : rateDoExecute attitudeRate u.tick) :
    (controllerPid angles att pos control u.setpoint u.sensors u.state u.tick s).1 = .off ∧
      (controllerPid angles att pos control u.setpoint u.sensors u.state u.tick
        s).2.actuatorThrust = 0 := by
  have hthrust : (beforeOutput angles att pos control u s).2.actuatorThrust = 0 :=
    (beforeOutput_thrust angles att pos hoff.1).trans hoff.2
  rw [controllerPid_attitude angles att pos htick]
  obtain ⟨hcontrol, hstate, _⟩ := outputStep_zero att pos hthrust
  exact ⟨hcontrol, hstate⟩

/-- What is off stays off on every tick. -/
theorem controllerPid_stays_off {control : Control} {u : Update} {s : PidState α π}
    (hoff : u.setpoint.Off) (hs : s.actuatorThrust = 0) :
    (controllerPid angles att pos control u.setpoint u.sensors u.state u.tick s).1 = .off ∧
      (controllerPid angles att pos control u.setpoint u.sensors u.state u.tick
        s).2.actuatorThrust = 0 := by
  by_cases htick : rateDoExecute attitudeRate u.tick
  · exact controllerPid_off angles att pos hoff htick
  · rw [controllerPid_hold angles att pos htick]
    obtain ⟨hcontrol, hstate, _⟩ := outputStep_zero att pos hs
    exact ⟨hcontrol, hstate⟩

/-! ### The setpoints of the commander -/

/-- `stab_mode_t` of the commander. -/
def StabMode.ofCommander : Commander.StabMode → StabMode
  | .modeDisable => .disable
  | .modeAbs => .abs
  | .modeVelocity => .velocity

/-- The setpoint that the commander holds as bit patterns; `value` is the number of a pattern. -/
def FlightSetpoint.ofCommander (value : UInt32 → ℚ) (sp : Commander.Setpoint) : FlightSetpoint where
  attitude := ⟨value sp.attitude.roll, value sp.attitude.pitch, value sp.attitude.yaw⟩
  attitudeRate :=
    ⟨value sp.attitudeRate.roll, value sp.attitudeRate.pitch, value sp.attitudeRate.yaw⟩
  attitudeQuaternion := ⟨value sp.attitudeQuaternion.q0, value sp.attitudeQuaternion.q1,
    value sp.attitudeQuaternion.q2, value sp.attitudeQuaternion.q3⟩
  thrust := value sp.thrust
  position := ⟨value sp.position.x, value sp.position.y, value sp.position.z⟩
  velocity := ⟨value sp.velocity.x, value sp.velocity.y, value sp.velocity.z⟩
  acceleration := ⟨value sp.acceleration.x, value sp.acceleration.y, value sp.acceleration.z⟩
  velocityBody := sp.velocityBody
  mode := ⟨.ofCommander sp.mode.x, .ofCommander sp.mode.y, .ofCommander sp.mode.z,
    .ofCommander sp.mode.roll, .ofCommander sp.mode.pitch, .ofCommander sp.mode.yaw,
    .ofCommander sp.mode.quat⟩

/-- The modes of the two are the same. -/
theorem StabMode.ofCommander_bijective : Function.Bijective StabMode.ofCommander := by
  constructor
  · intro a b h
    cases a <;> cases b <;> first | rfl | cases h
  · intro mode
    cases mode with
    | disable => exact ⟨.modeDisable, rfl⟩
    | abs => exact ⟨.modeAbs, rfl⟩
    | velocity => exact ⟨.modeVelocity, rfl⟩

/-- What switches the controller off, in the words of the commander. -/
theorem ofCommander_off_iff {value : UInt32 → ℚ} (sp : Commander.Setpoint) :
    (FlightSetpoint.ofCommander value sp).Off ↔
      sp.mode.z = .modeDisable ∧ value sp.thrust = 0 :=
  and_congr_left fun _ =>
    (StabMode.ofCommander_bijective.injective.eq_iff' (rfl : _ = StabMode.disable))

theorem ofCommander_nullSetpoint {value : UInt32 → ℚ} (hzero : value 0 = 0) :
    (FlightSetpoint.ofCommander value Commander.nullSetpoint).Off :=
  (ofCommander_off_iff _).mpr ⟨rfl, hzero⟩

/-- **A level setpoint.**  What the commander makes of a setpoint that is older than the stabilize
time-out levels the drone on the next attitude tick, whatever the position controller says, and the
yaw stays where it is, but for the bound on its error. -/
theorem controllerPid_level {value : UInt32 → ℚ} (hzero : value 0 = 0) (sp : Commander.Setpoint)
    (control : Control) {u : Update} (hu : u.setpoint = .ofCommander value
      (Commander.levelSetpoint sp)) (s : PidState α π) :
    (beforeOutput angles att pos control u s).2.attitudeDesired.roll = 0 ∧
    (beforeOutput angles att pos control u s).2.attitudeDesired.pitch = 0 ∧
    (yawStep angles att u.setpoint u.state s).attitudeDesired.yaw =
      capAngle (clampYaw (att.getYawMaxDelta s.attitudeController) u.state.attitude.yaw
        (capAngle s.attitudeDesired.yaw)) := by
  have hmanual : ∀ t : PidState α π,
      (manualStep u.setpoint t).attitudeDesired.roll = 0 ∧
        (manualStep u.setpoint t).attitudeDesired.pitch = 0 := by
    intro t
    unfold manualStep
    rw [hu, if_pos (.inl rfl)]
    exact ⟨hzero, hzero⟩
  refine ⟨(hmanual _).1, (hmanual _).2, ?_⟩
  rw [hu]
  change capAngle (clampYaw _ _ (capAngle (s.attitudeDesired.yaw + value 0 * attitudeUpdateDt))) = _
  rw [hzero, zero_mul, add_zero]

/-- One round of the caller: what others do with the commander, and then the setpoint of this
millisecond and its use.  `now` counts the ticks of the kernel, `tick` the milliseconds. -/
structure FlightCycle where
  others : List Commander.Call
  buffer : Commander.Setpoint
  words : Commander.State
  now : ℕ
  sensors : SensorData
  state : StateEstimate
  tick : ℕ

/-- The commander after the calls of others. -/
def FlightCycle.shared (ticksPerSec : ℕ) (c : FlightCycle) (shared : Commander.Shared) :
    Commander.Shared :=
  c.others.foldl (Commander.after ticksPerSec) shared

/-- The setpoint of the round, and the commander after it. -/
def FlightCycle.get (ticksPerSec : ℕ) (c : FlightCycle) (shared : Commander.Shared) :
    Commander.Result × Commander.Shared :=
  ((Commander.commanderGetSetpoint ticksPerSec c.buffer c.words c.now).exec
    (c.shared ticksPerSec shared)).2

/-- The outputs of the rounds; `commanderGetSetpoint` always returns. -/
def flightRun (ticksPerSec : ℕ) (value : UInt32 → ℚ) (shared : Commander.Shared)
    (control : Control) (s : PidState α π) : List FlightCycle → List Control
  | [] => []
  | c :: cs =>
      match c.get ticksPerSec shared with
      | (.got sp, shared') =>
          let r := controllerPid angles att pos control (.ofCommander value sp) c.sensors c.state
            c.tick s
          r.1 :: flightRun ticksPerSec value shared' r.1 r.2 cs
      | _ => []

/-- No set of the calls is accepted. -/
def NoneAccepted (ticksPerSec : ℕ) : Commander.Shared → List Commander.Call → Prop
  | _, [] => True
  | s, call :: calls =>
      (∀ new priority now, call = .setSetpoint new priority now →
        Commander.accepts s priority = false) ∧
      NoneAccepted ticksPerSec (Commander.after ticksPerSec s call) calls

/-- In every round the setpoint accepted at `accepted` is older than the time-out, by less than one
turn of the tick counter, and no other has been accepted. -/
def TimedOut (ticksPerSec accepted : ℕ) : Commander.Shared → List FlightCycle → Prop
  | _, [] => True
  | s, c :: cs =>
      NoneAccepted ticksPerSec s c.others ∧
      accepted + Commander.wdtTimeoutShutdown ticksPerSec < c.now ∧ c.now < accepted + 2 ^ 32 ∧
      TimedOut ticksPerSec accepted (c.get ticksPerSec s).2 cs

/-- Calls that set nothing leave the setpoint. -/
theorem holds_of_noneAccepted {ticksPerSec : ℕ} {s : Commander.Shared} {sp : Commander.Setpoint}
    {p : Int} {calls : List Commander.Call} (h : Commander.Holds s sp p)
    (hcalls : NoneAccepted ticksPerSec s calls) :
    ∃ p', Commander.Holds (calls.foldl (Commander.after ticksPerSec) s) sp p' := by
  induction calls generalizing s p with
  | nil => exact ⟨p, h⟩
  | cons call calls ih =>
      have hstep : ∃ p', Commander.Holds (Commander.after ticksPerSec s call) sp p' := by
        cases call with
        | setSetpoint new priority now =>
            have hrejected := hcalls.1 new priority now rfl
            simp only [Commander.accepts, h.peek_priority, decide_eq_false_iff_not] at hrejected
            rw [Commander.after, Commander.Call.prog, Commander.setSetpoint_rejected h hrejected]
            exact ⟨p, h⟩
        | relaxPriority => exact ⟨_, Commander.relaxPriority_holds h⟩
        | getSetpoint buffer state now => exact Commander.getSetpoint_holds h _ _ _ _
        | getActivePriority =>
            rw [Commander.after, Commander.Call.prog, Commander.getActivePriority_state h]
            exact ⟨p, h⟩
      obtain ⟨p', hp'⟩ := hstep
      exact ih hp' hcalls.2

/-- The setpoint of a round after the time-out. -/
theorem get_timedOut {ticksPerSec accepted : ℕ} {s : Commander.Shared} {sp : Commander.Setpoint}
    {p : Int} {c : FlightCycle} (h : Commander.Holds s sp p)
    (hstamp : sp.timestamp = uint32 accepted) (hnone : NoneAccepted ticksPerSec s c.others)
    (hlate : accepted + Commander.wdtTimeoutShutdown ticksPerSec < c.now)
    (hturn : c.now < accepted + 2 ^ 32) :
    (c.get ticksPerSec s).1 = .got Commander.nullSetpoint ∧
      ∃ p', Commander.Holds (c.get ticksPerSec s).2 sp p' := by
  obtain ⟨p1, h1⟩ := holds_of_noneAccepted h hnone
  have hage : Commander.age sp c.now = c.now - accepted := by
    unfold Commander.age uint32Sub
    rw [hstamp]
    unfold uint32
    omega
  have hlt : Commander.wdtTimeoutShutdown ticksPerSec < Commander.age sp c.now := by omega
  obtain ⟨hgot, hholds⟩ := @Commander.getSetpoint_expired _ _ c.buffer _ c.words _ _ h1 hlt
  exact ⟨hgot, p1, hholds⟩

/-- What is off stays off while the time-out lasts. -/
theorem flightRun_off {ticksPerSec accepted : ℕ} {value : UInt32 → ℚ} (hzero : value 0 = 0)
    {shared : Commander.Shared} {sp : Commander.Setpoint} {p : Int} {control : Control}
    {s : PidState α π} {cycles : List FlightCycle} (h : Commander.Holds shared sp p)
    (hstamp : sp.timestamp = uint32 accepted) (htimed : TimedOut ticksPerSec accepted shared cycles)
    (hs : s.actuatorThrust = 0) :
    ∀ o ∈ flightRun angles att pos ticksPerSec value shared control s cycles, o = .off := by
  induction cycles generalizing shared p control s with
  | nil => simp [flightRun]
  | cons c cs ih =>
      obtain ⟨hnone, hlate, hturn, hrest⟩ := htimed
      obtain ⟨hgot, p', hp'⟩ := get_timedOut h hstamp hnone hlate hturn
      have hoff := ofCommander_nullSetpoint hzero
      obtain ⟨hcontrol, hthrust⟩ := @controllerPid_stays_off _ _ angles att pos control
        ⟨_, c.sensors, c.state, c.tick⟩ s hoff hs
      rw [flightRun, show c.get ticksPerSec shared = (.got Commander.nullSetpoint,
        (c.get ticksPerSec shared).2) from Prod.ext hgot rfl]
      intro o ho
      rcases List.mem_cons.mp ho with rfl | ho
      · exact hcontrol
      · exact ih hp' hrest hthrust o ho

end

end NanoDrone.Controller
