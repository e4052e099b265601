import NanoDrone.Controller.ControllerPid
import Mathlib.Data.Int.Init

/-! # A whole step of the PID controller (`controller_pid.c`)

`controllerPid` is called once a millisecond with the tick, the setpoint, the sensors and the state
estimate.  On every second tick it moves the desired yaw and runs the attitude PID, on every tenth
one the position PID; on the others it holds its outputs.  A thrust of zero overrides all of it.

The attitude and the position controller are not part of these sources: `AttitudeController` and
`PositionController` stand for their functions, with states of their own.  The results are about
what `controllerPid` itself adds.  Which outputs its log variables show (`logs_outputs`) holds for
any of them; where the yaw starts from when the thrust comes back (`yaw_at_start`) needs a position
controller that leaves the yaw alone and an attitude controller whose bound on the yaw error is not
negative.

Numbers are exact rationals; the outputs are `int16_t`. -/

namespace NanoDrone.Controller

/-! ## Data -/

/-- `attitude_t`, without its timestamp. -/
structure Attitude where
  roll : ℚ
  pitch : ℚ
  yaw : ℚ
deriving DecidableEq, Repr

/-- `Axis3f` and `struct vec3_s`, without its timestamp. -/
structure Vec where
  x : ℚ
  y : ℚ
  z : ℚ
deriving DecidableEq, Repr

/-- The field `mode` of `setpoint_t`. -/
structure Modes where
  x : StabMode
  y : StabMode
  z : StabMode
  roll : StabMode
  pitch : StabMode
  yaw : StabMode
  quat : StabMode
deriving DecidableEq, Repr

/-- `setpoint_t`. -/
structure FlightSetpoint where
  attitude : Attitude
  attitudeRate : Attitude
  attitudeQuaternion : Quaternion
  thrust : ℚ
  position : Vec
  velocity : Vec
  acceleration : Vec
  velocityBody : Bool
  mode : Modes
deriving DecidableEq, Repr

/-- What the yaw block reads of it. -/
def FlightSetpoint.yawPart (setpoint : FlightSetpoint) : Setpoint :=
  ⟨setpoint.attitude.yaw, setpoint.attitudeRate.yaw, setpoint.attitudeQuaternion,
    setpoint.mode.yaw, setpoint.mode.quat⟩

/-- The fields of `sensorData_t` that are read. -/
structure SensorData where
  acc : Vec
  gyro : Vec
deriving DecidableEq, Repr

/-- `state_t`. -/
structure StateEstimate where
  attitude : Attitude
  attitudeQuaternion : Quaternion
  position : Vec
  velocity : Vec
  acc : Vec
deriving DecidableEq, Repr

/-- `control_t` in `controlModeLegacy`. -/
structure Control where
  roll : Int16
  pitch : Int16
  yaw : Int16
  thrust : ℚ
deriving DecidableEq

/-- All outputs zero. -/
def Control.off : Control := ⟨0, 0, 0, 0⟩

/-- The functions of `attitude_controller.h`, over a state `α`. -/
structure AttitudeController (α : Type) where
  correctAttitudePID : Attitude → Attitude → α → Attitude × α
  correctRatePID : Vec → Attitude → α → α
  getActuatorOutput : α → Int16 × Int16 × Int16
  resetRollAttitudePID : α → α
  resetPitchAttitudePID : α → α
  resetAllPID : α → α
  getYawMaxDelta : α → ℚ

/-- The functions of `position_controller.h`, over a state `π`. -/
structure PositionController (π : Type) where
  positionController : ℚ → Attitude → FlightSetpoint → StateEstimate → π → (ℚ × Attitude) × π
  resetAllPID : π → π

/-- The static variables of `controller_pid.c`, and the states of the two controllers. -/
structure PidState (α π : Type) where
  attitudeDesired : Attitude
  rateDesired : Attitude
  actuatorThrust : ℚ
  cmdThrust : ℚ
  cmdRoll : ℚ
  cmdPitch : ℚ
  cmdYaw : ℚ
  rRoll : ℚ
  rPitch : ℚ
  rYaw : ℚ
  accelz : ℚ
  attitudeController : α
  positionController : π

/-- `RATE_MAIN_LOOP`. -/
def rateMainLoop : ℕ := 1000

/-- `POSITION_RATE`. -/
def positionRate : ℕ := 100

/-- `RATE_DO_EXECUTE`. -/
def rateDoExecute (rateHz tick : ℕ) : Prop := tick % (rateMainLoop / rateHz) = 0

instance (rateHz tick : ℕ) : Decidable (rateDoExecute rateHz tick) :=
  inferInstanceAs (Decidable (_ = 0))

/-- The conversions of `math3d.h`: the yaw of a quaternion in degrees, and degrees in radians. -/
structure Angles where
  quatYaw : Quaternion → ℚ
  radians : ℚ → ℚ

/-! ## The step -/

section
variable {α π : Type} (angles : Angles) (att : AttitudeController α) (pos : PositionController π)

/-- The desired yaw. -/
def yawStep (setpoint : FlightSetpoint) (state : StateEstimate) (s : PidState α π) :
    PidState α π :=
  { s with
    attitudeDesired := { s.attitudeDesired with
      yaw := yawBlock angles.quatYaw (att.getYawMaxDelta s.attitudeController) setpoint.yawPart
        state.attitude.yaw s.attitudeDesired.yaw } }

/-- The call of `positionController`. -/
def positionStep (setpoint : FlightSetpoint) (state : StateEstimate) (s : PidState α π) :
    PidState α π :=
  let r := pos.positionController s.actuatorThrust s.attitudeDesired setpoint state
    s.positionController
  { s with actuatorThrust := r.1.1, attitudeDesired := r.1.2, positionController := r.2 }

/-- Manual thrust, roll and pitch where the position is not controlled. -/
def manualStep (setpoint : FlightSetpoint) (s : PidState α π) : PidState α π :=
  { s with
    actuatorThrust := if setpoint.mode.z = .disable then setpoint.thrust else s.actuatorThrust
    attitudeDesired :=
      if setpoint.mode.x = .disable ∨ setpoint.mode.y = .disable then
        ⟨setpoint.attitude.roll, setpoint.attitude.pitch, s.attitudeDesired.yaw⟩
      else s.attitudeDesired }

/-- The desired rates; a setpoint in velocity mode overwrites them and resets its PID. -/
def attitudeStep (setpoint : FlightSetpoint) (state : StateEstimate) (s : PidState α π) :
    PidState α π :=
  let r := att.correctAttitudePID state.attitude s.attitudeDesired s.attitudeController
  let rollVelocity := setpoint.mode.roll = .velocity
  let pitchVelocity := setpoint.mode.pitch = .velocity
  let a := if rollVelocity then att.resetRollAttitudePID r.2 else r.2
  { s with
    rateDesired :=
      ⟨if rollVelocity then setpoint.attitudeRate.roll else r.1.roll,
        if pitchVelocity then setpoint.attitudeRate.pitch else r.1.pitch, r.1.yaw⟩
    attitudeController := if pitchVelocity then att.resetPitchAttitudePID a else a }

/-- The actuator output and the log variables; `cmd_thrust` is the thrust that `control` still
holds. -/
def rateStep (sensors : SensorData) (control : Control) (s : PidState α π) :
    Control × PidState α π :=
  let a := att.correctRatePID ⟨sensors.gyro.x, -sensors.gyro.y, sensors.gyro.z⟩ s.rateDesired
    s.attitudeController
  let output := att.getActuatorOutput a
  let control := { control with roll := output.1, pitch := output.2.1, yaw := -output.2.2 }
  (control, { s with
    attitudeController := a
    cmdThrust := control.thrust
    cmdRoll := control.roll.toInt
    cmdPitch := control.pitch.toInt
    cmdYaw := control.yaw.toInt
    rRoll := angles.radians sensors.gyro.x
    rPitch := -angles.radians sensors.gyro.y
    rYaw := angles.radians sensors.gyro.z
    accelz := sensors.acc.z })

/-- The thrust of the step; zero resets everything. -/
def outputStep (state : StateEstimate) (control : Control) (s : PidState α π) :
    Control × PidState α π :=
  if s.actuatorThrust = 0 then
    (.off, { s with
      cmdThrust := 0
      cmdRoll := 0
      cmdPitch := 0
      cmdYaw := 0
      attitudeController := att.resetAllPID s.attitudeController
      positionController := pos.resetAllPID s.positionController
      attitudeDesired := { s.attitudeDesired with yaw := state.attitude.yaw } })
  else ({ control with thrust := s.actuatorThrust }, s)

def controllerPid (control : Control) (setpoint : FlightSetpoint) (sensors : SensorData)
    (state : StateEstimate) (tick : ℕ) (s : PidState α π) : Control × PidState α π :=
  let s := if rateDoExecute attitudeRate tick then yawStep angles att setpoint state s else s
  let s := if rateDoExecute positionRate tick then positionStep pos setpoint state s else s
  let r :=
    if rateDoExecute attitudeRate tick then
      rateStep angles att sensors control
        (attitudeStep att setpoint state (manualStep setpoint s))
    else (control, s)
  outputStep att pos state r.1 r.2

/-- The arguments of a call, but for the struct `control`, which the caller keeps. -/
structure Update where
  setpoint : FlightSetpoint
  sensors : SensorData
  state : StateEstimate
  tick : ℕ

/-- A call, with the struct that the caller keeps. -/
def Update.run (u : Update) (r : Control × PidState α π) : Control × PidState α π :=
  controllerPid angles att pos r.1 u.setpoint u.sensors u.state u.tick r.2

/-- A sequence of calls. -/
def controllerRun (r : Control × PidState α π) (us : List Update) : Control × PidState α π :=
  us.foldl (fun r u => u.run angles att pos r) r

/-! ### What a step does -/

theorem positionRate_of_not_attitudeRate {tick : ℕ} (h : ¬ rateDoExecute attitudeRate tick) :
    ¬ rateDoExecute positionRate tick := by
  unfold rateDoExecute rateMainLoop attitudeRate positionRate at *
  omega

/-- The state before the thrust is looked at, on an attitude tick. -/
def beforeOutput (control : Control) (u : Update) (s : PidState α π) : Control × PidState α π :=
  let s := yawStep angles att u.setpoint u.state s
  let s := if rateDoExecute positionRate u.tick then positionStep pos u.setpoint u.state s else s
  rateStep angles att u.sensors control
    (attitudeStep att u.setpoint u.state (manualStep u.setpoint s))

theorem controllerPid_attitude {control : Control} {u : Update} {s : PidState α π}
    (h : rateDoExecute attitudeRate u.tick) :
    controllerPid angles att pos control u.setpoint u.sensors u.state u.tick s =
      outputStep att pos u.state (beforeOutput angles att pos control u s).1
        (beforeOutput angles att pos control u s).2 := by
  unfold controllerPid beforeOutput
  simp only [if_pos h]

/-- Between two attitude ticks nothing is computed. -/
theorem controllerPid_hold {control : Control} {u : Update} {s : PidState α π}
    (h : ¬ rateDoExecute attitudeRate u.tick) :
    controllerPid angles att pos control u.setpoint u.sensors u.state u.tick s =
      outputStep att pos u.state control s := by
  unfold controllerPid
  simp only [if_neg h, if_neg (positionRate_of_not_attitudeRate h)]

theorem outputStep_zero {state : StateEstimate} {control : Control} {s : PidState α π}
    (h : s.actuatorThrust = 0) : (outputStep att pos state control s).1 = .off ∧
      (outputStep att pos state control s).2.actuatorThrust = 0 ∧
      (outputStep att pos state control s).2.attitudeDesired.yaw = state.attitude.yaw := by
  unfold outputStep
  rw [if_pos h]
  exact ⟨rfl, h, rfl⟩

theorem outputStep_nonzero {state : StateEstimate} {control : Control} {s : PidState α π}
    (h : s.actuatorThrust ≠ 0) :
    outputStep att pos state control s = ({ control with thrust := s.actuatorThrust }, s) := by
  unfold outputStep
  rw [if_neg h]

theorem outputStep_thrust (state : StateEstimate) (control : Control) (s : PidState α π) :
    (outputStep att pos state control s).1.thrust = s.actuatorThrust := by
  unfold outputStep
  split
  · rename_i h
    exact h.symm
  · rfl

/-- What the log variables show of the outputs. -/
structure Logged (control : Control) (s : PidState α π) : Prop where
  roll : s.cmdRoll = control.roll.toInt
  pitch : s.cmdPitch = control.pitch.toInt
  yaw : s.cmdYaw = control.yaw.toInt

theorem Logged.output {state : StateEstimate} {control : Control} {s : PidState α π}
    (h : Logged control s) : Logged (outputStep att pos state control s).1
      (outputStep att pos state control s).2 := by
  unfold outputStep
  split
  · exact ⟨rfl, rfl, rfl⟩
  · exact ⟨h.roll, h.pitch, h.yaw⟩

/-- **One call.**  An attitude tick logs its own outputs, the others hold both. -/
theorem Logged.run {r : Control × PidState α π} (h : Logged r.1 r.2) (u : Update) :
    Logged (u.run angles att pos r).1 (u.run angles att pos r).2 := by
  unfold Update.run
  by_cases htick : rateDoExecute attitudeRate u.tick
  · rw [controllerPid_attitude angles att pos htick]
    apply Logged.output
    exact ⟨rfl, rfl, rfl⟩
  · rw [controllerPid_hold angles att pos htick]
    exact h.output att pos

/-- The thrust that an attitude tick logs is the one of the call before. -/
theorem cmdThrust_attitude {r : Control × PidState α π} {u : Update}
    (htick : rateDoExecute attitudeRate u.tick) (hthrust : (u.run angles att pos r).1.thrust ≠ 0) :
    (u.run angles att pos r).2.cmdThrust = r.1.thrust := by
  unfold Update.run at hthrust ⊢
  rw [controllerPid_attitude angles att pos htick] at hthrust ⊢
  rw [outputStep_thrust] at hthrust
  rw [outputStep_nonzero att pos hthrust]
  rfl

/-- **The log variables.**  In every run that starts with matching variables, the logged roll, pitch
and yaw are those of the output after every call; but the thrust logged on an attitude tick is the
one that the call before has sent. -/
theorem logs_outputs {r : Control × PidState α π} (h : Logged r.1 r.2) (us : List Update)
    (u : Update) :
    let before := controllerRun angles att pos r us
    let now := controllerRun angles att pos r (us ++ [u])
    Logged now.1 now.2 ∧ (rateDoExecute attitudeRate u.tick → now.1.thrust ≠ 0 →
      now.2.cmdThrust = before.1.thrust) := by
  have hrun : ∀ vs : List Update, Logged (controllerRun angles att pos r vs).1
      (controllerRun angles att pos r vs).2 := by
    intro vs
    unfold controllerRun
    induction vs generalizing r with
    | nil => exact h
    | cons v vs ih => exact ih (h.run angles att pos v)
  intro before now
  have hnow : now = u.run angles att pos before := by
    unfold now before controllerRun
    rw [List.foldl_append]
    rfl
  refine ⟨hrun _, ?_⟩
  rw [hnow]
  exact cmdThrust_attitude angles att pos

/-! ### The yaw when the thrust comes back -/

theorem abs_capAngle_le_abs (angle : ℚ) : |capAngle angle| ≤ |angle| := by
  by_cases h : |angle| ≤ 180
  · rw [capAngle_of_abs_le h]
  · exact (abs_capAngle_le angle).trans (le_of_lt (not_le.mp h))

/-- The clamp never moves the desired yaw away from the measured one. -/
theorem abs_clampYaw_le_abs {yawMaxDelta : ℚ} (hdelta : 0 ≤ yawMaxDelta) (measured yaw : ℚ) :
    |capAngle (clampYaw yawMaxDelta measured yaw - measured)| ≤ |capAngle (yaw - measured)| := by
  rcases hdelta.eq_or_lt with rfl | hpos
  · unfold clampYaw
    rw [if_neg (by simp)]
  · have hclamp := abs_clampYaw_le hpos measured yaw
    by_cases hin : |capAngle (yaw - measured)| ≤ yawMaxDelta
    · have hsame : clampYaw yawMaxDelta measured yaw = yaw := by
        obtain ⟨hlow, hhigh⟩ := abs_le.mp hin
        unfold clampYaw
        dsimp only
        rw [if_pos hpos.ne', if_neg (not_lt.mpr hhigh), if_neg (not_lt.mpr hlow)]
      rw [hsame]
    · exact hclamp.trans (le_of_lt (not_le.mp hin))

/-- The desired yaw of a step in velocity mode, from where it was. -/
theorem abs_yawBlock_le (quatYaw : Quaternion → ℚ) {yawMaxDelta : ℚ} (hdelta : 0 ≤ yawMaxDelta)
    {setpoint : Setpoint} (hmode : setpoint.modeYaw = .velocity) (measured yaw : ℚ) :
    |capAngle (yawBlock quatYaw yawMaxDelta setpoint measured yaw - measured)| ≤
      |setpoint.attitudeRateYaw * attitudeUpdateDt| + |yaw - measured| := by
  unfold yawBlock
  rw [if_pos hmode, abs_capAngle_eq_of_modEq ((capAngle_modEq _).sub_right measured)]
  refine (abs_clampYaw_le_abs hdelta measured _).trans ?_
  rw [abs_capAngle_eq_of_modEq ((capAngle_modEq _).sub_right measured)]
  refine (abs_capAngle_le_abs _).trans ?_
  have hsplit : yaw + setpoint.attitudeRateYaw * attitudeUpdateDt - measured =
      setpoint.attitudeRateYaw * attitudeUpdateDt + (yaw - measured) := by ring
  rw [hsplit]
  exact abs_add_le _ _

theorem positionStep_yaw (hpos : ∀ thrust attitude setpoint state p,
    (pos.positionController thrust attitude setpoint state p).1.2.yaw = attitude.yaw)
    (setpoint : FlightSetpoint) (state : StateEstimate) (s : PidState α π) :
    (positionStep pos setpoint state s).attitudeDesired.yaw = s.attitudeDesired.yaw :=
  hpos _ _ _ _ _

theorem beforeOutput_yaw (hpos : ∀ thrust attitude setpoint state p,
    (pos.positionController thrust attitude setpoint state p).1.2.yaw = attitude.yaw)
    (control : Control) (u : Update) (s : PidState α π) :
    (beforeOutput angles att pos control u s).2.attitudeDesired.yaw =
      yawBlock angles.quatYaw (att.getYawMaxDelta s.attitudeController) u.setpoint.yawPart
        u.state.attitude.yaw s.attitudeDesired.yaw := by
  have hmanual : ∀ t : PidState α π,
      (manualStep u.setpoint t).attitudeDesired.yaw = t.attitudeDesired.yaw := by
    intro t
    unfold manualStep
    split <;> rfl
  change (manualStep u.setpoint _).attitudeDesired.yaw = _
  rw [hmanual]
  split
  · exact positionStep_yaw pos hpos _ _ _
  · rfl

/-- **No yaw is stored up.**  However long the yaw stick was held while the thrust was zero: when
the next call flies in yaw-rate mode, its desired yaw is as far from the measured one as one step of
the rate and the movement since the last call make it, and no farther.  The position controller
leaves the yaw alone (`hpos`), and `attitudeControllerGetYawMaxDelta` is never negative
(`hdelta`). -/
theorem yaw_at_start (hpos : ∀ thrust attitude setpoint state p,
    (pos.positionController thrust attitude setpoint state p).1.2.yaw = attitude.yaw)
    (hdelta : ∀ a, 0 ≤ att.getYawMaxDelta a) {r : Control × PidState α π} {us : List Update}
    {u0 u : Update} (hzero : (controllerRun angles att pos r (us ++ [u0])).1.thrust = 0)
    (htick : rateDoExecute attitudeRate u.tick) (hmode : u.setpoint.mode.yaw = .velocity)
    (hflies : (controllerRun angles att pos r (us ++ [u0, u])).1.thrust ≠ 0) :
    |capAngle ((controllerRun angles att pos r (us ++ [u0, u])).2.attitudeDesired.yaw -
        u.state.attitude.yaw)| ≤
      |u.setpoint.attitudeRate.yaw * attitudeUpdateDt| +
        |u0.state.attitude.yaw - u.state.attitude.yaw| := by
  -- the state after the last call without thrust
  have hoff : (controllerRun angles att pos r (us ++ [u0])).2.attitudeDesired.yaw =
      u0.state.attitude.yaw := by
    have hrun : controllerRun angles att pos r (us ++ [u0]) =
        u0.run angles att pos (controllerRun angles att pos r us) := by
      unfold controllerRun
      rw [List.foldl_append]
      rfl
    rw [hrun] at hzero ⊢
    unfold Update.run at hzero ⊢
    by_cases h0 : rateDoExecute attitudeRate u0.tick
    · rw [controllerPid_attitude angles att pos h0] at hzero ⊢
      rw [outputStep_thrust] at hzero
      exact (outputStep_zero att pos hzero).2.2
    · rw [controllerPid_hold angles att pos h0] at hzero ⊢
      rw [outputStep_thrust] at hzero
      exact (outputStep_zero att pos hzero).2.2
  have hnext : controllerRun angles att pos r (us ++ [u0, u]) =
      u.run angles att pos (controllerRun angles att pos r (us ++ [u0])) := by
    unfold controllerRun
    rw [List.foldl_append, List.foldl_append]
    rfl
  rw [hnext] at hflies ⊢
  unfold Update.run at hflies ⊢
  rw [controllerPid_attitude angles att pos htick] at hflies ⊢
  rw [outputStep_thrust] at hflies
  rw [outputStep_nonzero att pos hflies, beforeOutput_yaw angles att pos hpos, hoff]
  exact abs_yawBlock_le angles.quatYaw (hdelta _) hmode _ _

theorem beforeOutput_thrust {control : Control} {u : Update} {s : PidState α π}
    (h : u.setpoint.mode.z = .disable) :
    (beforeOutput angles att pos control u s).2.actuatorThrust = u.setpoint.thrust := by
  unfold beforeOutput rateStep attitudeStep manualStep
  simp only [if_pos h]

end

/-- Controllers that hand on what they get, with constant outputs. -/
def constantAttitude : AttitudeController Unit where
  correctAttitudePID _ desired _ := (desired, ())
  correctRatePID _ _ _ := ()
  getActuatorOutput _ := (5, 6, 7)
  resetRollAttitudePID := id
  resetPitchAttitudePID := id
  resetAllPID := id
  getYawMaxDelta _ := 0

def constantPosition : PositionController Unit where
  positionController thrust attitude _ _ _ := ((thrust, attitude), ())
  resetAllPID := id

/-- A call with manual thrust and a yaw rate. -/
def manualUpdate (thrust yawRate yaw : ℚ) (tick : ℕ) : Update where
  setpoint := ⟨⟨0, 0, 0⟩, ⟨0, 0, yawRate⟩, ⟨0, 0, 0, 1⟩, thrust, ⟨0, 0, 0⟩, ⟨0, 0, 0⟩, ⟨0, 0, 0⟩,
    false, ⟨.disable, .disable, .disable, .abs, .abs, .velocity, .disable⟩⟩
  sensors := ⟨⟨0, 0, 1⟩, ⟨0, 0, 0⟩⟩
  state := ⟨⟨0, 0, yaw⟩, ⟨0, 0, 0, 1⟩, ⟨0, 0, 0⟩, ⟨0, 0, 0⟩, ⟨0, 0, 0⟩⟩
  tick := tick

/-- The variables before the first call. -/
def zeroState : PidState Unit Unit :=
  ⟨⟨0, 0, 0⟩, ⟨0, 0, 0⟩, 0, 0, 0, 0, 0, 0, 0, 0, 0, (), ()⟩

/-- The stick is held during one call without thrust, and the drone turns by one degree until the
next. -/
theorem yaw_at_start_small :
    let angles : Angles := ⟨fun q => q.z, id⟩
    |capAngle ((controllerRun angles constantAttitude constantPosition (.off, zeroState)
        ([] ++ [manualUpdate 0 50 10 0, manualUpdate 100 50 11 2])).2.attitudeDesired.yaw - 11)| ≤
      |50 * attitudeUpdateDt| + |10 - 11| := by
  intro angles
  exact @yaw_at_start _ _ angles constantAttitude constantPosition (fun _ _ _ _ _ => rfl)
    (fun _ => le_refl 0) (.off, zeroState) [] (manualUpdate 0 50 10 0) (manualUpdate 100 50 11 2)
    (by decide +kernel) rfl rfl (by decide +kernel)

/-- Two calls with different thrusts. -/
theorem logs_outputs_small :
    let angles : Angles := ⟨fun q => q.z, id⟩
    let now := controllerRun angles constantAttitude constantPosition (.off, zeroState)
      ([manualUpdate 100 0 0 0] ++ [manualUpdate 200 0 0 2])
    Logged now.1 now.2 ∧ now.1.thrust = 200 ∧ now.2.cmdThrust = 100 := by
  intro angles now
  have h := logs_outputs angles constantAttitude constantPosition (r := (.off, zeroState))
    ⟨rfl, rfl, rfl⟩ [manualUpdate 100 0 0 0] (manualUpdate 200 0 0 2)
  refine ⟨h.1, by decide +kernel, ?_⟩
  rw [h.2 rfl (by decide +kernel)]
  decide +kernel

end NanoDrone.Controller
