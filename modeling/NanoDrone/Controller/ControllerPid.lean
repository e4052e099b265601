import Mathlib.Algebra.Group.ModEq
import Mathlib.Algebra.Order.Archimedean.Basic
import Mathlib.Tactic.Linarith
import Mathlib.Tactic.NormNum
import Mathlib.Tactic.Ring

/-! # The yaw setpoint of the PID controller (`controller_pid.c`)

`capAngle` wraps an angle by two loops, and the yaw block of `controllerPid` composes it three times
with a clamp around the measured yaw.  The loops end (`capDown` and `capUp` are total), and
`capAngle_isWrapped` and `yawBlock_velocity` say what comes out.

Angles are exact rationals, in degrees.  What `attitudeControllerGetYawMaxDelta` returns, and the
yaw of a quaternion (a real function of its components), are parameters. -/

namespace NanoDrone.Controller

/-! ## Wrapping an angle -/

/-- The first loop of `capAngle`. -/
def capDown (result : ℚ) : ℚ := if 180 < result then capDown (result - 360) else result
termination_by ⌈result⌉.toNat
decreasing_by
  rename_i hresult
  have hpos : 0 < ⌈result⌉ := Int.ceil_pos.mpr (by linarith)
  have hless : ⌈result - 360⌉ = ⌈result⌉ - 360 := Int.ceil_sub_ofNat result 360
  omega

/-- The second loop of `capAngle`. -/
def capUp (result : ℚ) : ℚ := if result < -180 then capUp (result + 360) else result
termination_by ⌈-result⌉.toNat
decreasing_by
  rename_i hresult
  have hpos : 0 < ⌈-result⌉ := Int.ceil_pos.mpr (by linarith)
  have hless : ⌈-(result + 360)⌉ = ⌈-result⌉ - 360 := by
    rw [neg_add, ← sub_eq_add_neg]
    exact Int.ceil_sub_ofNat (-result) 360
  omega

def capAngle (angle : ℚ) : ℚ := capUp (capDown angle)

theorem capDown_of_le {angle : ℚ} (hangle : angle ≤ 180) : capDown angle = angle := by
  rw [capDown, if_neg hangle.not_gt]

theorem capUp_of_le {angle : ℚ} (hangle : -180 ≤ angle) : capUp angle = angle := by
  rw [capUp, if_neg hangle.not_gt]

theorem capDown_modEq (angle : ℚ) : capDown angle ≡ angle [PMOD 360] := by
  induction angle using capDown.induct with
  | case1 angle hangle ih =>
      rw [capDown, if_pos hangle]
      exact ih.trans (AddCommGroup.sub_modEq_iff_modEq_add.mpr (AddCommGroup.add_modEq_left.mpr
        AddCommGroup.self_modEq_zero).symm)
  | case2 angle hangle => rw [capDown, if_neg hangle]

theorem capUp_modEq (angle : ℚ) : capUp angle ≡ angle [PMOD 360] := by
  induction angle using capUp.induct with
  | case1 angle hangle ih =>
      rw [capUp, if_pos hangle]
      exact ih.trans (AddCommGroup.add_modEq_left.mpr AddCommGroup.self_modEq_zero)
  | case2 angle hangle => rw [capUp, if_neg hangle]

theorem capDown_le (angle : ℚ) : capDown angle ≤ 180 := by
  induction angle using capDown.induct with
  | case1 angle hangle ih => rwa [capDown, if_pos hangle]
  | case2 angle hangle => rwa [capDown, if_neg hangle, ← not_lt]

/-- The second loop leaves what is not above `180` there, and ends above `-180`. -/
theorem capUp_mem {angle : ℚ} (hangle : angle ≤ 180) :
    -180 ≤ capUp angle ∧ capUp angle ≤ 180 := by
  induction angle using capUp.induct with
  | case1 angle hlow ih =>
      rw [capUp, if_pos hlow]
      exact ih (by linarith)
  | case2 angle hlow =>
      rw [capUp, if_neg hlow]
      exact ⟨not_lt.mp hlow, hangle⟩

theorem capAngle_modEq (angle : ℚ) : capAngle angle ≡ angle [PMOD 360] :=
  (capUp_modEq _).trans (capDown_modEq angle)

theorem abs_capAngle_le (angle : ℚ) : |capAngle angle| ≤ 180 :=
  abs_le.mpr (capUp_mem (capDown_le angle))

theorem capAngle_of_abs_le {angle : ℚ} (hangle : |angle| ≤ 180) : capAngle angle = angle := by
  obtain ⟨hlow, hhigh⟩ := abs_le.mp hangle
  rw [capAngle, capDown_of_le hhigh, capUp_of_le hlow]

/-- Two congruent angles that are not beyond `180` are equal, or they are the two ends. -/
theorem eq_or_abs_eq_of_modEq {a b : ℚ} (h : a ≡ b [PMOD 360]) (ha : |a| ≤ 180) (hb : |b| ≤ 180) :
    a = b ∨ |a| = 180 ∧ |b| = 180 := by
  obtain ⟨turns, hturns⟩ := AddCommGroup.modEq_iff_zsmul.mp h
  rw [zsmul_eq_mul] at hturns
  obtain ⟨halow, hahigh⟩ := abs_le.mp ha
  obtain ⟨hblow, hbhigh⟩ := abs_le.mp hb
  -- the two differ by at most one turn, and by a whole turn only from one end to the other
  have hlow : (-1 : ℤ) ≤ turns := by
    have : (-1 : ℚ) ≤ turns := by linarith
    exact_mod_cast this
  have hhigh : turns ≤ 1 := by
    have : (turns : ℚ) ≤ 1 := by linarith
    exact_mod_cast this
  obtain rfl | rfl | rfl : turns = -1 ∨ turns = 0 ∨ turns = 1 := by omega
  · have hends : a = 180 ∧ b = -180 := by constructor <;> push_cast at hturns <;> linarith
    right
    rw [hends.1, hends.2]
    norm_num
  · left
    push_cast at hturns
    linarith
  · have hends : a = -180 ∧ b = 180 := by constructor <;> push_cast at hturns <;> linarith
    right
    rw [hends.1, hends.2]
    norm_num

/-- `capAngle` may return either end for the same direction, with the same absolute value. -/
theorem abs_capAngle_eq_of_modEq {a b : ℚ} (h : a ≡ b [PMOD 360]) :
    |capAngle a| = |capAngle b| := by
  have hcap : capAngle a ≡ capAngle b [PMOD 360] :=
    ((capAngle_modEq a).trans h).trans (capAngle_modEq b).symm
  obtain heq | ⟨ha, hb⟩ := eq_or_abs_eq_of_modEq hcap (abs_capAngle_le a) (abs_capAngle_le b)
  · rw [heq]
  · rw [ha, hb]

/-- The value in `[-180, 180]` that is congruent to an angle; the two ends are congruent. -/
structure IsWrapped (angle result : ℚ) : Prop where
  lower : -180 ≤ result
  upper : result ≤ 180
  congr : result ≡ angle [PMOD 360]
  unique : ∀ other : ℚ, -180 ≤ other → other ≤ 180 → other ≡ angle [PMOD 360] →
    other = result ∨ |other| = 180 ∧ |result| = 180

theorem capAngle_isWrapped (angle : ℚ) : IsWrapped angle (capAngle angle) := by
  obtain ⟨hlower, hupper⟩ := abs_le.mp (abs_capAngle_le angle)
  refine ⟨hlower, hupper, capAngle_modEq angle, ?_⟩
  intro other hlow hhigh hother
  exact eq_or_abs_eq_of_modEq (hother.trans (capAngle_modEq angle).symm) (abs_le.mpr ⟨hlow, hhigh⟩)
    (abs_capAngle_le angle)

/-! ## The yaw block of `controllerPid` -/

/-- `stab_mode_t`. -/
inductive StabMode where
  | disable
  | abs
  | velocity
deriving DecidableEq, Repr

/-- `quaternion_t`. -/
structure Quaternion where
  x : ℚ
  y : ℚ
  z : ℚ
  w : ℚ
deriving DecidableEq, Repr

/-- The fields of `setpoint_t` that the yaw block reads. -/
structure Setpoint where
  attitudeYaw : ℚ
  attitudeRateYaw : ℚ
  attitudeQuaternion : Quaternion
  modeYaw : StabMode
  modeQuat : StabMode
deriving DecidableEq, Repr

def attitudeRate : ℕ := 500

/-- `ATTITUDE_UPDATE_DT`. -/
def attitudeUpdateDt : ℚ := 1 / attitudeRate

/-- The clamp of the yaw setpoint to `yawMaxDelta` around the measured yaw; zero switches it off. -/
def clampYaw (yawMaxDelta measured yaw : ℚ) : ℚ :=
  if yawMaxDelta ≠ 0 then
    let delta := capAngle (yaw - measured)
    if delta > yawMaxDelta then measured + yawMaxDelta
    else if delta < -yawMaxDelta then measured - yawMaxDelta
    else yaw
  else yaw

/-- The yaw block of an attitude step: what becomes of `attitudeDesired.yaw`.  `quatYaw` is the yaw
of a quaternion, in degrees. -/
def yawBlock (quatYaw : Quaternion → ℚ) (yawMaxDelta : ℚ) (setpoint : Setpoint) (measured yaw : ℚ) :
    ℚ :=
  capAngle <|
    if setpoint.modeYaw = .velocity then
      clampYaw yawMaxDelta measured
        (capAngle (yaw + setpoint.attitudeRateYaw * attitudeUpdateDt))
    else if setpoint.modeYaw = .abs then setpoint.attitudeYaw
    else if setpoint.modeQuat = .abs then quatYaw setpoint.attitudeQuaternion
    else yaw

/-- The clamp keeps the wrapped difference to the measured yaw below its bound. -/
theorem abs_clampYaw_le {yawMaxDelta : ℚ} (hdelta : 0 < yawMaxDelta) (measured yaw : ℚ) :
    |capAngle (clampYaw yawMaxDelta measured yaw - measured)| ≤ yawMaxDelta := by
  have hcap := abs_capAngle_le (yaw - measured)
  unfold clampYaw
  rw [if_pos hdelta.ne']
  dsimp only
  -- the clamp can only act when its bound is below half a turn, so that it is not wrapped itself
  split
  · rename_i habove
    have hhalf : |yawMaxDelta| ≤ 180 := by
      rw [abs_of_pos hdelta]
      exact (habove.trans_le ((le_abs_self _).trans hcap)).le
    rw [add_sub_cancel_left, capAngle_of_abs_le hhalf, abs_of_pos hdelta]
  · rename_i habove
    split
    · rename_i hbelow
      have hhalf : |-yawMaxDelta| ≤ 180 := by
        rw [abs_neg, abs_of_pos hdelta]
        exact ((lt_neg_of_lt_neg hbelow).trans_le ((neg_le_abs _).trans hcap)).le
      have hsub : measured - yawMaxDelta - measured = -yawMaxDelta := by ring
      rw [hsub, capAngle_of_abs_le hhalf, abs_neg, abs_of_pos hdelta]
    · rename_i hbelow
      exact abs_le.mpr ⟨not_lt.mp hbelow, not_lt.mp habove⟩

/-- **The yaw setpoint.**  `capAngle` returns the wrapped angle, and after the yaw block of an
attitude step in velocity mode the desired yaw is wrapped and at most `yawMaxDelta` away from the
measured yaw, around the circle. -/
theorem yawBlock_velocity (quatYaw : Quaternion → ℚ) {yawMaxDelta : ℚ} (hdelta : 0 < yawMaxDelta)
    {setpoint : Setpoint} (hmode : setpoint.modeYaw = .velocity) (measured previous : ℚ) :
    (∀ angle, IsWrapped angle (capAngle angle)) ∧
    let yaw := yawBlock quatYaw yawMaxDelta setpoint measured previous
    yaw ∈ Set.Icc (-180) 180 ∧ |capAngle (yaw - measured)| ≤ yawMaxDelta := by
  refine ⟨capAngle_isWrapped, ?_⟩
  intro yaw
  have hyaw : yaw = capAngle (clampYaw yawMaxDelta measured
      (capAngle (previous + setpoint.attitudeRateYaw * attitudeUpdateDt))) := by
    unfold yaw yawBlock
    rw [if_pos hmode]
  have hrange : yaw ∈ Set.Icc (-180) 180 := by
    rw [hyaw]
    exact abs_le.mp (abs_capAngle_le _)
  refine ⟨hrange, ?_⟩
  rw [hyaw, abs_capAngle_eq_of_modEq ((capAngle_modEq _).sub_right measured)]
  exact abs_clampYaw_le hdelta measured _

theorem yawBlock_velocity_at_one :
    (∀ angle, IsWrapped angle (capAngle angle)) ∧
    let yaw := yawBlock (fun _ => 0) 1 ⟨0, 100, ⟨0, 0, 0, 1⟩, .velocity, .disable⟩ 179 (-179)
    yaw ∈ Set.Icc (-180) 180 ∧ |capAngle (yaw - 179)| ≤ 1 :=
  yawBlock_velocity (fun _ => 0) (by norm_num) rfl 179 (-179)

end NanoDrone.Controller
