import NanoDrone.HighLevel.Finished

/-! # Take-off and landing with a velocity (`crtp_commander_high_level.c`)

`takeoff_with_velocity` and `land_with_velocity` turn a height and a velocity into a duration.  A
velocity that is not positive is replaced by a default, which is a parameter that clients can write
and that nobody checks: `withVelocity_iff` says that this is all that can go wrong.

Numbers are exact rationals.  As in `Trajectories.lean` the planner stands outside, and what it
returns comes with the packet. -/

namespace NanoDrone.HighLevel

/-- The two commands. -/
inductive Maneuver where
  | takeoff
  | land
deriving DecidableEq, Repr

/-- `struct data_takeoff_with_velocity` and `struct data_land_with_velocity`. -/
structure DataWithVelocity where
  groupMask : UInt8
  height : ℚ
  heightIsRelative : Bool
  yaw : ℚ
  useCurrentYaw : Bool
  velocity : ℚ
deriving DecidableEq, Repr

/-- `struct vec`. -/
structure Position where
  x : ℚ
  y : ℚ
  z : ℚ
deriving DecidableEq, Repr

/-- A call of `plan_takeoff` or `plan_land`. -/
structure PlanCall where
  maneuver : Maneuver
  currPos : Position
  currYaw : ℚ
  height : ℚ
  hoverYaw : ℚ
  duration : ℚ
  t : ℚ
deriving DecidableEq, Repr

/-- The variables that the two functions read, and the calls of the planner so far. -/
structure Hover where
  groupMask : UInt8
  pos : Position
  yaw : ℚ
  defaultTakeoffVelocity : ℚ
  defaultLandingVelocity : ℚ
  planned : List PlanCall
deriving DecidableEq, Repr

namespace Hover

/-- What the parameters `vtoff` and `vland` are written to. -/
def setDefaultVelocity (m : Maneuver) (value : ℚ) (s : Hover) : Hover :=
  match m with
  | .takeoff => { s with defaultTakeoffVelocity := value }
  | .land => { s with defaultLandingVelocity := value }

def defaultVelocity (s : Hover) : Maneuver → ℚ
  | .takeoff => s.defaultTakeoffVelocity
  | .land => s.defaultLandingVelocity

end Hover

namespace DataWithVelocity

/-- The velocity that the functions divide by. -/
def divisor (data : DataWithVelocity) (defaultVelocity : ℚ) : ℚ :=
  if data.velocity > 0 then data.velocity else defaultVelocity

end DataWithVelocity

/-- The common body; `relativeHeight` is the height of a relative maneuver. -/
def withVelocity (m : Maneuver) (relativeHeight : ℚ) (data : DataWithVelocity) (uptime : ℕ)
    (planResult : Int) (s : Hover) : Int × Hover :=
  if isInGroup data.groupMask s.groupMask then
    let hoverYaw := if data.useCurrentYaw then s.yaw else data.yaw
    let height := if data.heightIsRelative then relativeHeight else data.height
    let velocity := data.divisor (s.defaultVelocity m)
    let duration := |height - s.pos.z| / velocity
    (planResult, { s with
      planned := s.planned ++ [⟨m, s.pos, s.yaw, height, hoverYaw, duration, timeAt uptime⟩] })
  else (0, s)

def takeoffWithVelocity (data : DataWithVelocity) (uptime : ℕ) (planResult : Int) (s : Hover) :
    Int × Hover :=
  withVelocity .takeoff (data.height + s.pos.z) data uptime planResult s

def landWithVelocity (data : DataWithVelocity) (uptime : ℕ) (planResult : Int) (s : Hover) :
    Int × Hover :=
  withVelocity .land (s.pos.z - data.height) data uptime planResult s

namespace Maneuver

/-- The function that handles a maneuver. -/
def handle : Maneuver → DataWithVelocity → ℕ → Int → Hover → Int × Hover
  | takeoff => takeoffWithVelocity
  | land => landWithVelocity

/-- The height that a packet asks for: relative heights go up for a take-off and down for a
landing. -/
def targetHeight (data : DataWithVelocity) (z : ℚ) : Maneuver → ℚ
  | takeoff => if data.heightIsRelative then z + data.height else data.height
  | land => if data.heightIsRelative then z - data.height else data.height

end Maneuver

/-- A call of the planner for a packet: it divides by a positive velocity, and its duration is what
the maneuver takes at this velocity. -/
structure PlannedWell (m : Maneuver) (data : DataWithVelocity) (s : Hover) (call : PlanCall) :
    Prop where
  maneuver : call.maneuver = m
  velocity : 0 < data.divisor (s.defaultVelocity m)
  duration : 0 ≤ call.duration
  distance : call.duration * data.divisor (s.defaultVelocity m) = |call.height - s.pos.z|
  height : call.height = m.targetHeight data s.pos.z

section
variable {m : Maneuver} {data : DataWithVelocity} {uptime : ℕ} {planResult : Int} {s : Hover}

/-- What a packet does: in the group of the drone it calls the planner once. -/
theorem handle_eq (m : Maneuver) (data : DataWithVelocity) (uptime : ℕ) (planResult : Int)
    (s : Hover) :
    m.handle data uptime planResult s =
      if isInGroup data.groupMask s.groupMask then
        (planResult, { s with
          planned := s.planned ++ [⟨m, s.pos, s.yaw, m.targetHeight data s.pos.z,
            if data.useCurrentYaw then s.yaw else data.yaw,
            |m.targetHeight data s.pos.z - s.pos.z| / data.divisor (s.defaultVelocity m),
            timeAt uptime⟩] })
      else (0, s) := by
  cases m with
  | takeoff =>
      change withVelocity .takeoff (data.height + s.pos.z) data uptime planResult s = _
      rw [add_comm]
      rfl
  | land => rfl

/-- The divisor is positive exactly if the velocity of the packet or the default is. -/
theorem DataWithVelocity.divisor_pos_iff (defaultVelocity : ℚ) :
    0 < data.divisor defaultVelocity ↔ 0 < data.velocity ∨ 0 < defaultVelocity := by
  unfold divisor
  split
  · rename_i hpos
    exact iff_of_true hpos (.inl hpos)
  · rename_i hneg
    exact (or_iff_right hneg).symm

end

/-- **Maneuvers with a velocity.**  For every packet, position and default velocity, a packet for
the drone makes one call of the planner, which is as it should be, if and only if the velocity of
the packet or the default for the maneuver is positive; other packets do nothing. -/
theorem withVelocity_iff (m : Maneuver) (data : DataWithVelocity) (uptime : ℕ) (planResult : Int)
    (s : Hover) :
    (if isInGroup data.groupMask s.groupMask then
      ∃ call, (m.handle data uptime planResult s).2.planned = s.planned ++ [call] ∧
        PlannedWell m data s call
      else m.handle data uptime planResult s = (0, s)) ↔
    (isInGroup data.groupMask s.groupMask = true →
      0 < data.velocity ∨ 0 < s.defaultVelocity m) := by
  rw [handle_eq, ← data.divisor_pos_iff]
  by_cases hgroup : isInGroup data.groupMask s.groupMask = true
  · simp only [if_pos hgroup]
    constructor
    · rintro ⟨call, -, hcall⟩ -
      exact hcall.velocity
    · intro hpos
      have hdivisor := hpos hgroup
      refine ⟨_, rfl, rfl, hdivisor, ?_, ?_, rfl⟩
      · exact div_nonneg (abs_nonneg _) hdivisor.le
      · exact div_mul_cancel₀ _ hdivisor.ne'
  · simp only [if_neg hgroup]
    exact iff_of_true trivial (fun h => absurd h hgroup)

/-- The default for take-offs is written to `-1/2`, and a packet without a velocity asks for a
height of one: the duration is negative. -/
theorem takeoff_with_negative_default :
    let data : DataWithVelocity := ⟨0, 1, false, 0, true, 0⟩
    let s := Hover.setDefaultVelocity .takeoff (-1 / 2) ⟨0, ⟨0, 0, 0⟩, 0, 1 / 2, 1 / 2, []⟩
    (takeoffWithVelocity data 0 0 s).2.planned = [⟨.takeoff, s.pos, 0, 1, 0, -2, 0⟩] ∧
    ¬ ∃ call, (Maneuver.takeoff.handle data 0 0 s).2.planned = s.planned ++ [call] ∧
      PlannedWell .takeoff data s call := by
  intro data s
  have hplanned : (takeoffWithVelocity data 0 0 s).2.planned =
      [⟨.takeoff, s.pos, 0, 1, 0, -2, 0⟩] := by decide +kernel
  refine ⟨hplanned, ?_⟩
  rintro ⟨call, hcall, hwell⟩
  obtain rfl := List.singleton_inj.mp (hplanned.symm.trans hcall)
  exact absurd hwell.duration (by decide +kernel)

end NanoDrone.HighLevel
