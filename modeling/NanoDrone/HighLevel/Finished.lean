import NanoDrone.HighLevel.StartTrajectory
import Mathlib.Algebra.BigOperators.Group.Finset.Basic
import Mathlib.Algebra.Order.Field.Rat
import Mathlib.Tactic.FieldSimp
import Mathlib.Tactic.Linarith
import Mathlib.Tactic.Positivity
import Mathlib.Tactic.Ring

/-! # When a trajectory is finished (`crtp_commander_high_level.c`, `pptraj.h`)

The uptime is in milliseconds, and the commander divides it by `1e6` for the time of the planner,
once when a trajectory starts and again when it is asked for its end.  The durations of the pieces
are in seconds, so a trajectory takes a thousand times as long as it should.

Numbers are exact rationals here.  The planner stands outside: `Planner` is what the commander uses
of it, and `Follows` says that it is finished when the trajectory that it was given is. -/

namespace NanoDrone.HighLevel

/-- `struct poly4d`, without the polynomials. -/
structure Poly4d where
  duration : ℚ
deriving DecidableEq, Repr

/-- `struct piecewise_traj`, without the shift. -/
structure PiecewiseTraj where
  tBegin : ℚ
  timescale : ℚ
  nPieces : UInt8
  pieces : ℕ → Poly4d

def piecewiseDuration (pp : PiecewiseTraj) : ℚ :=
  (List.range pp.nPieces.toNat).foldl (fun total i => total + (pp.pieces i).duration) 0 *
    pp.timescale

def piecewiseIsFinished (traj : PiecewiseTraj) (t : ℚ) : Bool :=
  t - traj.tBegin ≥ piecewiseDuration traj

/-- The functions of the planner on its state `σ`. -/
structure Planner (σ : Type) where
  planStartTrajectory : σ → PiecewiseTraj → Bool → Bool → Vec → Int × σ
  /-- with the time at which it begins and its offset in memory -/
  planStartCompressedTrajectory : σ → ℚ → UInt32 → Bool → Vec → Int × σ
  planIsFinished : σ → ℚ → Bool

/-- A planner that has taken a trajectory is finished when that is. -/
def Planner.Follows {σ : Type} (planner : Planner σ) : Prop :=
  ∀ p traj reversed relative pos t,
    (planner.planStartTrajectory p traj reversed relative pos).1 = 0 →
    planner.planIsFinished (planner.planStartTrajectory p traj reversed relative pos).2 t =
      piecewiseIsFinished traj t

/-- The commander with its planner. -/
structure Flight (σ : Type) where
  commander : State
  /-- the pieces that lie in the trajectory memory from an offset on -/
  pieces : UInt32 → ℕ → Poly4d
  trajectory : PiecewiseTraj
  planner : σ

/-- The time of the planner at an uptime: `k_uptime_get() / 1e6`. -/
def timeAt (uptime : ℕ) : ℚ := uptime / 10 ^ 6

namespace Flight

variable {σ : Type} (planner : Planner σ)

/-- `start_trajectory` at an uptime; `timescale` is the value of that of the packet. -/
def startTrajectory (data : DataStartTrajectory) (timescale : ℚ) (uptime : ℕ) (s : Flight σ) :
    Int × Flight σ :=
  if isInGroup data.groupMask s.commander.groupMask then
    if data.trajectoryId.toNat < numTrajectoryDefinitions then
      let trajDesc := s.commander.trajectoryDescriptions data.trajectoryId.toNat
      if trajDesc.trajectoryLocation = trajectoryLocationMem ∧
          trajDesc.trajectoryType = typePoly4d then
        let trajectory := ⟨timeAt uptime, timescale, trajDesc.nPieces, s.pieces trajDesc.offset⟩
        let r := planner.planStartTrajectory s.planner trajectory (data.reversed != 0)
          (data.relative != 0) s.commander.pos
        (r.1, { s with trajectory := trajectory, planner := r.2 })
      else if trajDesc.trajectoryLocation = trajectoryLocationMem ∧
          trajDesc.trajectoryType = typePoly4dCompressed then
        if timescale ≠ 1 ∨ data.reversed ≠ 0 then (enoexec, s)
        else
          let r := planner.planStartCompressedTrajectory s.planner (timeAt uptime) trajDesc.offset
            (data.relative != 0) s.commander.pos
          (r.1, { s with planner := r.2 })
      else (0, s)
    else (0, s)
  else (0, s)

def crtpCommanderHighLevelIsTrajectoryFinished (uptime : ℕ) (s : Flight σ) : Bool :=
  planner.planIsFinished s.planner (timeAt uptime)

/-- The packet starts uncompressed pieces. -/
def StartsPoly4d (data : DataStartTrajectory) (s : Flight σ) : Prop :=
  isInGroup data.groupMask s.commander.groupMask = true ∧
    data.trajectoryId.toNat < numTrajectoryDefinitions ∧
    (s.commander.trajectoryDescriptions data.trajectoryId.toNat).trajectoryLocation =
      trajectoryLocationMem ∧
    (s.commander.trajectoryDescriptions data.trajectoryId.toNat).trajectoryType = typePoly4d

instance (data : DataStartTrajectory) (s : Flight σ) : Decidable (s.StartsPoly4d data) :=
  inferInstanceAs (Decidable (_ ∧ _))

/-- The sum of the durations of the pieces that the packet starts, in seconds. -/
def sumDurations (data : DataStartTrajectory) (s : Flight σ) : ℚ :=
  let trajDesc := s.commander.trajectoryDescriptions data.trajectoryId.toNat
  ∑ i ∈ Finset.range trajDesc.nPieces.toNat, (s.pieces trajDesc.offset i).duration

/-- A trajectory started at the uptime `u` is reported to be finished at the uptime `v` exactly if
its scaled duration has passed; uptimes are in milliseconds. -/
def FinishesOnTime (data : DataStartTrajectory) (timescale : ℚ) (u v : ℕ) (s : Flight σ) : Prop :=
  crtpCommanderHighLevelIsTrajectoryFinished planner v
      (s.startTrajectory planner data timescale u).2 = true ↔
    1000 * (timescale * s.sumDurations data) ≤ (v : ℚ) - u

/-! ### Durations -/

theorem piecewiseDuration_eq (pp : PiecewiseTraj) :
    piecewiseDuration pp =
      pp.timescale * ∑ i ∈ Finset.range pp.nPieces.toNat, (pp.pieces i).duration := by
  have hsum : ∀ n, (List.range n).foldl (fun total i => total + (pp.pieces i).duration) 0 =
      ∑ i ∈ Finset.range n, (pp.pieces i).duration := by
    intro n
    induction n with
    | zero => rfl
    | succ n ih => rw [List.range_succ, List.foldl_append, ih, Finset.sum_range_succ]; rfl
  unfold piecewiseDuration
  rw [hsum, mul_comm]

variable {planner : Planner σ} {data : DataStartTrajectory} {timescale : ℚ} {s : Flight σ}

/-- What a start of uncompressed pieces hands to the planner. -/
theorem startTrajectory_poly4d (planner : Planner σ) (timescale : ℚ) (h : s.StartsPoly4d data)
    (u : ℕ) :
    ∃ traj reversed relative,
      s.startTrajectory planner data timescale u =
        ((planner.planStartTrajectory s.planner traj reversed relative s.commander.pos).1,
          { s with
            trajectory := traj
            planner :=
              (planner.planStartTrajectory s.planner traj reversed relative s.commander.pos).2 }) ∧
      traj.tBegin = timeAt u ∧ piecewiseDuration traj = timescale * s.sumDurations data := by
  obtain ⟨hgroup, hid, hmem⟩ := h
  let trajDesc := s.commander.trajectoryDescriptions data.trajectoryId.toNat
  refine ⟨⟨timeAt u, timescale, trajDesc.nPieces, s.pieces trajDesc.offset⟩, data.reversed != 0,
    data.relative != 0, ?_, rfl, piecewiseDuration_eq _⟩
  unfold startTrajectory
  rw [if_pos hgroup, if_pos hid]
  exact if_pos hmem

/-- The end that is reported: both times are uptimes divided by `1e6`. -/
theorem finished_iff (hplanner : planner.Follows) (h : s.StartsPoly4d data) {u : ℕ}
    (hstarted : (s.startTrajectory planner data timescale u).1 = 0) (v : ℕ) :
    crtpCommanderHighLevelIsTrajectoryFinished planner v
        (s.startTrajectory planner data timescale u).2 = true ↔
      10 ^ 6 * (timescale * s.sumDurations data) ≤ (v : ℚ) - u := by
  obtain ⟨traj, reversed, relative, heq, hbegin, hduration⟩ :=
    startTrajectory_poly4d planner timescale h u
  rw [heq] at hstarted ⊢
  have htime : timeAt v - timeAt u = ((v : ℚ) - u) / 10 ^ 6 := by
    unfold timeAt
    ring
  unfold crtpCommanderHighLevelIsTrajectoryFinished
  rw [hplanner _ _ _ _ _ _ hstarted]
  unfold piecewiseIsFinished
  rw [decide_eq_true_iff, hbegin, hduration, htime, ge_iff_le, le_div_iff₀ (by norm_num),
    mul_comm]

/-- **When the end is reported in time.**  For every trajectory of uncompressed pieces that the
planner takes at the uptime `u`, whatever its durations and its timescale, the answer at an uptime
`v` is right if and only if less than its scaled duration has passed since, or a thousand times as
much. -/
theorem finishesOnTime_iff (planner : Planner σ) (hplanner : planner.Follows)
    (data : DataStartTrajectory) (timescale : ℚ) (s : Flight σ) (h : s.StartsPoly4d data)
    (u v : ℕ) (huv : u ≤ v) (hstarted : (s.startTrajectory planner data timescale u).1 = 0) :
    s.FinishesOnTime planner data timescale u v ↔
      (v : ℚ) - u < 1000 * (timescale * s.sumDurations data) ∨
        10 ^ 6 * (timescale * s.sumDurations data) ≤ (v : ℚ) - u := by
  have hpassed : (0 : ℚ) ≤ (v : ℚ) - u := sub_nonneg.mpr (Nat.cast_le.mpr huv)
  unfold FinishesOnTime
  rw [finished_iff hplanner h hstarted]
  generalize timescale * s.sumDurations data = duration at *
  constructor
  · intro hiff
    by_cases hlate : 10 ^ 6 * duration ≤ (v : ℚ) - u
    · exact .inr hlate
    · exact .inl (not_le.mp fun hdue => hlate (hiff.mpr hdue))
  · rintro (hearly | hlate)
    · refine iff_of_false (fun hlate => ?_) (not_le.mpr hearly)
      linarith
    · refine iff_of_true hlate ?_
      by_cases hpos : 0 ≤ duration
      · linarith
      · linarith

/-! ### A planner -/

/-- A planner that keeps the trajectory that it is given. -/
def keepingPlanner : Planner (Option PiecewiseTraj) where
  planStartTrajectory _ traj _ _ _ := (0, some traj)
  planStartCompressedTrajectory _ _ _ _ _ := (0, none)
  planIsFinished p t := p.elim true (piecewiseIsFinished · t)

/-- Three pieces of two seconds are described for every id. -/
def threePieces : Flight (Option PiecewiseTraj) where
  commander := { State.init with trajectoryDescriptions := fun _ => ⟨1, 0, 0, 3⟩ }
  pieces := fun _ _ => ⟨2⟩
  trajectory := ⟨0, 0, 0, fun _ => ⟨0⟩⟩
  planner := none

/-- At half the speed they take twelve seconds; the answer after four is right. -/
theorem finishesOnTime_small :
    threePieces.FinishesOnTime keepingPlanner ⟨0, 0, 0, 1, floatOne⟩ 2 500 4500 ↔
      ((4500 : ℕ) : ℚ) - (500 : ℕ) <
          1000 * (2 * threePieces.sumDurations ⟨0, 0, 0, 1, floatOne⟩) ∨
        10 ^ 6 * (2 * threePieces.sumDurations ⟨0, 0, 0, 1, floatOne⟩) ≤
          ((4500 : ℕ) : ℚ) - (500 : ℕ) :=
  finishesOnTime_iff keepingPlanner (fun _ _ _ _ _ _ _ => rfl) _ 2 _ (by decide) 500 4500
    (by decide) rfl

/-- After twenty seconds it is wrong. -/
theorem finishes_late :
    ¬ threePieces.FinishesOnTime keepingPlanner ⟨0, 0, 0, 1, floatOne⟩ 2 500 20500 := by
  intro h
  have hdue : 1000 * (2 * threePieces.sumDurations ⟨0, 0, 0, 1, floatOne⟩) ≤
      ((20500 : ℕ) : ℚ) - (500 : ℕ) := by decide +kernel
  have hfinished := h.mpr hdue
  revert hfinished
  decide +kernel

end Flight

end NanoDrone.HighLevel
