import NanoDrone.HighLevel.Trajectories

/-! # What the start of a trajectory reports

`start_trajectory` answers zero when it succeeded and an error code otherwise, but it has an error
for two of its conditions only: what cannot come to the planner is answered with the zero that
`result` starts with.  `startTrajectory_reports_iff` says that these are the only wrong answers. -/

namespace NanoDrone.HighLevel

/-- `TRAJECTORY_LOCATION_INVALID`. -/
def trajectoryLocationInvalid : UInt8 := 0

/-- `crtpCommanderHighLevelIsTrajectoryDefined`. -/
def State.isTrajectoryDefined (trajectoryId : UInt8) (s : State) : Bool :=
  trajectoryId.toNat < numTrajectoryDefinitions ∧
    (s.trajectoryDescriptions trajectoryId.toNat).trajectoryLocation ≠ trajectoryLocationInvalid

/-- The answer to a start is an error unless the planner has taken the trajectory and returned
zero. -/
structure ReportsErrors (data : DataStartTrajectory) (t : UInt32) (planResult : Int) (s : State) :
    Prop where
  accepted : (s.startTrajectory data t planResult).1 = 0 →
    (∃ p, (s.startTrajectory data t planResult).2.planned = s.planned ++ [p]) ∧ planResult = 0
  undefinedId : s.isTrajectoryDefined data.trajectoryId = false →
    (s.startTrajectory data t planResult).1 ≠ 0
  outOfRange : numTrajectoryDefinitions ≤ data.trajectoryId.toNat →
    (s.startTrajectory data t planResult).1 ≠ 0
  unknownLocation : data.trajectoryId.toNat < numTrajectoryDefinitions →
    (s.trajectoryDescriptions data.trajectoryId.toNat).trajectoryLocation ≠
      trajectoryLocationMem → (s.startTrajectory data t planResult).1 ≠ 0
  unknownType : data.trajectoryId.toNat < numTrajectoryDefinitions →
    (s.trajectoryDescriptions data.trajectoryId.toNat).trajectoryType ≠ typePoly4d →
    (s.trajectoryDescriptions data.trajectoryId.toNat).trajectoryType ≠ typePoly4dCompressed →
      (s.startTrajectory data t planResult).1 ≠ 0

variable {s : State} {data : DataStartTrajectory} {t : UInt32} {planResult : Int}

theorem State.Startable.isTrajectoryDefined {trajectoryId : UInt8}
    (h : s.Startable trajectoryId) : s.isTrajectoryDefined trajectoryId = true := by
  refine decide_eq_true ⟨h.1, ?_⟩
  rw [h.2.1]
  decide

/-- For a description that can be flown, zero is the answer of the planner. -/
theorem State.Startable.accepted (h : s.Startable data.trajectoryId)
    (hgroup : isInGroup data.groupMask s.groupMask = true)
    (hzero : (s.startTrajectory data t planResult).1 = 0) :
    (∃ p, (s.startTrajectory data t planResult).2.planned = s.planned ++ [p]) ∧
      planResult = 0 := by
  rcases State.startTrajectory_cases t planResult s data with
    ⟨-, hidle⟩ | ⟨heq, -⟩ | ⟨p, heq, -⟩
  · exact absurd ⟨hgroup, h⟩ hidle
  · rw [heq] at hzero
    cases hzero
  · rw [heq] at hzero ⊢
    exact ⟨⟨p, rfl⟩, hzero⟩

/-- **Which starts are reported.**  For every table of descriptions, whatever the planner returns,
the answer to a start in the drone's group is as it should be if and only if the id is in range and
its description is of a known type in memory. -/
theorem startTrajectory_reports_iff (s : State) (data : DataStartTrajectory) (t : UInt32)
    (planResult : Int) (hgroup : isInGroup data.groupMask s.groupMask = true) :
    ReportsErrors data t planResult s ↔ s.Startable data.trajectoryId := by
  constructor
  · intro h
    by_contra hnot
    have hidle : s.startTrajectory data t planResult = (0, s) :=
      State.startTrajectory_idle t planResult fun hs => hnot hs.2
    obtain ⟨⟨p, hp⟩, -⟩ := h.accepted (by rw [hidle])
    rw [hidle] at hp
    exact List.cons_ne_nil p [] (List.self_eq_append_right.mp hp)
  · intro h
    refine ⟨h.accepted hgroup, ?_, ?_, ?_, ?_⟩
    · intro hundefined
      rw [h.isTrajectoryDefined] at hundefined
      cases hundefined
    · exact fun hid => absurd h.1 (Nat.not_lt.mpr hid)
    · exact fun _ hloc => absurd h.2.1 hloc
    · exact fun _ hpoly hcompressed => absurd (h.2.2.resolve_left hpoly) hcompressed

/-- Two pieces are described in memory and started. -/
theorem startTrajectory_reports_small :
    ReportsErrors ⟨0, 0, 0, 1, floatOne⟩ 0 0
      { State.init with trajectoryDescriptions := fun _ => ⟨1, 0, 0, 2⟩ } ↔
    State.Startable { State.init with trajectoryDescriptions := fun _ => ⟨1, 0, 0, 2⟩ } 1 :=
  startTrajectory_reports_iff _ ⟨0, 0, 0, 1, floatOne⟩ 0 0 rfl

/-- The id 10 is out of range; the answer is zero. -/
theorem startTrajectory_unreported : ¬ ReportsErrors ⟨0, 0, 0, 10, floatOne⟩ 0 0 .init :=
  fun h => h.outOfRange (by decide) (by decide)

end NanoDrone.HighLevel
