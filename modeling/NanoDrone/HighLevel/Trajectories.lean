import NanoDrone.HighLevel.TrajectoryMemory
import NanoDrone.Lib.Interleaving

/-! # Trajectory commands

A client uploads pieces of trajectories, describes where they lie with `COMMAND_DEFINE_TRAJECTORY`
and flies them with `COMMAND_START_TRAJECTORY`.  The description is copied to a table and turned
into a pointer and a number of pieces by the start, in packets of their own.

The planner stands outside: `planned` records the trajectories handed to it, and what it returns
comes with the command.  Floats are given by their bits.  `pieces_inside_iff` says that what the
last descriptions say is all that keeps the planner inside the trajectory memory. -/

namespace NanoDrone.HighLevel

/-- `TRAJECTORY_LOCATION_MEM`. -/
def trajectoryLocationMem : UInt8 := 1

/-- `CRTP_CHL_TRAJECTORY_TYPE_POLY4D`. -/
def typePoly4d : UInt8 := 0

/-- `CRTP_CHL_TRAJECTORY_TYPE_POLY4D_COMPRESSED`. -/
def typePoly4dCompressed : UInt8 := 1

/-- `NUM_TRAJECTORY_DEFINITIONS`. -/
def numTrajectoryDefinitions : ℕ := 10

/-- `ALL_GROUPS`. -/
def allGroups : UInt8 := 0

/-- `sizeof(struct poly4d)`: four polynomials of `PP_SIZE` floats and a duration. -/
def sizeofPoly4d : ℕ := (4 * 8 + 1) * 4

def enoexec : Int := 8

/-- The float `1`. -/
def floatOne : UInt32 := 0x3F800000

structure Vec where
  x : UInt32
  y : UInt32
  z : UInt32
deriving DecidableEq, Repr

/-- `struct trajectoryDescription`. -/
structure TrajectoryDescription where
  trajectoryLocation : UInt8
  trajectoryType : UInt8
  offset : UInt32
  nPieces : UInt8
deriving DecidableEq, Repr

/-- `struct data_start_trajectory`. -/
structure DataStartTrajectory where
  groupMask : UInt8
  relative : UInt8
  reversed : UInt8
  trajectoryId : UInt8
  timescale : UInt32
deriving DecidableEq, Repr

/-- `struct data_define_trajectory`. -/
structure DataDefineTrajectory where
  trajectoryId : UInt8
  description : TrajectoryDescription
deriving DecidableEq, Repr

/-- The little endian word at an address. -/
def wordAt (data : Bytes) (a : ℕ) : UInt32 :=
  UInt32.ofNat ((data a).toNat + 2 ^ 8 * (data (a + 1)).toNat + 2 ^ 16 * (data (a + 2)).toNat +
    2 ^ 24 * (data (a + 3)).toNat)

/-- The packed structure in the bytes of a packet. -/
def DataStartTrajectory.ofBytes (data : Bytes) : DataStartTrajectory :=
  ⟨data 0, data 1, data 2, data 3, wordAt data 4⟩

@[inherit_doc DataStartTrajectory.ofBytes]
def DataDefineTrajectory.ofBytes (data : Bytes) : DataDefineTrajectory :=
  ⟨data 0, data 1, data 2, wordAt data 3, data 7⟩

/-- A call of `plan_start_trajectory` or `plan_start_compressed_trajectory`; `pieces` and `data` are
offsets in the trajectory memory. -/
inductive Planned where
  | trajectory (tBegin timescale : UInt32) (nPieces : UInt8) (pieces : UInt32)
      (reversed relative : Bool) (pos : Vec)
  | compressed (tBegin data : UInt32) (relative : Bool) (pos : Vec)
deriving DecidableEq, Repr

structure State where
  memory : Memory
  trajectoryDescriptions : ℕ → TrajectoryDescription
  groupMask : UInt8
  pos : Vec
  planned : List Planned

/-- The static variables at start. -/
def State.init : State := ⟨fun _ => 0, fun _ => ⟨0, 0, 0, 0⟩, 0, ⟨0, 0, 0⟩, []⟩

def isInGroup (g groupMask : UInt8) : Bool := g == allGroups || g &&& groupMask != 0

namespace State

def setGroupMask (groupMask : UInt8) (s : State) : Int × State :=
  (0, { s with groupMask := groupMask })

/-- `start_trajectory` at the time `t`; `planResult` is what the planner returns. -/
def startTrajectory (data : DataStartTrajectory) (t : UInt32) (planResult : Int) (s : State) :
    Int × State :=
  if isInGroup data.groupMask s.groupMask then
    if data.trajectoryId.toNat < numTrajectoryDefinitions then
      let trajDesc := s.trajectoryDescriptions data.trajectoryId.toNat
      if trajDesc.trajectoryLocation = trajectoryLocationMem ∧
          trajDesc.trajectoryType = typePoly4d then
        (planResult, { s with
          planned := s.planned ++ [.trajectory t data.timescale trajDesc.nPieces trajDesc.offset
            (data.reversed != 0) (data.relative != 0) s.pos] })
      else if trajDesc.trajectoryLocation = trajectoryLocationMem ∧
          trajDesc.trajectoryType = typePoly4dCompressed then
        if data.timescale ≠ floatOne ∨ data.reversed ≠ 0 then (enoexec, s)
        else (planResult, { s with
          planned := s.planned ++ [.compressed t trajDesc.offset (data.relative != 0) s.pos] })
      else (0, s)
    else (0, s)
  else (0, s)

def defineTrajectory (data : DataDefineTrajectory) (s : State) : Int × State :=
  if data.trajectoryId.toNat ≥ numTrajectoryDefinitions then (enoexec, s)
  else (0, { s with
    trajectoryDescriptions := fun i =>
      if i = data.trajectoryId.toNat then data.description else s.trajectoryDescriptions i })

/-- `handleCommand`; the commands that only reach the planner return what it returns. -/
def handleCommand (command : UInt8) (data : Bytes) (t : UInt32) (planResult : Int) (s : State) :
    Int × State :=
  if command = 0 then setGroupMask (data 0) s
  else if command = 5 then startTrajectory (.ofBytes data) t planResult s
  else if command = 6 then defineTrajectory (.ofBytes data) s
  else if command ≤ 10 then (planResult, s)
  else (enoexec, s)

def tellState (position : Vec) (s : State) : State := { s with pos := position }

end State

/-! ### Runs -/

inductive Event where
  | upload (memAddr : UInt32) (writeLen : UInt8) (buffer : Bytes)
  /-- the payload of a packet, the time, and what the planner returns -/
  | command (data : Bytes) (t : UInt32) (planResult : Int)
  | tellState (position : Vec)

/-- The state of the commander and the events so far. -/
structure Session where
  commander : State
  past : List Event

namespace Session

def init : Session := ⟨.init, []⟩

def next (s : Session) (e : Event) : Session where
  past := s.past ++ [e]
  commander :=
    match e with
    | .upload memAddr writeLen buffer =>
        { s.commander with memory := (handleMemWrite memAddr writeLen buffer s.commander.memory).2 }
    | .command data t planResult =>
        (s.commander.handleCommand (data 0) (fun i => data (i + 1)) t planResult).2
    | .tellState position => s.commander.tellState position

/-- A run ends where an upload leaves the trajectory memory and runs over other variables. -/
def step (s : Session) (e : Event) : Option Session :=
  match e with
  | .upload memAddr writeLen _ =>
      if Wraps memAddr writeLen.toUInt32 then none else some (s.next e)
  | .command .. | .tellState _ => some (s.next e)

end Session

/-! ### What the commands have said -/

namespace Event

/-- The description that a define command gives for an id. -/
def definition (id : ℕ) : Event → Option TrajectoryDescription
  | command data _ _ =>
      let d := DataDefineTrajectory.ofBytes fun i => data (i + 1)
      if data 0 = 6 ∧ d.trajectoryId.toNat = id then some d.description else none
  | upload .. | tellState _ => none

def newGroupMask : Event → Option UInt8
  | command data _ _ => if data 0 = 0 then some (data 1) else none
  | upload .. | tellState _ => none

end Event

/-- The last description that `past` gives for an id. -/
def lastDefined (past : List Event) (id : ℕ) : Option TrajectoryDescription :=
  (past.filterMap (Event.definition id)).getLast?

def lastGroupMask (past : List Event) : UInt8 :=
  (past.filterMap Event.newGroupMask).getLast?.getD 0

/-- A description of uncompressed pieces in memory has them all inside the trajectory memory. -/
def TrajectoryDescription.KeepsInside (desc : TrajectoryDescription) : Prop :=
  desc.trajectoryLocation = trajectoryLocationMem → desc.trajectoryType = typePoly4d →
    desc.offset.toNat + desc.nPieces.toNat * sizeofPoly4d ≤ trajectoryMemorySize.toNat

instance (desc : TrajectoryDescription) : Decidable desc.KeepsInside :=
  inferInstanceAs (Decidable (_ → _ → _))

/-- All pieces of a trajectory that is handed to the planner lie in the trajectory memory. -/
def Planned.PiecesInside : Planned → Prop
  | trajectory _ _ nPieces pieces _ _ _ =>
      pieces.toNat + nPieces.toNat * sizeofPoly4d ≤ trajectoryMemorySize.toNat
  | compressed .. => True

instance : DecidablePred Planned.PiecesInside
  | .trajectory .. => inferInstanceAs (Decidable (_ ≤ _))
  | .compressed .. => isTrue trivial

namespace Session

/-- So it is for every trajectory handed to the planner so far. -/
def PiecesInside (s : Session) : Prop := ∀ p ∈ s.commander.planned, p.PiecesInside

instance (s : Session) : Decidable s.PiecesInside :=
  inferInstanceAs (Decidable (∀ p ∈ s.commander.planned, p.PiecesInside))

/-- If the event starts a trajectory in a group of this drone, then the last description given for
its id keeps the pieces inside the trajectory memory. -/
def StartsInside (s : Session) : Event → Prop
  | .command data _ _ =>
      let d := DataStartTrajectory.ofBytes fun i => data (i + 1)
      data 0 = 5 → isInGroup d.groupMask (lastGroupMask s.past) = true →
        d.trajectoryId.toNat < numTrajectoryDefinitions →
        ∀ desc ∈ lastDefined s.past d.trajectoryId.toNat, desc.KeepsInside
  | .upload .. | .tellState _ => True

instance (s : Session) : DecidablePred s.StartsInside
  | .command .. => inferInstanceAs
      (Decidable (_ → _ → _ → ∀ desc ∈ lastDefined _ _, desc.KeepsInside))
  | .upload .. | .tellState _ => isTrue trivial

/-- The table and the group mask are what the commands have said last. -/
structure Defined (s : Session) : Prop where
  table : ∀ id < numTrajectoryDefinitions,
    s.commander.trajectoryDescriptions id = (lastDefined s.past id).getD ⟨0, 0, 0, 0⟩
  groupMask : s.commander.groupMask = lastGroupMask s.past
  inside : s.PiecesInside

end Session

theorem lastDefined_append (past : List Event) (e : Event) (id : ℕ) :
    lastDefined (past ++ [e]) id = (e.definition id).or (lastDefined past id) := by
  unfold lastDefined
  rw [List.filterMap_append]
  cases he : e.definition id with
  | none => simp [he]
  | some d => simp [he]

theorem lastGroupMask_append (past : List Event) (e : Event) :
    lastGroupMask (past ++ [e]) = e.newGroupMask.getD (lastGroupMask past) := by
  unfold lastGroupMask
  rw [List.filterMap_append]
  cases he : e.newGroupMask with
  | none => simp [he]
  | some g => simp [he]

/-- The description names pieces in memory of a type that can be flown. -/
def TrajectoryDescription.Flyable (desc : TrajectoryDescription) : Prop :=
  desc.trajectoryLocation = trajectoryLocationMem ∧
    (desc.trajectoryType = typePoly4d ∨ desc.trajectoryType = typePoly4dCompressed)

instance (desc : TrajectoryDescription) : Decidable desc.Flyable :=
  inferInstanceAs (Decidable (_ ∧ _))

namespace State

/-- The start of a trajectory can come to the planner. -/
def Startable (c : State) (trajectoryId : UInt8) : Prop :=
  trajectoryId.toNat < numTrajectoryDefinitions ∧
    (c.trajectoryDescriptions trajectoryId.toNat).Flyable

instance (c : State) (trajectoryId : UInt8) : Decidable (c.Startable trajectoryId) :=
  inferInstanceAs (Decidable (_ ∧ _))

variable {c : State} {data : DataStartTrajectory} (t : UInt32) (planResult : Int)

/-- A start that cannot come to the planner does nothing, and answers zero. -/
theorem startTrajectory_idle (h : ¬ (isInGroup data.groupMask c.groupMask = true ∧
    c.Startable data.trajectoryId)) : c.startTrajectory data t planResult = (0, c) := by
  unfold startTrajectory
  by_cases hgroup : isInGroup data.groupMask c.groupMask = true
  · rw [if_pos hgroup]
    by_cases hid : data.trajectoryId.toNat < numTrajectoryDefinitions
    · rw [if_pos hid]
      dsimp only
      rw [if_neg fun hm => h ⟨hgroup, hid, hm.1, .inl hm.2⟩,
        if_neg fun hm => h ⟨hgroup, hid, hm.1, .inr hm.2⟩]
    · rw [if_neg hid]
  · rw [if_neg hgroup]

/-- A start of uncompressed pieces comes to the planner. -/
theorem startTrajectory_poly4d (hgroup : isInGroup data.groupMask c.groupMask = true)
    (h : c.Startable data.trajectoryId)
    (htype : (c.trajectoryDescriptions data.trajectoryId.toNat).trajectoryType = typePoly4d) :
    c.startTrajectory data t planResult = (planResult, { c with
      planned := c.planned ++ [.trajectory t data.timescale
        (c.trajectoryDescriptions data.trajectoryId.toNat).nPieces
        (c.trajectoryDescriptions data.trajectoryId.toNat).offset
        (data.reversed != 0) (data.relative != 0) c.pos] }) := by
  unfold startTrajectory
  rw [if_pos hgroup, if_pos h.1]
  exact if_pos ⟨h.2.1, htype⟩

/-- A start of compressed pieces does so at the original speed and forwards. -/
theorem startTrajectory_compressed (hgroup : isInGroup data.groupMask c.groupMask = true)
    (h : c.Startable data.trajectoryId)
    (htype : (c.trajectoryDescriptions data.trajectoryId.toNat).trajectoryType ≠ typePoly4d) :
    c.startTrajectory data t planResult =
      if data.timescale ≠ floatOne ∨ data.reversed ≠ 0 then (enoexec, c)
      else (planResult, { c with
        planned := c.planned ++ [.compressed t
          (c.trajectoryDescriptions data.trajectoryId.toNat).offset
          (data.relative != 0) c.pos] }) := by
  unfold startTrajectory
  rw [if_pos hgroup, if_pos h.1]
  dsimp only
  rw [if_neg fun hm => htype hm.2]
  exact if_pos ⟨h.2.1, h.2.2.resolve_left htype⟩

/-- **What a start does.**  It does nothing and answers zero, or with an error, or it hands a
trajectory to the planner and answers what that returns. -/
theorem startTrajectory_cases (c : State) (data : DataStartTrajectory) :
    (c.startTrajectory data t planResult = (0, c) ∧
      ¬ (isInGroup data.groupMask c.groupMask = true ∧ c.Startable data.trajectoryId)) ∨
    (c.startTrajectory data t planResult = (enoexec, c) ∧ c.Startable data.trajectoryId ∧
      (c.trajectoryDescriptions data.trajectoryId.toNat).trajectoryType ≠ typePoly4d) ∨
    ∃ p, c.startTrajectory data t planResult =
        (planResult, { c with planned := c.planned ++ [p] }) ∧
      (isInGroup data.groupMask c.groupMask = true ∧ c.Startable data.trajectoryId) ∧
      (p.PiecesInside ↔ (c.trajectoryDescriptions data.trajectoryId.toNat).KeepsInside) := by
  by_cases h : isInGroup data.groupMask c.groupMask = true ∧ c.Startable data.trajectoryId
  · obtain ⟨hgroup, hstart⟩ := h
    by_cases htype :
        (c.trajectoryDescriptions data.trajectoryId.toNat).trajectoryType = typePoly4d
    · refine .inr (.inr ⟨_, startTrajectory_poly4d t planResult hgroup hstart htype,
        ⟨hgroup, hstart⟩, ?_⟩)
      exact ⟨fun hin _ _ => hin, fun hin => hin hstart.2.1 htype⟩
    · have heq := startTrajectory_compressed t planResult hgroup hstart htype
      split at heq
      · exact .inr (.inl ⟨heq, hstart, htype⟩)
      · refine .inr (.inr ⟨_, heq, ⟨hgroup, hstart⟩, ?_⟩)
        exact iff_of_true trivial fun _ hpoly => absurd hpoly htype
  · exact .inl ⟨startTrajectory_idle t planResult h, h⟩

end State

theorem startTrajectory_frame (data : DataStartTrajectory) (t : UInt32) (planResult : Int)
    (c : State) :
    (c.startTrajectory data t planResult).2.trajectoryDescriptions = c.trajectoryDescriptions ∧
    (c.startTrajectory data t planResult).2.groupMask = c.groupMask := by
  rcases State.startTrajectory_cases t planResult c data with
    ⟨heq, -⟩ | ⟨heq, -⟩ | ⟨p, heq, -⟩ <;>
  · rw [heq]
    exact ⟨rfl, rfl⟩

/-- A start keeps the pieces inside exactly if the description in the table does. -/
theorem startTrajectory_inside_iff {c : State} (h : ∀ p ∈ c.planned, p.PiecesInside)
    (data : DataStartTrajectory) (t : UInt32) (planResult : Int) :
    (∀ p ∈ (c.startTrajectory data t planResult).2.planned, p.PiecesInside) ↔
      (isInGroup data.groupMask c.groupMask = true →
        data.trajectoryId.toNat < numTrajectoryDefinitions →
        (c.trajectoryDescriptions data.trajectoryId.toNat).KeepsInside) := by
  rcases State.startTrajectory_cases t planResult c data with
    ⟨heq, hidle⟩ | ⟨heq, -, htype⟩ | ⟨p, heq, ⟨hgroup, hstart⟩, hp⟩
  · rw [heq]
    exact iff_of_true h fun hgroup hid hloc htype =>
      absurd ⟨hgroup, hid, hloc, .inl htype⟩ hidle
  · rw [heq]
    exact iff_of_true h fun _ _ _ hpoly => absurd hpoly htype
  · rw [heq]
    refine ⟨fun hall _ _ => hp.mp (hall p ?_), fun hin q hq => ?_⟩
    · exact List.mem_append_right _ (List.mem_singleton_self p)
    · rcases List.mem_append.mp hq with hold | hnew
      · exact h q hold
      · rw [List.mem_singleton.mp hnew]
        exact hp.mpr (hin hgroup hstart.1)

namespace Session

variable {s : Session}

theorem init_defined : Defined init := ⟨fun _ _ => rfl, rfl, nofun⟩

/-- The table entry and the last description keep the pieces inside together. -/
theorem Defined.keepsInside_iff (h : s.Defined) {id : ℕ} (hid : id < numTrajectoryDefinitions) :
    (s.commander.trajectoryDescriptions id).KeepsInside ↔
      ∀ desc ∈ lastDefined s.past id, desc.KeepsInside := by
  rw [h.table id hid]
  cases lastDefined s.past id with
  | none => exact iff_of_true (fun hloc => by cases hloc) nofun
  | some desc => simp

/-- An event that is no command changes neither table nor mask nor what was planned. -/
theorem Defined.frame (h : s.Defined) {e : Event} (hdef : ∀ id, e.definition id = none)
    (hmask : e.newGroupMask = none)
    (htable : (s.next e).commander.trajectoryDescriptions = s.commander.trajectoryDescriptions)
    (hgroup : (s.next e).commander.groupMask = s.commander.groupMask)
    (hin : (s.next e).PiecesInside) : (s.next e).Defined := by
  refine ⟨fun id hid => ?_, ?_, hin⟩
  · change _ = (lastDefined (s.past ++ [e]) id).getD _
    rw [htable, h.table id hid, lastDefined_append, hdef, Option.none_or]
  · change _ = lastGroupMask (s.past ++ [e])
    rw [hgroup, h.groupMask, lastGroupMask_append, hmask]
    rfl

variable {data : Bytes} {t : UInt32} {planResult : Int}

theorem next_setGroupMask (h0 : data 0 = 0) : (s.next (.command data t planResult)).commander =
    { s.commander with groupMask := data 1 } := by
  simp [next, State.handleCommand, State.setGroupMask, h0]

theorem next_startTrajectory (h5 : data 0 = 5) : (s.next (.command data t planResult)).commander =
    (s.commander.startTrajectory (.ofBytes fun i => data (i + 1)) t planResult).2 := by
  simp [next, State.handleCommand, h5]

theorem next_defineTrajectory (h6 : data 0 = 6) : (s.next (.command data t planResult)).commander =
    (s.commander.defineTrajectory (.ofBytes fun i => data (i + 1))).2 := by
  simp [next, State.handleCommand, h6]

theorem next_other (h0 : data 0 ≠ 0) (h5 : data 0 ≠ 5) (h6 : data 0 ≠ 6) :
    (s.next (.command data t planResult)).commander = s.commander := by
  simp only [next, State.handleCommand, h0, h5, h6, if_false]
  split <;> rfl

theorem defineTrajectory_frame (d : DataDefineTrajectory) (c : State) :
    (c.defineTrajectory d).2.planned = c.planned ∧
    (c.defineTrajectory d).2.groupMask = c.groupMask := by
  unfold State.defineTrajectory
  split <;> exact ⟨rfl, rfl⟩

/-- Only a start hands something to the planner. -/
theorem next_planned {e : Event} (he : ∀ data t planResult, e = .command data t planResult →
    data 0 ≠ 5) : (s.next e).commander.planned = s.commander.planned := by
  cases e with
  | upload memAddr writeLen buffer => rfl
  | tellState position => rfl
  | command data t planResult =>
      have h5 := he data t planResult rfl
      by_cases h0 : data 0 = 0
      · rw [next_setGroupMask h0]
      · by_cases h6 : data 0 = 6
        · rw [next_defineTrajectory h6]
          exact (defineTrajectory_frame _ _).1
        · rw [next_other h0 h5 h6]

theorem Defined.next_inside_iff (h : s.Defined) (e : Event) :
    (s.next e).PiecesInside ↔ s.StartsInside e := by
  have hother : (∀ data t planResult, e = .command data t planResult → data 0 ≠ 5) →
      (s.next e).PiecesInside := by
    intro he
    unfold PiecesInside
    rw [next_planned he]
    exact h.inside
  cases e with
  | upload memAddr writeLen buffer => exact iff_of_true (hother nofun) trivial
  | tellState position => exact iff_of_true (hother nofun) trivial
  | command data t planResult =>
      by_cases h5 : data 0 = 5
      · unfold PiecesInside StartsInside
        rw [next_startTrajectory h5, startTrajectory_inside_iff h.inside, h.groupMask]
        refine ⟨fun hin _ hgroup hid => ?_, fun hin hgroup hid => ?_⟩
        · exact (h.keepsInside_iff hid).mp (hin hgroup hid)
        · exact (h.keepsInside_iff hid).mpr (hin h5 hgroup hid)
      · refine iff_of_true (hother ?_) (fun h5' => absurd h5' h5)
        intro data' t' planResult' he
        cases he
        exact h5

theorem Defined.next_define (h : s.Defined) (h6 : data 0 = 6) :
    (s.next (.command data t planResult)).Defined := by
  have hframe := defineTrajectory_frame (.ofBytes fun i => data (i + 1)) s.commander
  refine ⟨fun id hid => ?_, ?_, ?_⟩
  · change _ = (lastDefined (s.past ++ [_]) id).getD _
    rw [lastDefined_append, next_defineTrajectory h6]
    unfold State.defineTrajectory Event.definition
    dsimp only
    by_cases hlt : (DataDefineTrajectory.ofBytes fun i => data (i + 1)).trajectoryId.toNat <
        numTrajectoryDefinitions
    · rw [if_neg (Nat.not_le.mpr hlt)]
      dsimp only
      by_cases hsame : id = (DataDefineTrajectory.ofBytes fun i => data (i + 1)).trajectoryId.toNat
      · rw [if_pos hsame, if_pos ⟨h6, hsame.symm⟩]
        rfl
      · rw [if_neg hsame, if_neg (fun hc => hsame hc.2.symm), Option.none_or]
        exact h.table id hid
    · rw [if_pos (Nat.not_lt.mp hlt), if_neg, Option.none_or]
      · exact h.table id hid
      · rintro ⟨_, hsame⟩
        omega
  · change _ = lastGroupMask (s.past ++ [_])
    rw [lastGroupMask_append, next_defineTrajectory h6, hframe.2, h.groupMask]
    simp [Event.newGroupMask, h6]
  · unfold PiecesInside
    rw [next_defineTrajectory h6, hframe.1]
    exact h.inside

theorem Defined.next_setGroupMask (h : s.Defined) (h0 : data 0 = 0) :
    (s.next (.command data t planResult)).Defined := by
  refine ⟨fun id hid => ?_, ?_, ?_⟩
  · change _ = (lastDefined (s.past ++ [_]) id).getD _
    rw [lastDefined_append, Session.next_setGroupMask h0, h.table id hid]
    simp [Event.definition, h0]
  · change _ = lastGroupMask (s.past ++ [_])
    rw [lastGroupMask_append, Session.next_setGroupMask h0]
    simp [Event.newGroupMask, h0]
  · unfold PiecesInside
    rw [Session.next_setGroupMask h0]
    exact h.inside

theorem Defined.next (h : s.Defined) {e : Event} (hin : (s.next e).PiecesInside) :
    (s.next e).Defined := by
  cases e with
  | upload memAddr writeLen buffer => exact h.frame (fun _ => rfl) rfl rfl rfl hin
  | tellState position => exact h.frame (fun _ => rfl) rfl rfl rfl hin
  | command data t planResult =>
      by_cases h0 : data 0 = 0
      · exact h.next_setGroupMask h0
      · by_cases h6 : data 0 = 6
        · exact h.next_define h6
        · have hdef : ∀ id, (Event.command data t planResult).definition id = none := by
            intro id
            simp [Event.definition, h6]
          have hmask : (Event.command data t planResult).newGroupMask = none := by
            simp [Event.newGroupMask, h0]
          by_cases h5 : data 0 = 5
          · have hframe := startTrajectory_frame (.ofBytes fun i => data (i + 1)) t planResult
              s.commander
            rw [← next_startTrajectory h5] at hframe
            exact h.frame hdef hmask hframe.1 hframe.2 hin
          · have hsame : (s.next (.command data t planResult)).commander = s.commander :=
              next_other h0 h5 h6
            refine h.frame hdef hmask ?_ ?_ hin
            · rw [hsame]
            · rw [hsame]

end Session

/-- **Trajectories in memory.**  In every sequence of uploads and commands the planner is handed
only trajectories whose pieces all lie in the trajectory memory, if and only if each start follows
a description that keeps them there. -/
theorem pieces_inside_iff (events : List Event) :
    Along Session.step (fun s e => (s.next e).PiecesInside) events .init ↔
      Along Session.step Session.StartsInside events .init := by
  refine Along.iff_of_invariant Session.init_defined (fun s e h => h.next_inside_iff e) ?_
  intro s e s' h hin hs
  unfold Session.step at hs
  split at hs
  · split at hs
    · cases hs
    · cases hs
      exact h.next hin
  · cases hs
    exact h.next hin
  · cases hs
    exact h.next hin

/-- A description of 255 pieces at offset 4000 is taken, and the start hands them to the planner. -/
theorem plans_pieces_outside :
    let define : Event := .command (fun i => [6, 0, 1, 0, 0xA0, 0x0F, 0, 0, 255].getD i 0) 0 0
    let start : Event := .command (fun i => [5, 0, 0, 0, 0, 0, 0, 0x80, 0x3F].getD i 0) 0 0
    ¬ Along Session.step (fun s e => (s.next e).PiecesInside) [define, start] .init ∧
    ((Session.init.next define).next start).commander.planned =
      [.trajectory 0 floatOne 255 4000 false false ⟨0, 0, 0⟩] := by
  refine ⟨fun h => ?_, by decide⟩
  exact absurd (h.2 _ rfl).1 (by decide)

end NanoDrone.HighLevel
