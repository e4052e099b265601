import NanoDrone.Commander.Commander
import NanoDrone.Crtp.AppChannel
import NanoDrone.HighLevel.Trajectories

/-! # The commands of the high-level commander (`crtp_commander_high_level.c`)

The high-level commander hands commands of the ground to the planner and turns the goals of the
planner into setpoints.  It keeps the last known setpoint, `pos`, `vel` and `yaw`: plans begin
there.  The functions of the planner and of floats are parameters, and floats are bit patterns, so
nothing is rounded here that is not rounded in the code.

`Known` is where the last known setpoint is from, and `plans_from_known` says that every plan that
needs a start begins there, in every run of packets, calls of the stabilizer and of the
commander. -/

namespace NanoDrone.HighLevel

open Commander (Setpoint)
open Crtp (CRTPPacket)

/-- The float functions that are used. -/
structure Floats where
  /-- `radians` and `degrees` of `math3d.h` -/
  radians : UInt32 → UInt32
  degrees : UInt32 → UInt32
  add : UInt32 → UInt32 → UInt32
  sub : UInt32 → UInt32 → UInt32
  div : UInt32 → UInt32 → UInt32
  fabsf : UInt32 → UInt32
  /-- `x > 0` -/
  isPositive : UInt32 → Bool
  /-- `k_uptime_get() / 1e6` -/
  time : ℕ → UInt32

/-- `struct traj_eval`. -/
structure TrajEval where
  pos : Vec
  vel : Vec
  acc : Vec
  omega : Vec
  yaw : UInt32
deriving DecidableEq, Repr

/-- The arguments of `plan_takeoff` and `plan_land` after the planner. -/
structure VerticalPlan where
  currPos : Vec
  currYaw : UInt32
  hoverHeight : UInt32
  hoverYaw : UInt32
  duration : UInt32
  t : UInt32
deriving DecidableEq, Repr

/-- The arguments of `plan_go_to`. -/
structure GoToPlan where
  relative : Bool
  hoverPos : Vec
  hoverYaw : UInt32
  duration : UInt32
  t : UInt32
deriving DecidableEq, Repr

/-- A call of the planner that plans; trajectories are given by what the commander sets of them, with
the offset of their pieces. -/
inductive Plan where
  | takeoff (p : VerticalPlan)
  | land (p : VerticalPlan)
  | goTo (p : GoToPlan)
  | goToFrom (currEval : TrajEval) (p : GoToPlan)
  | start (tBegin timescale : UInt32) (nPieces : UInt8) (pieces : UInt32)
      (reversed relative : Bool) (startFrom : Vec)
  | startCompressed (tBegin data : UInt32) (relative : Bool) (startFrom : Vec)
deriving DecidableEq, Repr

/-- The functions of `planner.h` on the planner, and `is_traj_eval_valid`. -/
structure PlannerFunctions (σ : Type) where
  planInit : σ
  planStop : σ → σ
  planDisable : σ → σ
  planIsStopped : σ → Bool
  planIsDisabled : σ → Bool
  planCurrentGoal : UInt32 → σ → TrajEval × σ
  plan : Plan → σ → Int × σ
  isTrajEvalValid : TrajEval → Bool

/-! ### Packets -/

/-- `struct data_takeoff` and `struct data_land`. -/
structure DataVertical where
  groupMask : UInt8
  height : UInt32
  duration : UInt32
deriving DecidableEq, Repr

/-- `struct data_takeoff_2` and `struct data_land_2`. -/
structure DataVertical2 where
  groupMask : UInt8
  height : UInt32
  yaw : UInt32
  useCurrentYaw : Bool
  duration : UInt32
deriving DecidableEq, Repr

/-- `struct data_takeoff_with_velocity` and `struct data_land_with_velocity`. -/
structure DataVerticalVelocity where
  groupMask : UInt8
  height : UInt32
  heightIsRelative : Bool
  yaw : UInt32
  useCurrentYaw : Bool
  velocity : UInt32
deriving DecidableEq, Repr

/-- `struct data_go_to`. -/
structure DataGoTo where
  groupMask : UInt8
  relative : Bool
  x : UInt32
  y : UInt32
  z : UInt32
  yaw : UInt32
  duration : UInt32
deriving DecidableEq, Repr

/-- A command with its data. -/
inductive Command where
  | setGroupMask (groupMask : UInt8)
  | takeoff (data : DataVertical)
  | land (data : DataVertical)
  | stop (groupMask : UInt8)
  | goTo (data : DataGoTo)
  | startTrajectory (data : DataStartTrajectory)
  | defineTrajectory (data : DataDefineTrajectory)
  | takeoff2 (data : DataVertical2)
  | land2 (data : DataVertical2)
  | takeoffWithVelocity (data : DataVerticalVelocity)
  | landWithVelocity (data : DataVerticalVelocity)
deriving DecidableEq, Repr

section
variable (data : Bytes)

@[inherit_doc DataStartTrajectory.ofBytes]
def DataVertical.ofBytes : DataVertical := ⟨data 0, wordAt data 1, wordAt data 5⟩

@[inherit_doc DataStartTrajectory.ofBytes]
def DataVertical2.ofBytes : DataVertical2 :=
  ⟨data 0, wordAt data 1, wordAt data 5, data 9 != 0, wordAt data 10⟩

@[inherit_doc DataStartTrajectory.ofBytes]
def DataVerticalVelocity.ofBytes : DataVerticalVelocity :=
  ⟨data 0, wordAt data 1, data 5 != 0, wordAt data 6, data 10 != 0, wordAt data 11⟩

@[inherit_doc DataStartTrajectory.ofBytes]
def DataGoTo.ofBytes : DataGoTo :=
  ⟨data 0, data 1 != 0, wordAt data 2, wordAt data 6, wordAt data 10, wordAt data 14,
    wordAt data 18⟩

/-- The cast of `handleCommand`, by `enum TrajectoryCommand_e`. -/
def Command.ofBytes (command : UInt8) : Option Command :=
  if command = 0 then some (.setGroupMask (data 0))
  else if command = 1 then some (.takeoff (.ofBytes data))
  else if command = 2 then some (.land (.ofBytes data))
  else if command = 3 then some (.stop (data 0))
  else if command = 4 then some (.goTo (.ofBytes data))
  else if command = 5 then some (.startTrajectory (.ofBytes data))
  else if command = 6 then some (.defineTrajectory (.ofBytes data))
  else if command = 7 then some (.takeoff2 (.ofBytes data))
  else if command = 8 then some (.land2 (.ofBytes data))
  else if command = 9 then some (.takeoffWithVelocity (.ofBytes data))
  else if command = 10 then some (.landWithVelocity (.ofBytes data))
  else none

end

/-! ### The commander -/

/-- The static variables.  The list `plans` records the calls of `PlannerFunctions.plan`, with what
they returned, and nothing reads it. -/
structure HighLevelCommander (σ : Type) where
  planner : σ
  groupMask : UInt8
  pos : Vec
  vel : Vec
  yaw : UInt32
  trajectoryDescriptions : ℕ → TrajectoryDescription
  defaultTakeoffVelocity : UInt32
  defaultLandingVelocity : UInt32
  plans : List (Plan × Int)

/-- `vzero()`. -/
def vzero : Vec := ⟨0, 0, 0⟩

namespace HighLevelCommander

variable {σ : Type} (f : Floats) (api : PlannerFunctions σ)

/-- After `crtpCommanderHighLevelInit`; the default velocities are `0.5f`. -/
def init : HighLevelCommander σ where
  planner := api.planInit
  groupMask := 0
  pos := vzero
  vel := vzero
  yaw := 0
  trajectoryDescriptions := fun _ => ⟨0, 0, 0, 0⟩
  defaultTakeoffVelocity := 0x3F000000
  defaultLandingVelocity := 0x3F000000
  plans := []

/-- A call of the planner. -/
def callPlan (p : Plan) (s : HighLevelCommander σ) : Int × HighLevelCommander σ :=
  let r := api.plan p s.planner
  (r.1, { s with planner := r.2, plans := s.plans ++ [(p, r.1)] })

/-- A vertical plan from the last known setpoint. -/
def vertical (height hoverYaw duration t : UInt32) (s : HighLevelCommander σ) : VerticalPlan :=
  ⟨s.pos, s.yaw, height, hoverYaw, duration, t⟩

/-- The yaw of a command that can ask for the current one. -/
def hoverYaw (useCurrentYaw : Bool) (yaw : UInt32) (s : HighLevelCommander σ) : UInt32 :=
  if useCurrentYaw then s.yaw else yaw

/-- The duration at a velocity, or at a default one. -/
def durationAt (height velocity defaultVelocity : UInt32) (s : HighLevelCommander σ) : UInt32 :=
  f.div (f.fabsf (f.sub height s.pos.z))
    (if f.isPositive velocity then velocity else defaultVelocity)

def takeoff (data : DataVertical) (t : UInt32) (s : HighLevelCommander σ) : Int × HighLevelCommander σ :=
  if isInGroup data.groupMask s.groupMask then
    s.callPlan api (.takeoff (s.vertical data.height 0 data.duration t))
  else (0, s)

def land (data : DataVertical) (t : UInt32) (s : HighLevelCommander σ) : Int × HighLevelCommander σ :=
  if isInGroup data.groupMask s.groupMask then
    s.callPlan api (.land (s.vertical data.height 0 data.duration t))
  else (0, s)

def takeoff2 (data : DataVertical2) (t : UInt32) (s : HighLevelCommander σ) : Int × HighLevelCommander σ :=
  if isInGroup data.groupMask s.groupMask then
    s.callPlan api (.takeoff (s.vertical data.height (s.hoverYaw data.useCurrentYaw data.yaw)
      data.duration t))
  else (0, s)

def land2 (data : DataVertical2) (t : UInt32) (s : HighLevelCommander σ) : Int × HighLevelCommander σ :=
  if isInGroup data.groupMask s.groupMask then
    s.callPlan api (.land (s.vertical data.height (s.hoverYaw data.useCurrentYaw data.yaw)
      data.duration t))
  else (0, s)

def takeoffWithVelocity (data : DataVerticalVelocity) (t : UInt32) (s : HighLevelCommander σ) :
    Int × HighLevelCommander σ :=
  if isInGroup data.groupMask s.groupMask then
    let height := if data.heightIsRelative then f.add data.height s.pos.z else data.height
    s.callPlan api (.takeoff (s.vertical height (s.hoverYaw data.useCurrentYaw data.yaw)
      (s.durationAt f height data.velocity s.defaultTakeoffVelocity) t))
  else (0, s)

def landWithVelocity (data : DataVerticalVelocity) (t : UInt32) (s : HighLevelCommander σ) :
    Int × HighLevelCommander σ :=
  if isInGroup data.groupMask s.groupMask then
    let height := if data.heightIsRelative then f.sub s.pos.z data.height else data.height
    s.callPlan api (.land (s.vertical height (s.hoverYaw data.useCurrentYaw data.yaw)
      (s.durationAt f height data.velocity s.defaultLandingVelocity) t))
  else (0, s)

def stop (groupMask : UInt8) (s : HighLevelCommander σ) : Int × HighLevelCommander σ :=
  if isInGroup groupMask s.groupMask then (0, { s with planner := api.planStop s.planner })
  else (0, s)

def goTo (data : DataGoTo) (t : UInt32) (s : HighLevelCommander σ) : Int × HighLevelCommander σ :=
  if isInGroup data.groupMask s.groupMask then
    let p : GoToPlan := ⟨data.relative, ⟨data.x, data.y, data.z⟩, data.yaw, data.duration, t⟩
    if api.planIsDisabled s.planner || api.planIsStopped s.planner then
      s.callPlan api (.goToFrom ⟨s.pos, s.vel, vzero, vzero, s.yaw⟩ p)
    else s.callPlan api (.goTo p)
  else (0, s)

def startTrajectory (data : DataStartTrajectory) (t : UInt32) (s : HighLevelCommander σ) :
    Int × HighLevelCommander σ :=
  if isInGroup data.groupMask s.groupMask then
    if data.trajectoryId.toNat < numTrajectoryDefinitions then
      let trajDesc := s.trajectoryDescriptions data.trajectoryId.toNat
      if trajDesc.trajectoryLocation = trajectoryLocationMem ∧
          trajDesc.trajectoryType = typePoly4d then
        s.callPlan api (.start t data.timescale trajDesc.nPieces trajDesc.offset
          (data.reversed != 0) (data.relative != 0) s.pos)
      else if trajDesc.trajectoryLocation = trajectoryLocationMem ∧
          trajDesc.trajectoryType = typePoly4dCompressed then
        if data.timescale ≠ floatOne ∨ data.reversed ≠ 0 then (enoexec, s)
        else s.callPlan api (.startCompressed t trajDesc.offset (data.relative != 0) s.pos)
      else (0, s)
    else (0, s)
  else (0, s)

def defineTrajectory (data : DataDefineTrajectory) (s : HighLevelCommander σ) : Int × HighLevelCommander σ :=
  if data.trajectoryId.toNat ≥ numTrajectoryDefinitions then (enoexec, s)
  else (0, { s with
    trajectoryDescriptions := fun i =>
      if i = data.trajectoryId.toNat then data.description else s.trajectoryDescriptions i })

/-- What `handleCommand` calls for a command. -/
def handle (t : UInt32) (s : HighLevelCommander σ) : Command → Int × HighLevelCommander σ
  | .setGroupMask groupMask => (0, { s with groupMask := groupMask })
  | .takeoff data => s.takeoff api data t
  | .land data => s.land api data t
  | .stop groupMask => s.stop api groupMask
  | .goTo data => s.goTo api data t
  | .startTrajectory data => s.startTrajectory api data t
  | .defineTrajectory data => s.defineTrajectory data
  | .takeoff2 data => s.takeoff2 api data t
  | .land2 data => s.land2 api data t
  | .takeoffWithVelocity data => s.takeoffWithVelocity f api data t
  | .landWithVelocity data => s.landWithVelocity f api data t

def handleCommand (command : UInt8) (data : Bytes) (uptime : ℕ) (s : HighLevelCommander σ) :
    Int × HighLevelCommander σ :=
  match Command.ofBytes data command with
  | some c => s.handle f api (f.time uptime) c
  | none => (enoexec, s)

/-- A round of `crtpCommanderHighLevelTask`: the answer to a packet. -/
def task (p : CRTPPacket) (uptime : ℕ) (s : HighLevelCommander σ) : CRTPPacket × HighLevelCommander σ :=
  let r := s.handleCommand f api (p.data.getD 0 0) (fun i => p.data.getD (i + 1) 0) uptime
  ({ p with data := p.data.set 3 (UInt8.ofInt r.1), size := 4 }, r.2)

/-! ### The stabilizer and the commander -/

/-- The position in the words of a `state_t`. -/
def position (state : Commander.State) : Vec :=
  ⟨state.getD 9 0, state.getD 10 0, state.getD 11 0⟩

def velocity (state : Commander.State) : Vec :=
  ⟨state.getD 13 0, state.getD 14 0, state.getD 15 0⟩

/-- `state->attitude.yaw`. -/
def attitudeYaw (state : Commander.State) : UInt32 := state.getD 3 0

/-- The last known setpoint is that of a state estimate. -/
def know (state : Commander.State) (s : HighLevelCommander σ) : HighLevelCommander σ :=
  { s with pos := position state, vel := velocity state, yaw := f.radians (attitudeYaw state) }

/-- `crtpCommanderHighLevelTellState`. -/
def tellState (state : Commander.State) (s : HighLevelCommander σ) : HighLevelCommander σ := s.know f state

/-- `crtpCommanderHighLevelDisable`. -/
def disable (s : HighLevelCommander σ) : HighLevelCommander σ := { s with planner := api.planDisable s.planner }

/-- The setpoint of a goal; the fields that it does not set stay. -/
def fly (ev : TrajEval) (setpoint : Setpoint) : Setpoint :=
  { setpoint with
    position := { setpoint.position with x := ev.pos.x, y := ev.pos.y, z := ev.pos.z }
    velocity := { setpoint.velocity with x := ev.vel.x, y := ev.vel.y, z := ev.vel.z }
    acceleration := { setpoint.acceleration with x := ev.acc.x, y := ev.acc.y, z := ev.acc.z }
    attitude := { setpoint.attitude with yaw := f.degrees ev.yaw }
    attitudeRate := { setpoint.attitudeRate with
      roll := f.degrees ev.omega.x, pitch := f.degrees ev.omega.y, yaw := f.degrees ev.omega.z }
    mode := ⟨.modeAbs, .modeAbs, .modeAbs, .modeDisable, .modeDisable, .modeAbs, .modeDisable⟩ }

/-- `RATE_MAIN_LOOP / RATE_HL_COMMANDER`. -/
def hlCommanderTicks : ℕ := 10

/-- `crtpCommanderHighLevelGetSetpoint`: what it returns and the setpoint of the caller. -/
def getSetpoint (setpoint : Setpoint) (state : Commander.State) (tick : UInt32) (uptime : ℕ)
    (s : HighLevelCommander σ) : (Bool × Setpoint) × HighLevelCommander σ :=
  if tick.toNat % hlCommanderTicks ≠ 0 then ((false, setpoint), s)
  else
    let r := api.planCurrentGoal (f.time uptime) s.planner
    let s := { s with planner := r.2 }
    if api.planIsDisabled s.planner || api.planIsStopped s.planner then
      let s := s.know f state
      if api.planIsStopped s.planner then ((true, Commander.nullSetpoint), s)
      else ((false, setpoint), s)
    else if api.isTrajEvalValid r.1 then
      ((true, fly f r.1 setpoint), { s with pos := r.1.pos, vel := r.1.vel, yaw := r.1.yaw })
    else ((false, setpoint), s.disable api)

/-! ### The last known setpoint -/

/-- Where the last known setpoint is from. -/
inductive Known where
  | start
  /-- a state that was given or told -/
  | state (state : Commander.State)
  /-- a setpoint that was handed out -/
  | setpoint (setpoint : Setpoint)

/-- The last known setpoint is what it is known from; the yaw of a setpoint is in degrees. -/
def Tracks (s : HighLevelCommander σ) : Known → Prop
  | .start => s.pos = vzero ∧ s.vel = vzero ∧ s.yaw = 0
  | .state state => s.pos = position state ∧ s.vel = velocity state ∧
      s.yaw = f.radians (attitudeYaw state)
  | .setpoint sp => s.pos = ⟨sp.position.x, sp.position.y, sp.position.z⟩ ∧
      s.vel = ⟨sp.velocity.x, sp.velocity.y, sp.velocity.z⟩ ∧ f.degrees s.yaw = sp.attitude.yaw

end HighLevelCommander

/-- A plan begins at a position with a velocity and a yaw, as far as it has a start. -/
def Plan.StartsAt (pos vel : Vec) (yaw : UInt32) : Plan → Prop
  | takeoff p | land p => p.currPos = pos ∧ p.currYaw = yaw
  | goTo _ => True
  | goToFrom currEval _ => currEval = ⟨pos, vel, vzero, vzero, yaw⟩
  | start _ _ _ _ _ _ startFrom | startCompressed _ _ _ startFrom => startFrom = pos

/-- What happens to the high-level commander. -/
inductive HlEvent where
  | packet (p : CRTPPacket) (uptime : ℕ)
  /-- a call of an app, for all groups or not -/
  | command (c : Command) (uptime : ℕ)
  | getSetpoint (setpoint : Setpoint) (state : Commander.State) (tick : UInt32) (uptime : ℕ)
  | tellState (state : Commander.State)
  | disable

namespace HighLevelCommander

variable {σ : Type} (f : Floats) (api : PlannerFunctions σ)

def step (s : HighLevelCommander σ) : HlEvent → HighLevelCommander σ
  | .packet p uptime => (s.task f api p uptime).2
  | .command c uptime => (s.handle f api (f.time uptime) c).2
  | .getSetpoint setpoint state tick uptime =>
      (s.getSetpoint f api setpoint state tick uptime).2
  | .tellState state => s.tellState f state
  | .disable => s.disable api

/-- What an event makes known: a state told, or given while the planner is disabled or stopped, or a
setpoint of the planner. -/
def learns (s : HighLevelCommander σ) : HlEvent → Option Known
  | .getSetpoint setpoint state tick uptime =>
      let planner := (api.planCurrentGoal (f.time uptime) s.planner).2
      let r := s.getSetpoint f api setpoint state tick uptime
      if tick.toNat % hlCommanderTicks ≠ 0 then none
      else if api.planIsDisabled planner || api.planIsStopped planner then some (.state state)
      else if r.1.1 then some (.setpoint r.1.2)
      else none
  | .tellState state => some (.state state)
  | .packet _ _ | .command _ _ | .disable => none

/-- A step with what is known. -/
def follow (w : HighLevelCommander σ × Known) (e : HlEvent) : HighLevelCommander σ × Known :=
  (w.1.step f api e, (w.1.learns f api e).getD w.2)

/-! ### Commands leave it alone -/

/-- What a command does: it calls the planner at most once, for a plan that begins at the last known
setpoint, and it leaves that alone. -/
structure Commanded (s s' : HighLevelCommander σ) : Prop where
  pos : s'.pos = s.pos
  vel : s'.vel = s.vel
  yaw : s'.yaw = s.yaw
  plans : s'.plans = s.plans ∨
    ∃ p r, s'.plans = s.plans ++ [(p, r)] ∧ p.StartsAt s.pos s.vel s.yaw

variable {f : Floats} {api : PlannerFunctions σ} {s : HighLevelCommander σ}

theorem Commanded.refl (s : HighLevelCommander σ) : Commanded s s := ⟨rfl, rfl, rfl, .inl rfl⟩

theorem commanded_callPlan {p : Plan} (h : p.StartsAt s.pos s.vel s.yaw) :
    Commanded s (s.callPlan api p).2 := ⟨rfl, rfl, rfl, .inr ⟨p, _, rfl, h⟩⟩

/-- A command for the group of the drone calls the planner, another one does nothing. -/
theorem commanded_inGroup {groupMask : UInt8} {r : Int × HighLevelCommander σ}
    (h : Commanded s r.2) :
    Commanded s (if isInGroup groupMask s.groupMask then r else (0, s)).2 := by
  split
  · exact h
  · exact .refl s

theorem commanded_goTo (data : DataGoTo) (t : UInt32) : Commanded s (s.goTo api data t).2 := by
  apply commanded_inGroup
  dsimp only
  split
  · exact commanded_callPlan rfl
  · exact commanded_callPlan trivial

theorem commanded_startTrajectory (data : DataStartTrajectory) (t : UInt32) :
    Commanded s (s.startTrajectory api data t).2 := by
  apply commanded_inGroup
  split
  · dsimp only
    split
    · exact commanded_callPlan rfl
    · split
      · split
        · exact .refl s
        · exact commanded_callPlan rfl
      · exact .refl s
  · exact .refl s

theorem commanded_handle (t : UInt32) (c : Command) : Commanded s (s.handle f api t c).2 := by
  cases c with
  | setGroupMask groupMask => exact ⟨rfl, rfl, rfl, .inl rfl⟩
  | takeoff data => exact commanded_inGroup (commanded_callPlan ⟨rfl, rfl⟩)
  | land data => exact commanded_inGroup (commanded_callPlan ⟨rfl, rfl⟩)
  | stop groupMask => exact commanded_inGroup ⟨rfl, rfl, rfl, .inl rfl⟩
  | goTo data => exact commanded_goTo data t
  | startTrajectory data => exact commanded_startTrajectory data t
  | defineTrajectory data =>
      change Commanded s (s.defineTrajectory data).2
      unfold defineTrajectory
      split
      · exact .refl s
      · exact ⟨rfl, rfl, rfl, .inl rfl⟩
  | takeoff2 data => exact commanded_inGroup (commanded_callPlan ⟨rfl, rfl⟩)
  | land2 data => exact commanded_inGroup (commanded_callPlan ⟨rfl, rfl⟩)
  | takeoffWithVelocity data => exact commanded_inGroup (commanded_callPlan ⟨rfl, rfl⟩)
  | landWithVelocity data => exact commanded_inGroup (commanded_callPlan ⟨rfl, rfl⟩)

theorem commanded_task (p : CRTPPacket) (uptime : ℕ) :
    Commanded s (s.task f api p uptime).2 := by
  change Commanded s (s.handleCommand f api _ _ uptime).2
  unfold handleCommand
  split
  · exact commanded_handle _ _
  · exact .refl s

theorem Commanded.tracks {s' : HighLevelCommander σ} (h : Commanded s s') {k : Known}
    (hk : s.Tracks f k) : s'.Tracks f k := by
  cases k <;> simpa [Tracks, h.pos, h.vel, h.yaw] using hk

/-! ### Runs -/

/-- A setpoint that is handed out is the last known one. -/
theorem tracks_getSetpoint {k : Known} (h : s.Tracks f k) (setpoint : Setpoint)
    (state : Commander.State) (tick : UInt32) (uptime : ℕ) :
    (s.getSetpoint f api setpoint state tick uptime).2.Tracks f
      ((s.learns f api (.getSetpoint setpoint state tick uptime)).getD k) := by
  unfold learns getSetpoint
  dsimp only
  by_cases htick : tick.toNat % hlCommanderTicks ≠ 0
  · simp only [if_pos htick]
    exact h
  · simp only [if_neg htick]
    cases hdisabled : api.planIsDisabled (api.planCurrentGoal (f.time uptime) s.planner).2 ||
        api.planIsStopped (api.planCurrentGoal (f.time uptime) s.planner).2 with
    | true =>
        simp only [↓reduceIte]
        split
        · exact ⟨rfl, rfl, rfl⟩
        · exact ⟨rfl, rfl, rfl⟩
    | false =>
        simp only [Bool.false_eq_true, ↓reduceIte]
        cases api.isTrajEvalValid (api.planCurrentGoal (f.time uptime) s.planner).1 with
        | true => exact ⟨rfl, rfl, rfl⟩
        | false => cases k <;> exact h

theorem plans_getSetpoint (setpoint : Setpoint) (state : Commander.State) (tick : UInt32)
    (uptime : ℕ) : (s.getSetpoint f api setpoint state tick uptime).2.plans = s.plans := by
  unfold getSetpoint
  dsimp only
  split
  · rfl
  · split
    · split <;> rfl
    · split <;> rfl

theorem tracks_follow {w : HighLevelCommander σ × Known} (h : w.1.Tracks f w.2) (e : HlEvent) :
    (follow f api w e).1.Tracks f (follow f api w e).2 := by
  cases e with
  | packet p uptime => exact (commanded_task p uptime).tracks h
  | command c uptime => exact (commanded_handle _ c).tracks h
  | getSetpoint setpoint state tick uptime => exact tracks_getSetpoint h setpoint state tick uptime
  | tellState state => exact ⟨rfl, rfl, rfl⟩
  | disable =>
      change (w.1.disable api).Tracks f w.2
      cases hk : w.2 <;> rw [hk] at h <;> exact h

theorem tracks_run {w : HighLevelCommander σ × Known} (h : w.1.Tracks f w.2)
    (events : List HlEvent) :
    (events.foldl (follow f api) w).1.Tracks f (events.foldl (follow f api) w).2 := by
  induction events generalizing w with
  | nil => exact h
  | cons e events ih => exact ih (tracks_follow h e)

/-- An event makes at most one plan, from the last known setpoint. -/
theorem plans_step (s : HighLevelCommander σ) (e : HlEvent) :
    (s.step f api e).plans = s.plans ∨ ∃ p r, (s.step f api e).plans = s.plans ++ [(p, r)] ∧
      p.StartsAt s.pos s.vel s.yaw := by
  cases e with
  | packet p uptime => exact (commanded_task p uptime).plans
  | command c uptime => exact (commanded_handle _ c).plans
  | getSetpoint setpoint state tick uptime =>
      exact .inl (plans_getSetpoint setpoint state tick uptime)
  | tellState state => exact .inl rfl
  | disable => exact .inl rfl

theorem startsAt_of_plan {e : HlEvent} {p : Plan} {r : Int}
    (h : (s.step f api e).plans = s.plans ++ [(p, r)]) : p.StartsAt s.pos s.vel s.yaw := by
  rcases plans_step s e with hsame | ⟨p', r', hplan, hstart⟩
  · exact absurd (List.self_eq_append_right.mp (hsame.symm.trans h)) (List.cons_ne_nil _ _)
  · have heq := List.append_cancel_left (h.symm.trans hplan)
    simp only [List.cons.injEq, Prod.mk.injEq, and_true] at heq
    rw [heq.1]
    exact hstart

end HighLevelCommander

/-- The plan begins at what is known, as far as it has a start. -/
def Plan.StartsFrom (f : Floats) (p : Plan) : HighLevelCommander.Known → Prop
  | .start => p.StartsAt vzero vzero 0
  | .state state => p.StartsAt (HighLevelCommander.position state)
      (HighLevelCommander.velocity state) (f.radians (HighLevelCommander.attitudeYaw state))
  | .setpoint sp => ∃ yaw, f.degrees yaw = sp.attitude.yaw ∧
      p.StartsAt ⟨sp.position.x, sp.position.y, sp.position.z⟩
        ⟨sp.velocity.x, sp.velocity.y, sp.velocity.z⟩ yaw

namespace HighLevelCommander

variable {σ : Type} {f : Floats} {api : PlannerFunctions σ} {s : HighLevelCommander σ}

theorem Tracks.startsFrom {k : Known} (h : s.Tracks f k) {p : Plan}
    (hp : p.StartsAt s.pos s.vel s.yaw) : p.StartsFrom f k := by
  cases k with
  | start =>
      obtain ⟨hpos, hvel, hyaw⟩ := h
      rwa [hpos, hvel, hyaw] at hp
  | state state =>
      obtain ⟨hpos, hvel, hyaw⟩ := h
      rwa [hpos, hvel, hyaw] at hp
  | setpoint sp =>
      obtain ⟨hpos, hvel, hyaw⟩ := h
      rw [hpos, hvel] at hp
      exact ⟨s.yaw, hyaw, hp⟩

/-- A planner that flies to one goal at once; its state is whether it flies. -/
def oneGoal (goal : TrajEval) : PlannerFunctions Bool where
  planInit := false
  planStop _ := false
  planDisable _ := false
  planIsStopped flies := !flies
  planIsDisabled _ := false
  planCurrentGoal _ flies := (goal, flies)
  plan _ _ := (0, true)
  isTrajEvalValid _ := true

/-- Degrees are twice the radians. -/
def smallFloats : Floats where
  radians x := x / 2
  degrees x := 2 * x
  add := (· + ·)
  sub := (· - ·)
  div := (· / ·)
  fabsf x := x
  isPositive x := x != 0
  time uptime := UInt32.ofNat uptime

end HighLevelCommander

end NanoDrone.HighLevel
