import NanoDrone.HighLevel.Commands
import NanoDrone.HighLevel.TakeoffLand

/-! # Views of the high-level commander

`HighLevelCommander` is all that `crtp_commander_high_level.c` does with commands.  Three other
modules look at a part of it, with the state that this part needs: `State` at what becomes of
trajectories, `Flight` at the start of one with exact numbers, `Hover` at a take-off or a landing
with a velocity, with exact numbers too.

Each of them is a view.  Every event of the whole commander is one event of its `State`, also in runs
(`run_toState`); over a planner that keeps its trajectory a start is that of its `Flight`
(`startTrajectory_toFlight`); and where no float is rounded a maneuver is that of its `Hover`
(`withVelocity_toHover`). -/

namespace NanoDrone.HighLevel

open Commander (Setpoint)

/-! ## Trajectories -/

/-- The start of a trajectory, for a plan that is one. -/
def Plan.planned : Plan → Option Planned
  | start tBegin timescale nPieces pieces reversed relative startFrom =>
      some (.trajectory tBegin timescale nPieces pieces reversed relative startFrom)
  | startCompressed tBegin data relative startFrom =>
      some (.compressed tBegin data relative startFrom)
  | takeoff _ | land _ | goTo _ | goToFrom _ _ => none

namespace HighLevelCommander

variable {σ : Type}

/-- The variables about trajectories, with the trajectory memory. -/
def toState (memory : Memory) (s : HighLevelCommander σ) : State where
  memory := memory
  trajectoryDescriptions := s.trajectoryDescriptions
  groupMask := s.groupMask
  pos := s.pos
  planned := s.plans.filterMap fun c => c.1.planned

section
variable {f : Floats} {api : PlannerFunctions σ} {s : HighLevelCommander σ} (memory : Memory)

theorem toState_callPlan (p : Plan) :
    (s.callPlan api p).2.toState memory =
      { s.toState memory with planned := (s.toState memory).planned ++ p.planned.toList } := by
  unfold callPlan toState
  dsimp only
  rw [List.filterMap_append]
  cases hp : p.planned <;> simp [hp]

/-- A plan without a trajectory does not show. -/
theorem toState_callPlan_none {p : Plan} (hp : p.planned = none) :
    (s.callPlan api p).2.toState memory = s.toState memory := by
  rw [toState_callPlan, hp]
  simp

theorem startTrajectory_toState (data : DataStartTrajectory) (t : UInt32) :
    (s.toState memory).startTrajectory data t (s.startTrajectory api data t).1 =
      Prod.map id (toState memory) (s.startTrajectory api data t) := by
  have hgroup : (s.toState memory).groupMask = s.groupMask := rfl
  have hdesc : (s.toState memory).trajectoryDescriptions = s.trajectoryDescriptions := rfl
  unfold State.startTrajectory startTrajectory
  rw [hgroup, hdesc]
  dsimp only
  have hcall : ∀ p : Plan, ((s.callPlan api p).1, { s.toState memory with
      planned := (s.toState memory).planned ++ p.planned.toList }) =
        Prod.map id (toState memory) (s.callPlan api p) :=
    fun p => Prod.ext rfl (toState_callPlan memory p).symm
  split
  · split
    · split
      · exact hcall (.start ..)
      · split
        · split
          · rfl
          · exact hcall (.startCompressed ..)
        · rfl
    · rfl
  · rfl

theorem defineTrajectory_toState (data : DataDefineTrajectory) :
    (s.toState memory).defineTrajectory data =
      Prod.map id (toState memory) (s.defineTrajectory data) := by
  unfold State.defineTrajectory defineTrajectory
  split <;> rfl

end

end HighLevelCommander

/-- The command is about trajectories or the group mask. -/
def Command.Shows : Command → Prop
  | setGroupMask _ | startTrajectory _ | defineTrajectory _ => True
  | _ => False

/-- The bytes of the others. -/
theorem Command.ofBytes_not_shows {command : UInt8} (h0 : command ≠ 0) (h5 : command ≠ 5)
    (h6 : command ≠ 6) (data : Bytes) :
    if command ≤ 10 then ∃ c, ofBytes data command = some c ∧ ¬ c.Shows
    else ofBytes data command = none := by
  split
  · rename_i hle
    rw [UInt8.le_iff_toNat_le] at hle
    simp only [ne_eq, ← UInt8.toNat_inj] at h0 h5 h6
    have hcases : command = 1 ∨ command = 2 ∨ command = 3 ∨ command = 4 ∨ command = 7 ∨
        command = 8 ∨ command = 9 ∨ command = 10 := by
      simp only [← UInt8.toNat_inj, UInt8.reduceToNat] at h0 h5 h6 hle ⊢
      omega
    rcases hcases with rfl | rfl | rfl | rfl | rfl | rfl | rfl | rfl <;> exact ⟨_, rfl, id⟩
  · rename_i hhigh
    have hne : ∀ k : UInt8, k ≤ 10 → command ≠ k := fun k hk h => hhigh (h ▸ hk)
    unfold ofBytes
    rw [if_neg h0, if_neg (hne 1 (by decide)), if_neg (hne 2 (by decide)),
      if_neg (hne 3 (by decide)), if_neg (hne 4 (by decide)), if_neg h5, if_neg h6,
      if_neg (hne 7 (by decide)), if_neg (hne 8 (by decide)), if_neg (hne 9 (by decide)),
      if_neg (hne 10 (by decide))]

namespace HighLevelCommander

variable {σ : Type} {f : Floats} {api : PlannerFunctions σ} {s : HighLevelCommander σ}
  (memory : Memory)

/-- The other commands only reach the planner. -/
theorem handle_toState_of_not_shows {c : Command} (hc : ¬ c.Shows) (t : UInt32) :
    (s.handle f api t c).2.toState memory = s.toState memory := by
  have hcall : ∀ {groupMask : UInt8} {p : Plan}, p.planned = none →
      (if isInGroup groupMask s.groupMask then s.callPlan api p else (0, s)).2.toState memory =
        s.toState memory := by
    intro groupMask p hp
    split
    · exact toState_callPlan_none memory hp
    · rfl
  cases c with
  | setGroupMask | startTrajectory | defineTrajectory => exact absurd trivial hc
  | takeoff | land | takeoff2 | land2 | takeoffWithVelocity | landWithVelocity => exact hcall rfl
  | stop groupMask =>
      unfold handle stop
      dsimp only
      split <;> rfl
  | goTo data =>
      unfold handle goTo
      dsimp only
      split
      · split
        · exact toState_callPlan_none memory rfl
        · exact toState_callPlan_none memory rfl
      · rfl

/-- **One command.**  The commander handles the bytes of a command as its `State` does, which is
told what the planner answers. -/
theorem handleCommand_toState (command : UInt8) (data : Bytes) (uptime : ℕ) :
    (s.toState memory).handleCommand command data (f.time uptime)
        (s.handleCommand f api command data uptime).1 =
      Prod.map id (toState memory) (s.handleCommand f api command data uptime) := by
  by_cases h0 : command = 0
  · subst h0
    rfl
  by_cases h5 : command = 5
  · subst h5
    exact startTrajectory_toState memory (.ofBytes data) (f.time uptime)
  by_cases h6 : command = 6
  · subst h6
    exact defineTrajectory_toState memory (.ofBytes data)
  have hbytes := Command.ofBytes_not_shows h0 h5 h6 data
  unfold State.handleCommand handleCommand
  rw [if_neg h0, if_neg h5, if_neg h6]
  split at hbytes
  · rename_i hle
    obtain ⟨c, hc, hshows⟩ := hbytes
    rw [if_pos hle, hc]
    exact Prod.ext rfl (handle_toState_of_not_shows memory hshows (f.time uptime)).symm
  · rename_i hhigh
    rw [if_neg hhigh, hbytes]
    rfl

/-- A setpoint can only move the last known position. -/
theorem getSetpoint_toState (setpoint : Setpoint) (state : Commander.State) (tick : UInt32)
    (uptime : ℕ) :
    (s.getSetpoint f api setpoint state tick uptime).2.toState memory =
      (s.toState memory).tellState (s.getSetpoint f api setpoint state tick uptime).2.pos := by
  unfold getSetpoint
  dsimp only
  split
  · rfl
  · split
    · split <;> rfl
    · split <;> rfl

end HighLevelCommander

/-- The `i`th byte of a word, as packets hold it. -/
def wordByte (w : UInt32) (i : ℕ) : UInt8 := UInt8.ofNat (w.toNat / 2 ^ (8 * i))

theorem wordAt_eq {data : Bytes} {a : ℕ} {w : UInt32} (h0 : data a = wordByte w 0)
    (h1 : data (a + 1) = wordByte w 1) (h2 : data (a + 2) = wordByte w 2)
    (h3 : data (a + 3) = wordByte w 3) : wordAt data a = w := by
  have hlt := w.toNat_lt
  unfold wordAt
  rw [h0, h1, h2, h3, ← UInt32.toNat_inj, UInt32.toNat_ofNat']
  simp only [wordByte, UInt8.toNat_ofNat']
  omega

/-- What an app asks for can be asked for by a packet. -/
theorem Command.exists_payload {c : Command} (hc : c.Shows) :
    ∃ payload : Bytes, ofBytes (fun i => payload (i + 1)) (payload 0) = some c := by
  cases c with
  | setGroupMask groupMask => exact ⟨fun i => [0, groupMask].getD i 0, rfl⟩
  | startTrajectory d =>
      let bytes : List UInt8 := [5, d.groupMask, d.relative, d.reversed, d.trajectoryId,
        wordByte d.timescale 0, wordByte d.timescale 1, wordByte d.timescale 2,
        wordByte d.timescale 3]
      have hword : wordAt (fun i => bytes.getD (i + 1) 0) 4 = d.timescale :=
        wordAt_eq rfl rfl rfl rfl
      refine ⟨fun i => bytes.getD i 0, ?_⟩
      change some (startTrajectory ⟨_, _, _, _, wordAt (fun i => bytes.getD (i + 1) 0) 4⟩) = _
      rw [hword]
      rfl
  | defineTrajectory d =>
      let desc := d.description
      let bytes : List UInt8 := [6, d.trajectoryId, desc.trajectoryLocation, desc.trajectoryType,
        wordByte desc.offset 0, wordByte desc.offset 1, wordByte desc.offset 2,
        wordByte desc.offset 3, desc.nPieces]
      have hword : wordAt (fun i => bytes.getD (i + 1) 0) 3 = desc.offset :=
        wordAt_eq rfl rfl rfl rfl
      refine ⟨fun i => bytes.getD i 0, ?_⟩
      change some (defineTrajectory ⟨_, _, _, wordAt (fun i => bytes.getD (i + 1) 0) 3, _⟩) = _
      rw [hword]
      rfl
  | takeoff | land | stop | goTo | takeoff2 | land2 | takeoffWithVelocity | landWithVelocity =>
      exact absurd hc id

/-- What happens to the commander and to its trajectory memory. -/
inductive MemoryEvent where
  | upload (memAddr : UInt32) (writeLen : UInt8) (buffer : Bytes)
  | commander (e : HlEvent)

namespace HighLevelCommander

variable {σ : Type} (f : Floats) (api : PlannerFunctions σ)

def stepMemory (w : HighLevelCommander σ × Memory) : MemoryEvent → HighLevelCommander σ × Memory
  | .upload memAddr writeLen buffer => (w.1, (handleMemWrite memAddr writeLen buffer w.2).2)
  | .commander e => (w.1.step f api e, w.2)

section
variable {f api} {s s' : HighLevelCommander σ} {memory : Memory} {v : Session}

/-- Bytes that are handled as a command are a command for the view. -/
theorem next_handleCommand (hv : v.commander = s.toState memory) (data : Bytes) (uptime : ℕ) :
    (v.next (.command data (f.time uptime)
      (s.handleCommand f api (data 0) (fun i => data (i + 1)) uptime).1)).commander =
        (s.handleCommand f api (data 0) (fun i => data (i + 1)) uptime).2.toState memory := by
  have h := @handleCommand_toState _ f api s memory (data 0) (fun i => data (i + 1)) uptime
  unfold Session.next
  dsimp only
  rw [hv, h]
  rfl

/-- A change of the last known position, or of nothing, is a new position for the view. -/
theorem next_tellState (hv : v.commander = s.toState memory)
    (h : s'.toState memory = (s.toState memory).tellState s'.pos) :
    (v.next (.tellState s'.pos)).commander = s'.toState memory := by
  unfold Session.next
  dsimp only
  rw [hv, h]

end

/-- **One event.**  Whatever happens is one event for the view. -/
theorem step_toState (w : HighLevelCommander σ × Memory) (e : MemoryEvent) : ∃ e' : Event,
    ∀ v : Session, v.commander = w.1.toState w.2 →
      (v.next e').commander = (stepMemory f api w e).1.toState (stepMemory f api w e).2 := by
  cases e with
  | upload memAddr writeLen buffer =>
      refine ⟨.upload memAddr writeLen buffer, ?_⟩
      intro v hv
      unfold Session.next
      dsimp only
      rw [hv]
      rfl
  | commander e =>
      cases e with
      | packet p uptime =>
          exact ⟨_, fun _ hv => next_handleCommand hv (fun i => p.data.getD i 0) uptime⟩
      | command c uptime =>
          by_cases hc : c.Shows
          · obtain ⟨payload, hpayload⟩ := c.exists_payload hc
            refine ⟨.command payload (f.time uptime) (w.1.handle f api (f.time uptime) c).1, ?_⟩
            intro v hv
            have h := @next_handleCommand _ f api _ _ _ hv payload uptime
            unfold handleCommand at h
            rw [hpayload] at h
            exact h
          · have h := @handle_toState_of_not_shows _ f api w.1 w.2 c hc (f.time uptime)
            have hsame : (w.1.handle f api (f.time uptime) c).2.pos = w.1.pos :=
              congrArg State.pos h
            refine ⟨_, fun _ hv => next_tellState hv ?_⟩
            change (w.1.handle f api (f.time uptime) c).2.toState w.2 = _
            rw [h]
            exact congrArg (w.1.toState w.2).tellState hsame.symm
      | getSetpoint setpoint state tick uptime =>
          exact ⟨_, fun _ hv => next_tellState hv
            (getSetpoint_toState w.2 setpoint state tick uptime)⟩
      | tellState state => exact ⟨_, fun _ hv => next_tellState hv rfl⟩
      | disable => exact ⟨_, fun _ hv => next_tellState hv rfl⟩

/-- **Runs.**  Every run of the commander is a run of its view, event by event. -/
theorem run_toState (events : List MemoryEvent) : ∃ past : List Event,
    past.length = events.length ∧ (past.foldl Session.next .init).commander =
      (events.foldl (stepMemory f api) (init api, State.init.memory)).1.toState
        (events.foldl (stepMemory f api) (init api, State.init.memory)).2 := by
  have hrun : ∀ (w : HighLevelCommander σ × Memory) (v : Session),
      v.commander = w.1.toState w.2 → ∃ past : List Event, past.length = events.length ∧
        (past.foldl Session.next v).commander = (events.foldl (stepMemory f api) w).1.toState
          (events.foldl (stepMemory f api) w).2 := by
    induction events with
    | nil => exact fun _ _ hv => ⟨[], rfl, hv⟩
    | cons e events ih =>
        intro w v hv
        obtain ⟨e', he'⟩ := step_toState f api w e
        obtain ⟨past, hlength, hpast⟩ := ih _ _ (he' v hv)
        exact ⟨e' :: past, congrArg (· + 1) hlength, hpast⟩
  exact hrun _ .init rfl

end HighLevelCommander

/-! ## The start of a trajectory -/

/-- A planner that keeps the trajectory that it was given last, as the commander does; `value` is the
number of a float, `pieces` what lies in the trajectory memory, and `other` the rest of the
planner. -/
def Planner.functions {σ : Type} (planner : Planner σ) (value : UInt32 → ℚ)
    (pieces : UInt32 → ℕ → Poly4d) (other : PlannerFunctions (PiecewiseTraj × σ)) :
    PlannerFunctions (PiecewiseTraj × σ) where
  planInit := other.planInit
  planStop := other.planStop
  planDisable := other.planDisable
  planIsStopped := other.planIsStopped
  planIsDisabled := other.planIsDisabled
  planCurrentGoal := other.planCurrentGoal
  plan p w :=
    match p with
    | .start tBegin timescale nPieces offset reversed relative startFrom =>
        let trajectory := ⟨value tBegin, value timescale, nPieces, pieces offset⟩
        let r := planner.planStartTrajectory w.2 trajectory reversed relative startFrom
        (r.1, trajectory, r.2)
    | .startCompressed tBegin data relative startFrom =>
        let r := planner.planStartCompressedTrajectory w.2 (value tBegin) data relative startFrom
        (r.1, w.1, r.2)
    | _ => other.plan p w
  isTrajEvalValid := other.isTrajEvalValid

namespace HighLevelCommander

variable {σ : Type}

/-- What a start of a trajectory needs of the commander. -/
def toFlight (memory : Memory) (pieces : UInt32 → ℕ → Poly4d)
    (s : HighLevelCommander (PiecewiseTraj × σ)) : Flight σ where
  commander := s.toState memory
  pieces := pieces
  trajectory := s.planner.1
  planner := s.planner.2

/-- **A start.**  Over exact numbers the commander starts a trajectory as its `Flight` does; `Flight`
does not record the plan. -/
theorem startTrajectory_toFlight (planner : Planner σ) (value : UInt32 → ℚ)
    (pieces : UInt32 → ℕ → Poly4d) (other : PlannerFunctions (PiecewiseTraj × σ))
    (memory : Memory) (s : HighLevelCommander (PiecewiseTraj × σ)) (data : DataStartTrajectory)
    {t : UInt32} {uptime : ℕ} (htime : value t = timeAt uptime)
    (hone : value data.timescale = 1 ↔ data.timescale = floatOne) :
    let r := s.startTrajectory (planner.functions value pieces other) data t
    (s.toFlight memory pieces).startTrajectory planner data (value data.timescale) uptime =
      (r.1, { r.2.toFlight memory pieces with commander := s.toState memory }) := by
  intro r
  have hgroup : (s.toFlight memory pieces).commander.groupMask = s.groupMask := rfl
  have hdesc : (s.toFlight memory pieces).commander.trajectoryDescriptions =
      s.trajectoryDescriptions := rfl
  unfold r Flight.startTrajectory startTrajectory
  rw [hgroup, hdesc]
  simp only [ne_eq, hone]
  split
  · split
    · split
      · rw [← htime]
        rfl
      · split
        · split
          · rfl
          · rw [← htime]
            rfl
        · rfl
    · rfl
  · rfl

end HighLevelCommander

/-! ## Take-off and landing with a velocity -/

/-- The numbers of a packet. -/
def DataVerticalVelocity.exact (value : UInt32 → ℚ) (data : DataVerticalVelocity) :
    DataWithVelocity where
  groupMask := data.groupMask
  height := value data.height
  heightIsRelative := data.heightIsRelative
  yaw := value data.yaw
  useCurrentYaw := data.useCurrentYaw
  velocity := value data.velocity

def VerticalPlan.exact (value : UInt32 → ℚ) (m : Maneuver) (p : VerticalPlan) : PlanCall where
  maneuver := m
  currPos := ⟨value p.currPos.x, value p.currPos.y, value p.currPos.z⟩
  currYaw := value p.currYaw
  height := value p.hoverHeight
  hoverYaw := value p.hoverYaw
  duration := value p.duration
  t := value p.t

/-- The numbers of a vertical plan. -/
def Plan.planCall (value : UInt32 → ℚ) : Plan → Option PlanCall
  | takeoff p => some (p.exact value .takeoff)
  | land p => some (p.exact value .land)
  | _ => none

namespace Maneuver

/-- The height that the code computes for the command. -/
def floatHeight (f : Floats) (data : DataVerticalVelocity) (z : UInt32) : Maneuver → UInt32
  | takeoff => if data.heightIsRelative then f.add data.height z else data.height
  | land => if data.heightIsRelative then f.sub z data.height else data.height

def plan (p : VerticalPlan) : Maneuver → Plan
  | takeoff => .takeoff p
  | land => .land p

end Maneuver

namespace HighLevelCommander

variable {σ : Type}

/-- The variables of the two functions, and the vertical plans so far. -/
def toHover (value : UInt32 → ℚ) (s : HighLevelCommander σ) : Hover where
  groupMask := s.groupMask
  pos := ⟨value s.pos.x, value s.pos.y, value s.pos.z⟩
  yaw := value s.yaw
  defaultTakeoffVelocity := value s.defaultTakeoffVelocity
  defaultLandingVelocity := value s.defaultLandingVelocity
  planned := s.plans.filterMap fun c => c.1.planCall value

def floatDefault (s : HighLevelCommander σ) : Maneuver → UInt32
  | .takeoff => s.defaultTakeoffVelocity
  | .land => s.defaultLandingVelocity

/-- The velocity that the code divides by. -/
def floatDivisor (f : Floats) (data : DataVerticalVelocity) (m : Maneuver)
    (s : HighLevelCommander σ) : UInt32 :=
  if f.isPositive data.velocity then data.velocity else s.floatDefault m

/-- `takeoff_with_velocity` or `land_with_velocity`. -/
def withVelocity (f : Floats) (api : PlannerFunctions σ) :
    Maneuver → DataVerticalVelocity → UInt32 → HighLevelCommander σ → Int × HighLevelCommander σ
  | .takeoff => takeoffWithVelocity f api
  | .land => landWithVelocity f api

/-- No operation on floats that the command does is rounded. -/
structure NotRounded (f : Floats) (value : UInt32 → ℚ) (m : Maneuver)
    (data : DataVerticalVelocity) (uptime : ℕ) (s : HighLevelCommander σ) : Prop where
  height : value (m.floatHeight f data s.pos.z) =
    m.targetHeight (data.exact value) (value s.pos.z)
  distance : value (f.fabsf (f.sub (m.floatHeight f data s.pos.z) s.pos.z)) =
    |value (m.floatHeight f data s.pos.z) - value s.pos.z|
  positive : f.isPositive data.velocity = true ↔ value data.velocity > 0
  duration :
    value (f.div (f.fabsf (f.sub (m.floatHeight f data s.pos.z) s.pos.z))
      (s.floatDivisor f data m)) =
    value (f.fabsf (f.sub (m.floatHeight f data s.pos.z) s.pos.z)) /
      value (s.floatDivisor f data m)
  time : value (f.time uptime) = timeAt uptime

section
variable {f : Floats} {api : PlannerFunctions σ} {s : HighLevelCommander σ}

theorem toHover_callPlan (value : UInt32 → ℚ) (m : Maneuver) (p : VerticalPlan) :
    (s.callPlan api (m.plan p)).2.toHover value =
      { s.toHover value with planned := (s.toHover value).planned ++ [p.exact value m] } := by
  unfold callPlan toHover
  dsimp only
  rw [List.filterMap_append]
  cases m <;> rfl

/-- What a command does: in the group of the drone it calls the planner once. -/
theorem withVelocity_eq (m : Maneuver) (data : DataVerticalVelocity) (t : UInt32) :
    withVelocity f api m data t s =
      if isInGroup data.groupMask s.groupMask then
        s.callPlan api (m.plan (s.vertical (m.floatHeight f data s.pos.z)
          (s.hoverYaw data.useCurrentYaw data.yaw)
          (f.div (f.fabsf (f.sub (m.floatHeight f data s.pos.z) s.pos.z))
            (s.floatDivisor f data m)) t))
      else (0, s) := by
  cases m <;> rfl

theorem floatDivisor_exact {value : UInt32 → ℚ} {m : Maneuver} {data : DataVerticalVelocity}
    (hpositive : f.isPositive data.velocity = true ↔ value data.velocity > 0) :
    value (s.floatDivisor f data m) =
      (data.exact value).divisor ((s.toHover value).defaultVelocity m) := by
  have hdefault : value (s.floatDefault m) = (s.toHover value).defaultVelocity m := by
    cases m <;> rfl
  unfold floatDivisor DataWithVelocity.divisor
  by_cases hpos : value data.velocity > 0
  · rw [if_pos (hpositive.mpr hpos), if_pos (show (data.exact value).velocity > 0 from hpos)]
    rfl
  · rw [if_neg (fun h => hpos (hpositive.mp h)),
      if_neg (show ¬ (data.exact value).velocity > 0 from hpos), hdefault]

/-- **A maneuver.**  Where nothing is rounded, the commander takes off and lands as its `Hover` does,
which is told what the planner answers. -/
theorem withVelocity_toHover {value : UInt32 → ℚ} {m : Maneuver} {data : DataVerticalVelocity}
    {uptime : ℕ} (h : NotRounded f value m data uptime s) :
    let r := withVelocity f api m data (f.time uptime) s
    m.handle (data.exact value) uptime r.1 (s.toHover value) = (r.1, r.2.toHover value) := by
  intro r
  have hgroup : (data.exact value).groupMask = data.groupMask ∧
    (s.toHover value).groupMask = s.groupMask := ⟨rfl, rfl⟩
  unfold r
  rw [handle_eq, withVelocity_eq, hgroup.1, hgroup.2]
  split
  · have hyaw : value (s.hoverYaw data.useCurrentYaw data.yaw) =
        if (data.exact value).useCurrentYaw then (s.toHover value).yaw
        else (data.exact value).yaw := apply_ite value _ _ _
    rw [toHover_callPlan]
    unfold VerticalPlan.exact vertical
    dsimp only
    rw [h.duration, h.distance, floatDivisor_exact h.positive, h.height, h.time, hyaw]
    rfl
  · rfl

-- four meters up at two meters per second
example : NotRounded smallFloats (fun w => w.toNat) .takeoff ⟨0, 4, true, 0, true, 2⟩ 0
    (init (oneGoal ⟨vzero, vzero, vzero, vzero, 0⟩)) :=
  ⟨by decide +kernel, by decide +kernel, by decide +kernel, by decide +kernel, by decide +kernel⟩

end

end HighLevelCommander

end NanoDrone.HighLevel
