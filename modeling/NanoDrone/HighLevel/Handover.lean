import NanoDrone.Commander.Arbiter
import NanoDrone.HighLevel.Commands

/-! # Handing the drone to the high-level commander

`commander.c` calls the high-level commander: a set with a priority above it disables the planner,
and `commanderRelaxPriority` tells it the state of the last `commanderGetSetpoint`.  A `Stack` is
the two with these calls, and other tasks call either of them in any order.

`handover` says what a relax is good for: the next plan begins where the drone was when the
stabilizer last asked for a setpoint, and the setpoints that come of it are accepted. -/

namespace NanoDrone.HighLevel

open Commander (Shared Call Arbiter Represents Setpoint)

structure Stack (σ : Type) where
  commander : Shared
  highLevel : HighLevelCommander σ

/-- A call of `commander.c`, or what happens to the high-level commander. -/
inductive Move where
  | call (c : Call)
  | highLevel (e : HlEvent)

namespace Stack

variable {σ : Type} (f : Floats) (api : PlannerFunctions σ) (ticksPerSec : ℕ)

/-- The calls of the high-level commander are those that the commander has made in the call. -/
def step (s : Stack σ) : Move → Stack σ
  | .call c =>
      let commander := Commander.after ticksPerSec s.commander c
      { commander := commander
        highLevel :=
          match c with
          | .relaxPriority => s.highLevel.tellState f s.commander.lastState
          | .setSetpoint _ _ _ =>
              if commander.plannerDisabled ≠ s.commander.plannerDisabled then
                s.highLevel.disable api
              else s.highLevel
          | _ => s.highLevel }
  | .highLevel e => { s with highLevel := s.highLevel.step f api e }

/-- After both inits, at tick `initTick`. -/
def init (initTick : ℕ) (s0 : Shared) : Stack σ where
  commander := Commander.commanderInit initTick s0
  highLevel := .init api

end Stack

/-- The state of the last `commanderGetSetpoint`. -/
def lastGot (start : Commander.State) (moves : List Move) : Commander.State :=
  moves.foldl (fun last m =>
    match m with
    | .call (.getSetpoint _ state _) => state
    | _ => last) start

/-- The move makes nothing known to the high-level commander and does not take the drone from it. -/
def Move.Quiet : Move → Prop
  | .call .relaxPriority => False
  | .call (.setSetpoint _ priority _) => priority ≤ Commander.priorityHighlevel
  | .call _ => True
  | .highLevel (.getSetpoint _ _ tick _) =>
      tick.toNat % HighLevelCommander.hlCommanderTicks ≠ 0
  | .highLevel (.tellState _) => False
  | .highLevel _ => True

namespace Stack

variable {σ : Type} {f : Floats} {api : PlannerFunctions σ} {ticksPerSec : ℕ} {s : Stack σ}

/-- The commander is an arbiter that has last seen the state of the last get. -/
def Seen (s : Stack σ) (last : Commander.State) : Prop :=
  ∃ a, Represents s.commander a ∧ a.lastState = last

theorem seen_step {last : Commander.State} (h : s.Seen last) (m : Move) :
    (s.step f api ticksPerSec m).Seen (lastGot last [m]) := by
  obtain ⟨a, ha, rfl⟩ := h
  cases m with
  | highLevel e => exact ⟨a, ha, rfl⟩
  | call c =>
      refine ⟨a.next ticksPerSec c, (ha.step ticksPerSec c).2, ?_⟩
      cases c with
      | setSetpoint new priority now =>
          change (a.set new priority now).lastState = a.lastState
          unfold Arbiter.set
          split <;> rfl
      | relaxPriority => rfl
      | getSetpoint buffer state now => rfl
      | getActivePriority => rfl

theorem seen_run {last : Commander.State} (h : s.Seen last) (moves : List Move) :
    (moves.foldl (step f api ticksPerSec) s).Seen (lastGot last moves) := by
  induction moves generalizing s last with
  | nil => exact h
  | cons m moves ih => exact ih (seen_step h m)

/-! ### After a relax -/

/-- The high-level commander knows the drone to be at a state, and its setpoints are accepted. -/
structure HandedOver (f : Floats) (s : Stack σ) (state : Commander.State) : Prop where
  tracks : s.highLevel.Tracks f (.state state)
  accepts : ∃ a, Represents s.commander a ∧ a.priority ≤ Commander.priorityHighlevel

theorem handedOver_relax {last : Commander.State} (h : s.Seen last) :
    HandedOver f (s.step f api ticksPerSec (.call .relaxPriority)) last := by
  obtain ⟨a, ha, rfl⟩ := h
  refine ⟨?_, a.next ticksPerSec .relaxPriority, (ha.step ticksPerSec _).2, Int.le_refl _⟩
  rw [← ha.lastState]
  exact ⟨rfl, rfl, rfl⟩

/-- An event of the high-level commander that makes nothing known. -/
theorem tracks_quiet {hl : HighLevelCommander σ} {k : HighLevelCommander.Known}
    (h : hl.Tracks f k) {e : HlEvent} (he : Move.Quiet (.highLevel e)) :
    (hl.step f api e).Tracks f k := by
  have hfollow := @HighLevelCommander.tracks_follow _ f api (hl, k) h e
  have hnone : hl.learns f api e = none := by
    cases e with
    | getSetpoint setpoint state tick uptime =>
        unfold HighLevelCommander.learns
        exact if_pos he
    | tellState state => exact he.elim
    | packet p uptime => rfl
    | command c uptime => rfl
    | disable => rfl
  simpa [HighLevelCommander.follow, hnone] using hfollow

theorem tracks_disable {hl : HighLevelCommander σ} {k : HighLevelCommander.Known}
    (h : hl.Tracks f k) : (hl.disable api).Tracks f k := by
  cases k <;> exact h

theorem handedOver_step {state : Commander.State} (h : HandedOver f s state) {m : Move}
    (hm : m.Quiet) : HandedOver f (s.step f api ticksPerSec m) state := by
  obtain ⟨htracks, a, ha, hpriority⟩ := h
  cases m with
  | highLevel e => exact ⟨tracks_quiet htracks hm, a, ha, hpriority⟩
  | call c =>
      have hnext := (ha.step ticksPerSec c).2
      cases c with
      | setSetpoint new priority now =>
          refine ⟨?_, a.next ticksPerSec _, hnext, ?_⟩
          · change (if _ then s.highLevel.disable api else s.highLevel).Tracks f _
            split
            · exact tracks_disable htracks
            · exact htracks
          · change (a.set new priority now).priority ≤ _
            unfold Arbiter.set
            split
            · exact hm
            · exact hpriority
      | relaxPriority => exact hm.elim
      | getSetpoint buffer seen now =>
          refine ⟨htracks, a.next ticksPerSec _, hnext, ?_⟩
          change (if _ then Commander.priorityDisable else a.priority) ≤ _
          split
          · decide
          · exact hpriority
      | getActivePriority => exact ⟨htracks, a, hnext, hpriority⟩

theorem handedOver_run {state : Commander.State} (h : HandedOver f s state) {moves : List Move}
    (hmoves : ∀ m ∈ moves, m.Quiet) :
    HandedOver f (moves.foldl (step f api ticksPerSec) s) state := by
  induction moves generalizing s with
  | nil => exact h
  | cons m moves ih =>
      rw [List.forall_mem_cons] at hmoves
      exact ih (handedOver_step h hmoves.1) hmoves.2

/-- What an arbiter with a low priority does with a setpoint of the high-level commander. -/
theorem HandedOver.set {state : Commander.State} (h : HandedOver f s state) (new : Setpoint)
    (now : ℕ) : ∃ a, Represents (s.step f api ticksPerSec
        (.call (.setSetpoint new Commander.priorityHighlevel now))).commander a ∧
      a.setpoint = { new with timestamp := uint32 now } ∧
      a.priority = Commander.priorityHighlevel := by
  obtain ⟨-, a, ha, hpriority⟩ := h
  refine ⟨_, (ha.step ticksPerSec _).2, ?_, ?_⟩
  · simp only [Arbiter.next, Arbiter.set, if_pos hpriority]
  · simp only [Arbiter.next, Arbiter.set, if_pos hpriority]

/-- **Handover.**  For every planner and every run of complete calls of both commanders: after a
relax, as long as nobody relaxes again, tells the high-level commander a state or lets it see one,
or sets a priority above it, a plan begins at the state that the stabilizer gave last before the
relax, and a setpoint of the high-level commander is accepted. -/
theorem handover (f : Floats) (api : PlannerFunctions σ) (ticksPerSec initTick : ℕ) (s0 : Shared)
    (before after : List Move) (hafter : ∀ m ∈ after, m.Quiet) :
    let s := (before ++ .call .relaxPriority :: after).foldl (step f api ticksPerSec)
      (init api initTick s0)
    (∀ e p r, (s.step f api ticksPerSec (.highLevel e)).highLevel.plans =
        s.highLevel.plans ++ [(p, r)] →
      p.StartsFrom f (.state (lastGot s0.lastState before))) ∧
    ∀ new now, ∃ a, Represents (s.step f api ticksPerSec
        (.call (.setSetpoint new Commander.priorityHighlevel now))).commander a ∧
      a.setpoint = { new with timestamp := uint32 now } ∧
      a.priority = Commander.priorityHighlevel := by
  intro s
  have hstart : (init api initTick s0 : Stack σ).Seen s0.lastState :=
    ⟨.init s0, Represents.init initTick s0, rfl⟩
  have hseen := @seen_run _ f api ticksPerSec _ _ hstart before
  have hrelax := @handedOver_relax _ f api ticksPerSec _ _ hseen
  have hs : HandedOver f s (lastGot s0.lastState before) := by
    have hrun := @handedOver_run _ f api ticksPerSec _ _ hrelax _ hafter
    change HandedOver f (List.foldl _ _ (before ++ .call .relaxPriority :: after)) _
    rwa [List.foldl_append]
  refine ⟨fun e p r hplan => ?_, fun new now => hs.set new now⟩
  exact hs.tracks.startsFrom (HighLevelCommander.startsAt_of_plan hplan)

/-- A get with a state at a position of one, two and three. -/
def oneGet : List Move :=
  [.call (.getSetpoint Commander.nullSetpoint [0, 0, 0, 4, 0, 0, 0, 0, 0, 1, 2, 3] 5)]

/-- After the get the ground lets go. -/
theorem handover_small :
    let api := HighLevelCommander.oneGoal ⟨vzero, vzero, vzero, vzero, 0⟩
    let s := (oneGet ++ Move.call .relaxPriority :: [Move.call .getActivePriority]).foldl
      (step HighLevelCommander.smallFloats api 1000) (init api 0 Commander.blank)
    (∀ e p r, (s.step HighLevelCommander.smallFloats api 1000 (.highLevel e)).highLevel.plans =
        s.highLevel.plans ++ [(p, r)] →
      p.StartsFrom HighLevelCommander.smallFloats
        (.state (lastGot Commander.blank.lastState oneGet))) ∧
    ∀ new now, ∃ a, Represents (s.step HighLevelCommander.smallFloats api 1000
        (.call (.setSetpoint new Commander.priorityHighlevel now))).commander a ∧
      a.setpoint = { new with timestamp := uint32 now } ∧
      a.priority = Commander.priorityHighlevel :=
  handover HighLevelCommander.smallFloats
    (HighLevelCommander.oneGoal ⟨vzero, vzero, vzero, vzero, 0⟩) 1000 0 Commander.blank oneGet
    [Move.call .getActivePriority] (List.forall_mem_singleton.mpr trivial)

end Stack

end NanoDrone.HighLevel
