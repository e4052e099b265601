import NanoDrone.Commander.Arbiter
import NanoDrone.Crtp.AppChannel
import NanoDrone.Crtp.RxTask

/-! # Setpoints from the radio (`crtp_commander.c`)

`crtpCommanderInit` registers `commanderCrtpCB` for two ports, and the receive task calls it with
every packet for them.  The callback decodes the packet into a static setpoint and hands that to
the commander, or it relaxes the priority.  The decoders are in files that are not here.  They
write into the setpoint of the packet before, so what they leave alone is what that has left.

An `Uplink` is the receive task with the commander, and other tasks call the commander between any
two steps.  Neither the callback nor these calls overlap: each is one step, from its beginning to
its end.  What calls that interrupt each other can do to the queues of the commander is another
matter (see `Commander.Races`).  `Pilot` says what the whole is for: packets and calls act on an
arbiter one after the other.  `follows_pilot` shows that every packet for the two ports is called
back once, in the order in which the link delivers them. -/

namespace NanoDrone.Crtp

open Commander (Setpoint Shared Call Arbiter Represents)

/-- `CRTP_PORT_SETPOINT`. -/
def portSetpoint : ℕ := 3

/-- `CRTP_PORT_SETPOINT_GENERIC`. -/
def portSetpointGeneric : ℕ := 7

/-- `SET_SETPOINT_CHANNEL`. -/
def setSetpointChannel : ℕ := 0

/-- `META_COMMAND_CHANNEL`. -/
def metaCommandChannel : ℕ := 1

/-- `sizeof(struct notifySetpointsStopPacket)`. -/
def sizeofNotifySetpointsStop : ℕ := 4

/-- `COMMANDER_PRIORITY_CRTP`. -/
def commanderPriorityCrtp : Int := 2

/-- `crtpCommanderRpytDecodeSetpoint` and `crtpCommanderGenericDecodeSetpoint`, with the setpoint
that they write into. -/
structure Decoders where
  rpyt : CRTPPacket → Setpoint → Setpoint
  generic : CRTPPacket → Setpoint → Setpoint

/-! ### The callback -/

/-- The end of both branches for setpoints; `none` if the assertion of the commander failed. -/
def handOver (setpoint : Setpoint) (now : ℕ) : Commander.Action (Option Setpoint) := do
  match ← Commander.commanderSetSetpoint setpoint commanderPriorityCrtp now with
  | .set setpoint => pure (some setpoint)
  | _ => pure none

/-- `false` if the assertion on the length failed. -/
def notifySetpointsStopDecoder (datalen : ℕ) : Commander.Action Bool :=
  if datalen = sizeofNotifySetpointsStop then do
    let _ ← Commander.commanderRelaxPriority
    pure true
  else pure false

/-- By the type of the command. -/
def metaCommandDecoders : List (ℕ → Commander.Action Bool) := [notifySetpointsStopDecoder]

/-- `commanderCrtpCB` at tick `now`: the static setpoint after it, or `none` if an assertion
failed. -/
def commanderCrtpCB (d : Decoders) (pk : CRTPPacket) (now : ℕ) (setpoint : Setpoint) :
    Commander.Action (Option Setpoint) :=
  if pk.port.val = portSetpoint ∧ pk.channel.val = 0 then handOver (d.rpyt pk setpoint) now
  else if pk.port.val = portSetpointGeneric then
    if pk.channel.val = setSetpointChannel then handOver (d.generic pk setpoint) now
    else if pk.channel.val = metaCommandChannel then
      match metaCommandDecoders[(pk.data.getD 0 0).toNat]? with
      | some decoder => do
          let ok ← decoder (uint32Sub pk.size.toNat 1)
          pure (if ok then some setpoint else none)
      | none => pure (some setpoint)
    else pure (some setpoint)
  else pure (some setpoint)

def crtpRegisterPortCB (port : ℕ) (s : CrtpState) : CrtpState :=
  if port > crtpNbrOfPorts then s
  else { s with callbacks := fun i => i.val = port || s.callbacks i }

def crtpCommanderInit (s : CrtpState) : CrtpState :=
  crtpRegisterPortCB portSetpointGeneric (crtpRegisterPortCB portSetpoint s)

/-! ### The receive task with the commander -/

/-- The packet is for one of the two ports of the commander. -/
def CRTPPacket.ForCommander (p : CRTPPacket) : Prop :=
  p.port.val = portSetpoint ∨ p.port.val = portSetpointGeneric

instance (p : CRTPPacket) : Decidable p.ForCommander := inferInstanceAs (Decidable (_ ∨ _))

/-- What the commander has been through: a packet that its callback was called with, at the tick
`now`, or a call by another task. -/
inductive Act where
  | packet (p : CRTPPacket) (now : ℕ)
  | call (c : Call)

/-- The states of `crtp.c` and `commander.c` and the static setpoint of the callback.  A failed
assertion halts the firmware; `acts` records what has happened before, and no step reads it. -/
structure Uplink where
  crtp : CrtpState
  commander : Shared
  setpoint : Setpoint
  halted : Bool
  acts : List Act

inductive UplinkEvent where
  | link (p : CRTPPacket)
  /-- the next statement of the receive task, at tick `now` -/
  | rxTask (now : ℕ)
  | receivePacket (port : Port)
  | call (c : Call)

namespace Uplink

/-- The callback of a packet, if it is the one of the commander, and what follows it. -/
def callback (d : Decoders) (p : CRTPPacket) (now : ℕ) (u : Uplink) : Uplink :=
  if u.crtp.callbacks p.port ∧ p.ForCommander then
    let r := (commanderCrtpCB d p now u.setpoint).exec u.commander
    match r.2.1 with
    | some setpoint =>
        { u with crtp := crtpRxTask u.crtp, commander := r.2.2, setpoint := setpoint
                 acts := u.acts ++ [.packet p now] }
    | none => { u with commander := r.2.2, halted := true }
  else { u with crtp := crtpRxTask u.crtp }

def step (d : Decoders) (ticksPerSec : ℕ) (u : Uplink) (e : UplinkEvent) : Uplink :=
  if u.halted then u
  else match e with
    | .link p => { u with crtp := receiveFromLink p u.crtp }
    | .rxTask now =>
        match u.crtp.rxTask with
        | .calling p => u.callback d p now
        | _ => { u with crtp := crtpRxTask u.crtp }
    | .receivePacket port => { u with crtp := (crtpReceivePacket port u.crtp).2 }
    | .call c =>
        { u with commander := Commander.after ticksPerSec u.commander c
                 acts := u.acts ++ [.call c] }

/-- `commanderInit` at tick `initTick`, with `ports` initialised and other callbacks registered. -/
def start (callbacks : Port → Bool) (buffer : Buffer) (ports : List Port) (initTick : ℕ)
    (s0 : Shared) : Uplink where
  crtp := crtpCommanderInit (Crtp.run callbacks buffer ports [])
  commander := Commander.commanderInit initTick s0
  setpoint := Commander.nullSetpoint
  halted := false
  acts := []

end Uplink

/-! ### What the packets ask for -/

/-- A packet for one of the two channels that set setpoints. -/
def CRTPPacket.IsSetpoint (p : CRTPPacket) : Prop :=
  p.ForCommander ∧ p.channel.val = setSetpointChannel

/-- The meta-command that gives the drone back to the high-level commander. -/
def CRTPPacket.IsStop (p : CRTPPacket) : Prop :=
  p.port.val = portSetpointGeneric ∧ p.channel.val = metaCommandChannel ∧ p.data.getD 0 0 = 0

/-- A stop that is not as long as it should be. -/
def CRTPPacket.Malformed (p : CRTPPacket) : Prop := p.IsStop ∧ p.size ≠ 5

instance (p : CRTPPacket) : Decidable p.IsSetpoint := inferInstanceAs (Decidable (_ ∧ _))

instance (p : CRTPPacket) : Decidable p.IsStop := inferInstanceAs (Decidable (_ ∧ _))

instance (p : CRTPPacket) : Decidable p.Malformed := inferInstanceAs (Decidable (_ ∧ _))

/-- The decoder of the port. -/
def Decoders.decode (d : Decoders) (p : CRTPPacket) : Setpoint → Setpoint :=
  if p.port.val = portSetpoint then d.rpyt p else d.generic p

/-- The arbiter with the setpoint that the last packet has left. -/
structure Pilot where
  arbiter : Arbiter
  decoded : Setpoint

namespace Pilot

/-- A setpoint is put to the arbiter with the priority of the radio, and stamped if it is
accepted. -/
def fly (setpoint : Setpoint) (now : ℕ) (a : Pilot) : Pilot where
  arbiter := a.arbiter.set setpoint commanderPriorityCrtp now
  decoded := if a.arbiter.priority ≤ commanderPriorityCrtp then
    { setpoint with timestamp := uint32 now } else setpoint

def act (d : Decoders) (ticksPerSec : ℕ) (a : Pilot) : Act → Pilot
  | .packet p now =>
      if p.IsSetpoint then a.fly (d.decode p a.decoded) now
      else if p.IsStop then { a with arbiter := a.arbiter.relax }
      else a
  | .call c => { a with arbiter := a.arbiter.next ticksPerSec c }

def init (s0 : Shared) : Pilot := ⟨.init s0, Commander.nullSetpoint⟩

end Pilot

/-- The packets among what the commander has been through. -/
def handled (acts : List Act) : List CRTPPacket :=
  acts.filterMap fun
    | .packet p _ => some p
    | .call _ => none

/-- The packet that the receive task holds. -/
def RxTask.inHand : RxTask → List CRTPPacket
  | .receiving => []
  | .testing p | .putting p | .waiting p | .calling p => [p]

/-! ### A packet is an act of the pilot -/

section
variable {d : Decoders} {s : Shared} {a : Pilot} {p : CRTPPacket} {now : ℕ}

theorem handOver_follows (h : Represents s a.arbiter) (setpoint : Setpoint) (now : ℕ) :
    ((handOver setpoint now).exec s).2.1 = some (a.fly setpoint now).decoded ∧
    Represents ((handOver setpoint now).exec s).2.2 (a.fly setpoint now).arbiter := by
  -- the rate of the ticks is of no account for a set
  obtain ⟨hanswer, hstep⟩ := h.set 0 setpoint commanderPriorityCrtp now
  have hset : ((Commander.commanderSetSetpoint setpoint commanderPriorityCrtp now).exec s).2.1 =
      .set (a.fly setpoint now).decoded := hanswer
  unfold handOver
  simp only [Prog.exec_bind, hset, Prog.exec_pure]
  exact ⟨trivial, hstep⟩

/-- The test on the length is one on the size of the packet. -/
theorem datalen_eq_iff (p : CRTPPacket) :
    uint32Sub p.size.toNat 1 = sizeofNotifySetpointsStop ↔ p.size = 5 := by
  have hlt := p.size.toNat_lt
  have heq : p.size = 5 ↔ p.size.toNat = 5 := UInt8.toNat_inj.symm
  rw [heq]
  unfold uint32Sub sizeofNotifySetpointsStop
  omega

/-- There is one meta-command. -/
theorem metaCommandDecoders_get (b : UInt8) :
    metaCommandDecoders[b.toNat]? = if b = 0 then some notifySetpointsStopDecoder else none := by
  unfold metaCommandDecoders
  split
  · rename_i hb
    rw [hb]
    rfl
  · rename_i hb
    have hpos : b.toNat ≠ 0 := fun h => hb (UInt8.toNat_inj.mp h)
    rw [List.getElem?_eq_none_iff, List.length_singleton]
    omega

theorem CRTPPacket.IsStop.not_isSetpoint (h : p.IsStop) : ¬ p.IsSetpoint := by
  rintro ⟨-, hchannel⟩
  exact absurd (h.2.1.symm.trans hchannel) (by decide)

/-- For the generic port, and every channel of it. -/
theorem commanderCrtpCB_generic (hport : p.port.val = portSetpointGeneric) (now : ℕ)
    (setpoint : Setpoint) :
    commanderCrtpCB d p now setpoint =
      if p.IsSetpoint then handOver (d.generic p setpoint) now
      else if p.IsStop then do
        let ok ← notifySetpointsStopDecoder (uint32Sub p.size.toNat 1)
        pure (if ok then some setpoint else none)
      else pure (some setpoint) := by
  have hne : p.port.val ≠ portSetpoint := fun h => absurd (hport.symm.trans h) (by decide)
  unfold commanderCrtpCB
  rw [if_neg (fun h => hne h.1), if_pos hport]
  by_cases hset : p.channel.val = setSetpointChannel
  · rw [if_pos hset, if_pos ⟨.inr hport, hset⟩]
  · have hnot : ¬ p.IsSetpoint := fun h => hset h.2
    rw [if_neg hset, if_neg hnot, metaCommandDecoders_get]
    by_cases hmeta : p.channel.val = metaCommandChannel
    · rw [if_pos hmeta]
      by_cases hzero : p.data.getD 0 0 = 0
      · have hstop : p.IsStop := ⟨hport, hmeta, hzero⟩
        rw [if_pos hzero, if_pos hstop]
      · have hstop : ¬ p.IsStop := fun h => hzero h.2.2
        rw [if_neg hzero, if_neg hstop]
    · have hstop : ¬ p.IsStop := fun h => hmeta h.2.1
      rw [if_neg hmeta, if_neg hstop]

/-- For the port of the roll, pitch, yaw and thrust packets. -/
theorem commanderCrtpCB_rpyt (hport : p.port.val = portSetpoint) (now : ℕ) (setpoint : Setpoint) :
    commanderCrtpCB d p now setpoint =
      if p.IsSetpoint then handOver (d.rpyt p setpoint) now else pure (some setpoint) := by
  have hne : p.port.val ≠ portSetpointGeneric := fun h => absurd (hport.symm.trans h) (by decide)
  unfold commanderCrtpCB
  by_cases hset : p.channel.val = setSetpointChannel
  · rw [if_pos ⟨hport, hset⟩, if_pos ⟨.inl hport, hset⟩]
  · rw [if_neg (fun h => hset h.2), if_neg hne, if_neg (fun h => hset h.2)]

/-- A stop of the wrong length fails its assertion before it does anything. -/
theorem callback_malformed (h : p.Malformed) (now : ℕ) (setpoint : Setpoint) (s : Shared) :
    ((commanderCrtpCB d p now setpoint).exec s).2 = (none, s) := by
  obtain ⟨hstop, hsize⟩ := h
  have hlen : uint32Sub p.size.toNat 1 ≠ sizeofNotifySetpointsStop :=
    fun hlen => hsize ((datalen_eq_iff p).mp hlen)
  rw [commanderCrtpCB_generic hstop.1, if_neg hstop.not_isSetpoint, if_pos hstop]
  unfold notifySetpointsStopDecoder
  rw [if_neg hlen]
  rfl

/-- Every other packet for the two ports is an act of the pilot. -/
theorem callback_follows (h : Represents s a.arbiter) (hwell : ¬ p.Malformed)
    (hport : p.ForCommander) (ticksPerSec now : ℕ) :
    ((commanderCrtpCB d p now a.decoded).exec s).2.1 =
        some (a.act d ticksPerSec (.packet p now)).decoded ∧
      Represents ((commanderCrtpCB d p now a.decoded).exec s).2.2
        (a.act d ticksPerSec (.packet p now)).arbiter := by
  unfold Pilot.act Decoders.decode
  rcases hport with hport | hport
  · have hstop : ¬ p.IsStop := fun hs => absurd (hs.1.symm.trans hport) (by decide)
    rw [commanderCrtpCB_rpyt hport]
    by_cases hset : p.IsSetpoint
    · simp only [if_pos hset, if_pos hport]
      exact handOver_follows h _ now
    · simp only [if_neg hset, if_neg hstop]
      exact ⟨rfl, h⟩
  · have hne : p.port.val ≠ portSetpoint := fun heq => absurd (hport.symm.trans heq) (by decide)
    rw [commanderCrtpCB_generic hport]
    by_cases hset : p.IsSetpoint
    · simp only [if_pos hset, if_neg hne]
      exact handOver_follows h _ now
    · by_cases hstop : p.IsStop
      · have hsize : p.size = 5 := by
          by_contra hsize
          exact hwell ⟨hstop, hsize⟩
        have hlen := (datalen_eq_iff p).mpr hsize
        simp only [if_neg hset, if_pos hstop]
        unfold notifySetpointsStopDecoder
        rw [if_pos hlen]
        exact ⟨rfl, (h.relax 0).2⟩
      · simp only [if_neg hset, if_neg hstop]
        exact ⟨rfl, h⟩

end

/-! ### Runs -/

section
variable (d : Decoders) (ticksPerSec : ℕ) (s0 : Shared)

/-- The pilot that what has happened makes of the one at start. -/
def Pilot.after (acts : List Act) : Pilot := acts.foldl (Pilot.act d ticksPerSec) (Pilot.init s0)

/-- Of the packets that the link has delivered, those for the commander are the ones that its
callback has been called with, none of them malformed, and the one that the receive task holds; and
the commander is where they and the calls have brought the arbiter. -/
structure FollowsPilot (u : Uplink) : Prop where
  idle : Idle u.crtp
  callbacks : ∀ port : Port, port.val = portSetpoint ∨ port.val = portSetpointGeneric →
    u.crtp.callbacks port = true
  delivered : u.crtp.delivered.filter (·.ForCommander) =
    handled u.acts ++ u.crtp.rxTask.inHand.filter (·.ForCommander)
  well : ∀ p ∈ handled u.acts, ¬ p.Malformed
  commander : Represents u.commander (Pilot.after d ticksPerSec s0 u.acts).arbiter
  setpoint : u.setpoint = (Pilot.after d ticksPerSec s0 u.acts).decoded
  halted : u.halted = true → ∃ p, u.crtp.rxTask = .calling p ∧ p.Malformed

end

section
variable {d : Decoders} {ticksPerSec : ℕ} {s0 : Shared} {u : Uplink}

theorem Pilot.after_append (acts : List Act) (x : Act) :
    Pilot.after d ticksPerSec s0 (acts ++ [x]) =
      (Pilot.after d ticksPerSec s0 acts).act d ticksPerSec x := by
  unfold Pilot.after
  rw [List.foldl_append]
  rfl

theorem handled_packet (acts : List Act) (p : CRTPPacket) (now : ℕ) :
    handled (acts ++ [.packet p now]) = handled acts ++ [p] := by
  unfold handled
  rw [List.filterMap_append]
  rfl

theorem handled_call (acts : List Act) (c : Call) : handled (acts ++ [.call c]) = handled acts := by
  unfold handled
  rw [List.filterMap_append]
  exact List.append_nil _

/-- Until it calls back, the task keeps the packet that it holds. -/
theorem crtpRxTask_keeps {s : CrtpState} (h : Idle s) (hcalling : ∀ p, s.rxTask ≠ .calling p) :
    (crtpRxTask s).delivered = s.delivered ∧ (crtpRxTask s).callbacks = s.callbacks ∧
      (crtpRxTask s).rxTask.inHand = s.rxTask.inHand := by
  unfold crtpRxTask
  split
  · exact ⟨rfl, rfl, rfl⟩
  · rename_i p hp
    rw [if_neg (by rw [h.used]; decide), hp]
    exact ⟨rfl, rfl, rfl⟩
  · rename_i p hp
    exact absurd hp (h.not_putting p)
  · rename_i p hp
    exact absurd hp (h.not_waiting p)
  · rename_i p hp
    exact absurd hp (hcalling p)

/-- After the callback it asks the link again. -/
theorem crtpRxTask_calling {s : CrtpState} {p : CRTPPacket} (hp : s.rxTask = .calling p) :
    (crtpRxTask s).delivered = s.delivered ∧ (crtpRxTask s).callbacks = s.callbacks ∧
      (crtpRxTask s).rxTask = .receiving := by
  unfold crtpRxTask
  rw [hp]
  exact ⟨rfl, rfl, rfl⟩

namespace FollowsPilot

theorem init (callbacks : Port → Bool) (buffer : Buffer) (ports : List Port) (initTick : ℕ) :
    FollowsPilot d ticksPerSec s0 (.start callbacks buffer ports initTick s0) := by
  have hstart : ∀ s : CrtpState,
      (ports.foldl (fun s port => crtpInitTaskQueue port s) s).delivered = s.delivered ∧
      (ports.foldl (fun s port => crtpInitTaskQueue port s) s).rxTask = s.rxTask := by
    intro s
    induction ports generalizing s with
    | nil => exact ⟨rfl, rfl⟩
    | cons port ports ih => exact ih _
  obtain ⟨hdelivered, htask⟩ := hstart (Crtp.start callbacks buffer)
  have h := Idle.run callbacks buffer ports []
  refine ⟨⟨h.used, h.enqueued, h.received, h.not_putting, h.not_waiting⟩, ?_, ?_, nofun,
    Represents.init initTick s0, rfl, nofun⟩
  · intro port hport
    change (decide (port.val = portSetpointGeneric) || (decide (port.val = portSetpoint) || _)) = true
    rcases hport with h | h
    · rw [decide_eq_true h, Bool.true_or, Bool.or_true]
    · rw [decide_eq_true h, Bool.true_or]
  · change List.filter _ (ports.foldl _ (Crtp.start callbacks buffer)).delivered =
      List.filter _ (ports.foldl _ (Crtp.start callbacks buffer)).rxTask.inHand
    rw [hdelivered, htask]
    rfl

/-- A callback hands its packet on, unless it is malformed. -/
theorem callback (h : FollowsPilot d ticksPerSec s0 u) {p : CRTPPacket}
    (hp : u.crtp.rxTask = .calling p) (now : ℕ) :
    FollowsPilot d ticksPerSec s0 (u.callback d p now) := by
  obtain ⟨hdelivered, hcallbacks, htask⟩ := crtpRxTask_calling hp
  have hin : u.crtp.delivered.filter (·.ForCommander) =
      handled u.acts ++ [p].filter (·.ForCommander) := by
    rw [h.delivered, hp]
    rfl
  have hcalled : ∀ port : Port, port.val = portSetpoint ∨ port.val = portSetpointGeneric →
      (crtpRxTask u.crtp).callbacks port = true := by
    rw [hcallbacks]
    exact h.callbacks
  have hempty : (crtpRxTask u.crtp).rxTask.inHand.filter (·.ForCommander) = [] := by
    rw [htask]
    rfl
  -- of the packets that the task may hold when it halts, only a malformed one halts it
  have hgoes : ¬ p.Malformed → u.halted = true →
      ∃ q, (crtpRxTask u.crtp).rxTask = .calling q ∧ q.Malformed := by
    intro hnot hhalt
    obtain ⟨q, hq, hbad⟩ := h.halted hhalt
    exact absurd (RxTask.calling.inj (hp.symm.trans hq) ▸ hbad) hnot
  unfold Uplink.callback
  by_cases hport : p.ForCommander
  · rw [if_pos ⟨h.callbacks _ hport, hport⟩, h.setpoint]
    rw [List.filter_singleton, decide_eq_true hport] at hin
    by_cases hmal : p.Malformed
    · simp only [callback_malformed hmal]
      exact ⟨h.idle, h.callbacks, h.delivered, h.well, h.commander, rfl, fun _ => ⟨p, hp, hmal⟩⟩
    · obtain ⟨hset, hfollow⟩ := @callback_follows d _ _ p h.commander hmal hport ticksPerSec now
      rw [← Pilot.after_append] at hset hfollow
      simp only [hset]
      refine ⟨h.idle.rxTask, hcalled, ?_, ?_, hfollow, rfl, hgoes hmal⟩
      · rw [hdelivered, hin, hempty, handled_packet]
        exact (List.append_nil _).symm
      · intro q hq
        rw [handled_packet, List.mem_append, List.mem_singleton] at hq
        rcases hq with hq | rfl
        · exact h.well q hq
        · exact hmal
  · have hnot : ¬ p.Malformed := fun hmal => hport (.inr hmal.1.1)
    rw [if_neg (fun hc => hport hc.2)]
    rw [List.filter_singleton, decide_eq_false hport] at hin
    refine ⟨h.idle.rxTask, hcalled, ?_, h.well, h.commander, h.setpoint, hgoes hnot⟩
    dsimp only
    rw [hdelivered, hin, hempty]
    rfl

theorem step (h : FollowsPilot d ticksPerSec s0 u) (e : UplinkEvent) :
    FollowsPilot d ticksPerSec s0 (u.step d ticksPerSec e) := by
  unfold Uplink.step
  by_cases hhalt : u.halted = true
  · rw [if_pos hhalt]
    exact h
  · rw [if_neg hhalt]
    cases e with
    | link p =>
        refine ⟨h.idle.receiveFromLink p, ?_, ?_, h.well, h.commander, h.setpoint,
          fun hh => absurd hh hhalt⟩
        · dsimp only
          unfold receiveFromLink
          split
          · exact h.callbacks
          · exact h.callbacks
        · have hin := h.delivered
          dsimp only
          unfold receiveFromLink
          split
          · rename_i htask
            rw [htask] at hin
            dsimp only
            rw [List.filter_append, hin]
            exact congrArg (· ++ _) (List.append_nil _)
          · exact hin
    | rxTask now =>
        dsimp only
        split
        · rename_i p hp
          exact h.callback hp now
        · rename_i hcalling
          obtain ⟨hdelivered, hcallbacks, hin⟩ := crtpRxTask_keeps h.idle hcalling
          refine ⟨h.idle.rxTask, ?_, ?_, h.well, h.commander, h.setpoint,
            fun hh => absurd hh hhalt⟩
          · rw [hcallbacks]
            exact h.callbacks
          · rw [hdelivered, hin]
            exact h.delivered
    | receivePacket port =>
        dsimp only
        rw [h.idle.receivePacket port]
        exact ⟨h.idle, h.callbacks, h.delivered, h.well, h.commander, h.setpoint, h.halted⟩
    | call c =>
        refine ⟨h.idle, h.callbacks, ?_, ?_, ?_, ?_, h.halted⟩
        · rw [handled_call]
          exact h.delivered
        · rw [handled_call]
          exact h.well
        · rw [Pilot.after_append]
          exact (h.commander.step ticksPerSec c).2
        · rw [Pilot.after_append]
          exact h.setpoint

theorem run (h : FollowsPilot d ticksPerSec s0 u) (events : List UplinkEvent) :
    FollowsPilot d ticksPerSec s0 (events.foldl (Uplink.step d ticksPerSec) u) := by
  induction events generalizing u with
  | nil => exact h
  | cons e events ih => exact ih (h.step e)

end FollowsPilot

end

/-- **Packets fly the drone in their order.**  In every run of the link, the receive task and calls
of the commander by other tasks that do not overlap, with any decoders, the packets for the two
ports that the link has delivered are those that the callback of the commander has been called
with, each once and in this order, and perhaps the one in the hands of the task; a stop of the
wrong length is never among the first, and halts the firmware.  The commander is where these
packets and the calls have brought its arbiter. -/
theorem follows_pilot (d : Decoders) (ticksPerSec : ℕ) (s0 : Shared) (callbacks : Port → Bool)
    (buffer : Buffer) (ports : List Port) (initTick : ℕ) (events : List UplinkEvent) :
    FollowsPilot d ticksPerSec s0 (events.foldl (Uplink.step d ticksPerSec)
      (.start callbacks buffer ports initTick s0)) :=
  (FollowsPilot.init callbacks buffer ports initTick).run events

/-! ### The newest packet -/

/-- The act sets a setpoint, or tries to. -/
def Act.Sets : Act → Prop
  | .packet p _ => p.IsSetpoint
  | .call (.setSetpoint _ _ _) => True
  | .call _ => False

/-- The act does not set a priority above that of the radio. -/
def Act.BelowRadio : Act → Prop
  | .call (.setSetpoint _ priority _) => priority ≤ commanderPriorityCrtp
  | _ => True

namespace Pilot

variable {d : Decoders} {ticksPerSec : ℕ} {a : Pilot}

theorem set_priority_le {b : Arbiter} (h : b.priority ≤ commanderPriorityCrtp) {priority : Int}
    (hp : priority ≤ commanderPriorityCrtp) (setpoint : Setpoint) (now : ℕ) :
    (b.set setpoint priority now).priority ≤ commanderPriorityCrtp := by
  unfold Arbiter.set
  split
  · exact hp
  · exact h

/-- While nobody sets a priority above that of the radio, none is stored. -/
theorem act_priority_le (h : a.arbiter.priority ≤ commanderPriorityCrtp) {x : Act}
    (hx : x.BelowRadio) : (a.act d ticksPerSec x).arbiter.priority ≤ commanderPriorityCrtp := by
  cases x with
  | packet p now =>
      unfold act
      dsimp only
      split
      · exact set_priority_le h (Int.le_refl _) _ now
      · split
        · exact (by decide : Commander.priorityLowest ≤ commanderPriorityCrtp)
        · exact h
  | call c =>
      cases c with
      | setSetpoint setpoint priority now => exact set_priority_le h hx setpoint now
      | relaxPriority => exact (by decide : Commander.priorityLowest ≤ commanderPriorityCrtp)
      | getSetpoint buffer state now =>
          change (if _ then Commander.priorityDisable else a.arbiter.priority) ≤ _
          split
          · decide
          · exact h
      | getActivePriority => exact h

theorem after_priority_le (s0 : Shared) {acts : List Act} (hacts : ∀ x ∈ acts, x.BelowRadio) :
    (Pilot.after d ticksPerSec s0 acts).arbiter.priority ≤ commanderPriorityCrtp := by
  have hrun : ∀ a : Pilot, a.arbiter.priority ≤ commanderPriorityCrtp →
      (acts.foldl (act d ticksPerSec) a).arbiter.priority ≤ commanderPriorityCrtp := by
    induction acts with
    | nil => exact fun a h => h
    | cons x acts ih =>
        rw [List.forall_mem_cons] at hacts
        exact fun a h => ih hacts.2 _ (act_priority_le h hacts.1)
  exact hrun (init s0) (by decide : Commander.priorityDisable ≤ commanderPriorityCrtp)

/-- Only sets change the setpoint. -/
theorem acts_setpoint {acts : List Act} (hacts : ∀ x ∈ acts, ¬ x.Sets) :
    (acts.foldl (act d ticksPerSec) a).arbiter.setpoint = a.arbiter.setpoint := by
  induction acts generalizing a with
  | nil => rfl
  | cons x acts ih =>
      rw [List.forall_mem_cons] at hacts
      rw [List.foldl_cons, ih hacts.2]
      cases x with
      | packet p now =>
          have hset : ¬ p.IsSetpoint := hacts.1
          unfold act
          simp only [if_neg hset]
          split <;> rfl
      | call c =>
          cases c with
          | setSetpoint setpoint priority now => exact absurd trivial hacts.1
          | relaxPriority => rfl
          | getSetpoint buffer state now => rfl
          | getActivePriority => rfl

end Pilot

/-- A rate of less than `2 ^ 31` ticks per second keeps the time-outs in their order. -/
theorem wdtTimeout_le {ticksPerSec : ℕ} (hrate : ticksPerSec < 2 ^ 31) :
    Commander.wdtTimeoutStabilize ticksPerSec ≤ Commander.wdtTimeoutShutdown ticksPerSec := by
  unfold Commander.wdtTimeoutStabilize Commander.wdtTimeoutShutdown Commander.msToTicksCeil32 uint32
  omega

/-- A setpoint that is not older than the stabilize time-out is got as it is. -/
theorem get_fresh {s : Shared} {b : Arbiter} (h : Represents s b) {ticksPerSec t now : ℕ}
    (hrate : ticksPerSec < 2 ^ 31) (hstamp : b.setpoint.timestamp = uint32 t) (ht : t ≤ now)
    (hfresh : now ≤ t + Commander.wdtTimeoutStabilize ticksPerSec)
    (before : Setpoint) (state : Commander.State) :
    ((Commander.commanderGetSetpoint ticksPerSec before state now).exec s).2.1 =
      .got b.setpoint := by
  have horder := wdtTimeout_le hrate
  have hbound : Commander.wdtTimeoutStabilize ticksPerSec < 2 ^ 32 := Nat.mod_lt _ (by decide)
  have hage : Commander.age b.setpoint now = now - t := by
    unfold Commander.age uint32Sub
    rw [hstamp]
    unfold uint32
    omega
  refine (h.get ticksPerSec before state now).1.trans ?_
  have hshutdown : ¬ now - t > Commander.wdtTimeoutShutdown ticksPerSec := by omega
  have hstabilize : ¬ now - t > Commander.wdtTimeoutStabilize ticksPerSec := by omega
  simp only [Arbiter.answer, hage, if_neg hshutdown, if_neg hstabilize]

/-- **The newest packet flies.**  In every run of calls that do not overlap and in which no other
task has set a priority above that of the radio, a setpoint packet that has been called back is what
the stabilizer gets, decoded over the setpoint before it and stamped with the tick of its callback,
as long as nothing has been set since and the stabilize time-out has not passed. -/
theorem newest_packet_flies (d : Decoders) (ticksPerSec : ℕ) (s0 : Shared)
    (callbacks : Port → Bool) (buffer : Buffer) (ports : List Port) (initTick : ℕ)
    (events : List UplinkEvent) (earlier later : List Act) (p : CRTPPacket) (t now : ℕ)
    (before : Setpoint) (state : Commander.State) (hrate : ticksPerSec < 2 ^ 31)
    (hacts : (events.foldl (Uplink.step d ticksPerSec)
      (.start callbacks buffer ports initTick s0)).acts = earlier ++ .packet p t :: later)
    (hp : p.IsSetpoint) (hbelow : ∀ x ∈ earlier, x.BelowRadio) (hlater : ∀ x ∈ later, ¬ x.Sets)
    (ht : t ≤ now) (hfresh : now ≤ t + Commander.wdtTimeoutStabilize ticksPerSec) :
    ((Commander.commanderGetSetpoint ticksPerSec before state now).exec
      (events.foldl (Uplink.step d ticksPerSec)
        (.start callbacks buffer ports initTick s0)).commander).2.1 =
      .got { d.decode p (Pilot.after d ticksPerSec s0 earlier).decoded with
        timestamp := uint32 t } := by
  have h := ((@FollowsPilot.init d ticksPerSec s0 callbacks buffer ports initTick).run
    events).commander
  rw [hacts] at h
  have hpriority := @Pilot.after_priority_le d ticksPerSec s0 _ hbelow
  have hsetpoint : (Pilot.after d ticksPerSec s0 (earlier ++ .packet p t :: later)).arbiter.setpoint
      = { d.decode p (Pilot.after d ticksPerSec s0 earlier).decoded with
          timestamp := uint32 t } := by
    have hafter : Pilot.after d ticksPerSec s0 (earlier ++ .packet p t :: later) =
        later.foldl (Pilot.act d ticksPerSec)
          ((Pilot.after d ticksPerSec s0 earlier).act d ticksPerSec (.packet p t)) :=
      List.foldl_append
    rw [hafter, Pilot.acts_setpoint hlater]
    unfold Pilot.act
    simp only [if_pos hp, Pilot.fly, Arbiter.set, if_pos hpriority]
  rw [← hsetpoint]
  exact get_fresh h hrate (congrArg Setpoint.timestamp hsetpoint) ht hfresh before state

/-- Decoders that take the thrust from the first byte. -/
def thrustDecoders : Decoders where
  rpyt p sp := { sp with thrust := (p.data.getD 0 0).toUInt32 }
  generic _ sp := sp

/-- A packet comes in, is called back at tick 10 and got at tick 100, after a relax. -/
theorem newest_packet_flies_small :
    ((Commander.commanderGetSetpoint 1000 Commander.nullSetpoint [] 100).exec
      ([UplinkEvent.link ⟨2, 0x30, [7]⟩, .rxTask 9, .rxTask 10, .call .relaxPriority].foldl
        (Uplink.step thrustDecoders 1000)
        (.start (fun _ => false) (fun _ => ⟨0, 0, []⟩) [5] 0 Commander.blank)).commander).2.1 =
      .got { Commander.nullSetpoint with thrust := 7, timestamp := uint32 10 } := by
  have h := newest_packet_flies thrustDecoders 1000 Commander.blank (fun _ => false)
    (fun _ => ⟨0, 0, []⟩) [5] 0 [.link ⟨2, 0x30, [7]⟩, .rxTask 9, .rxTask 10, .call .relaxPriority]
    [] [.call .relaxPriority] ⟨2, 0x30, [7]⟩ 10 100 Commander.nullSetpoint [] (by decide) rfl
    (by decide) (List.forall_mem_nil _) (List.forall_mem_singleton.mpr id) (by decide) (by decide)
  have hdecode : thrustDecoders.decode ⟨2, 0x30, [7]⟩
      (Pilot.after thrustDecoders 1000 Commander.blank []).decoded =
        { Commander.nullSetpoint with thrust := 7 } := by decide
  rw [hdecode] at h
  exact h

end NanoDrone.Crtp
