import NanoDrone.Crtp.Crtp
import Mathlib.Tactic.Common

/-! # Packets that the receive task enqueues

`crtpRxTask` puts a packet on the queue of its port only when it finds the queue full.  The
queues are empty at first and nobody else puts packets on them, so they stay empty
(`Idle.run`): the task enqueues nothing, and a packet for an initialised port is lost. -/

namespace NanoDrone.Crtp

/-- What has been put on the queue of a port and taken off it is what the link delivered for
it, in order. -/
def ExactlyOnce (s : CrtpState) (port : Port) : Prop :=
  s.enqueued.filter (·.port = port) = s.delivered.filter (·.port = port) ∧
  (s.received.filter (·.1 = port)).map Prod.snd ++
    (s.queues port).content s.queueMsgqBuffer = s.enqueued.filter (·.port = port)

/-- All queues are empty, nothing has gone through them, and the task is not at a put. -/
structure Idle (s : CrtpState) : Prop where
  used : ∀ port, (s.queues port).usedMsgs = 0
  enqueued : s.enqueued = []
  received : s.received = []
  not_putting : ∀ p, s.rxTask ≠ .putting p
  not_waiting : ∀ p, s.rxTask ≠ .waiting p

theorem Idle.start (callbacks : Port → Bool) (buffer : Buffer) :
    Idle (start callbacks buffer) :=
  ⟨fun _ => rfl, rfl, rfl, nofun, nofun⟩

theorem Idle.initTaskQueue {s : CrtpState} (h : Idle s) (port : Port) :
    Idle (crtpInitTaskQueue port s) := by
  refine ⟨fun i => ?_, h.enqueued, h.received, h.not_putting, h.not_waiting⟩
  unfold crtpInitTaskQueue CrtpState.setQueue
  dsimp only
  split
  · rfl
  · exact h.used i

/-- A fill level of zero is not the full one, so the test goes to the callback. -/
theorem Idle.rxTask {s : CrtpState} (h : Idle s) : Idle (crtpRxTask s) := by
  unfold crtpRxTask
  split
  · exact h
  · rename_i p hp
    rw [if_neg (by rw [h.used]; decide)]
    exact ⟨h.used, h.enqueued, h.received, nofun, nofun⟩
  · rename_i p hp
    exact absurd hp (h.not_putting p)
  · exact h
  · exact ⟨h.used, h.enqueued, h.received, nofun, nofun⟩

theorem Idle.receiveFromLink {s : CrtpState} (h : Idle s) (p : CRTPPacket) :
    Idle (receiveFromLink p s) := by
  unfold Crtp.receiveFromLink
  split
  · exact ⟨h.used, h.enqueued, h.received, nofun, nofun⟩
  · exact h

/-- There is nothing to receive. -/
theorem Idle.receivePacket {s : CrtpState} (h : Idle s) (port : Port) :
    crtpReceivePacket port s = (none, s) := by
  unfold crtpReceivePacket
  rw [if_neg (by rw [h.used]; decide)]

theorem Idle.step {s : CrtpState} (h : Idle s) (e : Event) : Idle (step s e) := by
  cases e with
  | link p => exact h.receiveFromLink p
  | rxTask => exact h.rxTask
  | receivePacket port =>
      change Idle (crtpReceivePacket port s).2
      rw [h.receivePacket port]
      exact h

theorem Idle.run (callbacks : Port → Bool) (buffer : Buffer) (ports : List Port)
    (events : List Event) : Idle (run callbacks buffer ports events) := by
  have hports : Idle (ports.foldl (fun s port => crtpInitTaskQueue port s)
      (Crtp.start callbacks buffer)) := by
    have h := Idle.start callbacks buffer
    generalize Crtp.start callbacks buffer = s at h
    induction ports generalizing s with
    | nil => exact h
    | cons port ports ih => exact ih _ (h.initTaskQueue port)
  unfold Crtp.run
  generalize ports.foldl (fun s port => crtpInitTaskQueue port s) (Crtp.start callbacks buffer)
    = s at hports
  induction events generalizing s with
  | nil => exact hports
  | cons e events ih => exact ih _ (hports.step e)

/-- Nothing has gone through the queue of a port, so it is right when nothing was to. -/
theorem Idle.port_iff {s : CrtpState} (h : Idle s) (port : Port) :
    ExactlyOnce s port ↔ ∀ p ∈ s.delivered, p.port ≠ port := by
  have hcontent : (s.queues port).content s.queueMsgqBuffer = [] := by
    unfold KMsgq.content
    rw [h.used]
    rfl
  unfold ExactlyOnce
  rw [h.enqueued, h.received, hcontent]
  constructor
  · rintro ⟨hd, _⟩ p hp heq
    have : p ∈ s.delivered.filter (·.port = port) :=
      List.mem_filter.mpr ⟨hp, by simpa using heq⟩
    rw [← hd] at this
    simp at this
  · intro hall
    refine ⟨?_, rfl⟩
    rw [eq_comm, List.filter_nil, List.filter_eq_nil_iff]
    intro p hp
    simpa using hall p hp

/-- **What the receive task enqueues.**  In every run, whenever the task is done with the packets
it has got, the initialised ports have got exactly the packets delivered for them if and only if
no packet was delivered for any of them. -/
theorem exactlyOnce_iff {callbacks : Port → Bool} {buffer : Buffer} {ports : List Port}
    {events : List Event} (_ : (run callbacks buffer ports events).rxTask = .receiving) :
    (∀ port ∈ ports, ExactlyOnce (run callbacks buffer ports events) port) ↔
      ∀ p ∈ (run callbacks buffer ports events).delivered, p.port ∉ ports := by
  have hidle := Idle.run callbacks buffer ports events
  constructor
  · intro hall p hp hmem
    exact (hidle.port_iff p.port).mp (hall _ hmem) p hp rfl
  · intro hall port hmem
    exact (hidle.port_iff port).mpr (fun p hp heq => hall p hp (heq ▸ hmem))

/-- A packet for port 5, whose queue is empty, is counted and gone. -/
theorem packet_lost :
    (run (fun _ => false) (fun _ => ⟨0, 0, []⟩) [5]
      [.link ⟨1, 0x50, [7]⟩, .rxTask, .rxTask]).rxTask = .receiving ∧
    ¬ ExactlyOnce (run (fun _ => false) (fun _ => ⟨0, 0, []⟩) [5]
      [.link ⟨1, 0x50, [7]⟩, .rxTask, .rxTask]) 5 :=
  ⟨by decide, fun h => absurd h.1 (by decide)⟩

/-- A packet for another port. -/
theorem exactlyOnce_other_port : ExactlyOnce (run (fun _ => true) (fun _ => ⟨0, 0, []⟩) [5, 7]
    [.link ⟨1, 0x30, [7]⟩, .rxTask, .receivePacket 5, .rxTask]) 5 :=
  (@exactlyOnce_iff _ _ [5, 7] _ (by decide)).mpr (by decide) 5 (by decide)

end NanoDrone.Crtp
