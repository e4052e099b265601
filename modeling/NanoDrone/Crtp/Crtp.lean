import Mathlib.Data.List.Basic
import Mathlib.Data.Nat.Notation

/-! # The CRTP receive task (`crtp.c`)

Every port has a Zephyr message queue: a ring of `CRTP_RX_QUEUE_SIZE` packets over a buffer.
`crtpInitTaskQueue` gives all of them the one buffer `queue_msgq_buffer`, so the slots of the
rings are slots of one array.  A queue that was not initialised is all zeros.

`crtpRxTask` is a state machine whose steps are those of its loop, so that calls of
`crtpReceivePacket` can come between any two of them.  It is followed while a real link is set.
The lists `delivered`, `enqueued` and `received` record what has happened so far; no step reads
them. -/

namespace NanoDrone.Crtp

/-- `CRTP_NBR_OF_PORTS`. -/
abbrev crtpNbrOfPorts : ℕ := 16

/-- `CRTP_RX_QUEUE_SIZE`. -/
def crtpRxQueueSize : ℕ := 16

/-- `CRTP_MAX_DATA_SIZE`. -/
def crtpMaxDataSize : ℕ := 30

/-- `CRTPPacket`, with the header as one byte. -/
structure CRTPPacket where
  size : UInt8
  header : UInt8
  data : List UInt8
deriving DecidableEq, Repr

abbrev Port := Fin crtpNbrOfPorts

/-- The bit field `port`, the high four bits of the header. -/
def CRTPPacket.port (p : CRTPPacket) : Port :=
  ⟨p.header.toNat / 16, by have := p.header.toNat_lt; unfold crtpNbrOfPorts; omega⟩

/-- `struct k_msgq`; the pointers are slots of the buffer. -/
structure KMsgq where
  maxMsgs : ℕ
  usedMsgs : ℕ
  readPtr : ℕ
  writePtr : ℕ
deriving DecidableEq, Repr

abbrev Buffer := ℕ → CRTPPacket

namespace KMsgq

/-- `k_msgq_init`. -/
def init (maxMsgs : ℕ) : KMsgq := ⟨maxMsgs, 0, 0, 0⟩

/-- The slot after a slot, which is the first one after the last. -/
def advance (q : KMsgq) (i : ℕ) : ℕ := if i + 1 = q.maxMsgs then 0 else i + 1

/-- The message copied to the write slot. -/
def push (q : KMsgq) (buffer : Buffer) (p : CRTPPacket) : KMsgq × Buffer :=
  ({ q with usedMsgs := q.usedMsgs + 1, writePtr := q.advance q.writePtr },
    fun i => if i = q.writePtr then p else buffer i)

/-- The message in the read slot taken out. -/
def pop (q : KMsgq) (buffer : Buffer) : CRTPPacket × KMsgq :=
  (buffer q.readPtr, { q with usedMsgs := q.usedMsgs - 1, readPtr := q.advance q.readPtr })

/-- The messages in a queue, oldest first. -/
def content (q : KMsgq) (buffer : Buffer) : List CRTPPacket :=
  (List.range q.usedMsgs).map (fun i => buffer ((q.readPtr + i) % q.maxMsgs))

end KMsgq

/-- Where `crtpRxTask` stands, with the packet it holds. -/
inductive RxTask where
  | receiving
  /-- before the test of the fill level -/
  | testing (p : CRTPPacket)
  /-- before `k_msgq_put` -/
  | putting (p : CRTPPacket)
  /-- blocked in `k_msgq_put` -/
  | waiting (p : CRTPPacket)
  /-- before the callback of the port -/
  | calling (p : CRTPPacket)
deriving DecidableEq, Repr

structure CrtpState where
  queues : Port → KMsgq
  queueMsgqBuffer : Buffer
  callbacks : Port → Bool
  rxCount : ℕ
  rxTask : RxTask
  called : List CRTPPacket
  delivered : List CRTPPacket
  enqueued : List CRTPPacket
  received : List (Port × CRTPPacket)

def CrtpState.setQueue (s : CrtpState) (port : Port) (q : KMsgq) : CrtpState :=
  { s with queues := fun i => if i = port then q else s.queues i }

def crtpInitTaskQueue (portId : Port) (s : CrtpState) : CrtpState :=
  s.setQueue portId (.init crtpRxQueueSize)

/-- A packet copied into the queue of its port. -/
def enqueue (p : CRTPPacket) (s : CrtpState) : CrtpState :=
  let r := (s.queues p.port).push s.queueMsgqBuffer p
  { s.setQueue p.port r.1 with queueMsgqBuffer := r.2, enqueued := s.enqueued ++ [p] }

/-- `link->receivePacket` returns a packet. -/
def receiveFromLink (p : CRTPPacket) (s : CrtpState) : CrtpState :=
  match s.rxTask with
  | .receiving => { s with rxTask := .testing p, delivered := s.delivered ++ [p] }
  | _ => s

/-- The next statement of `crtpRxTask`. -/
def crtpRxTask (s : CrtpState) : CrtpState :=
  match s.rxTask with
  | .receiving => s
  | .testing p =>
      if (s.queues p.port).usedMsgs = crtpRxQueueSize then { s with rxTask := .putting p }
      else { s with rxTask := .calling p }
  | .putting p =>
      if (s.queues p.port).usedMsgs < (s.queues p.port).maxMsgs then
        { enqueue p s with rxTask := .calling p }
      else { s with rxTask := .waiting p }
  | .waiting _ => s
  | .calling p =>
      { s with called := if s.callbacks p.port then s.called ++ [p] else s.called
               rxCount := s.rxCount + 1
               rxTask := .receiving }

/-- `crtpReceivePacket`: a message is taken out, and the message of a task that is blocked on
this queue is copied in. -/
def crtpReceivePacket (portId : Port) (s : CrtpState) : Option CRTPPacket × CrtpState :=
  if 0 < (s.queues portId).usedMsgs then
    let r := (s.queues portId).pop s.queueMsgqBuffer
    let s := { s.setQueue portId r.2 with received := s.received ++ [(portId, r.1)] }
    match s.rxTask with
    | .waiting p =>
        if p.port = portId then (some r.1, { enqueue p s with rxTask := .calling p })
        else (some r.1, s)
    | _ => (some r.1, s)
  else (none, s)

/-! ### Runs -/

inductive Event where
  /-- the link has a packet when the task asks for one -/
  | link (p : CRTPPacket)
  | rxTask
  | receivePacket (port : Port)
deriving DecidableEq, Repr

def step (s : CrtpState) : Event → CrtpState
  | .link p => receiveFromLink p s
  | .rxTask => crtpRxTask s
  | .receivePacket port => (crtpReceivePacket port s).2

/-- The state at start, with no queue initialised and the callbacks registered so far. -/
def start (callbacks : Port → Bool) (buffer : Buffer) : CrtpState :=
  ⟨fun _ => ⟨0, 0, 0, 0⟩, buffer, callbacks, 0, .receiving, [], [], [], []⟩

/-- The queues of `ports` are initialised, and then the events happen. -/
def run (callbacks : Port → Bool) (buffer : Buffer) (ports : List Port) (events : List Event) :
    CrtpState :=
  events.foldl step (ports.foldl (fun s port => crtpInitTaskQueue port s) (start callbacks buffer))

end NanoDrone.Crtp
