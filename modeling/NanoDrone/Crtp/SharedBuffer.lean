import NanoDrone.Crtp.Crtp
import NanoDrone.Lib.Interleaving
import Mathlib.Algebra.Ring.Nat
import Mathlib.Data.Nat.ModEq

/-! # The buffer of the port queues

`crtpInitTaskQueue` hands the one buffer `queue_msgq_buffer` to the queue of every port.  Packets
are put on the queues and taken off them in any order; each queue counts its own slots.  A queue
delivers what was put on it as long as no other queue has written one of its pending slots:
`fifo_iff` says that this is the only way to go wrong. -/

namespace NanoDrone.Crtp

namespace KMsgq

/-- The slot of the `i`-th pending message. -/
def slot (q : KMsgq) (i : ℕ) : ℕ := (q.readPtr + i) % q.maxMsgs

/-- The write pointer is behind the pending messages; a queue that was not initialised has room
for none. -/
structure Ring (q : KMsgq) : Prop where
  used : q.usedMsgs ≤ q.maxMsgs
  read : 0 < q.maxMsgs → q.readPtr < q.maxMsgs
  write : 0 < q.maxMsgs → q.writePtr = q.slot q.usedMsgs

variable {q : KMsgq} {buffer : Buffer} {p : CRTPPacket}

theorem content_eq : q.content buffer = (List.range q.usedMsgs).map fun i => buffer (q.slot i) :=
  rfl

theorem ring_init (n : ℕ) : (init n).Ring := by
  refine ⟨Nat.zero_le _, id, fun h => ?_⟩
  change 0 = (0 + 0) % n
  rw [Nat.add_zero, Nat.zero_mod]

theorem advance_eq {i : ℕ} (h : i < q.maxMsgs) : q.advance i = (i + 1) % q.maxMsgs := by
  unfold advance
  split
  · rename_i he
    rw [he, Nat.mod_self]
  · rw [Nat.mod_eq_of_lt (by omega)]

/-- Pending messages are in different slots. -/
theorem slot_ne {i j : ℕ} (hij : i < j) (hj : j < q.maxMsgs) : q.slot i ≠ q.slot j := by
  intro h
  have hmod : i ≡ j [MOD q.maxMsgs] := Nat.ModEq.add_left_cancel' q.readPtr h
  exact absurd (hmod.eq_of_lt_of_lt (by omega) hj) (by omega)

namespace Ring

theorem push (h : q.Ring) (hroom : q.usedMsgs < q.maxMsgs) : (q.push buffer p).1.Ring := by
  have hpos : 0 < q.maxMsgs := by omega
  refine ⟨hroom, h.read, fun _ => ?_⟩
  change q.advance q.writePtr = (q.readPtr + (q.usedMsgs + 1)) % q.maxMsgs
  rw [h.write hpos, slot, advance_eq (Nat.mod_lt _ hpos), Nat.mod_add_mod, Nat.add_assoc]

/-- A message goes behind the pending ones. -/
theorem content_push (h : q.Ring) (hroom : q.usedMsgs < q.maxMsgs) :
    (q.push buffer p).1.content (q.push buffer p).2 = q.content buffer ++ [p] := by
  have hwrite := h.write (by omega)
  rw [content_eq, content_eq]
  change (List.range (q.usedMsgs + 1)).map (fun i => if q.slot i = q.writePtr then p
    else buffer (q.slot i)) = _
  rw [List.range_succ, List.map_append, List.map_singleton, if_pos hwrite.symm]
  congr 1
  apply List.map_congr_left
  intro i hi
  rw [hwrite, if_neg (slot_ne (List.mem_range.mp hi) hroom)]

theorem pop (h : q.Ring) (hused : 0 < q.usedMsgs) : (q.pop buffer).2.Ring := by
  have hpos : 0 < q.maxMsgs := Nat.lt_of_lt_of_le hused h.used
  have hread : q.advance q.readPtr = (q.readPtr + 1) % q.maxMsgs := advance_eq (h.read hpos)
  refine ⟨Nat.le_trans (Nat.sub_le ..) h.used, fun _ => ?_, fun _ => ?_⟩
  · change q.advance q.readPtr < q.maxMsgs
    rw [hread]
    exact Nat.mod_lt _ hpos
  · change q.writePtr = (q.advance q.readPtr + (q.usedMsgs - 1)) % q.maxMsgs
    rw [h.write hpos, hread, Nat.mod_add_mod, slot]
    congr 1
    omega

/-- The oldest message is taken off. -/
theorem content_pop (h : q.Ring) (hused : 0 < q.usedMsgs) :
    q.content buffer = (q.pop buffer).1 :: (q.pop buffer).2.content buffer := by
  have hpos : 0 < q.maxMsgs := Nat.lt_of_lt_of_le hused h.used
  have hread : q.advance q.readPtr = (q.readPtr + 1) % q.maxMsgs := advance_eq (h.read hpos)
  obtain ⟨n, hn⟩ : ∃ n, q.usedMsgs = n + 1 := ⟨q.usedMsgs - 1, by omega⟩
  rw [content_eq, content_eq, hn, List.range_succ_eq_map, List.map_cons, List.map_map]
  congr 1
  · change buffer (q.slot 0) = buffer q.readPtr
    rw [slot, Nat.add_zero, Nat.mod_eq_of_lt (h.read hpos)]
  · change _ = (List.range (q.usedMsgs - 1)).map fun i =>
      buffer ((q.advance q.readPtr + i) % q.maxMsgs)
    rw [hn, Nat.add_sub_cancel]
    apply List.map_congr_left
    intro i _
    change buffer ((q.readPtr + (i + 1)) % q.maxMsgs) = _
    rw [hread, Nat.mod_add_mod]
    congr 2
    omega

end Ring

/-- A write into a slot of another queue leaves this one alone exactly if it changes no pending
message. -/
theorem content_write_iff {other : KMsgq} :
    other.content (q.push buffer p).2 = other.content buffer ↔
      ∀ i < other.usedMsgs, other.slot i = q.writePtr → buffer (other.slot i) = p := by
  rw [content_eq, content_eq, List.map_inj_left]
  change (∀ i ∈ List.range other.usedMsgs, (if other.slot i = q.writePtr then p
    else buffer (other.slot i)) = buffer (other.slot i)) ↔ _
  simp only [List.mem_range]
  refine forall₂_congr fun i _ => ?_
  by_cases hw : other.slot i = q.writePtr
  · rw [if_pos hw]
    exact ⟨fun h _ => h.symm, fun h => (h hw).symm⟩
  · rw [if_neg hw]
    exact ⟨fun _ h => absurd h hw, fun _ => rfl⟩

end KMsgq

/-! ### Puts and gets -/

/-- The queue of the port has room. -/
def CrtpState.HasRoom (s : CrtpState) (port : Port) : Prop :=
  (s.queues port).usedMsgs < (s.queues port).maxMsgs

instance (s : CrtpState) (port : Port) : Decidable (s.HasRoom port) :=
  inferInstanceAs (Decidable (_ < _))

/-- `k_msgq_put(&queues[portId], &p, K_NO_WAIT)`. -/
def kMsgqPut (portId : Port) (p : CRTPPacket) (s : CrtpState) : CrtpState :=
  if s.HasRoom portId then
    let r := (s.queues portId).push s.queueMsgqBuffer p
    { s.setQueue portId r.1 with queueMsgqBuffer := r.2 }
  else s

inductive QueueOp where
  | put (port : Port) (p : CRTPPacket)
  | get (port : Port)
deriving DecidableEq, Repr

/-- The queues, and the packets that they have accepted so far. -/
structure Traffic where
  crtp : CrtpState
  accepted : List (Port × CRTPPacket)

namespace Traffic

def next (t : Traffic) : QueueOp → Traffic
  | .put port p =>
      ⟨kMsgqPut port p t.crtp,
        if t.crtp.HasRoom port then t.accepted ++ [(port, p)] else t.accepted⟩
  | .get port => ⟨(crtpReceivePacket port t.crtp).2, t.accepted⟩

def step (t : Traffic) (op : QueueOp) : Option Traffic := some (t.next op)

/-- The queues of `ports` are initialised. -/
def init (callbacks : Port → Bool) (buffer : Buffer) (ports : List Port) : Traffic :=
  ⟨ports.foldl (fun s port => crtpInitTaskQueue port s) (start callbacks buffer), []⟩

/-- For every port, the packets received and the pending ones are those put on its queue, in
order. -/
def Fifo (t : Traffic) : Prop :=
  ∀ port, (t.crtp.received.filter (·.1 = port)).map Prod.snd ++
    (t.crtp.queues port).content t.crtp.queueMsgqBuffer =
      (t.accepted.filter (·.1 = port)).map Prod.snd

instance (t : Traffic) : Decidable t.Fifo := Nat.decidableForallFin _

/-- No put writes into a slot where the queue of another port has a pending packet, unless it is
the same packet. -/
def Harmless (t : Traffic) : QueueOp → Prop
  | .put port p => t.crtp.HasRoom port → ∀ other, other ≠ port →
      ∀ i < (t.crtp.queues other).usedMsgs,
        (t.crtp.queues other).slot i = (t.crtp.queues port).writePtr →
        t.crtp.queueMsgqBuffer ((t.crtp.queues other).slot i) = p
  | .get _ => True

/-- The rings are sound, nobody waits at a queue, and no packet has been corrupted. -/
structure Sound (t : Traffic) : Prop where
  rings : ∀ port, (t.crtp.queues port).Ring
  receiving : t.crtp.rxTask = .receiving
  fifo : t.Fifo

variable {t : Traffic}

theorem init_sound (callbacks : Port → Bool) (buffer : Buffer) (ports : List Port) :
    Sound (init callbacks buffer ports) := by
  have hsound : ∀ s : CrtpState, (∀ port, (s.queues port).Ring ∧ (s.queues port).usedMsgs = 0) →
      s.rxTask = .receiving → s.received = [] →
      Sound ⟨ports.foldl (fun s port => crtpInitTaskQueue port s) s, []⟩ := by
    induction ports with
    | nil =>
        intro s hq hrx hrec
        refine ⟨fun port => (hq port).1, hrx, fun port => ?_⟩
        change (s.received.filter (·.1 = port)).map Prod.snd ++
          (s.queues port).content s.queueMsgqBuffer = []
        rw [hrec, KMsgq.content_eq, (hq port).2]
        rfl
    | cons port ports ih =>
        intro s hq hrx hrec
        refine ih (crtpInitTaskQueue port s) (fun other => ?_) hrx hrec
        change (if other = port then _ else _ : KMsgq).Ring ∧ _ = 0
        simp only [crtpInitTaskQueue, CrtpState.setQueue]
        split
        · exact ⟨KMsgq.ring_init _, rfl⟩
        · exact hq other
  exact hsound _ (fun _ => ⟨KMsgq.ring_init 0, rfl⟩) rfl rfl

/-- The queue of the port of a put grows by the packet, and the others are as before exactly if
the put is harmless. -/
theorem Sound.put_fifo_iff (h : t.Sound) (port : Port) (p : CRTPPacket) :
    (t.next (.put port p)).Fifo ↔ t.Harmless (.put port p) := by
  unfold Harmless next kMsgqPut
  by_cases hroom : t.crtp.HasRoom port
  · simp only [hroom, ↓reduceIte, forall_const]
    refine forall_congr' fun other => ?_
    have hold := h.fifo other
    by_cases hother : other = port
    · subst hother
      simp only [CrtpState.setQueue, ↓reduceIte, List.filter_append, List.map_append, ne_eq,
        not_true_eq_false, false_implies, iff_true]
      rw [(h.rings other).content_push hroom, ← List.append_assoc, hold]
      simp
    · have hport : ¬ port = other := fun e => hother e.symm
      simp only [CrtpState.setQueue, hother, ↓reduceIte, List.filter_append, ne_eq,
        not_false_eq_true, forall_const]
      rw [← KMsgq.content_write_iff]
      simp only [hport, decide_false, Bool.false_eq_true, not_false_eq_true,
        List.filter_cons_of_neg, List.filter_nil, List.append_nil]
      rw [← hold, List.append_cancel_left_eq]
  · simp only [hroom, ↓reduceIte, false_implies, iff_true]
    exact h.fifo

/-- While the receive task is not at a queue, a get only takes a packet off. -/
theorem crtpReceivePacket_receiving {s : CrtpState} {port : Port} (hrx : s.rxTask = .receiving)
    (hused : 0 < (s.queues port).usedMsgs) :
    (crtpReceivePacket port s).2 =
      { s.setQueue port ((s.queues port).pop s.queueMsgqBuffer).2 with
        received := s.received ++ [(port, ((s.queues port).pop s.queueMsgqBuffer).1)] } := by
  unfold crtpReceivePacket
  rw [if_pos hused]
  simp only [CrtpState.setQueue, hrx]

/-- What a get takes off a queue was pending in it. -/
theorem Sound.get (h : t.Sound) (port : Port) : (t.next (.get port)).Sound := by
  change Sound ⟨(crtpReceivePacket port t.crtp).2, t.accepted⟩
  by_cases hused : 0 < (t.crtp.queues port).usedMsgs
  · rw [crtpReceivePacket_receiving h.receiving hused]
    refine ⟨fun other => ?_, h.receiving, fun other => ?_⟩
    · simp only [CrtpState.setQueue]
      split
      · exact (h.rings port).pop hused
      · exact h.rings other
    · have hold := h.fifo other
      by_cases hother : other = port
      · subst hother
        rw [(h.rings other).content_pop hused] at hold
        simp only [CrtpState.setQueue, ↓reduceIte, List.filter_append, List.map_append]
        simpa using hold
      · have hport : ¬ port = other := fun e => hother e.symm
        simp only [CrtpState.setQueue, hother, ↓reduceIte, List.filter_append]
        simpa [hport] using hold
  · rw [crtpReceivePacket, if_neg hused]
    exact h

/-- A put keeps the rings. -/
theorem Sound.put_rings (h : t.Sound) (port : Port) (p : CRTPPacket) (other : Port) :
    ((t.next (.put port p)).crtp.queues other).Ring ∧
      (t.next (.put port p)).crtp.rxTask = .receiving := by
  unfold next kMsgqPut
  by_cases hroom : t.crtp.HasRoom port
  · simp only [hroom, ↓reduceIte, CrtpState.setQueue]
    refine ⟨?_, h.receiving⟩
    split
    · exact (h.rings port).push hroom
    · exact h.rings other
  · simp only [hroom, ↓reduceIte]
    exact ⟨h.rings other, h.receiving⟩

theorem Sound.next_iff (h : t.Sound) (op : QueueOp) : (t.next op).Fifo ↔ t.Harmless op := by
  cases op with
  | put port p => exact h.put_fifo_iff port p
  | get port => exact iff_of_true (h.get port).fifo trivial

theorem Sound.next (h : t.Sound) {op : QueueOp} (hop : (t.next op).Fifo) : (t.next op).Sound := by
  cases op with
  | put port p =>
      exact ⟨fun other => (h.put_rings port p other).1, (h.put_rings port p port).2, hop⟩
  | get port => exact h.get port

end Traffic

/-- **Queues that share a buffer.**  In every sequence of puts and gets, what each port receives
and has pending is what was put on its queue, in order, after every step, if and only if no put
writes over a pending packet of another port with a different one. -/
theorem fifo_iff (callbacks : Port → Bool) (buffer : Buffer) (ports : List Port)
    (ops : List QueueOp) :
    Along Traffic.step (fun t op => (t.next op).Fifo) ops (.init callbacks buffer ports) ↔
      Along Traffic.step Traffic.Harmless ops (.init callbacks buffer ports) := by
  refine Along.iff_of_invariant (Traffic.init_sound callbacks buffer ports)
    (fun t op h => h.next_iff op) ?_
  intro t op t' h hop ht
  cases ht
  exact h.next hop

/-- Port 5 receives the packet that was put on the queue of port 6. -/
theorem receives_packet_of_other_port :
    ¬ Along Traffic.step (fun t op => (t.next op).Fifo)
      [.put 5 ⟨1, 0x50, [1]⟩, .put 6 ⟨1, 0x60, [2]⟩, .get 5]
      (.init (fun _ => false) (fun _ => ⟨0, 0, []⟩) [5, 6]) ∧
    ([QueueOp.put 5 ⟨1, 0x50, [1]⟩, .put 6 ⟨1, 0x60, [2]⟩, .get 5].foldl Traffic.next
      (.init (fun _ => false) (fun _ => ⟨0, 0, []⟩) [5, 6])).crtp.received =
        [(5, ⟨1, 0x60, [2]⟩)] := by
  decide

end NanoDrone.Crtp
