import NanoDrone.Crtp.TxTask
import NanoDrone.Log.TypeTable
import Mathlib.Data.List.Count

/-! # Dropped log packets

When an execution of `logRunBlock` finds the link connected it hands its packet to `crtpSendPacket`
and counts the packet as dropped if the result is zero.  `crtpSendPacket` returns what `k_msgq_put`
does, and that is zero for success.  So what is counted are the packets that were sent
(`droppedPackets_run`), and no execution does what it should (`countedOnce_iff`).

The transmit queue is that of `TxTask.lean`, whose steps come between the executions. -/

namespace NanoDrone.Log

open Crtp (CRTPPacket TxEvent TxState)

/-- `ENOMSG`. -/
def enomsg : Int := 35

/-- The result of `crtpSendPacket`, which is that of `k_msgq_put`; none if its assertion fails. -/
def sendResult (p : CRTPPacket) (s : TxState) : Option Int :=
  if p.size.toNat ≤ Crtp.crtpMaxDataSize then
    some (if (s.txQueue.put p).1 then 0 else -enomsg)
  else none

/-- The log subsystem and the transmit queue, with the executions so far and whether the packet of
each was enqueued; no step reads them. -/
structure LogLink where
  log : LogState
  tx : TxState
  executions : List (BlockPtr × Bool)

inductive LogEvent where
  /-- `logRunBlock` while the link is connected -/
  | runBlock (env : Surroundings) (timestamp : ℕ) (blk : BlockPtr)
  /-- a step of the transmit task, another packet or another link -/
  | tx (e : TxEvent)

/-- The packet of an execution; the header is `CRTP_HEADER(CRTP_PORT_LOG, LOG_CH)`. -/
def logPacket (bytes : List UInt8) : CRTPPacket := ⟨UInt8.ofNat bytes.length, 0x52, bytes⟩

namespace LogLink

/-- `logRunBlock` with the call of `crtpSendPacket` at its end. -/
def runBlock (env : Surroundings) (timestamp : ℕ) (blk : BlockPtr) (s : LogLink) :
    Option LogLink := do
  let bytes ← (logRunBlockLocked env timestamp blk (s.log.logBlocks blk).ops s.log).2
  let sent ← sendResult (logPacket bytes) s.tx
  let r ← logRunBlock env timestamp blk true sent s.log
  some
    { log := r.2
      tx := s.tx.crtpSendPacket (logPacket bytes)
      executions := s.executions ++ [(blk, (s.tx.txQueue.put (logPacket bytes)).1)] }

def step (s : LogLink) : LogEvent → Option LogLink
  | .runBlock env timestamp blk => s.runBlock env timestamp blk
  | .tx e => some { s with tx := s.tx.next e }

def run : List LogEvent → LogLink → Option LogLink
  | [], s => some s
  | e :: events, s => (s.step e).bind (run events)

/-- The counter of a block. -/
def dropped (s : LogLink) (blk : BlockPtr) : UInt32 := (s.log.logBlocks blk).droppedPackets

/-- How many packets of a block were enqueued. -/
def enqueued (s : LogLink) (blk : BlockPtr) : ℕ := s.executions.count (blk, true)

/-- A packet more is in the queue. -/
def Enqueues (s s' : LogLink) : Prop :=
  ∃ p, s'.tx.txQueue.items = s.tx.txQueue.items ++ [p]

/-- An execution enqueues its packet or counts it as dropped, and does not do both. -/
def CountedOnce (s : LogLink) : LogEvent → Prop
  | .runBlock env timestamp blk => ∀ s', s.runBlock env timestamp blk = some s' →
      Xor (Enqueues s s') (s'.dropped blk = s.dropped blk + 1)
  | .tx _ => True

/-- An execution that comes to its end. -/
def Executes (s : LogLink) : LogEvent → Prop
  | .runBlock env timestamp blk => (s.runBlock env timestamp blk).isSome
  | .tx _ => False

end LogLink

/-! ### One execution -/

section
variable {env : Surroundings} {timestamp : ℕ} {blk : BlockPtr}

/-- `logRunBlock` while the link is connected. -/
theorem logRunBlock_connected {bytes : List UInt8} {s : LogState} (sent : Int)
    (h : (logRunBlockLocked env timestamp blk (s.logBlocks blk).ops s).2 = some bytes) :
    logRunBlock env timestamp blk true sent s = some ((), if sent = 0 then
      s.setBlock blk fun b => { b with droppedPackets := b.droppedPackets + 1 } else s) := by
  unfold logRunBlock
  simp only [bind, StateT.bind, get, getThe, MonadStateOf.get, StateT.get, pure, Option.bind_some,
    h, StateT.lift, if_true]
  split <;> rfl

/-- The two outcomes: with room in the queue the packet is enqueued and counted as dropped, without
room it is lost and not counted. -/
inductive Outcome (blk : BlockPtr) (s s' : LogLink) : Prop
  | both (p : CRTPPacket) (queue : s'.tx.txQueue.items = s.tx.txQueue.items ++ [p])
      (log : s'.log = s.log.setBlock blk fun b => { b with droppedPackets := b.droppedPackets + 1 })
      (executions : s'.executions = s.executions ++ [(blk, true)])
  | neither (queue : s'.tx.txQueue = s.tx.txQueue) (log : s'.log = s.log)
      (executions : s'.executions = s.executions ++ [(blk, false)])

theorem LogLink.runBlock_outcome {s s' : LogLink} (h : s.runBlock env timestamp blk = some s') :
    Outcome blk s s' := by
  unfold LogLink.runBlock at h
  obtain ⟨bytes, hbytes, h⟩ := Option.bind_eq_some_iff.mp h
  obtain ⟨sent, hsent, h⟩ := Option.bind_eq_some_iff.mp h
  rw [logRunBlock_connected sent hbytes] at h
  cases h
  unfold sendResult at hsent
  split at hsent
  · rename_i hsize
    cases hsent
    have hsend : s.tx.crtpSendPacket (logPacket bytes) = { s.tx with
        txQueue := (s.tx.txQueue.put (logPacket bytes)).2
        queued := if (s.tx.txQueue.put (logPacket bytes)).1 then s.tx.queued ++ [logPacket bytes]
          else s.tx.queued } := if_pos hsize
    by_cases hroom : s.tx.txQueue.items.length < s.tx.txQueue.maxMsgs
    · obtain ⟨hok, hitems⟩ := MsgQueue.put_of_lt (a := logPacket bytes) hroom
      refine .both (logPacket bytes) ?_ ?_ ?_
      · dsimp only
        rw [hsend]
        exact hitems
      · dsimp only
        rw [hok]
        rfl
      · dsimp only
        rw [hok]
    · have hfull := MsgQueue.put_of_ge (a := logPacket bytes) (Nat.not_lt.mp hroom)
      refine .neither ?_ ?_ ?_
      · dsimp only
        rw [hsend, hfull]
      · dsimp only
        rw [hfull]
        rfl
      · dsimp only
        rw [hfull]
  · cases hsent

theorem dropped_setBlock (s : LogState) (blk b : BlockPtr) :
    ((s.setBlock blk fun b => { b with droppedPackets := b.droppedPackets + 1 }).logBlocks
      b).droppedPackets =
    (s.logBlocks b).droppedPackets + if b = blk then 1 else 0 := by
  unfold LogState.setBlock
  dsimp only
  by_cases hb : b = blk
  · subst hb
    rw [Function.update_self, if_pos rfl]
  · rw [Function.update_of_ne hb, if_neg hb]
    exact (UInt32.add_zero _).symm

/-- A counter that counts on shows a new number. -/
theorem add_one_ne (n : UInt32) : n ≠ n + 1 := by
  intro h
  have hlt := n.toNat_lt
  have hnat := congrArg UInt32.toNat h
  rw [UInt32.toNat_add, UInt32.toNat_one] at hnat
  omega

namespace Outcome

variable {s s' : LogLink}

/-- Neither outcome is what an execution should do. -/
theorem not_xor (h : Outcome blk s s') :
    ¬ Xor (LogLink.Enqueues s s') (s'.dropped blk = s.dropped blk + 1) := by
  rw [xor_iff_not_iff, not_not]
  cases h with
  | both p queue log _ =>
      refine iff_of_true ⟨p, queue⟩ ?_
      unfold LogLink.dropped
      rw [log, dropped_setBlock, if_pos rfl]
  | neither queue log _ =>
      refine iff_of_false ?_ ?_
      · rintro ⟨p, hp⟩
        rw [queue] at hp
        exact absurd (List.self_eq_append_right.mp hp) (List.cons_ne_nil p [])
      · unfold LogLink.dropped
        rw [log]
        exact add_one_ne _

/-- The counter of every block moves with the number of its packets that were enqueued. -/
theorem dropped_eq (h : Outcome blk s s') (b : BlockPtr) :
    s'.dropped b + UInt32.ofNat (s.enqueued b) = s.dropped b + UInt32.ofNat (s'.enqueued b) := by
  unfold LogLink.dropped LogLink.enqueued
  cases h with
  | both p _ log executions =>
      rw [log, executions, dropped_setBlock, List.count_append, List.count_singleton]
      by_cases hb : b = blk
      · subst hb
        rw [if_pos rfl, beq_self_eq_true, if_pos rfl, UInt32.ofNat_add, UInt32.add_assoc,
          UInt32.add_comm 1]
        rfl
      · have hpair : ((blk, true) == (b, true)) = false := by
          rw [beq_eq_false_iff_ne]
          exact fun h => hb (congrArg Prod.fst h).symm
        rw [if_neg hb, hpair, UInt32.add_zero]
        rfl
  | neither _ log executions =>
      have hpair : ((blk, false) == (b, true)) = false := by
        rw [beq_eq_false_iff_ne]
        exact fun h => Bool.noConfusion (congrArg Prod.snd h)
      rw [log, executions, List.count_append, List.count_singleton, hpair]
      rfl

end Outcome

end

/-! ### Runs -/

/-- **What the counter counts.**  After every run of executions, with steps of the transmit task,
other packets and other links between them, the counter of a block has gone up by the number of its
packets that were enqueued. -/
theorem droppedPackets_run {events : List LogEvent} {s s' : LogLink} (h : s.run events = some s')
    (b : BlockPtr) :
    s'.dropped b + UInt32.ofNat (s.enqueued b) = s.dropped b + UInt32.ofNat (s'.enqueued b) := by
  induction events generalizing s with
  | nil =>
      cases h
      rfl
  | cons e events ih =>
      obtain ⟨t, ht, hrest⟩ := Option.bind_eq_some_iff.mp h
      have hstep : t.dropped b + UInt32.ofNat (s.enqueued b) =
          s.dropped b + UInt32.ofNat (t.enqueued b) := by
        cases e with
        | runBlock env timestamp blk => exact (LogLink.runBlock_outcome ht).dropped_eq b
        | tx e =>
            cases ht
            rfl
      have hlast := ih hrest
      grind

/-- An execution that comes to its end never does what it should. -/
theorem LogLink.countedOnce_iff_not_executes (s : LogLink) (e : LogEvent) :
    s.CountedOnce e ↔ ¬ s.Executes e := by
  cases e with
  | runBlock env timestamp blk =>
      unfold LogLink.CountedOnce LogLink.Executes
      constructor
      · intro h hsome
        obtain ⟨s', hs'⟩ := Option.isSome_iff_exists.mp hsome
        exact (runBlock_outcome hs').not_xor (h s' hs')
      · intro h s' hs'
        exact absurd (Option.isSome_of_eq_some hs') h
  | tx e => exact iff_of_true trivial not_false

/-- **Dropped packets.**  In a run while the link is connected every execution enqueues its packet
or counts it as dropped, and does not do both, if and only if there is no execution. -/
theorem countedOnce_iff (events : List LogEvent) (s : LogLink) :
    Along LogLink.step LogLink.CountedOnce events s ↔
      Along LogLink.step (fun s e => ¬ s.Executes e) events s := by
  constructor
  · exact fun h => h.mono fun s e => (s.countedOnce_iff_not_executes e).mp
  · exact fun h => h.mono fun s e => (s.countedOnce_iff_not_executes e).mpr

/-- The first packet of a block is enqueued, and counted as dropped. -/
theorem first_packet_dropped :
    let env : Surroundings := ⟨fun _ => 0, fun _ _ _ => none, fun _ => 0, fun _ => 0, fun _ => 0⟩
    let s : LogLink := ⟨.zero, .init, []⟩
    ((s.runBlock env 0 0).map fun s' => (s'.tx.txQueue.items.length, s'.dropped 0)) = some (1, 1) ∧
    ¬ Along LogLink.step LogLink.CountedOnce [.runBlock env 0 0] s := by
  intro env s
  have hrun : ((s.runBlock env 0 0).map fun s' =>
      (s'.tx.txQueue.items.length, s'.dropped 0)) = some (1, 1) := by decide
  refine ⟨hrun, fun h => ?_⟩
  refine (s.countedOnce_iff_not_executes _).mp h.1 ?_
  obtain ⟨s', hs', -⟩ := Option.map_eq_some_iff.mp hrun
  exact Option.isSome_of_eq_some hs'

end NanoDrone.Log
