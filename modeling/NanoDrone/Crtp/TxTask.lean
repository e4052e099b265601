import NanoDrone.Crtp.Crtp
import NanoDrone.Lib.Interleaving
import NanoDrone.Lib.MsgQueue
import Mathlib.Algebra.Ring.Nat

/-! # The CRTP transmit task (`crtp.c`)

`crtpTxTask` takes packets off the transmit queue and offers each to the link until it accepts it.
`crtpSetLink` can change the link between any two steps of the task, to a real link or to `nopLink`,
whose `sendPacket` returns `ENETDOWN`.  The retry loop compares the result with `false` only, so
it takes that for an acceptance.

The lists `queued`, `offers` and `counted` record what has happened so far; no step reads them. -/

namespace NanoDrone.Crtp

/-- `CRTP_TX_QUEUE_SIZE`. -/
def crtpTxQueueSize : ℕ := 120

/-- `STATS_INTERVAL`. -/
def statsInterval : ℕ := 500

/-- What `nopFunc` returns. -/
def enetdown : ℕ := 115

/-- `link`: `&nopLink` or the operations of a real link. -/
inductive Link where
  | nop
  | real (operations : ℕ)
deriving DecidableEq, Repr

/-- `link->sendPacket(&p)`; `accepts` is the answer of a real link. -/
def Link.sendPacket (accepts : Bool) : Link → ℕ
  | nop => enetdown
  | real _ => accepts.toNat

/-- Where `crtpTxTask` stands, with the packet it holds. -/
inductive TxTask where
  /-- before the test of the link -/
  | testing
  /-- before `k_msgq_get`, or blocked in it -/
  | getting
  /-- before it reads `link` for the next attempt -/
  | sending (p : CRTPPacket)
  /-- before the call of `sendPacket` of the link that it has read -/
  | calling (p : CRTPPacket) (link : Link)
  /-- in `k_sleep`, for relaxation, after a refusal -/
  | relaxing (p : CRTPPacket)
  /-- before `stats.txCount++` -/
  | counting (p : CRTPPacket)
  /-- in `k_sleep` while there is no link -/
  | idling
deriving DecidableEq, Repr

namespace TxTask

/-- The packet that is taken from the queue and not given up. -/
def held : TxTask → List CRTPPacket
  | sending p | calling p _ | relaxing p => [p]
  | testing | getting | counting _ | idling => []

/-- The packet that is given up and not counted. -/
def uncounted : TxTask → List CRTPPacket
  | counting p => [p]
  | testing | getting | sending _ | calling _ _ | relaxing _ | idling => []

end TxTask

structure TxState where
  link : Link
  txQueue : MsgQueue CRTPPacket
  txTask : TxTask
  txCount : ℕ
  nextStatisticsTime : ℕ
  previousStatisticsTime : ℕ
  /-- the packets that the queue has accepted -/
  queued : List CRTPPacket
  /-- the packets offered to real links, and whether they were accepted -/
  offers : List (CRTPPacket × Bool)
  counted : List CRTPPacket

namespace TxState

def init : TxState := ⟨.nop, .init crtpTxQueueSize, .testing, 0, 0, 0, [], [], []⟩

/-- `crtpSendPacket`; a packet that is too long fails the assertion. -/
def crtpSendPacket (p : CRTPPacket) (s : TxState) : TxState :=
  if p.size.toNat ≤ crtpMaxDataSize then
    { s with
      txQueue := (s.txQueue.put p).2
      queued := if (s.txQueue.put p).1 then s.queued ++ [p] else s.queued }
  else s

/-- `crtpSetLink`; `none` is `NULL`. -/
def crtpSetLink (lk : Option ℕ) (s : TxState) : TxState :=
  match lk with
  | some operations => { s with link := .real operations }
  | none => { s with link := .nop }

/-- `updateStats` at the uptime `now`, without the rates. -/
def updateStats (now : ℕ) (s : TxState) : TxState :=
  if now % 2 ^ 32 > s.nextStatisticsTime then
    { s with
      txCount := 0
      previousStatisticsTime := now % 2 ^ 32
      nextStatisticsTime := (now + statsInterval) % 2 ^ 32 }
  else s

/-- The next step of `crtpTxTask`. -/
def crtpTxTask (accepts : Bool) (now : ℕ) (s : TxState) : TxState :=
  match s.txTask with
  | .testing => { s with txTask := if s.link ≠ .nop then .getting else .idling }
  | .idling => { s with txTask := .testing }
  | .getting =>
      match s.txQueue.get.1 with
      | none => s
      | some p => { s with txQueue := s.txQueue.get.2, txTask := .sending p }
  | .sending p => { s with txTask := .calling p s.link }
  | .calling p link =>
      { s with
        txTask := if link.sendPacket accepts = false.toNat then .relaxing p else .counting p
        offers := if link = .nop then s.offers else s.offers ++ [(p, accepts)] }
  | .relaxing p => { s with txTask := .sending p }
  | .counting p =>
      updateStats now { s with
        txCount := (s.txCount + 1) % 2 ^ 32
        counted := s.counted ++ [p]
        txTask := .testing }


/-- The packets that real links have accepted. -/
def accepted (s : TxState) : List CRTPPacket := (s.offers.filter Prod.snd).map Prod.fst

end TxState

/-! ### Runs -/

inductive TxEvent where
  | sendPacket (p : CRTPPacket)
  | setLink (lk : Option ℕ)
  /-- a step of the task, with the answer of a real link and the uptime -/
  | txTask (accepts : Bool) (now : ℕ)
deriving DecidableEq, Repr

namespace TxState

def next (s : TxState) : TxEvent → TxState
  | .sendPacket p => s.crtpSendPacket p
  | .setLink lk => s.crtpSetLink lk
  | .txTask accepts now => s.crtpTxTask accepts now

def step (s : TxState) (e : TxEvent) : Option TxState := some (s.next e)

/-- After each refused offer the same packet is offered again, or still held. -/
def OfferedAgain (held : List CRTPPacket) : List (CRTPPacket × Bool) → Prop
  | [] => True
  | (p, accepted) :: rest =>
      (accepted = false → (rest.map Prod.fst ++ held).head? = some p) ∧ OfferedAgain held rest

instance (held : List CRTPPacket) : (offers : List (CRTPPacket × Bool)) →
    Decidable (OfferedAgain held offers)
  | [] => isTrue trivial
  | (p, accepted) :: rest =>
      have : Decidable (OfferedAgain held rest) := instDecidableOfferedAgain held rest
      inferInstanceAs (Decidable ((accepted = false → _ = some p) ∧ OfferedAgain held rest))

/-- The packets accepted by real links, the one held and those in the queue are the packets queued,
in order; those given up are the accepted ones, and refused ones are offered again. -/
structure Delivers (s : TxState) : Prop where
  accepted : s.accepted ++ s.txTask.held ++ s.txQueue.items = s.queued
  counted : s.counted ++ s.txTask.uncounted = s.accepted
  again : OfferedAgain s.txTask.held s.offers

/-- The step is not a call of `sendPacket` of `nopLink`. -/
def CallsRealLink (s : TxState) : TxEvent → Prop
  | .txTask _ _ => ∀ p ∈ s.txTask.held, s.txTask ≠ .calling p .nop
  | .sendPacket _ | .setLink _ => True

instance (s : TxState) : DecidablePred s.CallsRealLink
  | .txTask _ _ => inferInstanceAs (Decidable (∀ p ∈ s.txTask.held, s.txTask ≠ .calling p .nop))
  | .sendPacket _ | .setLink _ => isTrue trivial

variable {s : TxState}

/-- More offers keep it if they begin with the packet held. -/
theorem OfferedAgain.append {held held' : List CRTPPacket}
    {offers new : List (CRTPPacket × Bool)} (h : OfferedAgain held offers)
    (hnew : OfferedAgain held' new) (hheld : held <+: new.map Prod.fst ++ held') :
    OfferedAgain held' (offers ++ new) := by
  induction offers with
  | nil => exact hnew
  | cons o rest ih =>
      refine ⟨fun ho => ?_, ih h.2⟩
      obtain ⟨more, hmore⟩ := hheld
      change ((rest ++ new).map Prod.fst ++ held').head? = some o.1
      rw [List.map_append, List.append_assoc, ← hmore, ← List.append_assoc]
      obtain ⟨next, hnext⟩ := List.head?_eq_some_iff.mp (h.1 ho)
      rw [hnext]
      rfl

theorem accepted_append (offers : List (CRTPPacket × Bool)) (p : CRTPPacket) (accepts : Bool) :
    ((offers ++ [(p, accepts)]).filter Prod.snd).map Prod.fst =
      (offers.filter Prod.snd).map Prod.fst ++ (if accepts then [p] else []) := by
  cases accepts <;> simp

@[simp] theorem updateStats_offers (now : ℕ) : (updateStats now s).offers = s.offers := by
  unfold updateStats
  split <;> rfl

@[simp] theorem updateStats_txTask (now : ℕ) : (updateStats now s).txTask = s.txTask := by
  unfold updateStats
  split <;> rfl

@[simp] theorem updateStats_txQueue (now : ℕ) : (updateStats now s).txQueue = s.txQueue := by
  unfold updateStats
  split <;> rfl

@[simp] theorem updateStats_queued (now : ℕ) : (updateStats now s).queued = s.queued := by
  unfold updateStats
  split <;> rfl

@[simp] theorem updateStats_counted (now : ℕ) : (updateStats now s).counted = s.counted := by
  unfold updateStats
  split <;> rfl

namespace Delivers

theorem init : Delivers .init := ⟨rfl, rfl, trivial⟩

theorem sendPacket (h : s.Delivers) (p : CRTPPacket) : (s.crtpSendPacket p).Delivers := by
  unfold crtpSendPacket
  by_cases hsize : p.size.toNat ≤ crtpMaxDataSize
  · rw [if_pos hsize]
    refine ⟨?_, h.counted, h.again⟩
    have hold := h.accepted
    change s.accepted ++ s.txTask.held ++ (s.txQueue.put p).2.items =
      (if (s.txQueue.put p).1 then s.queued ++ [p] else s.queued)
    by_cases hroom : s.txQueue.items.length < s.txQueue.maxMsgs
    · obtain ⟨hok, hitems⟩ := MsgQueue.put_of_lt (a := p) hroom
      rw [hok, hitems, if_pos rfl, ← List.append_assoc, hold]
    · rw [MsgQueue.put_of_ge (Nat.not_lt.mp hroom)]
      exact hold
  · rw [if_neg hsize]
    exact h

theorem setLink (h : s.Delivers) (lk : Option ℕ) : (s.crtpSetLink lk).Delivers := by
  cases lk with
  | none => exact ⟨h.accepted, h.counted, h.again⟩
  | some operations => exact ⟨h.accepted, h.counted, h.again⟩

/-- The link that the task calls accepts the packet, or the task keeps it. -/
theorem call_real {p : CRTPPacket} {operations : ℕ} (h : s.Delivers)
    (ht : s.txTask = .calling p (.real operations)) (accepts : Bool) (now : ℕ) :
    (s.crtpTxTask accepts now).Delivers := by
  obtain ⟨hacc, hcount, hagain⟩ := h
  rw [ht] at hacc hcount hagain
  unfold crtpTxTask
  rw [ht]
  cases accepts with
  | true =>
      refine ⟨?_, ?_, hagain.append ⟨nofun, trivial⟩ (List.prefix_refl [p])⟩
      · change ((s.offers ++ [(p, true)]).filter Prod.snd).map Prod.fst ++ [] ++ _ = _
        rw [accepted_append, if_pos rfl, List.append_nil]
        exact hacc
      · change s.counted ++ [p] = ((s.offers ++ [(p, true)]).filter Prod.snd).map Prod.fst
        rw [accepted_append, if_pos rfl, ← TxState.accepted, ← hcount]
        exact congrArg (· ++ [p]) (List.append_nil _).symm
  | false =>
      refine ⟨?_, ?_, hagain.append ⟨fun _ => rfl, trivial⟩ ⟨[p], rfl⟩⟩
      · change ((s.offers ++ [(p, false)]).filter Prod.snd).map Prod.fst ++ [p] ++ _ = _
        rw [accepted_append]
        exact (congrArg (· ++ [p] ++ s.txQueue.items) (List.append_nil _)).trans hacc
      · change s.counted ++ [] = ((s.offers ++ [(p, false)]).filter Prod.snd).map Prod.fst
        rw [accepted_append]
        exact hcount.trans (List.append_nil _).symm

/-- `nopLink` takes the packet away. -/
theorem call_nop {p : CRTPPacket} (h : s.Delivers) (ht : s.txTask = .calling p .nop)
    (accepts : Bool) (now : ℕ) : ¬ (s.crtpTxTask accepts now).Delivers := by
  intro hnext
  have hold := h.accepted
  have hnew := hnext.accepted
  unfold crtpTxTask at hnew
  rw [ht] at hold hnew
  change s.accepted ++ [] ++ s.txQueue.items = s.queued at hnew
  rw [← hold] at hnew
  have hlen := congrArg List.length hnew
  simp only [TxTask.held, List.append_nil, List.length_append, List.length_cons,
    List.length_nil] at hlen
  omega

theorem txTask (h : s.Delivers) (hcall : ∀ p ∈ s.txTask.held, s.txTask ≠ .calling p .nop)
    (accepts : Bool) (now : ℕ) : (s.crtpTxTask accepts now).Delivers := by
  obtain ⟨hacc, hcount, hagain⟩ := h
  cases ht : s.txTask with
  | testing =>
      rw [ht] at hacc hcount hagain
      unfold crtpTxTask
      rw [ht]
      dsimp only
      split
      · exact ⟨hacc, hcount, hagain⟩
      · exact ⟨hacc, hcount, hagain⟩
  | getting =>
      unfold crtpTxTask
      rw [ht]
      dsimp only
      split
      · exact ⟨hacc, hcount, hagain⟩
      · rename_i p hget
        rw [ht] at hacc hcount hagain
        have htake : OfferedAgain [p] (s.offers ++ []) := hagain.append trivial List.nil_prefix
        rw [List.append_nil] at htake
        refine ⟨?_, hcount, htake⟩
        obtain ⟨rest, hrest⟩ := List.head?_eq_some_iff.mp hget
        change s.accepted ++ [p] ++ s.txQueue.items.tail = s.queued
        rw [← hacc, hrest, TxTask.held, List.append_nil, List.append_assoc]
        rfl
  | sending p =>
      rw [ht] at hacc hcount hagain
      unfold crtpTxTask
      rw [ht]
      exact ⟨hacc, hcount, hagain⟩
  | calling p link =>
      cases link with
      | nop => exact absurd ht (hcall p (by rw [ht]; exact List.mem_singleton_self p))
      | real operations => exact call_real ⟨hacc, hcount, hagain⟩ ht accepts now
  | relaxing p =>
      rw [ht] at hacc hcount hagain
      unfold crtpTxTask
      rw [ht]
      exact ⟨hacc, hcount, hagain⟩
  | counting p =>
      rw [ht] at hacc hcount hagain
      unfold crtpTxTask
      rw [ht]
      refine ⟨?_, ?_, ?_⟩
      · simpa [TxState.accepted, TxTask.held] using hacc
      · simpa [TxState.accepted, TxTask.uncounted] using hcount
      · simpa [TxTask.held] using hagain
  | idling =>
      rw [ht] at hacc hcount hagain
      unfold crtpTxTask
      rw [ht]
      exact ⟨hacc, hcount, hagain⟩

/-- A step keeps the deliveries right exactly if it does not call `nopLink`. -/
theorem next_iff (h : s.Delivers) (e : TxEvent) : (s.next e).Delivers ↔ s.CallsRealLink e := by
  cases e with
  | sendPacket p => exact iff_of_true (h.sendPacket p) trivial
  | setLink lk => exact iff_of_true (h.setLink lk) trivial
  | txTask accepts now =>
      constructor
      · intro hnext p _ ht
        exact call_nop h ht accepts now hnext
      · intro hcall
        exact h.txTask hcall accepts now

end Delivers

end TxState

/-- **Delivery.**  In every interleaving of puts, link changes and steps of the task, what real
links accept is what was queued, in order and each once, nothing else is counted and refused
packets are offered again, after every step, if and only if the task never calls `nopLink`. -/
theorem delivers_iff (events : List TxEvent) :
    Along TxState.step (fun s e => (s.next e).Delivers) events .init ↔
      Along TxState.step TxState.CallsRealLink events .init := by
  refine Along.iff_of_invariant TxState.Delivers.init (fun s e h => h.next_iff e) ?_
  intro s e s' h hnext hs
  cases hs
  exact hnext

/-- The link is taken away after the task has taken the packet: it is counted, and no real link
has seen it. -/
theorem counts_packet_never_sent :
    let events : List TxEvent := [.setLink (some 0), .sendPacket ⟨1, 0x50, [1]⟩, .txTask true 0,
      .txTask true 0, .setLink none, .txTask true 0, .txTask true 0, .txTask true 0]
    ¬ Along TxState.step (fun s e => (s.next e).Delivers) events .init ∧
    (events.foldl TxState.next .init).txCount = 1 ∧
    (events.foldl TxState.next .init).txQueue.items = [] ∧
    (events.foldl TxState.next .init).offers = [] := by
  refine ⟨?_, rfl, rfl, rfl⟩
  intro h
  have hlast := ((((((h.2 _ rfl).2 _ rfl).2 _ rfl).2 _ rfl).2 _ rfl).2 _ rfl).1
  exact absurd hlast.accepted (by decide)

end NanoDrone.Crtp
