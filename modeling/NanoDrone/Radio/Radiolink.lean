import NanoDrone.Crtp.Crtp
import NanoDrone.Lib.Bytes
import NanoDrone.Lib.MsgQueue
import Mathlib.Algebra.Ring.Nat

/-! # Packets from the radio (`radiolink.c`)

The radio sends packets with a length byte of its own.  `radiolinkSyslinkDispatch` queues raw ones
as CRTP packets, one byte shorter, and copies broadcasts between drones, two bytes shorter, into a
packet for the callback.  The lengths are bytes, so they wrap below zero, and none is checked:
`dispatch_bounded_iff` gives the lengths for which nothing goes wrong. -/

namespace NanoDrone.Radio

open Crtp (CRTPPacket crtpMaxDataSize)

/-- `SYSLINK_MTU`. -/
def syslinkMtu : ℕ := 64

/-- `P2P_MAX_DATA_SIZE`. -/
def p2pMaxDataSize : ℕ := 60

/-- `RADIOLINK_TX_QUEUE_SIZE`. -/
def radiolinkTxQueueSize : ℕ := 1

/-- `RADIOLINK_CRTP_QUEUE_SIZE`. -/
def radiolinkCrtpQueueSize : ℕ := 5

/-- `SYSLINK_RADIO_RAW`. -/
def syslinkRadioRaw : UInt8 := 0x00

/-- `SYSLINK_RADIO_RSSI`. -/
def syslinkRadioRssi : UInt8 := 0x04

/-- `SYSLINK_RADIO_RAW_BROADCAST`. -/
def syslinkRadioRawBroadcast : UInt8 := 0x06

/-- `SYSLINK_RADIO_P2P_BROADCAST`. -/
def syslinkRadioP2pBroadcast : UInt8 := 0x0A

/-- `SyslinkPacket`; `data` is the memory from the field on, of which the first `SYSLINK_MTU` bytes
belong to the packet. -/
structure SyslinkPacket where
  type : UInt8
  length : UInt8
  data : Bytes

/-- The bytes from the field `length` on, taken for a CRTP packet. -/
def SyslinkPacket.crtpPacket (slp : SyslinkPacket) : CRTPPacket :=
  ⟨slp.length, slp.data 0, slp.data.slice 1 crtpMaxDataSize⟩

/-- `P2PPacket`; `data` is what `memcpy` has written from the field on. -/
structure P2PPacket where
  size : UInt8
  rssi : UInt8
  port : UInt8
  data : List UInt8
deriving DecidableEq, Repr

structure Radiolink where
  txQueue : MsgQueue SyslinkPacket
  crtpPacketDelivery : MsgQueue CRTPPacket
  rssi : UInt8
  isConnected : Bool
  lastPacketTick : ℕ
  p2pCallback : Bool
  /-- the packets that the callback was given -/
  p2pReceived : List P2PPacket

/-- A call of the dispatcher that has come to its end, with the caller's packet and the local packet
of a broadcast. -/
structure Dispatched where
  radiolink : Radiolink
  slp : SyslinkPacket
  p2pp : Option P2PPacket

/-- The local packet of a broadcast. -/
def p2pPacket (slp : SyslinkPacket) : P2PPacket :=
  let p2pDataLength := slp.length - 2
  { size := p2pDataLength
    rssi := slp.data 1
    port := slp.data 0
    data := slp.data.slice 2 p2pDataLength.toNat }

namespace Radiolink

/-- `radiolinkIsConnected` at the uptime `uptime`; `RADIO_ACTIVITY_TIMEOUT_MS` is one second. -/
def radiolinkIsConnected (ticksPerSec uptime : ℕ) (s : Radiolink) : Bool :=
  (uptime : Int) - s.lastPacketTick < ticksPerSec

/-- `radiolinkSyslinkDispatch`; none if an assertion fails. -/
def radiolinkSyslinkDispatch (ticksPerSec tick uptime : ℕ) (slp : SyslinkPacket) (s : Radiolink) :
    Option Dispatched :=
  let s :=
    if slp.type = syslinkRadioRaw ∨ slp.type = syslinkRadioRawBroadcast then
      { s with lastPacketTick := tick % 2 ^ 32 }
    else s
  let result : Option Dispatched :=
    if slp.type = syslinkRadioRaw then
      let slp := { slp with length := slp.length - 1 }
      -- the put is the expression of the assertion
      let r := s.crtpPacketDelivery.put slp.crtpPacket
      if r.1 then
        some ⟨{ s with crtpPacketDelivery := r.2, txQueue := s.txQueue.get.2 }, slp, none⟩
      else none
    else if slp.type = syslinkRadioRawBroadcast then
      let slp := { slp with length := slp.length - 1 }
      some ⟨{ s with crtpPacketDelivery := (s.crtpPacketDelivery.put slp.crtpPacket).2 }, slp, none⟩
    else if slp.type = syslinkRadioRssi then
      some ⟨{ s with rssi := slp.data 0 }, slp, none⟩
    else if slp.type = syslinkRadioP2pBroadcast then
      let p2pp := p2pPacket slp
      some ⟨{ s with p2pReceived := if s.p2pCallback then s.p2pReceived ++ [p2pp]
                                    else s.p2pReceived }, slp, some p2pp⟩
    else some ⟨s, slp, none⟩
  result.map fun d =>
    { d with radiolink := { d.radiolink with
        isConnected := d.radiolink.radiolinkIsConnected ticksPerSec uptime } }

end Radiolink

/-! ### Which lengths are safe -/

/-- The bytes behind port and signal strength that a broadcast brings. -/
def SyslinkPacket.p2pPayload (slp : SyslinkPacket) : List UInt8 :=
  slp.data.slice 2 (min slp.length.toNat syslinkMtu - 2)

/-- What the call puts on the queue has at most `CRTP_MAX_DATA_SIZE` bytes, and the packet of a
broadcast has room for what is copied to it: the payload, with its size. -/
structure Bounded (slp : SyslinkPacket) (s : Radiolink) (d : Dispatched) : Prop where
  delivery : ∃ new, d.radiolink.crtpPacketDelivery.items = s.crtpPacketDelivery.items ++ new ∧
    ∀ p ∈ new, p.size.toNat ≤ crtpMaxDataSize
  p2p : ∀ p2pp ∈ d.p2pp, p2pp.data.length ≤ p2pMaxDataSize ∧ p2pp.data = slp.p2pPayload ∧
    p2pp.size.toNat = slp.p2pPayload.length

/-- A raw packet has a header and at most `CRTP_MAX_DATA_SIZE` bytes behind it, or there is no room
in the queue; a broadcast has its two bytes and at most `P2P_MAX_DATA_SIZE` behind them. -/
structure SafeLength (slp : SyslinkPacket) (s : Radiolink) : Prop where
  raw : slp.type = syslinkRadioRaw ∨ slp.type = syslinkRadioRawBroadcast →
    s.crtpPacketDelivery.items.length < s.crtpPacketDelivery.maxMsgs →
    1 ≤ slp.length.toNat ∧ slp.length.toNat ≤ crtpMaxDataSize + 1
  p2p : slp.type = syslinkRadioP2pBroadcast →
    2 ≤ slp.length.toNat ∧ slp.length.toNat ≤ p2pMaxDataSize + 2

/-- A length without its first byte fits exactly if it did not wrap and is not too long. -/
theorem sub_one_le_iff (length : UInt8) : (length - 1).toNat ≤ crtpMaxDataSize ↔
    1 ≤ length.toNat ∧ length.toNat ≤ crtpMaxDataSize + 1 := by
  have hlt := length.toNat_lt
  have hone : (1 : UInt8).toNat = 1 := rfl
  rw [UInt8.toNat_sub, hone]
  unfold crtpMaxDataSize
  omega

theorem put_bounded_iff (q : MsgQueue CRTPPacket) (p : CRTPPacket) :
    (∃ new, (q.put p).2.items = q.items ++ new ∧ ∀ p ∈ new, p.size.toNat ≤ crtpMaxDataSize) ↔
      (q.items.length < q.maxMsgs → p.size.toNat ≤ crtpMaxDataSize) := by
  by_cases hroom : q.items.length < q.maxMsgs
  · rw [(MsgQueue.put_of_lt hroom).2]
    constructor
    · rintro ⟨new, hnew, hsize⟩ _
      rw [← List.append_cancel_left hnew] at hsize
      exact hsize p (List.mem_singleton_self p)
    · intro hsize
      refine ⟨[p], rfl, fun p' hp' => ?_⟩
      rw [List.mem_singleton.mp hp']
      exact hsize hroom
  · rw [MsgQueue.put_of_ge (Nat.not_lt.mp hroom)]
    exact iff_of_true ⟨[], (List.append_nil _).symm, nofun⟩ (fun h => absurd h hroom)

/-- The copy of a broadcast is the payload, and has room, exactly for these lengths. -/
theorem p2pPacket_bounded_iff (slp : SyslinkPacket) :
    ((p2pPacket slp).data.length ≤ p2pMaxDataSize ∧ (p2pPacket slp).data = slp.p2pPayload ∧
      (p2pPacket slp).size.toNat = slp.p2pPayload.length) ↔
        2 ≤ slp.length.toNat ∧ slp.length.toNat ≤ p2pMaxDataSize + 2 := by
  have hlt := slp.length.toNat_lt
  have htwo : (2 : UInt8).toNat = 2 := rfl
  have hsub : (slp.length - 2).toNat = (2 ^ 8 - 2 + slp.length.toNat) % 2 ^ 8 := by
    rw [UInt8.toNat_sub, htwo]
  unfold p2pPacket SyslinkPacket.p2pPayload p2pMaxDataSize syslinkMtu
  dsimp only
  rw [Bytes.slice_length, Bytes.slice_length, hsub]
  constructor
  · rintro ⟨hroom, -, hsize⟩
    omega
  · rintro ⟨hlow, hhigh⟩
    have hlen : (2 ^ 8 - 2 + slp.length.toNat) % 2 ^ 8 = min slp.length.toNat 64 - 2 := by omega
    refine ⟨by omega, ?_, hlen⟩
    rw [hlen]

variable {slp : SyslinkPacket} {s : Radiolink} {ticksPerSec tick uptime : ℕ}

/-- A raw packet is delivered or the assertion fails. -/
theorem raw_bounded_iff (ht : slp.type = syslinkRadioRaw) :
    (∀ d ∈ s.radiolinkSyslinkDispatch ticksPerSec tick uptime slp, Bounded slp s d) ↔
      (s.crtpPacketDelivery.items.length < s.crtpPacketDelivery.maxMsgs →
        1 ≤ slp.length.toNat ∧ slp.length.toNat ≤ crtpMaxDataSize + 1) := by
  have hput := put_bounded_iff s.crtpPacketDelivery
    { slp with length := slp.length - 1 }.crtpPacket
  rw [ht] at hput
  rw [← sub_one_le_iff slp.length]
  unfold Radiolink.radiolinkSyslinkDispatch
  simp only [ht, true_or, ↓reduceIte, Option.mem_def, Option.map_eq_some_iff]
  by_cases hroom : s.crtpPacketDelivery.items.length < s.crtpPacketDelivery.maxMsgs
  · have hok := (MsgQueue.put_of_lt (a := { slp with length := slp.length - 1 }.crtpPacket) hroom).1
    rw [ht] at hok
    constructor
    · intro h
      exact hput.mp (h _ ⟨_, by rw [if_pos hok], rfl⟩).delivery
    · rintro h d ⟨d', hd', rfl⟩
      rw [if_pos hok] at hd'
      cases hd'
      exact ⟨hput.mpr h, nofun⟩
  · refine iff_of_true ?_ (fun h => absurd h hroom)
    rintro d ⟨d', hd', rfl⟩
    rw [MsgQueue.put_of_ge (Nat.not_lt.mp hroom)] at hd'
    cases hd'

theorem rawBroadcast_bounded_iff (ht : slp.type = syslinkRadioRawBroadcast) :
    (∀ d ∈ s.radiolinkSyslinkDispatch ticksPerSec tick uptime slp, Bounded slp s d) ↔
      (s.crtpPacketDelivery.items.length < s.crtpPacketDelivery.maxMsgs →
        1 ≤ slp.length.toNat ∧ slp.length.toNat ≤ crtpMaxDataSize + 1) := by
  have hput := put_bounded_iff s.crtpPacketDelivery
    { slp with length := slp.length - 1 }.crtpPacket
  rw [ht] at hput
  have hraw : syslinkRadioRawBroadcast ≠ syslinkRadioRaw := by decide
  rw [← sub_one_le_iff slp.length]
  unfold Radiolink.radiolinkSyslinkDispatch
  simp only [ht, hraw, false_or, ↓reduceIte, Option.mem_def, Option.map_some, Option.some.injEq,
    forall_eq']
  exact ⟨fun h => hput.mp h.delivery, fun h => ⟨hput.mpr h, nofun⟩⟩

theorem p2p_bounded_iff (ht : slp.type = syslinkRadioP2pBroadcast) :
    (∀ d ∈ s.radiolinkSyslinkDispatch ticksPerSec tick uptime slp, Bounded slp s d) ↔
      2 ≤ slp.length.toNat ∧ slp.length.toNat ≤ p2pMaxDataSize + 2 := by
  have hraw : syslinkRadioP2pBroadcast ≠ syslinkRadioRaw := by decide
  have hbroadcast : syslinkRadioP2pBroadcast ≠ syslinkRadioRawBroadcast := by decide
  have hrssi : syslinkRadioP2pBroadcast ≠ syslinkRadioRssi := by decide
  rw [← p2pPacket_bounded_iff]
  unfold Radiolink.radiolinkSyslinkDispatch
  simp only [ht, hraw, hbroadcast, hrssi, or_self, ↓reduceIte, Option.mem_def, Option.map_some,
    Option.some.injEq, forall_eq']
  refine ⟨fun h => h.p2p _ rfl, fun h => ⟨⟨[], (List.append_nil _).symm, nofun⟩, ?_⟩⟩
  intro p2pp hp
  cases hp
  exact h

/-- Every other packet leaves the queue alone. -/
theorem other_bounded (hraw : slp.type ≠ syslinkRadioRaw)
    (hbroadcast : slp.type ≠ syslinkRadioRawBroadcast)
    (hp2p : slp.type ≠ syslinkRadioP2pBroadcast) :
    ∀ d ∈ s.radiolinkSyslinkDispatch ticksPerSec tick uptime slp, Bounded slp s d := by
  unfold Radiolink.radiolinkSyslinkDispatch
  simp only [hraw, hbroadcast, hp2p, or_self, ↓reduceIte]
  intro d hd
  split at hd
  · cases hd
    exact ⟨⟨[], (List.append_nil _).symm, nofun⟩, nofun⟩
  · cases hd
    exact ⟨⟨[], (List.append_nil _).symm, nofun⟩, nofun⟩

/-- **Packets from the radio.**  Whatever the type, the length and the data, the dispatcher puts no
CRTP packet that is too long on its queue, and copies to a broadcast packet its payload and no more
than it has room for, if and only if the length is safe. -/
theorem dispatch_bounded_iff (ticksPerSec tick uptime : ℕ) (slp : SyslinkPacket) (s : Radiolink) :
    (∀ d ∈ s.radiolinkSyslinkDispatch ticksPerSec tick uptime slp, Bounded slp s d) ↔
      SafeLength slp s := by
  by_cases hraw : slp.type = syslinkRadioRaw
  · have hp2p : slp.type ≠ syslinkRadioP2pBroadcast := by rw [hraw]; decide
    rw [raw_bounded_iff hraw]
    exact ⟨fun h => ⟨fun _ => h, fun ht => absurd ht hp2p⟩, fun h => h.raw (Or.inl hraw)⟩
  · by_cases hbroadcast : slp.type = syslinkRadioRawBroadcast
    · have hp2p : slp.type ≠ syslinkRadioP2pBroadcast := by rw [hbroadcast]; decide
      rw [rawBroadcast_bounded_iff hbroadcast]
      exact ⟨fun h => ⟨fun _ => h, fun ht => absurd ht hp2p⟩, fun h => h.raw (Or.inr hbroadcast)⟩
    · have hqueue : ¬ (slp.type = syslinkRadioRaw ∨ slp.type = syslinkRadioRawBroadcast) :=
        fun h => h.elim hraw hbroadcast
      by_cases hp2p : slp.type = syslinkRadioP2pBroadcast
      · rw [p2p_bounded_iff hp2p]
        exact ⟨fun h => ⟨fun ht => absurd ht hqueue, fun _ => h⟩, fun h => h.p2p hp2p⟩
      · exact iff_of_true (other_bounded hraw hbroadcast hp2p)
          ⟨fun ht => absurd ht hqueue, fun ht => absurd ht hp2p⟩

/-- A raw packet without a header is queued with 255 bytes, and 62 bytes of a full broadcast are
copied. -/
theorem unsafe_lengths :
    let s : Radiolink :=
      ⟨.init radiolinkTxQueueSize, .init radiolinkCrtpQueueSize, 0, false, 0, true, []⟩
    let raw : SyslinkPacket := ⟨syslinkRadioRaw, 0, fun _ => 0⟩
    let p2p : SyslinkPacket := ⟨syslinkRadioP2pBroadcast, 64, fun _ => 0⟩
    (s.radiolinkSyslinkDispatch 1000 0 0 raw).map
      (fun d => d.radiolink.crtpPacketDelivery.items.map CRTPPacket.size) = some [255] ∧
    (s.radiolinkSyslinkDispatch 1000 0 0 p2p).map
      (fun d => d.radiolink.p2pReceived.map fun p => p.data.length) = some [62] ∧
    ¬ (∀ d ∈ s.radiolinkSyslinkDispatch 1000 0 0 raw, Bounded raw s d) ∧
    ¬ (∀ d ∈ s.radiolinkSyslinkDispatch 1000 0 0 p2p, Bounded p2p s d) := by
  refine ⟨by decide, by decide, ?_, ?_⟩
  · rw [raw_bounded_iff rfl]
    decide
  · rw [p2p_bounded_iff rfl]
    decide

end NanoDrone.Radio
