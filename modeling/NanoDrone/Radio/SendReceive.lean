import NanoDrone.Radio.Radiolink

/-! # Sending a CRTP packet and receiving it back (`radiolink.c`)

`radiolinkSendCRTPPacket` copies a CRTP packet from its header on into the data of a
`SyslinkPacket`, and `radiolinkSyslinkDispatch` takes the bytes of a `SyslinkPacket` from its length
on for a CRTP packet.  `radiolink_roundTrip` says that the two layouts fit in both directions.

The buffer that the sender fills is static, so behind the copied bytes lie those of earlier
packets. -/

namespace NanoDrone.Radio

open Crtp (CRTPPacket crtpMaxDataSize)

/-- What `radiolinkSendCRTPPacket` makes of its static packet. -/
def SyslinkPacket.fill (slp : SyslinkPacket) (p : CRTPPacket) : SyslinkPacket :=
  { type := syslinkRadioRaw
    length := p.size + 1
    data := slp.data.write 0 (p.header :: p.data.take p.size.toNat) }

/-- A call of `radiolinkSendCRTPPacket` that has come to its end, with its static packet. -/
structure Sent where
  result : Bool
  radiolink : Radiolink
  slp : SyslinkPacket

/-- `radiolinkSendCRTPPacket`, with the state at the end of its wait for room; none if the assertion
fails. -/
def Radiolink.radiolinkSendCRTPPacket (p : CRTPPacket) (slp : SyslinkPacket) (s : Radiolink) :
    Option Sent :=
  if p.size.toNat ≤ crtpMaxDataSize then
    let slp := slp.fill p
    let r := s.txQueue.put slp
    some ⟨r.1, { s with txQueue := r.2 }, slp⟩
  else none

/-! ### One direction at a time -/

/-- What a raw packet is delivered as. -/
def SyslinkPacket.delivered (slp : SyslinkPacket) : CRTPPacket :=
  { slp with length := slp.length - 1 }.crtpPacket

/-- Whenever there is room a raw packet is delivered as a packet with the property; without room the
assertion fails. -/
def Delivers (slp : SyslinkPacket) (Q : CRTPPacket → Prop) : Prop :=
  ∀ (ticksPerSec tick uptime : ℕ) (s : Radiolink),
    if s.crtpPacketDelivery.items.length < s.crtpPacketDelivery.maxMsgs then
      ∃ d p, s.radiolinkSyslinkDispatch ticksPerSec tick uptime slp = some d ∧
        d.radiolink.crtpPacketDelivery.items = s.crtpPacketDelivery.items ++ [p] ∧ Q p
    else s.radiolinkSyslinkDispatch ticksPerSec tick uptime slp = none

theorem delivers_of_delivered {slp : SyslinkPacket} {Q : CRTPPacket → Prop}
    (htype : slp.type = syslinkRadioRaw) (hQ : Q slp.delivered) : Delivers slp Q := by
  intro ticksPerSec tick uptime s
  unfold Radiolink.radiolinkSyslinkDispatch
  simp only [htype, true_or, ↓reduceIte]
  unfold SyslinkPacket.delivered at hQ
  rw [htype] at hQ
  split
  · rename_i hroom
    obtain ⟨hok, hitems⟩ := MsgQueue.put_of_lt
      (a := { slp with type := syslinkRadioRaw, length := slp.length - 1 }.crtpPacket) hroom
    rw [if_pos hok]
    exact ⟨_, _, rfl, hitems, hQ⟩
  · rename_i hroom
    rw [MsgQueue.put_of_ge (Nat.not_lt.mp hroom)]
    rfl

/-- What is sent lies in the filled packet from its first byte on. -/
theorem slice_fill (slp : SyslinkPacket) (p : CRTPPacket) {n : ℕ}
    (hn : (p.header :: p.data.take p.size.toNat).length = n) :
    (slp.fill p).data.slice 0 n = p.header :: p.data.take p.size.toNat := by
  subst hn
  exact Bytes.slice_write_self slp.data 0 _

/-- A filled packet is delivered with the size, the header and the data it was filled with. -/
theorem delivered_fill (slp : SyslinkPacket) {p : CRTPPacket}
    (hsize : p.size.toNat ≤ crtpMaxDataSize) (hdata : p.data.length = crtpMaxDataSize) :
    (slp.fill p).delivered.size = p.size ∧ (slp.fill p).delivered.header = p.header ∧
      (slp.fill p).delivered.data.take p.size.toNat = p.data.take p.size.toNat := by
  have hlength : (p.header :: p.data.take p.size.toNat).length = 1 + p.size.toNat := by
    rw [List.length_cons, List.length_take, hdata, min_eq_left hsize, Nat.add_comm]
  -- the bytes from the header on, read as one slice, split behind the header
  have hslice := slice_fill slp p hlength
  rw [Bytes.slice_append] at hslice
  obtain ⟨hheader, htail⟩ := List.cons.inj hslice
  refine ⟨?_, hheader, ?_⟩
  · exact UInt8.add_sub_cancel p.size 1
  · change ((slp.fill p).data.slice 1 crtpMaxDataSize).take p.size.toNat = _
    rw [Bytes.take_slice, min_eq_left hsize]
    exact htail

/-- Filling a packet with what a raw packet is delivered as gives back its length and its bytes. -/
theorem fill_delivered (old : SyslinkPacket) {slp : SyslinkPacket} (hlow : 1 ≤ slp.length.toNat)
    (hhigh : slp.length.toNat ≤ crtpMaxDataSize + 1) :
    (old.fill slp.delivered).length = slp.length ∧
      (old.fill slp.delivered).data.slice 0 slp.length.toNat =
        slp.data.slice 0 slp.length.toNat := by
  refine ⟨UInt8.sub_add_cancel slp.length 1, ?_⟩
  have hsize : slp.delivered.size.toNat + 1 = slp.length.toNat := by
    have hlt := slp.length.toNat_lt
    have hone : (1 : UInt8).toNat = 1 := rfl
    change (slp.length - 1).toNat + 1 = _
    rw [UInt8.toNat_sub, hone]
    omega
  have hfits : slp.delivered.size.toNat ≤ crtpMaxDataSize := by omega
  have htake : slp.delivered.data.take slp.delivered.size.toNat =
      slp.data.slice 1 slp.delivered.size.toNat := by
    change (slp.data.slice 1 crtpMaxDataSize).take _ = _
    rw [Bytes.take_slice, min_eq_left hfits]
  have hbytes : slp.delivered.header :: slp.delivered.data.take slp.delivered.size.toNat =
      slp.data.slice 0 slp.length.toNat := by
    rw [htake, ← hsize, Nat.add_comm _ 1, Bytes.slice_append]
    rfl
  have hlength : (slp.delivered.header ::
      slp.delivered.data.take slp.delivered.size.toNat).length = slp.length.toNat := by
    rw [hbytes, Bytes.slice_length]
  rw [slice_fill old slp.delivered hlength, hbytes]

/-- The call returns; with room in `txQueue` it returns true and has queued a packet with the
property there, without room it returns false and has queued nothing. -/
def Sends (p : CRTPPacket) (Q : SyslinkPacket → Prop) : Prop :=
  ∀ (old : SyslinkPacket) (s : Radiolink), ∃ r, s.radiolinkSendCRTPPacket p old = some r ∧
    Q r.slp ∧
    if s.txQueue.items.length < s.txQueue.maxMsgs then
      r.result = true ∧ r.radiolink.txQueue.items = s.txQueue.items ++ [r.slp]
    else r.result = false ∧ r.radiolink.txQueue.items = s.txQueue.items

theorem sends_of_fill {p : CRTPPacket} {Q : SyslinkPacket → Prop}
    (hsize : p.size.toNat ≤ crtpMaxDataSize) (hQ : ∀ old : SyslinkPacket, Q (old.fill p)) :
    Sends p Q := by
  intro old s
  refine ⟨_, if_pos hsize, hQ old, ?_⟩
  dsimp only
  split
  · rename_i hroom
    exact MsgQueue.put_of_lt hroom
  · rename_i hroom
    rw [MsgQueue.put_of_ge (Nat.not_lt.mp hroom)]
    exact ⟨rfl, rfl⟩

/-! ### Both directions -/

/-- **Round trips.**  The packet that is queued for a CRTP packet is delivered with the same size,
header and data; and sending what a raw packet is delivered as queues a packet with its length and
its bytes. -/
theorem radiolink_roundTrip {p : CRTPPacket} (hsize : p.size.toNat ≤ crtpMaxDataSize)
    (hdata : p.data.length = crtpMaxDataSize) {slp : SyslinkPacket}
    (htype : slp.type = syslinkRadioRaw) (hlow : 1 ≤ slp.length.toNat)
    (hhigh : slp.length.toNat ≤ crtpMaxDataSize + 1) :
    (Sends p fun r => Delivers r fun q => q.size = p.size ∧ q.header = p.header ∧
      q.data.take p.size.toNat = p.data.take p.size.toNat) ∧
    (Delivers slp fun q => Sends q fun r => r.type = slp.type ∧ r.length = slp.length ∧
      r.data.slice 0 slp.length.toNat = slp.data.slice 0 slp.length.toNat) := by
  constructor
  · apply sends_of_fill hsize
    intro old
    exact delivers_of_delivered rfl (delivered_fill old hsize hdata)
  · apply delivers_of_delivered htype
    have hfits : slp.delivered.size.toNat ≤ crtpMaxDataSize :=
      (sub_one_le_iff slp.length).mpr ⟨hlow, hhigh⟩
    apply sends_of_fill hfits
    intro old
    exact ⟨htype.symm, fill_delivered old hlow hhigh⟩

/-- A full CRTP packet, and a raw packet of two bytes. -/
theorem radiolink_roundTrip_full :
    let p : CRTPPacket := ⟨30, 0x5C, List.replicate 30 7⟩
    let slp : SyslinkPacket := ⟨syslinkRadioRaw, 2, fun i => if i = 0 then 0x5C else 7⟩
    (Sends p fun r => Delivers r fun q => q.size = p.size ∧ q.header = p.header ∧
      q.data.take p.size.toNat = p.data.take p.size.toNat) ∧
    (Delivers slp fun q => Sends q fun r => r.type = slp.type ∧ r.length = slp.length ∧
      r.data.slice 0 slp.length.toNat = slp.data.slice 0 slp.length.toNat) :=
  radiolink_roundTrip (by decide) (by decide) rfl (by decide) (by decide)

end NanoDrone.Radio
