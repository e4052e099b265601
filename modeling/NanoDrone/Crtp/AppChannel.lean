import NanoDrone.Crtp.TxTask
import NanoDrone.Lib.Bytes

/-! # Sending on the app channel (`app_channel.c`, `platformservice.c`)

`sendDataPacket` crops a buffer to `APPCHANNEL_MTU` bytes and copies them to a static packet, which
`platformservice.c` addresses and hands to the transmit queue.  The MTU is 31 and the data of a
packet has 30 bytes: `sendDataPacket_iff` says that the lengths up to 30 are those that it sends
as it should.  What the transmit functions return is a parameter. -/

namespace NanoDrone.Crtp

/-- `APPCHANNEL_MTU`. -/
def appchannelMtu : ℕ := 31

/-- `CRTP_PORT_PLATFORM`. -/
def crtpPortPlatform : Port := 0x0D

/-- `appChannel`. -/
def appChannel : Fin 4 := 0x02

namespace CRTPPacket

/-- The bit field `channel`, the low two bits of the header. -/
def channel (p : CRTPPacket) : Fin 4 := ⟨p.header.toNat % 4, Nat.mod_lt _ (by decide)⟩

/-- The data as far as the size says. -/
def payload (p : CRTPPacket) : List UInt8 := p.data.take p.size.toNat

/-- The assertion of `crtpSendPacket` and `crtpSendPacketBlock`. -/
def Sendable (p : CRTPPacket) : Prop := p.size.toNat ≤ crtpMaxDataSize

end CRTPPacket

/-- A packet in memory; the bytes of `data` from `CRTP_MAX_DATA_SIZE` on lie behind it. -/
structure StaticPacket where
  size : UInt8
  header : UInt8
  data : Bytes

namespace StaticPacket

/-- What a queue copies. -/
def packet (m : StaticPacket) : CRTPPacket := ⟨m.size, m.header, m.data.slice 0 crtpMaxDataSize⟩

/-- The assignments to the bit fields `port` and `channel`; the two reserved bits stay. -/
def address (m : StaticPacket) (port : Port) (channel : Fin 4) : StaticPacket :=
  { m with header := UInt8.ofNat (16 * port.val + 4 * (m.header.toNat / 4 % 4) + channel.val) }

end StaticPacket

/-- A call of `crtpSendPacket` or, with `block`, of `crtpSendPacketBlock`. -/
structure SendCall where
  packet : CRTPPacket
  block : Bool
deriving DecidableEq, Repr

/-- What a call of `sendDataPacket` does. -/
structure Sending where
  /-- the bytes that `memcpy` puts to `packet.data` -/
  copied : List UInt8
  call : SendCall
  result : Int
  packet : StaticPacket

def platformserviceSendAppchannelPacket (m : StaticPacket) : SendCall × StaticPacket :=
  let m := m.address crtpPortPlatform appChannel
  (⟨m.packet, false⟩, m)

def platformserviceSendAppchannelPacketBlock (m : StaticPacket) : SendCall × StaticPacket :=
  let m := m.address crtpPortPlatform appChannel
  (⟨m.packet, true⟩, m)

section
variable (send : SendCall → Int)

/-- `sendDataPacket`, under the mutex. -/
def sendDataPacket (data : Bytes) (length : ℕ) (doBlock : Bool) (m : StaticPacket) : Sending :=
  let size := if length > appchannelMtu then appchannelMtu else length
  let copied := data.slice 0 size
  let m := { m with size := UInt8.ofNat size, data := m.data.write 0 copied }
  let r :=
    if doBlock then platformserviceSendAppchannelPacketBlock m
    else platformserviceSendAppchannelPacket m
  ⟨copied, r.1, send r.1, r.2⟩

def appchannelSendDataPacket (data : Bytes) (length : ℕ) (m : StaticPacket) : Sending :=
  sendDataPacket send data length false m

def appchannelSendDataPacketBlock (data : Bytes) (length : ℕ) (m : StaticPacket) : Sending :=
  sendDataPacket send data length true m

end

/-- A buffer is sent cropped: the copy stays in the data of the packet, the packet passes the
assertion, and it holds the first `APPCHANNEL_MTU` bytes of the buffer for the app channel. -/
structure SendsCropped (data : Bytes) (length : ℕ) (doBlock : Bool) (r : Sending) : Prop where
  inside : r.copied.length ≤ crtpMaxDataSize
  block : r.call.block = doBlock
  size : r.call.packet.size.toNat = min length appchannelMtu
  sendable : r.call.packet.Sendable
  payload : r.call.packet.payload = data.slice 0 (min length appchannelMtu)
  port : r.call.packet.port = crtpPortPlatform
  channel : r.call.packet.channel = appChannel

/-! ### Headers and sizes -/

variable {data : Bytes} {length : ℕ} {doBlock : Bool} {m : StaticPacket}

theorem StaticPacket.address_port (m : StaticPacket) (port : Port) (channel : Fin 4) :
    (m.address port channel).packet.port = port := by
  have hport := port.isLt
  have hchannel := channel.isLt
  unfold crtpNbrOfPorts at hport
  apply Fin.ext
  change (UInt8.ofNat _).toNat / 16 = port.val
  rw [UInt8.toNat_ofNat']
  omega

theorem StaticPacket.address_channel (m : StaticPacket) (port : Port) (channel : Fin 4) :
    (m.address port channel).packet.channel = channel := by
  have hport := port.isLt
  have hchannel := channel.isLt
  unfold crtpNbrOfPorts at hport
  apply Fin.ext
  change (UInt8.ofNat _).toNat % 4 = channel.val
  rw [UInt8.toNat_ofNat']
  omega

/-- The number of bytes that are copied. -/
theorem sendDataPacket_copied (send : SendCall → Int) :
    (sendDataPacket send data length doBlock m).copied =
      data.slice 0 (min length appchannelMtu) := by
  unfold sendDataPacket
  dsimp only
  congr 1
  split <;> omega

/-- The call: the packet has the size and the bytes copied, as far as there is room for them. -/
theorem sendDataPacket_call (send : SendCall → Int) :
    (sendDataPacket send data length doBlock m).call =
      ⟨(StaticPacket.address ⟨UInt8.ofNat (min length appchannelMtu), m.header,
        m.data.write 0 (data.slice 0 (min length appchannelMtu))⟩
          crtpPortPlatform appChannel).packet, doBlock⟩ := by
  have hsize : (if length > appchannelMtu then appchannelMtu else length) =
      min length appchannelMtu := by
    split <;> omega
  unfold sendDataPacket
  rw [hsize]
  cases doBlock <;> rfl

theorem sendDataPacket_size (send : SendCall → Int) :
    (sendDataPacket send data length doBlock m).call.packet.size.toNat =
      min length appchannelMtu := by
  rw [sendDataPacket_call]
  change (UInt8.ofNat (min length appchannelMtu)).toNat = _
  rw [UInt8.toNat_ofNat']
  unfold appchannelMtu
  omega

/-- A payload that fits is the copied part of the buffer. -/
theorem sendDataPacket_payload (send : SendCall → Int) (hfits : length ≤ crtpMaxDataSize) :
    (sendDataPacket send data length doBlock m).call.packet.payload =
      data.slice 0 (min length appchannelMtu) := by
  have hmin : min (min length appchannelMtu) crtpMaxDataSize = min length appchannelMtu :=
    Nat.min_eq_left (Nat.le_trans (Nat.min_le_left _ _) hfits)
  unfold CRTPPacket.payload
  rw [sendDataPacket_size, sendDataPacket_call]
  change ((m.data.write 0 (data.slice 0 (min length appchannelMtu))).slice 0
    crtpMaxDataSize).take _ = _
  rw [Bytes.take_slice, hmin]
  have hself := Bytes.slice_write_self m.data 0 (data.slice 0 (min length appchannelMtu))
  rwa [Bytes.slice_length] at hself

/-- **Which buffers are sent as they should be.**  For every buffer, whatever the static packet
holds from before, the copy stays in the packet and the packet is the cropped buffer, within the
assertion, if and only if the buffer has at most `CRTP_MAX_DATA_SIZE` bytes. -/
theorem sendDataPacket_iff (send : SendCall → Int) (data : Bytes) (length : ℕ) (doBlock : Bool)
    (m : StaticPacket) :
    SendsCropped data length doBlock (sendDataPacket send data length doBlock m) ↔
      length ≤ crtpMaxDataSize := by
  constructor
  · intro h
    have hinside := h.inside
    rw [sendDataPacket_copied, Bytes.slice_length] at hinside
    unfold appchannelMtu crtpMaxDataSize at hinside
    unfold crtpMaxDataSize
    omega
  · intro hfits
    have hmin : min length appchannelMtu ≤ crtpMaxDataSize :=
      Nat.le_trans (Nat.min_le_left _ _) hfits
    constructor
    · rwa [sendDataPacket_copied, Bytes.slice_length]
    · rw [sendDataPacket_call]
    · exact sendDataPacket_size send
    · unfold CRTPPacket.Sendable
      rwa [sendDataPacket_size]
    · exact sendDataPacket_payload send hfits
    · rw [sendDataPacket_call]
      exact StaticPacket.address_port _ _ _
    · rw [sendDataPacket_call]
      exact StaticPacket.address_channel _ _ _

/-- A buffer of 31 bytes, the MTU: the last one is copied behind the packet. -/
theorem sendDataPacket_outside :
    ¬ SendsCropped (fun _ => 7) 31 false
      (sendDataPacket (fun _ => 0) (fun _ => 7) 31 false ⟨0, 0, fun _ => 0⟩) := by
  intro h
  have hinside := h.inside
  revert hinside
  decide

end NanoDrone.Crtp
