import NanoDrone.Lib.Bytes
import NanoDrone.Lib.Returns
import Mathlib.Algebra.Ring.Nat

/-! # Low level storage functions of the key-value memory (`kve_storage.c`)

The table is a chain of entries that starts at address 1.  Every entry begins with a packed
three byte header (`full_length` in two bytes, little endian, then `key_length`); an entry with
`key_length = 0` is a hole, and a `full_length` of `0xffff` is the end tag.

The functions reach the memory only through `kveMemory_t`.  Its `read` fills the start of a
buffer and its `write` takes bytes from one; both return a count that no function of this file
or of `kve.c` looks at, so a `KveMemory` gives the bytes that were transferred.  A read that
transfers nothing leaves the buffer as it was: the static buffers and the stack slot of an
uninitialised local are therefore part of the state (`KveState`).

Every scan advances by a length field it has just read, and with a zero length it stays where
it is.  The loops take a `fuel`; running out of it is `failure`, so a result with any fuel is a
result of the C loop.  The memory size is between 16 and 65535, which keeps `memorySize - 3`
and the addresses of the scans inside `size_t`; sums that a caller's `length` enters are
reduced (`sizeT`). -/

namespace NanoDrone

/-- `size_t` of the 32-bit target. -/
def sizeT (n : ℕ) : ℕ := n % 2 ^ 32

/-- `SIZE_MAX`, the invalid address (`KVE_STORAGE_INVALID_ADDRESS`). -/
def sizeMax : ℕ := 2 ^ 32 - 1

/-- `KVE_END_TAG`. -/
def kveEndTag : ℕ := 0xffff

/-- `KVE_END_TAG_LENDTH`. -/
def kveEndTagLendth : ℕ := 2

/-- `sizeof(kveItemHeader_t)`. -/
def sizeofHeader : ℕ := 3

/-- `kveMemory_t` over a device with state `σ`. -/
structure KveMemory (σ : Type) where
  memorySize : ℕ
  read : ℕ → ℕ → σ → List UInt8 × σ
  write : ℕ → List UInt8 → σ → σ
  flush : σ → σ
  size_ge : 16 ≤ memorySize
  size_le : memorySize ≤ 65535

/-- The device, the static buffers of `kve_storage.c` and what an uninitialised local holds. -/
structure KveState (σ : Type) where
  dev : σ
  searchBuffer : Bytes
  moveBuffer : Bytes
  stack : Bytes

abbrev KveM (σ : Type) := StateT (KveState σ) Option

/-- `kveItemHeader_t`. -/
structure KveItemHeader where
  fullLength : ℕ
  keyLength : ℕ
deriving DecidableEq, Repr

namespace KveItemHeader

/-- The packed header at the start of a buffer. -/
def ofBuffer (b : Bytes) : KveItemHeader := ⟨(b 0).toNat + 256 * (b 1).toNat, (b 2).toNat⟩

/-- The packed header as bytes; a field wider than its C type is truncated. -/
def toBytes (h : KveItemHeader) : List UInt8 :=
  [UInt8.ofNat h.fullLength, UInt8.ofNat (h.fullLength / 256), UInt8.ofNat h.keyLength]

end KveItemHeader

section
variable {σ : Type} (kve : KveMemory σ)

/-- `kve->read(address, buffer, length)`: the buffer after the call. -/
def kveRead (address : ℕ) (buffer : Bytes) (length : ℕ) : KveM σ Bytes := fun s =>
  let r := kve.read address length s.dev
  some (buffer.write 0 r.1, { s with dev := r.2 })

/-- `kve->write(address, data, length)`. -/
def kveWrite (address : ℕ) (data : List UInt8) : KveM σ Unit := fun s =>
  some ((), { s with dev := kve.write address data s.dev })

/-- `kve->flush()`. -/
def kveFlush : KveM σ Unit := fun s => some ((), { s with dev := kve.flush s.dev })

/-- `kve->read` into the static `searchBuffer`. -/
def readSearchBuffer (address length : ℕ) : KveM σ Bytes := do
  let s ← get
  let buffer ← kveRead kve address s.searchBuffer length
  modify (fun s => { s with searchBuffer := buffer })
  pure buffer

/-- `kve->read` into the static `moveBuffer`. -/
def readMoveBuffer (address length : ℕ) : KveM σ Bytes := do
  let s ← get
  let buffer ← kveRead kve address s.moveBuffer length
  modify (fun s => { s with moveBuffer := buffer })
  pure buffer

/-- A local variable that is not initialised. -/
def uninitialised : KveM σ Bytes := do
  let s ← get
  pure s.stack

def kveStorageWriteItem (address : ℕ) (key buffer : List UInt8) : KveM σ ℕ := do
  let keyLength := key.length % 256
  let fullLength := (2 + 1 + keyLength + buffer.length) % 65536
  kveWrite kve address (KveItemHeader.toBytes ⟨fullLength, keyLength⟩)
  kveWrite kve (address + sizeofHeader) (key.take keyLength)
  kveWrite kve (address + sizeofHeader + keyLength) buffer
  kveFlush kve
  pure fullLength

def kveStorageWriteHole (address fullLength : ℕ) : KveM σ ℕ := do
  kveWrite kve address (KveItemHeader.toBytes ⟨fullLength % 65536, 0⟩)
  kveFlush kve
  pure (fullLength % 65536)

def kveStorageWriteEnd (address : ℕ) : KveM σ ℕ := do
  kveWrite kve address [0xff, 0xff]
  kveFlush kve
  pure 2

/-- The loop of `kveStorageMoveMemory`; every round moves at least one byte, so the length is
fuel enough. -/
def moveMemoryLoop : ℕ → ℕ → ℕ → ℕ → KveM σ Unit
  | 0, _, _, leftToMove => if 0 < leftToMove then failure else pure ()
  | fuel + 1, sourceAddress, destinationAddress, leftToMove =>
      if 0 < leftToMove then do
        let moving := min leftToMove 32
        let buffer ← readMoveBuffer kve sourceAddress moving
        kveWrite kve destinationAddress (buffer.slice 0 moving)
        moveMemoryLoop fuel (sourceAddress + moving) (destinationAddress + moving)
          (leftToMove - moving)
      else pure ()

def kveStorageMoveMemory (sourceAddress destinationAddress length : ℕ) : KveM σ Unit := do
  moveMemoryLoop kve length sourceAddress destinationAddress length
  kveFlush kve

def findItemByKeyLoop (key : List UInt8) : ℕ → ℕ → KveM σ ℕ
  | 0, _ => failure
  | fuel + 1, currentAddress =>
      if currentAddress < kve.memorySize - 3 then do
        let buffer ← readSearchBuffer kve currentAddress 3
        let header := KveItemHeader.ofBuffer buffer
        let searchedKeyLength := key.length % 256
        if header.fullLength = kveEndTag then pure sizeMax
        else if header.keyLength = searchedKeyLength then do
          let buffer ← readSearchBuffer kve (currentAddress + 3) searchedKeyLength
          if key.take header.keyLength = buffer.slice 0 header.keyLength then pure currentAddress
          else findItemByKeyLoop key fuel (currentAddress + header.fullLength)
        else findItemByKeyLoop key fuel (currentAddress + header.fullLength)
      else pure sizeMax

def kveStorageFindItemByKey (fuel address : ℕ) (key : List UInt8) : KveM σ ℕ :=
  findItemByKeyLoop kve key fuel address

def findEndLoop : ℕ → ℕ → Bytes → KveM σ ℕ
  | 0, _, _ => failure
  | fuel + 1, currentAddress, header =>
      if currentAddress < kve.memorySize - 2 then do
        let header ← kveRead kve currentAddress header sizeofHeader
        let h := KveItemHeader.ofBuffer header
        if h.fullLength = kveEndTag then pure currentAddress
        -- An item must at least have a key of len>=1
        else if h.fullLength < sizeofHeader + 1 then pure sizeMax
        else findEndLoop fuel (currentAddress + h.fullLength) header
      else pure sizeMax

def kveStorageFindEnd (fuel address : ℕ) : KveM σ ℕ := do
  let header ← uninitialised
  findEndLoop kve fuel address header

/-- The end tag is not tested here: a stale zero after it makes it look like a hole. -/
def findHoleLoop : ℕ → ℕ → Bytes → KveM σ ℕ
  | 0, _, _ => failure
  | fuel + 1, currentAddress, header =>
      if currentAddress < kve.memorySize - 2 then do
        let header ← kveRead kve currentAddress header sizeofHeader
        let h := KveItemHeader.ofBuffer header
        if h.keyLength = 0 then pure currentAddress
        else findHoleLoop fuel (currentAddress + h.fullLength) header
      else pure sizeMax

def kveStorageFindHole (fuel address : ℕ) : KveM σ ℕ := do
  let header ← uninitialised
  findHoleLoop kve fuel address header

def findNextItemLoop : ℕ → ℕ → Bytes → KveM σ ℕ
  | 0, _, _ => failure
  | fuel + 1, currentAddress, header =>
      if currentAddress < kve.memorySize - 3 then do
        let header ← kveRead kve currentAddress header sizeofHeader
        let h := KveItemHeader.ofBuffer header
        if h.fullLength = kveEndTag then pure sizeMax
        else if h.keyLength ≠ 0 then pure currentAddress
        else findNextItemLoop fuel (currentAddress + h.fullLength) header
      else pure sizeMax

def kveStorageFindNextItem (fuel address : ℕ) : KveM σ ℕ := do
  let header ← uninitialised
  let header ← kveRead kve address header sizeofHeader
  let h := KveItemHeader.ofBuffer header
  if h.fullLength = kveEndTag then pure sizeMax
  else findNextItemLoop kve fuel (address + h.fullLength) header

def kveStorageGetItemInfo (address : ℕ) : KveM σ KveItemHeader := do
  let header ← uninitialised
  let header ← kveRead kve address header sizeofHeader
  pure (KveItemHeader.ofBuffer header)

/-- `header.full_length - sizeof(header) - header.key_length` in `size_t`: an item shorter than
its own key wraps around. -/
def kveStorageGetBufferLength (header : KveItemHeader) : ℕ :=
  sizeT (header.fullLength + 2 ^ 32 - sizeofHeader - header.keyLength)

/-- The bytes go to the start of `buffer`; the result is their number and the buffer. -/
def kveStorageGetBuffer (address : ℕ) (header : KveItemHeader) (buffer : Bytes)
    (maxLength : ℕ) : KveM σ (ℕ × Bytes) := do
  let sizeToRead := min (kveStorageGetBufferLength header) maxLength
  let buffer ← kveRead kve (address + sizeofHeader + header.keyLength) buffer sizeToRead
  pure (sizeToRead, buffer)

end

end NanoDrone
