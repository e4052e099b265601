import NanoDrone.Kve.KveStorage

/-! # The key-value memory (`kve.c`)

`kveStore`, `kveFetch`, `kveDelete`, `kveDefrag`, `kveFormat` and `kveCheck` over the scans of
`KveStorage.lean`.  A key is the list of its bytes before the terminating NUL, so `strlen(key)`
is its length; a buffer that is stored is the list of the bytes passed. -/

namespace NanoDrone

/-- `VERSION_ADDRESS`. -/
def versionAddress : ℕ := 0

/-- `FIRST_ITEM_ADDRESS`. -/
def firstItemAddress : ℕ := 1

/-- `KVE_VERSION`. -/
def kveVersion : UInt8 := 1

section
variable {σ : Type} (fuel : ℕ) (kve : KveMemory σ)

/-- The hole behind a group of items, or the end of the table behind the last group. -/
def nextHoleOrEnd (itemAddress : ℕ) : KveM σ ℕ := do
  let nextHoleAddress ← kveStorageFindHole kve fuel itemAddress
  -- If there is the end after this group of item, lets copy up to the end
  if nextHoleAddress = sizeMax then kveStorageFindEnd kve fuel itemAddress
  else pure nextHoleAddress

def defragLoop : ℕ → ℕ → KveM σ Unit
  | 0, _ => failure
  | rounds + 1, holeAddress =>
      if holeAddress ≠ sizeMax then do
        let itemAddress ← kveStorageFindNextItem kve fuel holeAddress
        if itemAddress = sizeMax then do
          -- This hole is at the end, lets crop it
          let _ ← kveStorageWriteEnd kve holeAddress
        else do
          let nextHoleAddress ← nextHoleOrEnd fuel kve itemAddress
          let lenghtToMove := sizeT (nextHoleAddress + 2 ^ 32 - itemAddress)
          kveStorageMoveMemory kve itemAddress holeAddress lenghtToMove
          let _ ← kveStorageWriteHole kve (holeAddress + lenghtToMove) (itemAddress - holeAddress)
          defragLoop rounds (holeAddress + lenghtToMove)
      else pure ()

def kveDefrag : KveM σ Unit := do
  let holeAddress ← kveStorageFindHole kve fuel firstItemAddress
  defragLoop fuel kve fuel holeAddress

/-- The test that there is enough space to write the item at `itemAddress`. -/
def enoughSpace (itemAddress : ℕ) (key buffer : List UInt8) : Bool :=
  decide (sizeT (itemAddress + sizeofHeader + key.length + buffer.length + kveEndTagLendth)
    < kve.memorySize)

/-- Writes the item and the end tag after it. -/
def writeItemAndEnd (itemAddress : ℕ) (key buffer : List UInt8) : KveM σ Unit := do
  let length ← kveStorageWriteItem kve itemAddress key buffer
  let _ ← kveStorageWriteEnd kve (itemAddress + length)

def appendItemToEnd (address : ℕ) (key buffer : List UInt8) : KveM σ Bool := do
  let itemAddress ← kveStorageFindEnd kve fuel address
  -- If it is over the end of the memory, table corrupted
  if itemAddress = sizeMax then pure false
  else if enoughSpace kve itemAddress key buffer then do
    writeItemAndEnd kve itemAddress key buffer
    pure true
  else do
    -- Otherwise, defrag and try to insert again!
    kveDefrag fuel kve
    let itemAddress ← kveStorageFindEnd kve fuel firstItemAddress
    if enoughSpace kve itemAddress key buffer then do
      writeItemAndEnd kve itemAddress key buffer
      pure true
    else pure false

def kveStore (key buffer : List UInt8) : KveM σ Bool := do
  let itemAddress ← kveStorageFindItemByKey kve fuel firstItemAddress key
  if itemAddress = sizeMax then
    -- Item does not exit, find the end of the table to insert it
    appendItemToEnd fuel kve firstItemAddress key buffer
  else do
    let currentItem ← kveStorageGetItemInfo kve itemAddress
    let newLength := (buffer.length + 3 + key.length) % 65536
    if currentItem.fullLength ≠ newLength then do
      -- If not, delete the item and find the end of the table
      let _ ← kveStorageWriteHole kve itemAddress currentItem.fullLength
      appendItemToEnd fuel kve firstItemAddress key buffer
    else do
      let _ ← kveStorageWriteItem kve itemAddress key buffer
      pure true

/-- The number of bytes copied and the caller's buffer after the call. -/
def kveFetch (key : List UInt8) (buffer : Bytes) (bufferLength : ℕ) : KveM σ (ℕ × Bytes) := do
  let itemAddress ← kveStorageFindItemByKey kve fuel firstItemAddress key
  if itemAddress ≠ sizeMax then do
    let header ← kveStorageGetItemInfo kve itemAddress
    let storeSize := sizeT (header.fullLength + 2 ^ 32 - header.keyLength - sizeofHeader)
    kveStorageGetBuffer kve itemAddress header buffer (min storeSize bufferLength)
  else pure (0, buffer)

def kveDelete (key : List UInt8) : KveM σ Bool := do
  let itemAddress ← kveStorageFindItemByKey kve fuel firstItemAddress key
  if itemAddress ≠ sizeMax then do
    let itemInfo ← kveStorageGetItemInfo kve itemAddress
    let _ ← kveStorageWriteHole kve itemAddress itemInfo.fullLength
    pure true
  else pure false

def kveFormat : KveM σ Unit := do
  kveWrite kve versionAddress [kveVersion]
  let _ ← kveStorageWriteEnd kve firstItemAddress

def kveCheck : KveM σ Bool := do
  let version ← uninitialised
  let version ← kveRead kve versionAddress version 1
  if version 0 ≠ kveVersion then pure false
  else do
    let endAddress ← kveStorageFindEnd kve fuel firstItemAddress
    pure (decide (endAddress ≠ sizeMax))

end

end NanoDrone
