import NanoDrone.Kve.Kve

/-! # Statistics of the table (`kveGetStats`)

`kveGetStats` follows the table from its first item to the end address that
`kveStorageFindEnd` gave, or to an end tag on the way, and adds up the sizes it sees.  When there
is no end address it compares with `SIZE_MAX`, so only an end tag stops it.  All sums are `size_t`;
a division by zero is `failure`. -/

namespace NanoDrone

/-- `kveStats_t`. -/
structure KveStats where
  totalSize : ℕ
  totalItems : ℕ
  itemSize : ℕ
  keySize : ℕ
  dataSize : ℕ
  metadataSize : ℕ
  holeSize : ℕ
  freeSpace : ℕ
  fragmentation : ℕ
  spaceLeftUntilForcedDefrag : ℕ
deriving DecidableEq, Repr

/-- The sums that the loop of `kveGetStats` keeps. -/
structure StatsSums where
  totalSize : ℕ
  totalItems : ℕ
  holeSize : ℕ
  itemSize : ℕ
  dataSize : ℕ
  keySize : ℕ
  metadataSize : ℕ

namespace StatsSums

def zero : StatsSums := ⟨0, 0, 0, 0, 0, 0, 0⟩

/-- One entry added to the sums. -/
def add (t : StatsSums) (itemInfo : KveItemHeader) : StatsSums :=
  if itemInfo.keyLength = 0 then
    { t with
      totalSize := sizeT (t.totalSize + itemInfo.fullLength)
      holeSize := sizeT (t.holeSize + itemInfo.fullLength) }
  else
    { t with
      totalSize := sizeT (t.totalSize + itemInfo.fullLength)
      itemSize := sizeT (t.itemSize + itemInfo.fullLength)
      totalItems := sizeT (t.totalItems + 1)
      keySize := sizeT (t.keySize + itemInfo.keyLength)
      metadataSize := sizeT (t.metadataSize + sizeofHeader)
      dataSize := sizeT (t.dataSize +
        (itemInfo.fullLength + 2 ^ 32 - itemInfo.keyLength - sizeofHeader)) }

end StatsSums

section
variable {σ : Type} (fuel : ℕ) (kve : KveMemory σ)

def statsLoop (endAddress : ℕ) : ℕ → ℕ → StatsSums → KveM σ StatsSums
  | 0, _, _ => failure
  | fuel + 1, itemAddress, t =>
      if itemAddress < endAddress then do
        let itemInfo ← kveStorageGetItemInfo kve itemAddress
        if itemInfo.fullLength = kveEndTag then pure t
        else statsLoop endAddress fuel (sizeT (itemAddress + itemInfo.fullLength)) (t.add itemInfo)
      else pure t

/-- The fields that are computed from the sums. -/
def statsOf (memorySize : ℕ) (t : StatsSums) : Option KveStats :=
  let freeSpace := sizeT (memorySize + 2 ^ 32 - t.itemSize)
  if freeSpace = 0 then none
  else some
    { totalSize := memorySize
      totalItems := t.totalItems
      itemSize := t.itemSize
      keySize := t.keySize
      dataSize := t.dataSize
      metadataSize := t.metadataSize
      holeSize := t.holeSize
      freeSpace := freeSpace
      fragmentation := sizeT (t.holeSize * 100) / freeSpace
      spaceLeftUntilForcedDefrag := sizeT (memorySize + 2 ^ 32 - t.totalSize) }

def kveGetStats : KveM σ KveStats := do
  let endAddress ← kveStorageFindEnd kve fuel firstItemAddress
  let t ← statsLoop kve endAddress fuel firstItemAddress .zero
  StateT.lift (statsOf kve.memorySize t)

end

/-! ### The size of the items -/

theorem sizeT_le (n : ℕ) : sizeT n ≤ n := Nat.mod_le _ _

/-- An entry adds at most its length to the size of the items. -/
theorem StatsSums.itemSize_add_le (t : StatsSums) (h : KveItemHeader) :
    (t.add h).itemSize ≤ t.itemSize + h.fullLength := by
  unfold StatsSums.add
  split
  · exact Nat.le_add_right _ _
  · exact sizeT_le _

/-- Sums over less than the memory do not divide by zero. -/
theorem statsOf_isSome {memorySize : ℕ} {t : StatsSums} (h : t.itemSize < memorySize)
    (hm : memorySize < 2 ^ 32) : ∃ r, statsOf memorySize t = some r := by
  have hfree : sizeT (memorySize + 2 ^ 32 - t.itemSize) ≠ 0 := by
    unfold sizeT
    omega
  unfold statsOf
  rw [if_neg hfree]
  exact ⟨_, rfl⟩

end NanoDrone
