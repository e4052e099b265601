import NanoDrone.Eeprom.ConfigBlock
import Mathlib.Algebra.BigOperators.Group.List.Basic
import Mathlib.Data.UInt

/-! # A damaged configuration block

The checksum of a block is a sum of bytes, so it shows every change of one byte, but only to a
reader of the layout that it was made for.  Another version byte lets another layout be read: the
change from version 1 to version 0 makes byte 15, part of the radio address, the checksum of the
bytes before it.  `damaged_block` says that this is the only change of one byte that can go
through. -/

namespace NanoDrone.Configblock

/-! ### The checksum -/

/-- The checksum follows each byte that it covers. -/
theorem calculateCksum_set {b : List UInt8} {i n : ℕ} (hi : i < n) (hb : i < b.length) (x : UInt8) :
    calculateCksum (b.set i x) n = calculateCksum b n + (x - byteAt b i) := by
  have htake : i < (b.take n).length := by
    rw [List.length_take]
    omega
  unfold calculateCksum byteAt
  rw [← List.sum_eq_foldl, ← List.sum_eq_foldl, List.take_set, List.sum_set', dif_pos htake,
    List.getElem_take, List.getD_eq_getElem?_getD, List.getElem?_eq_getElem hb, Option.getD_some,
    neg_add_eq_sub]

theorem calculateCksum_set_of_le {b : List UInt8} {i n : ℕ} (hi : n ≤ i) (x : UInt8) :
    calculateCksum (b.set i x) n = calculateCksum b n := by
  unfold calculateCksum
  rw [List.take_set_of_le hi]

theorem calculateCksum_set_ne {b : List UInt8} {i n : ℕ} (hi : i < n) (hb : i < b.length)
    {x : UInt8} (hx : x ≠ byteAt b i) : calculateCksum (b.set i x) n ≠ calculateCksum b n := by
  rw [calculateCksum_set hi hb]
  intro heq
  exact hx (sub_eq_zero.mp (add_eq_left.mp heq))

theorem byteAt_set {b : List UInt8} {i : ℕ} (hb : i < b.length) (x : UInt8) (k : ℕ) :
    byteAt (b.set i x) k = if k = i then x else byteAt b k := by
  unfold byteAt
  rw [List.getD_eq_getElem?_getD, List.getD_eq_getElem?_getD, List.getElem?_set]
  by_cases hk : i = k
  · rw [if_pos hk, if_pos hk.symm, if_pos hb]
    rfl
  · rw [if_neg hk, if_neg (fun he => hk he.symm)]

/-! ### The checks of a changed block -/

section
variable {b : List UInt8} {i : ℕ} {x : UInt8} (hb : b.length = sizeofConfigblock)
  (hi : i < sizeofConfigblock) (hx : x ≠ byteAt b i)
include hb hi hx

/-- A byte of the magic. -/
theorem checkMagic_set (hmagic : configblockCheckMagic b = true) :
    configblockCheckMagic (b.set i x) = true ↔ 4 ≤ i := by
  have hib : i < b.length := by omega
  have hne : x.toNat ≠ (byteAt b i).toNat := fun he => hx (UInt8.toNat_inj.mp he)
  have hxlt := x.toNat_lt
  have h0 := (byteAt b 0).toNat_lt
  have h1 := (byteAt b 1).toNat_lt
  have h2 := (byteAt b 2).toNat_lt
  have h3 := (byteAt b 3).toNat_lt
  unfold configblockCheckMagic wordAt at hmagic ⊢
  simp only [decide_eq_true_eq, Nat.zero_add] at hmagic ⊢
  rw [byteAt_set hib, byteAt_set hib, byteAt_set hib, byteAt_set hib, ← hmagic]
  by_cases h4 : 4 ≤ i
  · rw [if_neg (by omega), if_neg (by omega), if_neg (by omega), if_neg (by omega)]
    exact iff_of_true rfl h4
  · refine iff_of_false (fun heq => ?_) h4
    obtain rfl | rfl | rfl | rfl : i = 0 ∨ i = 1 ∨ i = 2 ∨ i = 3 := by omega
    all_goals
      simp only [↓reduceIte, OfNat.ofNat_ne_zero, OfNat.ofNat_ne_one, OfNat.zero_ne_ofNat,
        OfNat.one_ne_ofNat, Nat.reduceEqDiff, zero_ne_one, one_ne_zero] at heq
      omega

/-- The changed block is not one of version 1. -/
theorem not_goodBlock_set (hgood : GoodBlock b) : ¬ GoodBlock (b.set i x) := by
  have hib : i < b.length := by omega
  obtain ⟨hmagic, hversion, hsum⟩ := hgood
  rintro ⟨hmagic', hversion', hsum'⟩
  unfold configblockCheckChecksum sizeofConfigblock at hsum hsum'
  rw [decide_eq_true_eq] at hsum hsum'
  rw [byteAt_set hib] at hsum'
  by_cases hlast : i < 21 - 1
  · rw [if_neg (by omega), hsum] at hsum'
    exact calculateCksum_set_ne hlast hib hx hsum'.symm
  · obtain rfl : 21 - 1 = i := by
      unfold sizeofConfigblock at hi
      omega
    rw [if_pos rfl, calculateCksum_set_of_le (Nat.le_refl _), ← hsum] at hsum'
    exact hx hsum'

/-- It is one of version 0 only if the change is that of the version, and byte 15 fits. -/
theorem goodOldBlock_set_iff (hgood : GoodBlock b) : GoodOldBlock (b.set i x) ↔
    i = 4 ∧ x = 0 ∧ byteAt b 15 = calculateCksum (b.set 4 0) 15 := by
  have hib : i < b.length := by omega
  obtain ⟨hmagic, hversion, -⟩ := hgood
  have hone : (byteAt b 4).toNat = 1 := of_decide_eq_true hversion
  have hold : ∀ c : List UInt8, configblockCheckDataIntegrity c 0 = true ↔
      byteAt c 15 = calculateCksum c 15 := fun c => decide_eq_true_iff
  unfold GoodOldBlock
  rw [checkMagic_set hb hi hx hmagic, hold, byteAt_set hib, byteAt_set hib]
  constructor
  · rintro ⟨-, hzero, hsum⟩
    have hfour : 4 = i := by
      by_contra hne
      rw [if_neg hne, hone] at hzero
      cases hzero
    subst hfour
    rw [if_pos rfl] at hzero
    obtain rfl : x = 0 := UInt8.toNat_inj.mp hzero
    exact ⟨rfl, rfl, hsum⟩
  · rintro ⟨rfl, rfl, hsum⟩
    exact ⟨Nat.le_refl _, rfl, hsum⟩

end

/-! ### `configblockInit` on a damaged block -/

/-- The memory with one byte of the block changed. -/
theorem slice_update (m : Bytes) {i : ℕ} (x : UInt8) :
    Bytes.slice (Function.update m i x) 0 sizeofConfigblock =
      (m.slice 0 sizeofConfigblock).set i x := by
  apply List.ext_getElem (by simp)
  intro k hk hk'
  rw [Bytes.getElem_slice, List.getElem_set, Bytes.getElem_slice, Nat.zero_add]
  by_cases hik : i = k
  · rw [if_pos hik, hik, Function.update_self]
  · rw [if_neg hik, Function.update_of_ne (fun he => hik he.symm)]

theorem byteAt_slice (m : Bytes) {k : ℕ} (hk : k < sizeofConfigblock) :
    byteAt (m.slice 0 sizeofConfigblock) k = m k := by
  have hlen : k < (m.slice 0 sizeofConfigblock).length := by rwa [Bytes.slice_length]
  unfold byteAt
  rw [List.getD_eq_getElem?_getD, List.getElem?_eq_getElem hlen, Bytes.getElem_slice, Nat.zero_add]
  rfl

/-- The change of a byte of the block in `m` makes it one of version 0. -/
def BecomesOld (m : Bytes) (i : ℕ) (x : UInt8) : Prop :=
  i = 4 ∧ x = 0 ∧
    m 15 = calculateCksum (Bytes.slice (Function.update m 4 0) 0 sizeofConfigblock) 15

instance (m : Bytes) (i : ℕ) (x : UInt8) : Decidable (BecomesOld m i x) :=
  inferInstanceAs (Decidable (_ ∧ _ ∧ _))

/-- **A damaged block.**  When one byte of a good block has changed, `configblockInit` restores the
default block, unless it is the version byte that has changed to 0 and byte 15 is the checksum of
version 0; then the block is upgraded like one of version 0. -/
theorem damaged_block {σ : Type} {drv : EepromDriver σ} (A : BlockAccess drv) (datarate : UInt8)
    {m : Bytes} (hgood : GoodBlock (m.slice 0 sizeofConfigblock)) {i : ℕ}
    (hi : i < sizeofConfigblock) {x : UInt8} (hx : x ≠ m i) {e : σ}
    (he : A.mem e = Function.update m i x) :
    (¬ BecomesOld m i x →
      InitLeaves A datarate e ((A.mem e).write 0 (setCksum (configblockDefault datarate)))) ∧
    (BecomesOld m i x →
      InitLeaves A datarate e ((A.mem e).write 0 (setCksum (copyBytes
        (configblockDefault datarate) ((A.mem e).slice 0 sizeofConfigblock) 5 10)))) := by
  have hlen := Bytes.slice_length m 0 sizeofConfigblock
  have hchanged : (A.mem e).slice 0 sizeofConfigblock = (m.slice 0 sizeofConfigblock).set i x := by
    rw [he]
    exact slice_update m x
  have hx' : x ≠ byteAt (m.slice 0 sizeofConfigblock) i := by rwa [byteAt_slice m hi]
  have hold : GoodOldBlock ((A.mem e).slice 0 sizeofConfigblock) ↔ BecomesOld m i x := by
    rw [hchanged, goodOldBlock_set_iff hlen hi hx' hgood, byteAt_slice m (by decide), BecomesOld,
      ← slice_update]
  constructor
  · intro hnot
    refine initLeaves_default A datarate ?_ fun h => hnot (hold.mp h)
    rw [hchanged]
    exact not_goodBlock_set hlen hi hx' hgood
  · intro hbecomes
    exact initLeaves_old A datarate (hold.mpr hbecomes)

/-- A block with channel 80, datarate 2, a pitch of 2.625 and the default address. -/
def storedBlock : Bytes := fun i =>
  (setCksum (wordBytes magic ++ [1, 80, 2] ++ wordBytes 0x40280000 ++ wordBytes 0 ++
    [0xE7, 0xE7, 0xE7, 0xE7, 0xE7, 0])).getD i 0

/-- The driver before `eepromInit`, with a byte of this block changed. -/
def storedDamaged (i : ℕ) (x : UInt8) : EepromState Bytes :=
  ⟨false, 0, Function.update storedBlock i x, false, 0⟩

/-- The channel changes to 81. -/
theorem damaged_block_small : (¬ BecomesOld storedBlock 5 81 →
      InitLeaves reliableAccess 2 (storedDamaged 5 81)
        ((storedDamaged 5 81).bus.write 0 (setCksum (configblockDefault 2)))) ∧
    (BecomesOld storedBlock 5 81 → InitLeaves reliableAccess 2 (storedDamaged 5 81)
      ((storedDamaged 5 81).bus.write 0 (setCksum (copyBytes (configblockDefault 2)
        ((storedDamaged 5 81).bus.slice 0 sizeofConfigblock) 5 10)))) :=
  damaged_block reliableAccess 2 (m := storedBlock) ⟨by decide, by decide, by decide⟩ (by decide)
    (by decide) rfl

/-- The version changes to 0, and the pitch of the damaged block is kept. -/
theorem damaged_block_accepted : GoodBlock (storedBlock.slice 0 sizeofConfigblock) ∧
    ¬ InitLeaves reliableAccess 2 (storedDamaged 4 0)
      ((storedDamaged 4 0).bus.write 0 (setCksum (configblockDefault 2))) := by
  refine ⟨⟨by decide, by decide, by decide⟩, fun h => ?_⟩
  have hmem := congrFun h.getters.2.1 9
  exact absurd hmem (by decide +kernel)

end NanoDrone.Configblock
