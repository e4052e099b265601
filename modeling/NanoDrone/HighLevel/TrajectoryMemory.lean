import NanoDrone.Lib.Bytes
import Mathlib.Algebra.Ring.Nat

/-! # The trajectory memory (`crtp_commander_high_level.c`)

Clients upload trajectories to the array `trajectories_memory` and read them back, at any 32-bit
offset that they send.  Addresses are 32 bits wide, so a copy that is not kept inside the array
runs over other variables; `Memory` holds these too.

The two access functions check the sum of offset and length, also in 32 bits.  `accesses_iff` says
that a sum that wraps to a small one is the only way past the check. -/

namespace NanoDrone.HighLevel

/-- The memory, by the distance from the start of `trajectories_memory`. -/
abbrev Memory := UInt32 → UInt8

namespace Memory

/-- `memcpy` to an offset. -/
def copyTo (m : Memory) (offset : UInt32) (data : List UInt8) : Memory :=
  fun i => data.getD (i - offset).toNat (m i)

/-- The bytes that `memcpy` reads from an offset on. -/
def bytesFrom (m : Memory) (offset : UInt32) (n : ℕ) : List UInt8 :=
  (List.range n).map fun i => m (offset + UInt32.ofNat i)

end Memory

/-- `TRAJECTORY_MEMORY_SIZE`. -/
def trajectoryMemorySize : UInt32 := 4096

def crtpCommanderHighLevelWriteTrajectory (offset length : UInt32) (data : Bytes) (m : Memory) :
    Bool × Memory :=
  if offset + length ≤ trajectoryMemorySize then
    (true, m.copyTo offset (data.slice 0 length.toNat))
  else (false, m)

/-- The answer, and `destination` after the call; `memcpy` returns it, which is not `NULL`. -/
def crtpCommanderHighLevelReadTrajectory (offset length : UInt32) (destination : Bytes)
    (m : Memory) : Bool × Bytes :=
  if offset + length ≤ trajectoryMemorySize then
    (true, destination.write 0 (m.bytesFrom offset length.toNat))
  else (false, destination)

def handleMemRead (memAddr : UInt32) (readLen : UInt8) (buffer : Bytes) (m : Memory) :
    Bool × Bytes :=
  crtpCommanderHighLevelReadTrajectory memAddr readLen.toUInt32 buffer m

def handleMemWrite (memAddr : UInt32) (writeLen : UInt8) (buffer : Bytes) (m : Memory) :
    Bool × Memory :=
  crtpCommanderHighLevelWriteTrajectory memAddr writeLen.toUInt32 buffer m

/-! ### What the accesses are for -/

/-- The range lies in the array. -/
def Inside (offset length : UInt32) : Prop :=
  offset.toNat + length.toNat ≤ trajectoryMemorySize.toNat

/-- The sum of offset and length is a small one in 32 bits only. -/
def Wraps (offset length : UInt32) : Prop :=
  2 ^ 32 ≤ offset.toNat + length.toNat ∧
  offset.toNat + length.toNat - 2 ^ 32 ≤ trajectoryMemorySize.toNat

instance (offset length : UInt32) : Decidable (Wraps offset length) :=
  inferInstanceAs (Decidable (_ ∧ _))

/-- A write is done exactly if the range lies in the array; then the bytes of the range are those
of the data and all others are as before, and else all are. -/
structure WritesInside (offset length : UInt32) (data : Bytes) (m : Memory) (r : Bool × Memory) :
    Prop where
  answer : r.1 = true ↔ Inside offset length
  done : r.1 = true → ∀ i, r.2 i =
    if offset.toNat ≤ i.toNat ∧ i.toNat < offset.toNat + length.toNat then
      data (i.toNat - offset.toNat)
    else m i
  refused : r.1 = false → r.2 = m

/-- A read is done exactly if the range lies in the array; then `destination` begins with the bytes
of the range, and else it is as before. -/
structure ReadsInside (offset length : UInt32) (destination : Bytes) (m : Memory)
    (r : Bool × Bytes) : Prop where
  answer : r.1 = true ↔ Inside offset length
  done : r.1 = true → ∀ i, r.2 i =
    if i < length.toNat then m (UInt32.ofNat (offset.toNat + i)) else destination i
  refused : r.1 = false → r.2 = destination

variable {offset length : UInt32}

/-- The check lets through what lies in the array, and what wraps. -/
theorem check_iff : offset + length ≤ trajectoryMemorySize ↔
    Inside offset length ∨ Wraps offset length := by
  have ho := offset.toNat_lt
  have hl := length.toNat_lt
  rw [UInt32.le_iff_toNat_le, UInt32.toNat_add]
  unfold Inside Wraps
  have hsize : trajectoryMemorySize.toNat = 4096 := rfl
  omega

theorem not_inside_of_wraps (h : Wraps offset length) : ¬ Inside offset length := by
  unfold Inside Wraps at *
  have hsize : trajectoryMemorySize.toNat = 4096 := rfl
  omega

/-- Inside the array no address wraps. -/
theorem copyTo_inside (h : Inside offset length) (data : Bytes) (m : Memory) (i : UInt32) :
    m.copyTo offset (data.slice 0 length.toNat) i =
      if offset.toNat ≤ i.toNat ∧ i.toNat < offset.toNat + length.toNat then
        data (i.toNat - offset.toNat)
      else m i := by
  have hi := i.toNat_lt
  have ho := offset.toNat_lt
  have hsub : (i - offset).toNat =
      if offset.toNat ≤ i.toNat then i.toNat - offset.toNat
      else 2 ^ 32 + i.toNat - offset.toNat := by
    rw [UInt32.toNat_sub]
    split <;> omega
  have hsize : trajectoryMemorySize.toNat = 4096 := rfl
  unfold Inside at h
  unfold Memory.copyTo
  rw [List.getD_eq_getElem?_getD]
  by_cases hin : offset.toNat ≤ i.toNat ∧ i.toNat < offset.toNat + length.toNat
  · rw [if_pos hin, hsub, if_pos hin.1, List.getElem?_eq_getElem (by simp; omega)]
    simp
  · rw [if_neg hin, List.getElem?_eq_none]
    · rfl
    · rw [Bytes.slice_length, hsub]
      split <;> omega

theorem bytesFrom_length (m : Memory) (n : ℕ) : (m.bytesFrom offset n).length = n := by
  simp [Memory.bytesFrom]

theorem write_bytesFrom (m : Memory) (destination : Bytes) (n i : ℕ) :
    destination.write 0 (m.bytesFrom offset n) i =
      if i < n then m (UInt32.ofNat (offset.toNat + i)) else destination i := by
  by_cases hi : i < n
  · have hlen : i < (m.bytesFrom offset n).length := by rwa [bytesFrom_length]
    have hin := Bytes.write_inside destination (a := 0) hlen
    rw [Nat.zero_add] at hin
    rw [hin, if_pos hi]
    simp [Memory.bytesFrom]
  · rw [if_neg hi, Bytes.write_outside]
    right
    rw [bytesFrom_length]
    omega

theorem writesInside_iff (offset length : UInt32) (data : Bytes) (m : Memory) :
    WritesInside offset length data m
      (crtpCommanderHighLevelWriteTrajectory offset length data m) ↔ ¬ Wraps offset length := by
  unfold crtpCommanderHighLevelWriteTrajectory
  constructor
  · intro h hwrap
    have hans := h.answer
    rw [if_pos (check_iff.mpr (Or.inr hwrap))] at hans
    exact not_inside_of_wraps hwrap (hans.mp rfl)
  · intro hwrap
    by_cases hin : Inside offset length
    · rw [if_pos (check_iff.mpr (Or.inl hin))]
      exact ⟨iff_of_true rfl hin, fun _ => copyTo_inside hin data m, nofun⟩
    · rw [if_neg (fun hc => (check_iff.mp hc).elim hin hwrap)]
      exact ⟨iff_of_false nofun hin, nofun, fun _ => rfl⟩

theorem readsInside_iff (offset length : UInt32) (destination : Bytes) (m : Memory) :
    ReadsInside offset length destination m
      (crtpCommanderHighLevelReadTrajectory offset length destination m) ↔
        ¬ Wraps offset length := by
  unfold crtpCommanderHighLevelReadTrajectory
  constructor
  · intro h hwrap
    have hans := h.answer
    rw [if_pos (check_iff.mpr (Or.inr hwrap))] at hans
    exact not_inside_of_wraps hwrap (hans.mp rfl)
  · intro hwrap
    by_cases hin : Inside offset length
    · rw [if_pos (check_iff.mpr (Or.inl hin))]
      exact ⟨iff_of_true rfl hin, fun _ => write_bytesFrom m destination length.toNat, nofun⟩
    · rw [if_neg (fun hc => (check_iff.mp hc).elim hin hwrap)]
      exact ⟨iff_of_false nofun hin, nofun, fun _ => rfl⟩

/-- **Accesses to the trajectory memory.**  Writes and reads stay in the array and do what they
say, directly and through the handlers of the memory module, if and only if the sum of offset and
length does not wrap to a small one. -/
theorem accesses_iff (offset length : UInt32) (data destination : Bytes) (m : Memory) :
    (WritesInside offset length data m
      (crtpCommanderHighLevelWriteTrajectory offset length data m) ↔ ¬ Wraps offset length) ∧
    (ReadsInside offset length destination m
      (crtpCommanderHighLevelReadTrajectory offset length destination m) ↔
        ¬ Wraps offset length) ∧
    ∀ len : UInt8,
      (WritesInside offset len.toUInt32 data m (handleMemWrite offset len data m) ↔
        ¬ Wraps offset len.toUInt32) ∧
      (ReadsInside offset len.toUInt32 destination m (handleMemRead offset len destination m) ↔
        ¬ Wraps offset len.toUInt32) :=
  ⟨writesInside_iff offset length data m, readsInside_iff offset length destination m,
    fun len => ⟨writesInside_iff offset len.toUInt32 data m,
      readsInside_iff offset len.toUInt32 destination m⟩⟩

/-- An upload of one byte to the last offset is done, just before the array. -/
theorem writes_before_array :
    let r := handleMemWrite 0xFFFFFFFF 1 (fun _ => 1) (fun _ => 0)
    r.1 = true ∧ r.2 0xFFFFFFFF = 1 ∧
    ¬ WritesInside 0xFFFFFFFF 1 (fun _ => 1) (fun _ => 0)
      (crtpCommanderHighLevelWriteTrajectory 0xFFFFFFFF 1 (fun _ => 1) (fun _ => 0)) := by
  refine ⟨rfl, rfl, ?_⟩
  rw [writesInside_iff]
  decide

end NanoDrone.HighLevel
