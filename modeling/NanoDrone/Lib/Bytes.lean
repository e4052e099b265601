import Mathlib.Data.List.Basic
import Mathlib.Data.Nat.Notation
import Mathlib.Tactic.Common

/-! # Byte arrays addressed by naturals

A memory, a RAM buffer or a device's contents is a total function `Bytes := ℕ → UInt8`; a
bound on its size is stated where an access is made.  Two operations act on it:

* `m.slice a n` is the list of the `n` bytes from address `a` on;
* `m.write a data` puts the list `data` at `a` and leaves every other byte alone.

`Stored m a data` says that `data` lies at `a`.  It splits along `++` (`stored_append`), holds
of what was just written (`stored_write`) and survives a write elsewhere (`Stored.frame`).
These three facts are all that a proof about a structure laid out in memory needs; none of
them mentions the structure. -/

namespace NanoDrone

/-- Contents of a byte-addressed memory. -/
abbrev Bytes := ℕ → UInt8

namespace Bytes

/-- The `n` bytes from address `a` on. -/
def slice (m : Bytes) (a n : ℕ) : List UInt8 := (List.range n).map (fun i => m (a + i))

/-- The memory with `data` written at address `a`. -/
def write (m : Bytes) (a : ℕ) (data : List UInt8) : Bytes :=
  fun i => if a ≤ i then data.getD (i - a) (m i) else m i

@[simp] theorem slice_length (m : Bytes) (a n : ℕ) : (m.slice a n).length = n := by simp [slice]

@[simp] theorem slice_zero (m : Bytes) (a : ℕ) : m.slice a 0 = [] := rfl

@[simp] theorem getElem_slice (m : Bytes) (a n i : ℕ) (h : i < (m.slice a n).length) :
    (m.slice a n)[i] = m (a + i) := by simp [slice]

theorem slice_append (m : Bytes) (a n k : ℕ) :
    m.slice a (n + k) = m.slice a n ++ m.slice (a + n) k := by
  simp only [slice, List.range_add, List.map_append, List.map_map]
  congr 1
  apply List.map_congr_left
  intro i _
  simp [Nat.add_assoc]

theorem take_slice (m : Bytes) (a n k : ℕ) : (m.slice a n).take k = m.slice a (min k n) := by
  simp [slice, ← List.map_take, List.take_range]

theorem slice_congr {m m' : Bytes} {a n : ℕ} (h : ∀ i, a ≤ i → i < a + n → m i = m' i) :
    m.slice a n = m'.slice a n := by
  apply List.map_congr_left
  intro i hi
  have := List.mem_range.mp hi
  exact h _ (by omega) (by omega)

theorem write_inside (m : Bytes) {a i : ℕ} {data : List UInt8} (hi : i < data.length) :
    m.write a data (a + i) = data[i] := by
  simp [write, hi]

theorem write_outside (m : Bytes) {a i : ℕ} {data : List UInt8}
    (h : i < a ∨ a + data.length ≤ i) : m.write a data i = m i := by
  rcases h with h | h
  · simp [write, Nat.not_le.mpr h]
  · have : data.length ≤ i - a := by omega
    simp [write, this]

@[simp] theorem write_nil (m : Bytes) (a : ℕ) : m.write a [] = m := by
  funext i
  simp [write]

/-- Two writes one after the other in memory are one write of the concatenation. -/
theorem write_append (m : Bytes) (a : ℕ) (xs ys : List UInt8) :
    (m.write a xs).write (a + xs.length) ys = m.write a (xs ++ ys) := by
  funext i
  by_cases h1 : i < a
  · rw [write_outside _ (by omega), write_outside _ (by omega), write_outside _ (by omega)]
  · obtain ⟨j, rfl⟩ : ∃ j, i = a + j := ⟨i - a, by omega⟩
    by_cases h2 : j < xs.length
    · rw [write_outside _ (by omega), write_inside _ h2, write_inside _ (by simp; omega)]
      simp [h2]
    · obtain ⟨k, rfl⟩ : ∃ k, j = xs.length + k := ⟨j - xs.length, by omega⟩
      by_cases h3 : k < ys.length
      · rw [← Nat.add_assoc, write_inside _ h3, Nat.add_assoc, write_inside _ (by simp; omega)]
        simp
      · rw [write_outside _ (by omega), write_outside _ (by omega),
          write_outside _ (by simp only [List.length_append]; omega)]

theorem slice_write_of_disjoint (m : Bytes) {a b n : ℕ} {data : List UInt8}
    (h : b + n ≤ a ∨ a + data.length ≤ b) : (m.write a data).slice b n = m.slice b n := by
  apply slice_congr
  intro i h1 h2
  exact write_outside _ (by omega)

@[simp] theorem slice_write_self (m : Bytes) (a : ℕ) (data : List UInt8) :
    (m.write a data).slice a data.length = data := by
  apply List.ext_getElem (by simp)
  intro i h1 h2
  rw [getElem_slice, write_inside _ h2]

/-- Reading a prefix of what was written. -/
theorem slice_write_take (m : Bytes) (a n : ℕ) (data : List UInt8) (h : n ≤ data.length) :
    (m.write a data).slice a n = data.take n := by
  have := take_slice (m.write a data) a data.length n
  rw [slice_write_self, Nat.min_eq_left h] at this
  exact this.symm

/-- Writing back what is already there changes nothing. -/
theorem write_slice_self (m : Bytes) (a n : ℕ) : m.write a (m.slice a n) = m := by
  funext i
  by_cases h : i < a ∨ a + n ≤ i
  · exact write_outside _ (by simpa using h)
  · obtain ⟨j, rfl⟩ : ∃ j, i = a + j := ⟨i - a, by omega⟩
    rw [write_inside _ (by simp; omega), getElem_slice]

end Bytes

/-! ### Data lying at an address -/

/-- The bytes `data` lie at address `a`. -/
def Stored (m : Bytes) (a : ℕ) (data : List UInt8) : Prop := m.slice a data.length = data

theorem stored_append {m : Bytes} {a : ℕ} {xs ys : List UInt8} :
    Stored m a (xs ++ ys) ↔ Stored m a xs ∧ Stored m (a + xs.length) ys := by
  unfold Stored
  rw [List.length_append, Bytes.slice_append]
  constructor
  · intro h
    exact List.append_inj h (by simp)
  · rintro ⟨h1, h2⟩
    rw [h1, h2]

theorem Stored.get {m : Bytes} {a i : ℕ} {data : List UInt8} (h : Stored m a data)
    (hi : i < data.length) : m (a + i) = data[i] := by
  unfold Stored at h
  rw [List.getElem_of_eq h.symm hi, Bytes.getElem_slice]

theorem Stored.congr {m m' : Bytes} {a : ℕ} {data : List UInt8} (h : Stored m a data)
    (he : ∀ i, a ≤ i → i < a + data.length → m' i = m i) : Stored m' a data := by
  unfold Stored at h ⊢
  rw [Bytes.slice_congr he, h]

/-- What was written is stored. -/
theorem stored_write (m : Bytes) (a : ℕ) (data : List UInt8) : Stored (m.write a data) a data :=
  Bytes.slice_write_self m a data

/-- A write elsewhere leaves stored data alone. -/
theorem Stored.frame {m : Bytes} {a b : ℕ} {data new : List UInt8} (h : Stored m a data)
    (hd : a + data.length ≤ b ∨ b + new.length ≤ a) : Stored (m.write b new) a data :=
  h.congr (fun i h1 h2 => Bytes.write_outside _ (by omega))

end NanoDrone
