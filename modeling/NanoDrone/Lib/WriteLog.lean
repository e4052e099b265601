import NanoDrone.Lib.Bytes
import Mathlib.Algebra.Ring.Nat

/-! # Writes that stop in the middle

A `WriteLog` is the list of the writes that a program makes, in their order.  `cut m log b` is the
memory that the first `b` bytes of them leave: a write is a sequence of bytes, and what is left of
it when it stops is one of its prefixes.

Adjacent writes count as one (`cut_adjacent`), a byte that no write of the log names keeps its
value wherever the log is cut (`cut_outside`), and writes that put back what is there only use up
their bytes (`cut_same`). -/

namespace NanoDrone

/-- Writes in their order, each an address and its bytes. -/
abbrev WriteLog := List (ℕ × List UInt8)

namespace WriteLog

/-- The memory after the first `b` bytes of the writes. -/
def cut (m : Bytes) : WriteLog → ℕ → Bytes
  | [], _ => m
  | (a, d) :: log, b => cut (m.write a (d.take b)) log (b - d.length)

/-- Number of bytes of the writes. -/
def size (log : WriteLog) : ℕ := (log.map fun w => w.2.length).sum

@[simp] theorem size_nil : size [] = 0 := rfl

@[simp] theorem size_cons (w : ℕ × List UInt8) (log : WriteLog) :
    size (w :: log) = w.2.length + size log := by
  simp [size]

@[simp] theorem size_append (xs ys : WriteLog) : size (xs ++ ys) = size xs + size ys := by
  simp [size]

@[simp] theorem cut_nil (m : Bytes) (b : ℕ) : cut m [] b = m := rfl

theorem cut_cons (m : Bytes) (a : ℕ) (d : List UInt8) (log : WriteLog) (b : ℕ) :
    cut m ((a, d) :: log) b = cut (m.write a (d.take b)) log (b - d.length) := rfl

@[simp] theorem cut_zero (m : Bytes) (log : WriteLog) : cut m log 0 = m := by
  induction log generalizing m with
  | nil => rfl
  | cons w log ih => rw [cut_cons, List.take_zero, Bytes.write_nil, Nat.zero_sub, ih]

/-- A log that is cut in its first part leaves the second part alone. -/
theorem cut_append (m : Bytes) (xs ys : WriteLog) (b : ℕ) :
    cut m (xs ++ ys) b = cut (cut m xs b) ys (b - size xs) := by
  induction xs generalizing m b with
  | nil => rfl
  | cons w xs ih => rw [List.cons_append, cut_cons, ih, cut_cons, size_cons, Nat.sub_sub]

/-- Two writes one behind the other are one write. -/
theorem cut_adjacent (m : Bytes) (a : ℕ) (x y : List UInt8) (log : WriteLog) (b : ℕ) :
    cut m ((a, x) :: (a + x.length, y) :: log) b = cut m ((a, x ++ y) :: log) b := by
  simp only [cut_cons, List.length_append, Nat.sub_sub]
  congr 1
  rw [List.take_append]
  by_cases h : x.length ≤ b
  · rw [List.take_of_length_le h, Bytes.write_append]
  · have hb : b - x.length = 0 := by omega
    rw [hb, List.take_zero, List.append_nil, Bytes.write_nil]

theorem cut_append_adjacent (m : Bytes) (log : WriteLog) (a : ℕ) (x y : List UInt8) (b : ℕ) :
    cut m (log ++ [(a, x)] ++ [(a + x.length, y)]) b = cut m (log ++ [(a, x ++ y)]) b := by
  rw [List.append_assoc, cut_append, List.singleton_append, cut_adjacent, ← cut_append]

theorem cut_outside {m : Bytes} {log : WriteLog} {b i : ℕ}
    (h : ∀ w ∈ log, i < w.1 ∨ w.1 + w.2.length ≤ i) : cut m log b i = m i := by
  induction log generalizing m b with
  | nil => rfl
  | cons w log ih =>
      have hw := h w List.mem_cons_self
      rw [cut_cons, ih fun x hx => h x (List.mem_cons_of_mem _ hx)]
      apply Bytes.write_outside
      rw [List.length_take]
      omega

/-- A write of what is already there. -/
theorem cut_same {m : Bytes} {a : ℕ} {d : List UInt8} (h : Stored m a d) (log : WriteLog) (b : ℕ) :
    cut m ((a, d) :: log) b = cut m log (b - d.length) := by
  have hslice : m.slice a d.length = d := h
  have htake : d.take b = m.slice a (min b d.length) := by rw [← Bytes.take_slice, hslice]
  rw [cut_cons, htake, Bytes.write_slice_self]

/-- A log that runs to its end. -/
theorem cut_of_le {m : Bytes} {a b : ℕ} {d : List UInt8} (h : d.length ≤ b) (log : WriteLog) :
    cut m ((a, d) :: log) b = cut (m.write a d) log (b - d.length) := by
  rw [cut_cons, List.take_of_length_le h]

end WriteLog

end NanoDrone
