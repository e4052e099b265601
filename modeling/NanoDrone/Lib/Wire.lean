import Mathlib.Data.List.Induction
import Mathlib.Data.Nat.Notation
import Mathlib.Tactic.Common

/-! # Data one behind the other

How a receiver takes a message apart: up to a terminator (`upTo`), into fields of given widths
(`splitWidths`), or into records that all have the same length (`getElem?_flatMap_records`).  Each
comes with the lemma that what was put together comes apart again.  The elements may be of any
type. -/

namespace NanoDrone

variable {α β : Type}

/-! ### Terminated strings -/

/-- What is before the first terminator, and what is behind it. -/
def upTo [DecidableEq α] (stop : α) : List α → List α × List α
  | [] => ([], [])
  | a :: rest =>
      if a = stop then ([], rest)
      else
        let r := upTo stop rest
        (a :: r.1, r.2)

theorem upTo_append [DecidableEq α] {stop : α} {word rest : List α} (h : stop ∉ word) :
    upTo stop (word ++ stop :: rest) = (word, rest) := by
  induction word with
  | nil => simp [upTo]
  | cons a word ih =>
      rw [List.mem_cons, not_or] at h
      simp [upTo, Ne.symm h.1, ih h.2]

/-! ### Fields of given widths -/

/-- Fields of the widths, one behind the other; none if they do not make up the whole message. -/
def splitWidths : List ℕ → List α → Option (List (List α))
  | [], [] => some []
  | [], _ :: _ => none
  | n :: widths, data =>
      if n ≤ data.length then (splitWidths widths (data.drop n)).map (data.take n :: ·) else none

theorem splitWidths_flatten (fields : List (List α)) :
    splitWidths (fields.map List.length) fields.flatten = some fields := by
  induction fields with
  | nil => rfl
  | cons field fields ih => simp [splitWidths, ih]

/-! ### Records -/

/-- A place in a sequence of records of the same length is a place in one of them. -/
theorem getElem?_flatMap_records {f : α → List β} {n : ℕ} {l : List α}
    (hf : ∀ a ∈ l, (f a).length = n) {k : ℕ} (hk : k < n) (i : ℕ) :
    (l.flatMap f)[n * i + k]? = l[i]?.bind fun a => (f a)[k]? := by
  induction l generalizing i with
  | nil => simp
  | cons a l ih =>
      have ha := hf a List.mem_cons_self
      rw [List.flatMap_cons]
      cases i with
      | zero => simp [List.getElem?_append_left (show k < (f a).length by omega)]
      | succ i =>
          have hright : n * (i + 1) + k - (f a).length = n * i + k := by
            rw [ha, Nat.mul_succ]
            omega
          rw [List.getElem?_append_right (by rw [ha, Nat.mul_succ]; omega), hright,
            ih fun b hb => hf b (List.mem_cons_of_mem a hb)]
          simp

/-- Requests for the items of a table, one after the other. -/
theorem mapM_range_eq {f : ℕ → Option β} {l : List β} (h : ∀ i, ∀ hi : i < l.length,
    f i = some l[i]) : (List.range l.length).mapM f = some l := by
  induction l using List.reverseRecOn with
  | nil => rfl
  | append_singleton l a ih =>
      have hinit : (List.range l.length).mapM f = some l := by
        refine ih fun i hi => ?_
        have hat := h i (by simp; omega)
        rwa [List.getElem_append_left hi] at hat
      have hlast : f l.length = some a := by
        have hat := h l.length (by simp)
        rwa [List.getElem_append_right (Nat.le_refl _), List.getElem_singleton] at hat
      rw [List.length_append, List.length_singleton, List.range_succ, List.mapM_append, hinit]
      simp [hlast]

end NanoDrone
