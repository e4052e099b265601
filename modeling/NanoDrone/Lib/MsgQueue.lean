import Mathlib.Data.Nat.Notation

/-! # Bounded message queues

A queue of at most `maxMsgs` messages, first in, first out.  None of the operations waits: a
`get` or `peek` on an empty queue and a `put` on a full one fail and change nothing.  A queue of
one message is empty after a `get` and full after a `put`, whatever happened before. -/

namespace NanoDrone

structure MsgQueue (α : Type) where
  maxMsgs : ℕ
  items : List α
  bounded : items.length ≤ maxMsgs

namespace MsgQueue

variable {α : Type}

def init (maxMsgs : ℕ) : MsgQueue α := ⟨maxMsgs, [], Nat.zero_le _⟩

def peek (q : MsgQueue α) : Option α := q.items.head?

def get (q : MsgQueue α) : Option α × MsgQueue α :=
  (q.items.head?, ⟨q.maxMsgs, q.items.tail, by
    rw [List.length_tail]
    exact Nat.le_trans (Nat.sub_le _ _) q.bounded⟩)

/-- Whether there was room, and the queue after the call. -/
def put (q : MsgQueue α) (a : α) : Bool × MsgQueue α :=
  if h : q.items.length < q.maxMsgs then
    (true, ⟨q.maxMsgs, q.items ++ [a], by
      rw [List.length_append]
      exact h⟩)
  else (false, q)

@[simp] theorem get_maxMsgs (q : MsgQueue α) : q.get.2.maxMsgs = q.maxMsgs := rfl

@[simp] theorem put_maxMsgs (q : MsgQueue α) (a : α) : (q.put a).2.maxMsgs = q.maxMsgs := by
  unfold put
  split <;> rfl

theorem isSome_peek (q : MsgQueue α) : q.peek.isSome = !q.items.isEmpty := by
  unfold peek
  cases q.items <;> rfl

/-- A queue with room takes the message at its end. -/
theorem put_of_lt {q : MsgQueue α} {a : α} (h : q.items.length < q.maxMsgs) :
    (q.put a).1 = true ∧ (q.put a).2.items = q.items ++ [a] := by
  unfold put
  rw [dif_pos h]
  exact ⟨rfl, rfl⟩

/-- A full queue refuses it. -/
theorem put_of_ge {q : MsgQueue α} {a : α} (h : q.maxMsgs ≤ q.items.length) :
    q.put a = (false, q) := by
  unfold put
  rw [dif_neg (Nat.not_lt.mpr h)]

/-! ### Queues of one message -/

theorem get_items_of_one {q : MsgQueue α} (h : q.maxMsgs = 1) : q.get.2.items = [] := by
  have hb := q.bounded
  apply List.eq_nil_of_length_eq_zero
  change q.items.tail.length = 0
  rw [List.length_tail]
  omega

theorem put_isEmpty_of_one {q : MsgQueue α} {a : α} (h : q.maxMsgs = 1) :
    (q.put a).2.items.isEmpty = false := by
  by_cases hl : q.items.length < q.maxMsgs
  · rw [(put_of_lt hl).2]
    simp
  · rw [put_of_ge (Nat.not_lt.mp hl)]
    cases hq : q.items with
    | nil =>
        rw [hq, h] at hl
        exact absurd Nat.zero_lt_one hl
    | cons x xs => rfl

/-- Overwriting: a `get` and then a `put` leave exactly the new message. -/
theorem put_get_of_one {q : MsgQueue α} {a : α} (h : q.maxMsgs = 1) :
    (q.get.2.put a).2.items = [a] := by
  have hlt : q.get.2.items.length < q.get.2.maxMsgs := by
    rw [get_items_of_one h, get_maxMsgs, h]
    exact Nat.zero_lt_one
  rw [(put_of_lt hlt).2, get_items_of_one h]
  rfl

/-- A queue of one message that writers overwrite by a `get` and a `put`.  It is empty only while
a writer is between the two, and it holds a new message, or the old one if no writer has taken
that out. -/
structure Overwritten (q : MsgQueue α) (writing untouched : Prop) (new : α → Prop) (old : α) :
    Prop where
  one : q.maxMsgs = 1
  empty : q.items = [] → writing
  items : ∀ a ∈ q.items, new a ∨ a = old ∧ untouched

namespace Overwritten

variable {q : MsgQueue α} {writing untouched writing' untouched' : Prop} {new : α → Prop}
  {old a : α}

theorem mono (h : q.Overwritten writing untouched new old) (hw : writing → writing')
    (hu : untouched → untouched') : q.Overwritten writing' untouched' new old :=
  ⟨h.one, fun he => hw (h.empty he), fun a ha => (h.items a ha).imp_right (And.imp_right hu)⟩

theorem get (h : q.Overwritten writing untouched new old) (hw : writing') :
    q.get.2.Overwritten writing' untouched' new old := by
  refine ⟨h.one, fun _ => hw, fun a ha => ?_⟩
  rw [get_items_of_one h.one] at ha
  cases ha

theorem put (h : q.Overwritten writing untouched new old) (ha : new a)
    (hu : untouched → untouched') : (q.put a).2.Overwritten writing' untouched' new old := by
  have hne := put_isEmpty_of_one (a := a) h.one
  refine ⟨(put_maxMsgs q a).trans h.one, fun he => ?_, fun b hb => ?_⟩
  · rw [he] at hne
    cases hne
  · by_cases hl : q.items.length < q.maxMsgs
    · rw [(put_of_lt hl).2, List.mem_append, List.mem_singleton] at hb
      rcases hb with hb | rfl
      · exact (h.items b hb).imp_right (And.imp_right hu)
      · exact Or.inl ha
    · rw [put_of_ge (Nat.not_lt.mp hl)] at hb
      exact (h.items b hb).imp_right (And.imp_right hu)

/-- When no writer is at work the queue holds one message. -/
theorem single (h : q.Overwritten writing untouched new old) (hw : ¬ writing) :
    ∃ a, q.items = [a] ∧ (new a ∨ a = old ∧ untouched) := by
  have hb := q.bounded
  rw [h.one] at hb
  match hq : q.items with
  | [] => exact absurd (h.empty hq) hw
  | [a] => exact ⟨a, rfl, h.items a (by rw [hq]; exact List.mem_singleton_self a)⟩
  | a :: b :: rest =>
      rw [hq, List.length_cons, List.length_cons] at hb
      omega

end Overwritten

theorem mem_of_peek {q : MsgQueue α} {a : α} (h : q.peek = some a) : a ∈ q.items :=
  List.mem_of_mem_head? h

theorem items_of_peek {q : MsgQueue α} (h : q.peek = none) : q.items = [] :=
  List.head?_eq_none_iff.mp h

end MsgQueue

end NanoDrone
