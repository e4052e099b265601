import Mathlib.Data.List.Nodup
import Mathlib.Data.Fintype.Card
import Mathlib.Logic.Function.Basic

/-! # Null-terminated linked lists

The cells of an arena `κ` are linked by `next`, a pointer to the next cell or null (`none`).
`Linked next p cells` says that following `next` from `p` visits `cells` and ends in null.  Such a
list is determined by its first pointer, so it does not come back to a cell (`Linked.nodup`): in a
finite arena its loops end.

`walk` is the loop over the cells of a list and `lastCell` the loop to its last one.  Both take
fuel and have no result when it runs out, which it does on a list that does not end. -/

namespace NanoDrone

variable {κ β : Type}

/-- Following `next` from a pointer visits the cells and ends in null. -/
def Linked (next : κ → Option κ) : Option κ → List κ → Prop
  | p, [] => p = none
  | p, x :: xs => p = some x ∧ Linked next (next x) xs

namespace Linked

variable {next next' : κ → Option κ} {p : Option κ} {cells cells' : List κ} {x y : κ}

@[simp] theorem nil_iff : Linked next p [] ↔ p = none := Iff.rfl

@[simp] theorem cons_iff : Linked next p (x :: cells) ↔ p = some x ∧ Linked next (next x) cells :=
  Iff.rfl

theorem unique (h : Linked next p cells) (h' : Linked next p cells') : cells = cells' := by
  induction cells generalizing p cells' with
  | nil =>
      cases cells' with
      | nil => rfl
      | cons y ys =>
          rw [nil_iff.mp h] at h'
          exact absurd h'.1 (by simp)
  | cons x xs ih =>
      cases cells' with
      | nil =>
          rw [nil_iff.mp h'] at h
          exact absurd h.1 (by simp)
      | cons y ys =>
          obtain ⟨hx, hxs⟩ := h
          obtain ⟨hy, hys⟩ := h'
          rw [hx, Option.some.injEq] at hy
          subst hy
          rw [ih hxs hys]

/-- The list from a cell on. -/
theorem of_append (pre : List κ) {post : List κ} (h : Linked next p (pre ++ x :: post)) :
    Linked next (some x) (x :: post) := by
  induction pre generalizing p with
  | nil =>
      obtain ⟨hp, hrest⟩ := h
      exact ⟨rfl, hrest⟩
  | cons y pre ih => exact ih h.2

/-- A list does not come back to a cell: the rest of the list would be its own proper part. -/
theorem nodup (h : Linked next p cells) : cells.Nodup := by
  induction cells generalizing p with
  | nil => exact List.nodup_nil
  | cons x xs ih =>
      refine List.nodup_cons.mpr ⟨fun hmem => ?_, ih h.2⟩
      obtain ⟨pre, post, rfl⟩ := List.append_of_mem hmem
      have hrest := of_append [] h
      have hagain := of_append (x :: pre) h
      have hlen := congrArg List.length (hrest.unique hagain)
      simp only [List.length_cons, List.length_append] at hlen
      omega

theorem length_le [Fintype κ] (h : Linked next p cells) : cells.length ≤ Fintype.card κ :=
  h.nodup.length_le_card

/-- A list depends on the links of its own cells only. -/
theorem congr (h : Linked next p cells) (hnext : ∀ x ∈ cells, next' x = next x) :
    Linked next' p cells := by
  induction cells generalizing p with
  | nil => exact h
  | cons x xs ih =>
      refine ⟨h.1, ?_⟩
      rw [hnext x (List.mem_cons_self ..)]
      exact ih h.2 (fun y hy => hnext y (List.mem_cons_of_mem _ hy))

theorem singleton (h : next x = none) : Linked next (some x) [x] := ⟨rfl, h⟩

/-- Linking a new cell after the last one. -/
theorem snoc [DecidableEq κ] {pre : List κ} (h : Linked next p (pre ++ [x]))
    (hy : next y = none) (hnew : y ∉ pre ++ [x]) :
    Linked (Function.update next x (some y)) p (pre ++ [x, y]) := by
  have hyx : y ≠ x := fun e => hnew (by simp [e])
  induction pre generalizing p with
  | nil =>
      refine ⟨h.1, ?_⟩
      rw [Function.update_self]
      refine ⟨rfl, ?_⟩
      rw [Function.update_of_ne hyx]
      exact hy
  | cons z pre ih =>
      have hzx : z ≠ x := by
        have hnodup := h.nodup
        rw [List.cons_append, List.nodup_cons] at hnodup
        intro e
        exact hnodup.1 (by simp [e])
      refine ⟨h.1, ?_⟩
      rw [Function.update_of_ne hzx]
      exact ih h.2 (fun hmem => hnew (List.mem_cons_of_mem _ hmem))

end Linked

/-! ### Loops over a list -/

/-- `for (; p; p = p->next) b = f b p`, where `f` may have no result. -/
def walk (next : κ → Option κ) (f : β → κ → Option β) : ℕ → Option κ → β → Option β
  | _, none, b => some b
  | 0, some _, _ => none
  | fuel + 1, some x, b => (f b x).bind (walk next f fuel (next x))

/-- The cells that at most `fuel` rounds of a loop come to, in order. -/
def visited (next : κ → Option κ) : ℕ → Option κ → List κ
  | _, none => []
  | 0, some _ => []
  | fuel + 1, some x => x :: visited next fuel (next x)

/-- `for (; x->next; x = x->next)`: the last cell. -/
def lastCell (next : κ → Option κ) : ℕ → κ → Option κ
  | 0, _ => none
  | fuel + 1, x =>
      match next x with
      | none => some x
      | some y => lastCell next fuel y

variable {next : κ → Option κ} {cells : List κ} {p : Option κ} {fuel : ℕ} {x y : κ}

theorem walk_eq (h : Linked next p cells) (hfuel : cells.length ≤ fuel) (f : β → κ → Option β)
    (b : β) : walk next f fuel p b = cells.foldlM f b := by
  induction cells generalizing p fuel b with
  | nil =>
      rw [Linked.nil_iff.mp h, walk]
      rfl
  | cons x xs ih =>
      obtain ⟨rfl, hxs⟩ := h
      cases fuel with
      | zero => simp at hfuel
      | succ fuel =>
          rw [walk, List.foldlM_cons]
          refine Option.bind_congr (fun b' _ => ?_)
          exact ih hxs (by simpa using hfuel) b'

/-- A loop that ends has come to null. -/
theorem linked_of_walk {f : β → κ → Option β} {b b' : β} (h : walk next f fuel p b = some b') :
    ∃ cells, Linked next p cells ∧ cells.foldlM f b = some b' := by
  induction fuel generalizing p b with
  | zero =>
      cases p with
      | none => exact ⟨[], rfl, h⟩
      | some x => cases h
  | succ fuel ih =>
      cases p with
      | none => exact ⟨[], rfl, h⟩
      | some x =>
          obtain ⟨c, hc, hrest⟩ := Option.bind_eq_some_iff.mp h
          obtain ⟨cells, hcells, hfold⟩ := ih hrest
          refine ⟨x :: cells, ⟨rfl, hcells⟩, ?_⟩
          rw [List.foldlM_cons, hc]
          exact hfold

theorem lastCell_eq {pre : List κ} (h : Linked next (some x) (pre ++ [y]))
    (hfuel : pre.length < fuel) : lastCell next fuel x = some y := by
  induction pre generalizing x fuel with
  | nil =>
      obtain ⟨hx, hy⟩ := h
      obtain rfl := Option.some.inj hx
      cases fuel with
      | zero => simp at hfuel
      | succ fuel =>
          rw [lastCell, Linked.nil_iff.mp hy]
  | cons z pre ih =>
      obtain ⟨hx, hpre⟩ := h
      obtain rfl := Option.some.inj hx
      cases fuel with
      | zero => simp at hfuel
      | succ fuel =>
          have hfuel' : pre.length < fuel := by simpa using hfuel
          cases hnext : next x with
          | none =>
              rw [hnext] at hpre
              cases pre <;> exact absurd hpre.1 (by simp)
          | some w =>
              rw [hnext] at hpre
              rw [lastCell, hnext]
              exact ih hpre hfuel'

end NanoDrone
