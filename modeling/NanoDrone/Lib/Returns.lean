import Mathlib.Tactic.Common

/-! # Total correctness for state programs that may diverge

A program is a `StateT σ Option`: it takes a state and either returns a value and a new state
or does not return (`none`, a loop that ran out of its fuel).  `Returns x s Q` says that `x`
started in `s` does return, and that its value and final state satisfy `Q`.

The rules below follow the structure of a program (`returns_bind`, `returns_modify`, ...).  They
are equivalences tagged for `simp`, so unfolding a program and simplifying runs it symbolically
up to its calls and loops, which are closed by `Returns.bind` with the callee's own
specification.  `ReturnsUnless E` is for programs with undefined accesses: they return, or they do
not and `E` is why. -/

namespace NanoDrone

variable {σ α β : Type}

/-- `x` started in `s` returns, in a value and a state that satisfy `Q`. -/
def Returns (x : StateT σ Option α) (s : σ) (Q : α → σ → Prop) : Prop :=
  ∃ a s', x s = some (a, s') ∧ Q a s'

theorem Returns.mono {x : StateT σ Option α} {s : σ} {Q R : α → σ → Prop} (h : Returns x s Q)
    (hQ : ∀ a s', Q a s' → R a s') : Returns x s R := by
  obtain ⟨a, s', hx, hq⟩ := h
  exact ⟨a, s', hx, hQ a s' hq⟩

/-- A returning program returns only one result. -/
theorem Returns.of_eq {x : StateT σ Option α} {s s' : σ} {a : α} {Q : α → σ → Prop}
    (h : Returns x s Q) (hx : x s = some (a, s')) : Q a s' := by
  obtain ⟨b, t, hb, hq⟩ := h
  rw [hx] at hb
  cases hb
  exact hq

/-- Two specifications of one program hold of the same result. -/
theorem Returns.both {x : StateT σ Option α} {s : σ} {Q R : α → σ → Prop} (h : Returns x s Q)
    (h' : Returns x s R) : Returns x s (fun a t => Q a t ∧ R a t) := by
  obtain ⟨a, t, hx, hq⟩ := h
  exact ⟨a, t, hx, hq, h'.of_eq hx⟩

/-- A program whose result is known. -/
theorem returns_iff_of_eq {x : StateT σ Option α} {s s' : σ} {a : α} {Q : α → σ → Prop}
    (hx : x s = some (a, s')) : Returns x s Q ↔ Q a s' :=
  ⟨fun h => h.of_eq hx, fun h => ⟨a, s', hx, h⟩⟩

@[simp] theorem returns_pure {s : σ} {a : α} {Q : α → σ → Prop} :
    Returns (pure a) s Q ↔ Q a s := by
  constructor
  · rintro ⟨b, t, hb, hq⟩
    cases hb
    exact hq
  · intro hq
    exact ⟨a, s, rfl, hq⟩

@[simp] theorem returns_bind {x : StateT σ Option α} {f : α → StateT σ Option β} {s : σ}
    {Q : β → σ → Prop} :
    Returns (x >>= f) s Q ↔ Returns x s (fun a s' => Returns (f a) s' Q) := by
  constructor
  · rintro ⟨b, t, hb, hq⟩
    cases hx : x s with
    | none =>
        have e : (x >>= f) s = none := by simp [bind, StateT.bind, hx]
        rw [e] at hb
        cases hb
    | some p =>
        obtain ⟨a, s'⟩ := p
        have e : (x >>= f) s = f a s' := by simp [bind, StateT.bind, hx]
        exact ⟨a, s', hx, b, t, e ▸ hb, hq⟩
  · rintro ⟨a, s', hx, b, t, hf, hq⟩
    have e : (x >>= f) s = f a s' := by simp [bind, StateT.bind, hx]
    exact ⟨b, t, e.trans hf, hq⟩

/-- Sequencing with the specification of the first program. -/
theorem Returns.bind {x : StateT σ Option α} {f : α → StateT σ Option β} {s : σ}
    {P : α → σ → Prop} {Q : β → σ → Prop} (hx : Returns x s P)
    (hf : ∀ a s', P a s' → Returns (f a) s' Q) : Returns (x >>= f) s Q :=
  returns_bind.mpr (hx.mono hf)

@[simp] theorem returns_get {s : σ} {Q : σ → σ → Prop} :
    Returns (get : StateT σ Option σ) s Q ↔ Q s s := by
  constructor
  · rintro ⟨b, t, hb, hq⟩
    cases hb
    exact hq
  · intro hq
    exact ⟨s, s, rfl, hq⟩

@[simp] theorem returns_set {s t : σ} {Q : PUnit → σ → Prop} :
    Returns (set t : StateT σ Option PUnit) s Q ↔ Q ⟨⟩ t := by
  constructor
  · rintro ⟨b, u, hb, hq⟩
    cases hb
    exact hq
  · intro hq
    exact ⟨⟨⟩, t, rfl, hq⟩

@[simp] theorem returns_modify {s : σ} {f : σ → σ} {Q : PUnit → σ → Prop} :
    Returns (modify f : StateT σ Option PUnit) s Q ↔ Q ⟨⟩ (f s) := by
  constructor
  · rintro ⟨b, u, hb, hq⟩
    cases hb
    exact hq
  · intro hq
    exact ⟨⟨⟩, f s, rfl, hq⟩

@[simp] theorem returns_lift {x : Option α} {s : σ} {Q : α → σ → Prop} :
    Returns (StateT.lift x : StateT σ Option α) s Q ↔ ∃ a, x = some a ∧ Q a s := by
  cases x with
  | none =>
      constructor
      · intro ⟨a, t, hx, _⟩
        cases hx
      · intro ⟨a, hx, _⟩
        cases hx
  | some a =>
      constructor
      · intro ⟨b, t, hx, hq⟩
        cases hx
        exact ⟨a, rfl, hq⟩
      · intro ⟨b, hx, hq⟩
        cases hx
        exact ⟨a, s, rfl, hq⟩

/-- A program that runs on a part of the state. -/
theorem returns_zoom {τ : Type} {x : StateT σ Option α} {view : τ → σ} {put : σ → τ → τ} {t : τ}
    {Q : α → τ → Prop} :
    Returns (fun t => (x (view t)).map (fun p => (p.1, put p.2 t))) t Q ↔
      Returns x (view t) (fun a s => Q a (put s t)) := by
  constructor
  · intro ⟨a, t', hx, hq⟩
    obtain ⟨p, hp, he⟩ := Option.map_eq_some_iff.mp hx
    cases he
    exact ⟨p.1, p.2, hp, hq⟩
  · intro ⟨a, s, hx, hq⟩
    exact ⟨a, put s t, Option.map_eq_some_iff.mpr ⟨(a, s), hx, rfl⟩, hq⟩

/-- A loop, with an invariant of the elements that are left and the state. -/
theorem Returns.forM {f : α → StateT σ Option PUnit} {I : List α → σ → Prop} {l : List α} {s : σ}
    (h : I l s) (hf : ∀ a rest t, I (a :: rest) t → Returns (f a) t (fun _ => I rest)) :
    Returns (l.forM f) s (fun _ => I []) := by
  induction l generalizing s with
  | nil => exact returns_pure.mpr h
  | cons a rest ih => exact (hf a rest s h).bind (fun _ t ht => ih ht)

/-! ### Undefined accesses -/

/-- `x` started in `s` returns in a value and a state that satisfy `Q`, or `E` holds and it does
not return. -/
def ReturnsUnless (E : Prop) (x : StateT σ Option α) (s : σ) (Q : α → σ → Prop) : Prop :=
  Returns x s Q ∨ x s = none ∧ E

namespace ReturnsUnless

variable {E : Prop} {x : StateT σ Option α} {s : σ} {Q : α → σ → Prop}

theorem returns (h : ReturnsUnless E x s Q) (hE : ¬ E) : Returns x s Q := by
  rcases h with h | ⟨_, h⟩
  · exact h
  · exact absurd h hE

/-- What holds of a result that was returned. -/
theorem of_eq {a : α} {s' : σ} (h : ReturnsUnless E x s Q) (hx : x s = some (a, s')) : Q a s' := by
  rcases h with h | ⟨h, _⟩
  · exact h.of_eq hx
  · rw [h] at hx
    cases hx

theorem bind_of_eq {a : α} {s' : σ} {f : α → StateT σ Option β} {R : β → σ → Prop}
    (hx : x s = some (a, s')) (hf : ReturnsUnless E (f a) s' R) :
    ReturnsUnless E (x >>= f) s R := by
  have e : (x >>= f) s = f a s' := by simp [Bind.bind, StateT.bind, hx]
  rcases hf with ⟨b, t, hb, hr⟩ | ⟨hn, hE⟩
  · exact Or.inl ⟨b, t, e.trans hb, hr⟩
  · exact Or.inr ⟨e.trans hn, hE⟩

theorem bind {P : α → σ → Prop} {f : α → StateT σ Option β} {R : β → σ → Prop}
    (hx : ReturnsUnless E x s P) (hf : ∀ a s', P a s' → ReturnsUnless E (f a) s' R) :
    ReturnsUnless E (x >>= f) s R := by
  rcases hx with ⟨a, s', hxs, hp⟩ | ⟨hn, hE⟩
  · exact bind_of_eq hxs (hf a s' hp)
  · refine Or.inr ⟨?_, hE⟩
    simp [Bind.bind, StateT.bind, hn]

theorem lift_bind {o : Option α} {f : α → StateT σ Option β} {R : β → σ → Prop}
    (hn : o = none → E) (hf : ∀ a, o = some a → ReturnsUnless E (f a) s R) :
    ReturnsUnless E (StateT.lift o >>= f) s R := by
  cases o with
  | none => exact Or.inr ⟨rfl, hn rfl⟩
  | some a => exact bind_of_eq rfl (hf a rfl)

theorem mono {R : α → σ → Prop} (h : ReturnsUnless E x s Q) (hQ : ∀ a s', Q a s' → R a s') :
    ReturnsUnless E x s R :=
  h.imp_left (·.mono hQ)

/-- A loop, with an invariant of the elements that are left and the state. -/
theorem forM {f : α → StateT σ Option PUnit} {I : List α → σ → Prop} {l : List α} (h : I l s)
    (hf : ∀ a rest t, a ∈ l → I (a :: rest) t → ReturnsUnless E (f a) t (fun _ => I rest)) :
    ReturnsUnless E (l.forM f) s (fun _ => I []) := by
  induction l generalizing s with
  | nil => exact Or.inl (returns_pure.mpr h)
  | cons a rest ih =>
      refine (hf a rest s List.mem_cons_self h).bind fun _ t ht => ih ht ?_
      exact fun b rest' t' hb => hf b rest' t' (List.mem_cons_of_mem _ hb)

theorem imp {F : Prop} (h : ReturnsUnless E x s Q) (hF : E → F) : ReturnsUnless F x s Q :=
  h.imp_right fun ⟨hn, hE⟩ => ⟨hn, hF hE⟩

end ReturnsUnless

end NanoDrone
