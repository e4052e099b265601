import NanoDrone.Lib.Returns

/-! # A program that mirrors another one

`Mirrors g Good x y` compares two programs over different states.  From the image under `g` of a
state, `y` returns what `x` returns from the state itself, and ends in the image of where `x` ends.
This is asked only of the runs of `x` that end `Good`.

`Good` is for what can be lost but not regained, such as that nothing has failed so far: a run that
ends `Good` has been so from its start, which is what lets `Mirrors` pass through a sequence.  The
rules follow the structure of the programs; what two calls have in common is carried by the value
that both have returned. -/

namespace NanoDrone

variable {τ σ α β : Type}

/-- In the runs of `x` that end `Good`, `y` returns the same from the image of the state. -/
def Mirrors (g : τ → σ) (Good : τ → Prop) (x : StateT τ Option α) (y : StateT σ Option α) : Prop :=
  ∀ t a t', x t = some (a, t') → Good t' → Good t ∧ y (g t) = some (a, g t')

namespace Mirrors

variable {g : τ → σ} {Good : τ → Prop} {x x' : StateT τ Option α} {y y' : StateT σ Option α}

theorem pure (a : α) : Mirrors g Good (pure a) (pure a) := by
  intro t b t' h hg
  cases h
  exact ⟨hg, rfl⟩

/-- A program that never returns is mirrored by any other. -/
theorem failure : Mirrors g Good failure y := by
  intro t a t' h
  cases h

theorem bind {f : α → StateT τ Option β} {f' : α → StateT σ Option β} (hx : Mirrors g Good x y)
    (hf : ∀ a, Mirrors g Good (f a) (f' a)) : Mirrors g Good (x >>= f) (y >>= f') := by
  intro t b t' h hg
  have hb : Returns (x >>= f) t (fun c u => c = b ∧ u = t') := ⟨b, t', h, rfl, rfl⟩
  obtain ⟨a, t1, hx1, c, u, hf1, rfl, rfl⟩ := returns_bind.mp hb
  obtain ⟨hg1, hy1⟩ := hf a t1 c u hf1 hg
  obtain ⟨hg0, hy0⟩ := hx t a t1 hx1 hg1
  refine ⟨hg0, ?_⟩
  have hy : Returns (y >>= f') (g t) (fun d v => d = c ∧ v = g u) :=
    returns_bind.mpr ⟨a, g t1, hy0, c, g u, hy1, rfl, rfl⟩
  obtain ⟨d, v, hdv, rfl, rfl⟩ := hy
  exact hdv

theorem ite {c : Prop} [Decidable c] (hx : c → Mirrors g Good x y)
    (hx' : ¬ c → Mirrors g Good x' y') :
    Mirrors g Good (if c then x else x') (if c then y else y') := by
  by_cases hc : c
  · rw [if_pos hc, if_pos hc]
    exact hx hc
  · rw [if_neg hc, if_neg hc]
    exact hx' hc

/-- A program that starts with the state it finds. -/
theorem get_bind {f : τ → StateT τ Option β} {f' : σ → StateT σ Option β}
    (hf : ∀ t, Mirrors g Good (f t) (f' (g t))) :
    Mirrors g Good (get >>= f) (get >>= f') := fun t b t' h hg => hf t t b t' h hg

theorem modify {u : τ → τ} {v : σ → σ} (hu : ∀ t, Good (u t) → Good t)
    (hv : ∀ t, v (g t) = g (u t)) :
    Mirrors g Good (modify u : StateT τ Option PUnit) (modify v : StateT σ Option PUnit) := by
  intro t a t' h hg
  cases h
  exact ⟨hu t hg, congrArg (fun w => some ((), w)) (hv t)⟩

/-- What a mirrored run returns, it returns with everything that is known of the mirror. -/
theorem of_returns {t t' : τ} {a : α} {Q : α → σ → Prop} (h : Mirrors g Good x y)
    (hx : x t = some (a, t')) (hg : Good t') (hy : Returns y (g t) Q) : Q a (g t') :=
  hy.of_eq (h t a t' hx hg).2

end Mirrors

end NanoDrone
