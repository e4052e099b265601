import Mathlib.Logic.Relation
import Mathlib.Tactic.Common

/-! # Interleaved programs

A program is a tree of atomic actions on a shared state.  An action shows an event, updates the
state and goes on with a program that may depend on the state it saw.  `exec` runs a program
alone; `runPool` runs a pool of programs by a schedule, a list of indices into the pool, where an
index without a program to run is skipped: the interleavings of the pool are its schedules.

`runPool_invariant` is the rule for all of them: what every action preserves, of the trace of
events so far and the state, holds after every schedule.

A program can also be followed among steps of others that only a relation `R` is known of:
`Ensures R Q` says that it ends with `Q` whatever steps of `R` come between its actions.  And for
systems with a step function of their own, `Along` says what holds of every step of a run. -/

namespace NanoDrone

/-- A program with shared state `σ`, events `ε` and result `α`. -/
inductive Prog (σ ε α : Type) where
  | done (a : α)
  | act (event : σ → ε) (update : σ → σ) (next : σ → Prog σ ε α)

namespace Prog

variable {σ ε α β : Type}

def bind : Prog σ ε α → (α → Prog σ ε β) → Prog σ ε β
  | done a, f => f a
  | act event update next, f => act event update (fun s => (next s).bind f)

instance : Monad (Prog σ ε) where
  pure := done
  bind := bind

/-- One action; its event shows its result. -/
def atomically (f : σ → α × σ) (event : α → ε) : Prog σ ε α :=
  act (fun s => event (f s).1) (fun s => (f s).2) (fun s => done (f s).1)

/-- The trace, the result and the final state of a program that runs alone. -/
def exec : Prog σ ε α → σ → List ε × α × σ
  | done a, s => ([], a, s)
  | act event update next, s =>
      let r := (next s).exec (update s)
      (event s :: r.1, r.2)

@[simp] theorem exec_pure (a : α) (s : σ) : (pure a : Prog σ ε α).exec s = ([], a, s) := rfl

@[simp] theorem exec_bind (x : Prog σ ε α) (f : α → Prog σ ε β) (s : σ) :
    (x >>= f).exec s = ((x.exec s).1 ++ ((f (x.exec s).2.1).exec (x.exec s).2.2).1,
      ((f (x.exec s).2.1).exec (x.exec s).2.2).2) := by
  change (x.bind f).exec s = _
  induction x generalizing s with
  | done a => simp [bind, exec]
  | act event update next ih => simp [bind, exec, ih]

@[simp] theorem exec_atomically (f : σ → α × σ) (event : α → ε) (s : σ) :
    (atomically f event).exec s = ([event (f s).1], (f s).1, (f s).2) := rfl

/-! ### What every action satisfies -/

/-- Every action of the program satisfies `A`. -/
def Acts (A : (σ → ε) → (σ → σ) → Prop) : Prog σ ε α → Prop
  | done _ => True
  | act event update next => A event update ∧ ∀ s, (next s).Acts A

@[simp] theorem acts_pure {A : (σ → ε) → (σ → σ) → Prop} (a : α) :
    (pure a : Prog σ ε α).Acts A := trivial

@[simp] theorem acts_atomically {A : (σ → ε) → (σ → σ) → Prop} {f : σ → α × σ} {event : α → ε} :
    (atomically f event).Acts A ↔ A (fun s => event (f s).1) (fun s => (f s).2) :=
  ⟨And.left, fun h => ⟨h, fun _ => trivial⟩⟩

theorem Acts.bind {A : (σ → ε) → (σ → σ) → Prop} {x : Prog σ ε α} {f : α → Prog σ ε β}
    (hx : x.Acts A) (hf : ∀ a, (f a).Acts A) : (x >>= f).Acts A := by
  change (x.bind f).Acts A
  induction x with
  | done a => exact hf a
  | act event update next ih => exact ⟨hx.1, fun s => ih s (hx.2 s)⟩

end Prog

/-! ### Pools -/

section
variable {σ ε α : Type}

/-- The trace, the programs left and the final state of a pool run by a schedule. -/
def runPool : List ℕ → List (Prog σ ε α) → σ → List ε × List (Prog σ ε α) × σ
  | [], ps, s => ([], ps, s)
  | i :: schedule, ps, s =>
      match ps[i]? with
      | some (.act event update next) =>
          let r := runPool schedule (ps.set i (next s)) (update s)
          (event s :: r.1, r.2)
      | _ => runPool schedule ps s

/-- **Invariants of a pool.**  What every action preserves holds after every schedule. -/
theorem runPool_invariant {I : List ε → σ → Prop} {ps : List (Prog σ ε α)}
    (hps : ∀ p ∈ ps, p.Acts (fun event update => ∀ tr s, I tr s → I (tr ++ [event s]) (update s)))
    {tr : List ε} {s : σ} (h : I tr s) (schedule : List ℕ) :
    I (tr ++ (runPool schedule ps s).1) (runPool schedule ps s).2.2 := by
  induction schedule generalizing ps tr s with
  | nil => simpa [runPool] using h
  | cons i schedule ih =>
      unfold runPool
      split
      · rename_i event update next hi
        have hp := hps _ (List.mem_of_getElem? hi)
        have hset : ∀ p ∈ ps.set i (next s), p.Acts (fun event update =>
            ∀ tr s, I tr s → I (tr ++ [event s]) (update s)) := by
          intro p hmem
          rcases List.mem_or_eq_of_mem_set hmem with hold | rfl
          · exact hps p hold
          · exact hp.2 s
        simpa using ih hset (hp.1 tr s h)
      · exact ih hps h

/-- The same for an invariant of the programs left and the state. -/
theorem runPool_rule {I : List (Prog σ ε α) → σ → Prop} {ps : List (Prog σ ε α)} {s : σ}
    (h : I ps s) (hstep : ∀ ps s i event update next, I ps s →
      ps[i]? = some (.act event update next) → I (ps.set i (next s)) (update s))
    (schedule : List ℕ) : I (runPool schedule ps s).2.1 (runPool schedule ps s).2.2 := by
  induction schedule generalizing ps s with
  | nil => exact h
  | cons i schedule ih =>
      unfold runPool
      split
      · rename_i event update next hi
        exact ih (hstep ps s i event update next h hi)
      · exact ih h

theorem runPool_append (schedule schedule' : List ℕ) (ps : List (Prog σ ε α)) (s : σ) :
    (runPool (schedule ++ schedule') ps s).2 =
      (runPool schedule' (runPool schedule ps s).2.1 (runPool schedule ps s).2.2).2 := by
  induction schedule generalizing ps s with
  | nil => rfl
  | cons i schedule ih =>
      rw [List.cons_append, runPool, runPool]
      split
      · exact ih _ _
      · exact ih _ _

/-- A program that is scheduled often enough runs as if alone. -/
theorem runPool_alone {ps : List (Prog σ ε α)} {i : ℕ} {p : Prog σ ε α} (hi : ps[i]? = some p)
    (s : σ) : ∃ n, (runPool (List.replicate n i) ps s).2 =
      (ps.set i (.done (p.exec s).2.1), (p.exec s).2.2) := by
  induction p generalizing ps s with
  | done a =>
      obtain ⟨hlt, heq⟩ := List.getElem?_eq_some_iff.mp hi
      refine ⟨0, ?_⟩
      change (ps, s) = (ps.set i (.done a), s)
      rw [← heq, List.set_getElem_self]
  | act event update next ih =>
      have hlt : i < ps.length := (List.getElem?_eq_some_iff.mp hi).1
      have hset : (ps.set i (next s))[i]? = some (next s) := by
        rw [List.getElem?_set_self hlt]
      obtain ⟨n, hn⟩ := ih s hset (update s)
      refine ⟨n + 1, ?_⟩
      rw [List.replicate_succ, runPool, hi]
      dsimp only
      rw [hn, List.set_set]
      rfl

/-- A program that has come to its end stays there. -/
theorem runPool_done {ps : List (Prog σ ε α)} {j : ℕ} {a : α} (hj : ps[j]? = some (.done a)) (s : σ)
    (schedule : List ℕ) : (runPool schedule ps s).2.1[j]? = some (.done a) := by
  refine runPool_rule (I := fun ps _ => ps[j]? = some (.done a)) hj ?_ schedule
  intro ps s i event update next hps hi
  have hij : i ≠ j := by
    rintro rfl
    rw [hps] at hi
    cases hi
  rw [List.getElem?_set_ne hij]
  exact hps

/-- All programs have come to their end. -/
def Finished (ps : List (Prog σ ε α)) : Prop := ∀ p ∈ ps, ∃ a, p = .done a

end

/-! ### Interference -/

namespace Prog

variable {σ ε α β : Type} {R : σ → σ → Prop} {P Q : α → σ → Prop} {s s' : σ}

/-- Whatever steps of `R` come before, between and after the actions of the program, it ends in a
result and a state that satisfy `Q`. -/
def Ensures (R : σ → σ → Prop) (Q : α → σ → Prop) : Prog σ ε α → σ → Prop
  | done a, s => ∀ s', Relation.ReflTransGen R s s' → Q a s'
  | act _ update next, s =>
      ∀ s', Relation.ReflTransGen R s s' → (next s').Ensures R Q (update s')

namespace Ensures

theorem interfere {p : Prog σ ε α} (h : p.Ensures R Q s) (hs : R s s') : p.Ensures R Q s' := by
  cases p with
  | done a => exact fun t ht => h t (ht.head hs)
  | act event update next => exact fun t ht => h t (ht.head hs)

theorem of_done {a : α} (h : (done a : Prog σ ε α).Ensures R Q s) : Q a s := h s .refl

theorem of_act {event : σ → ε} {update : σ → σ} {next : σ → Prog σ ε α}
    (h : (act event update next).Ensures R Q s) : (next s).Ensures R Q (update s) := h s .refl

theorem mono {p : Prog σ ε α} (h : p.Ensures R P s) (hQ : ∀ a t, P a t → Q a t) :
    p.Ensures R Q s := by
  induction p generalizing s with
  | done a => exact fun t ht => hQ a t (h t ht)
  | act event update next ih => exact fun t ht => ih t (h t ht)

theorem bind {x : Prog σ ε α} {f : α → Prog σ ε β} {W : β → σ → Prop} (hx : x.Ensures R P s)
    (hf : ∀ a t, P a t → (f a).Ensures R W t) : (x >>= f).Ensures R W s := by
  change (x.bind f).Ensures R W s
  induction x generalizing s with
  | done a => exact hf a s hx.of_done
  | act event update next ih => exact fun t ht => ih t (hx t ht)

end Ensures

/-- One access to the state is one action. -/
instance : MonadStateOf σ (Prog σ Unit) where
  get := atomically (fun s => (s, s)) (fun _ => ())
  set s := atomically (fun _ => ((), s)) (fun _ => ())
  modifyGet f := atomically f (fun _ => ())

end Prog

/-! ### Interference with programs that may fail -/

section
variable {σ α β : Type} {R : σ → σ → Prop} {I J : σ → Prop} {s : σ}

/-- Every step of `R` keeps `I`. -/
def Stable (R : σ → σ → Prop) (I : σ → Prop) : Prop := ∀ s s', R s s' → I s → I s'

theorem Stable.many (hI : Stable R I) {s s' : σ} (h : Relation.ReflTransGen R s s') (hs : I s) :
    I s' := by
  induction h with
  | refl => exact hs
  | tail _ hlast ih => exact hI _ _ hlast ih

/-- The program fails, or it ends with `Q`. -/
def EnsuresIfDone (R : σ → σ → Prop) (Q : α → σ → Prop) (x : OptionT (Prog σ Unit) α) (s : σ) :
    Prop :=
  x.run.Ensures R (fun r t => ∀ a, r = some a → Q a t) s

namespace EnsuresIfDone

theorem of_pure {a : α} {Q : α → σ → Prop} (hQ : Stable R (Q a)) (h : Q a s) :
    EnsuresIfDone R Q (pure a) s := by
  intro t ht b hb
  cases hb
  exact hQ.many ht h

theorem bind {x : OptionT (Prog σ Unit) α} {f : α → OptionT (Prog σ Unit) β} {P : α → σ → Prop}
    {Q : β → σ → Prop} (hx : EnsuresIfDone R P x s)
    (hf : ∀ a t, P a t → EnsuresIfDone R Q (f a) t) : EnsuresIfDone R Q (x >>= f) s := by
  refine Prog.Ensures.bind hx ?_
  intro r t hr
  cases r with
  | none =>
      intro t' _ b hb
      cases hb
  | some a => exact hf a t (hr a rfl)

theorem mono {x : OptionT (Prog σ Unit) α} {P Q : α → σ → Prop} (h : EnsuresIfDone R P x s)
    (hQ : ∀ a t, P a t → Q a t) : EnsuresIfDone R Q x s :=
  Prog.Ensures.mono h fun _ t hr a ha => hQ a t (hr a ha)

theorem of_modify {f : σ → σ} (hI : Stable R I) (hJ : Stable R J) (hf : ∀ t, I t → J (f t))
    (h : I s) : EnsuresIfDone R (fun _ => J) (modify f : OptionT (Prog σ Unit) PUnit) s := by
  intro t ht t' ht' a _
  exact hJ.many ht' (hf t (hI.many ht h))

theorem of_get (hI : Stable R I) (h : I s) :
    EnsuresIfDone R (fun _ => I) (get : OptionT (Prog σ Unit) σ) s := by
  intro t ht t' ht' a _
  exact hI.many ht' (hI.many ht h)

/-- A program of which nothing is to be shown. -/
theorem trivial (x : OptionT (Prog σ Unit) α) : EnsuresIfDone R (fun _ _ => True) x s := by
  change Prog.Ensures R _ x.run s
  induction x.run generalizing s with
  | done a => exact fun _ _ _ _ => True.intro
  | act event update next ih => exact fun t _ => ih t

theorem forM {f : α → OptionT (Prog σ Unit) PUnit} {I : List α → σ → Prop} {l : List α}
    (hI : Stable R (I [])) (h : I l s)
    (hf : ∀ a rest t, I (a :: rest) t → EnsuresIfDone R (fun _ => I rest) (f a) t) :
    EnsuresIfDone R (fun _ => I []) (l.forM f) s := by
  induction l generalizing s with
  | nil => exact of_pure hI h
  | cons a rest ih => exact (hf a rest s h).bind fun _ t ht => ih ht

end EnsuresIfDone

end

/-! ### Runs of a step function -/

section
variable {σ α : Type} {step : σ → α → Option σ} {P Q : σ → α → Prop} {s : σ}

/-- `P` holds of every step of the run of `actions` from a state; the run ends early where an
action has no next state. -/
def Along (step : σ → α → Option σ) (P : σ → α → Prop) : List α → σ → Prop
  | [], _ => True
  | a :: rest, s => P s a ∧ ∀ s', step s a = some s' → Along step P rest s'

/-- An invariant that steps with `P` keep gives `Q` along every run with `P`. -/
theorem Along.of_invariant {I : σ → Prop} {actions : List α} (h : Along step P actions s)
    (hs : I s) (hstep : ∀ s a s', I s → P s a → step s a = some s' → I s')
    (hQ : ∀ s a, I s → P s a → Q s a) : Along step Q actions s := by
  induction actions generalizing s with
  | nil => exact True.intro
  | cons a rest ih =>
      refine ⟨hQ s a hs h.1, ?_⟩
      intro s' hs'
      exact ih (h.2 s' hs') (hstep s a s' hs h.1 hs')

/-- Under an invariant that the steps with `P` keep, what is equivalent to `P` at each step is so
along a run. -/
theorem Along.iff_of_invariant {I : σ → Prop} {actions : List α} (hs : I s)
    (hPQ : ∀ s a, I s → (P s a ↔ Q s a))
    (hstep : ∀ s a s', I s → P s a → step s a = some s' → I s') :
    Along step P actions s ↔ Along step Q actions s := by
  constructor
  · intro h
    exact h.of_invariant hs hstep (fun s a hI => (hPQ s a hI).mp)
  · intro h
    refine h.of_invariant hs ?_ (fun s a hI => (hPQ s a hI).mpr)
    intro s a s' hI hq
    exact hstep s a s' hI ((hPQ s a hI).mpr hq)

theorem Along.mono {actions : List α} (h : Along step P actions s) (hPQ : ∀ s a, P s a → Q s a) :
    Along step Q actions s :=
  h.of_invariant (I := fun _ => True) True.intro (fun _ _ _ _ _ _ => True.intro)
    (fun s a _ => hPQ s a)

instance Along.decidable [∀ s a, Decidable (P s a)] :
    (actions : List α) → (s : σ) → Decidable (Along step P actions s)
  | [], _ => isTrue True.intro
  | a :: rest, s =>
      match h : step s a with
      | none => decidable_of_iff (P s a) (by simp [Along, h])
      | some s' =>
          have := Along.decidable rest s'
          decidable_of_iff (P s a ∧ Along step P rest s') (by simp [Along, h])

end

end NanoDrone
