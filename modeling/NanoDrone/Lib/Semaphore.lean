import Mathlib.Data.Nat.Notation
import Mathlib.Tactic.Common

/-! # Counting semaphores

A semaphore counts up to a limit: a `take` needs a count above zero, and a `give` at the limit does
nothing.  Calls on shared data are lists of sections.  A caller takes the semaphore, runs the body
of its next section and gives the semaphore back; when the count is zero it waits, or passes over
the section if it is not to wait.  Any number of callers run interleaved.

`Guarded.balance` is the rule for all runs: the count and the callers inside a section add up to the
count at the start.  A semaphore that starts at zero stays there, so that the callers that wait do
so for ever and the data never change.  With a count above zero a call that runs alone does the
bodies of its sections (`Guarded.alone`). -/

namespace NanoDrone

/-- `struct k_sem`, without the tasks that wait. -/
structure KSem where
  count : ℕ
  limit : ℕ
  bounded : count ≤ limit

namespace KSem

/-- `k_sem_init`. -/
def init (initial limit : ℕ) (h : initial ≤ limit) : KSem := ⟨initial, limit, h⟩

/-- `k_sem_take`, where there is something to take. -/
def take (q : KSem) : Option KSem :=
  if 0 < q.count then some ⟨q.count - 1, q.limit, Nat.le_trans (Nat.sub_le _ _) q.bounded⟩ else none

/-- `k_sem_give`. -/
def give (q : KSem) : KSem :=
  if h : q.count < q.limit then ⟨q.count + 1, q.limit, h⟩ else q

theorem take_eq_none {q : KSem} : q.take = none ↔ q.count = 0 := by
  unfold take
  split
  · exact iff_of_false (Option.some_ne_none _) (by omega)
  · exact iff_of_true rfl (by omega)

theorem take_count {q q' : KSem} (h : q.take = some q') :
    q'.count + 1 = q.count ∧ q'.limit = q.limit := by
  unfold take at h
  split at h
  · cases h
    exact ⟨Nat.sub_add_cancel ‹_›, rfl⟩
  · cases h

/-- What was taken is given back. -/
theorem take_give {q : KSem} (h : 0 < q.count) : ∃ q', q.take = some q' ∧ q'.give = q := by
  obtain ⟨count, limit, bounded⟩ := q
  change 0 < count at h
  unfold take
  refine ⟨_, if_pos h, ?_⟩
  have hcount : count - 1 + 1 = count := Nat.sub_add_cancel h
  unfold give
  simp only [hcount]
  exact dif_pos (by omega)

theorem give_limit (q : KSem) : q.give.limit = q.limit := by
  unfold give
  split <;> rfl

theorem give_count {q : KSem} (h : q.count < q.limit) : q.give.count = q.count + 1 := by
  unfold give
  rw [dif_pos h]

end KSem

/-! ### Callers -/

variable {σ : Type}

/-- A part of a call that runs under the semaphore; `wait` is whether the call waits for it. -/
structure Section (σ : Type) where
  wait : Bool
  body : σ → σ

/-- A call in progress, or completed when nothing is left. -/
inductive Caller (σ : Type) where
  | outside (rest : List (Section σ))
  /-- it has taken the semaphore for a section -/
  | inside (sec : Section σ) (rest : List (Section σ))

/-- Whether a caller holds the semaphore. -/
def Caller.holds : Caller σ → Bool
  | outside _ => false
  | inside _ _ => true

structure Guarded (σ : Type) where
  sem : KSem
  data : σ
  callers : List (Caller σ)

namespace Guarded

inductive Event (σ : Type) where
  /-- a call that runs the sections that the data give it -/
  | call (sections : σ → List (Section σ))
  /-- the next step of a caller -/
  | step (i : ℕ)

variable {g : Guarded σ} {i : ℕ}

/-- The next step of a caller: `take`, or the body and then `give`. -/
def stepCaller (g : Guarded σ) (i : ℕ) : Caller σ → Guarded σ
  | .outside [] => g
  | .outside (sec :: rest) =>
      match g.sem.take with
      | some sem => { g with sem := sem, callers := g.callers.set i (.inside sec rest) }
      | none => if sec.wait then g else { g with callers := g.callers.set i (.outside rest) }
  | .inside sec rest =>
      { sem := g.sem.give
        data := sec.body g.data
        callers := g.callers.set i (.outside rest) }

def next (g : Guarded σ) : Event σ → Guarded σ
  | .call sections => { g with callers := g.callers ++ [.outside (sections g.data)] }
  | .step i =>
      match g.callers[i]? with
      | some c => g.stepCaller i c
      | none => g

def run (events : List (Event σ)) (g : Guarded σ) : Guarded σ := events.foldl next g

/-- The number of callers that hold the semaphore. -/
def holding (g : Guarded σ) : ℕ := g.callers.countP Caller.holds

/-- No call is in progress. -/
def Idle (g : Guarded σ) : Prop := ∀ c ∈ g.callers, c = .outside []

/-! ### Steps -/

variable {sec : Section σ} {rest : List (Section σ)}

theorem stepCaller_taken {sem : KSem} (h : g.sem.take = some sem) :
    g.stepCaller i (.outside (sec :: rest)) =
      { g with sem := sem, callers := g.callers.set i (.inside sec rest) } := by
  unfold stepCaller
  rw [h]

theorem stepCaller_waiting (h : g.sem.count = 0) (hwait : sec.wait = true) :
    g.stepCaller i (.outside (sec :: rest)) = g := by
  unfold stepCaller
  rw [KSem.take_eq_none.mpr h]
  exact if_pos hwait

theorem stepCaller_refused (h : g.sem.count = 0) (hwait : sec.wait = false) :
    g.stepCaller i (.outside (sec :: rest)) =
      { g with callers := g.callers.set i (.outside rest) } := by
  unfold stepCaller
  rw [KSem.take_eq_none.mpr h]
  exact if_neg (Bool.eq_false_iff.mp hwait)

/-! ### The balance -/

/-- The number of those that hold the semaphore when one caller moves. -/
theorem holding_set {callers : List (Caller σ)} {c : Caller σ} (c' : Caller σ)
    (hi : callers[i]? = some c) :
    (callers.set i c').countP Caller.holds + c.holds.toNat =
      callers.countP Caller.holds + c'.holds.toNat := by
  obtain ⟨hlt, rfl⟩ := List.getElem?_eq_some_iff.mp hi
  have hpos : callers[i].holds = true → 0 < callers.countP Caller.holds :=
    fun h => List.countP_pos_iff.mpr ⟨_, List.getElem_mem hlt, h⟩
  rw [List.countP_set hlt]
  cases hold : callers[i].holds with
  | false => cases c'.holds <;> rfl
  | true =>
      have := hpos hold
      cases c'.holds <;> simp <;> omega

/-- What is counted and what is held, within the limit. -/
def Balanced (n : ℕ) (g : Guarded σ) : Prop := g.sem.count + g.holding = n ∧ n ≤ g.sem.limit

theorem Balanced.stepCaller {n : ℕ} {c : Caller σ} (h : g.Balanced n)
    (hi : g.callers[i]? = some c) : (g.stepCaller i c).Balanced n := by
  obtain ⟨hsum, hlimit⟩ := h
  unfold holding at hsum
  match c with
  | .outside [] => exact ⟨hsum, hlimit⟩
  | .outside (sec :: rest) =>
      cases htake : g.sem.take with
      | some sem =>
          obtain ⟨hcount, hsame⟩ := KSem.take_count htake
          have hset := holding_set (.inside sec rest) hi
          rw [stepCaller_taken htake]
          refine ⟨?_, hsame ▸ hlimit⟩
          simp only [holding, Caller.holds, Bool.toNat_true, Bool.toNat_false] at hset ⊢
          omega
      | none =>
          have hzero := KSem.take_eq_none.mp htake
          cases hwait : sec.wait with
          | true =>
              rw [stepCaller_waiting hzero hwait]
              exact ⟨hsum, hlimit⟩
          | false =>
              have hset := holding_set (.outside rest) hi
              rw [stepCaller_refused hzero hwait]
              refine ⟨?_, hlimit⟩
              simp only [holding, Caller.holds, Bool.toNat_false] at hset ⊢
              omega
  | .inside sec rest =>
      have hset := holding_set (.outside rest) hi
      simp only [Caller.holds, Bool.toNat_true, Bool.toNat_false] at hset
      have hgive : g.sem.give.count = g.sem.count + 1 := KSem.give_count (by omega)
      refine ⟨?_, (KSem.give_limit g.sem).symm ▸ hlimit⟩
      change g.sem.give.count + (g.callers.set i _).countP Caller.holds = n
      omega

theorem Balanced.next {n : ℕ} (h : g.Balanced n) (e : Event σ) : (g.next e).Balanced n := by
  cases e with
  | call sections =>
      refine ⟨?_, h.2⟩
      simpa [Guarded.next, holding, Caller.holds] using h.1
  | step i =>
      unfold Guarded.next
      dsimp only
      split
      · exact h.stepCaller ‹_›
      · exact h

theorem Balanced.run {n : ℕ} (h : g.Balanced n) (events : List (Event σ)) :
    (run events g).Balanced n := by
  induction events generalizing g with
  | nil => exact h
  | cons e rest ih => exact ih (h.next e)

/-- **The balance.**  In every run the count and the callers inside a section add up to the count at
the start. -/
theorem balance (h : g.holding = 0) (events : List (Event σ)) :
    (run events g).sem.count + (run events g).holding = g.sem.count := by
  have hstart : g.Balanced g.sem.count := ⟨by rw [h, Nat.add_zero], g.sem.bounded⟩
  exact (hstart.run events).1

/-- When no call is in progress, the count is what it was. -/
theorem count_of_idle (h : g.holding = 0) {events : List (Event σ)}
    (hidle : (run events g).Idle) : (run events g).sem.count = g.sem.count := by
  have hnone : (run events g).holding = 0 := by
    refine List.countP_eq_zero.mpr fun c hc => ?_
    rw [hidle c hc]
    exact Bool.false_ne_true
  have hsum := balance h events
  rwa [hnone, Nat.add_zero] at hsum

/-! ### A call alone -/

/-- The bodies of sections, one after the other. -/
def bodies (sections : List (Section σ)) (s : σ) : σ := sections.foldl (fun s sec => sec.body s) s

theorem bodies_append (xs ys : List (Section σ)) (s : σ) :
    bodies (xs ++ ys) s = bodies ys (bodies xs s) := List.foldl_append

/-- With a count above zero two steps run a section. -/
theorem two_steps (h : 0 < g.sem.count) (hi : g.callers[i]? = some (.outside (sec :: rest))) :
    run [.step i, .step i] g =
      { g with data := sec.body g.data, callers := g.callers.set i (.outside rest) } := by
  have hlt := (List.getElem?_eq_some_iff.mp hi).1
  obtain ⟨sem, htake, hgive⟩ := KSem.take_give h
  have hfirst : g.next (.step i) =
      { g with sem := sem, callers := g.callers.set i (.inside sec rest) } := by
    unfold Guarded.next
    dsimp only
    rw [hi]
    exact stepCaller_taken htake
  change (g.next (.step i)).next (.step i) = _
  rw [hfirst]
  unfold Guarded.next
  dsimp only
  rw [List.getElem?_set_self hlt]
  simp only [stepCaller, hgive, List.set_set]

/-- **A call alone.**  With a count above zero it completes, and the bodies have run. -/
theorem alone {sections : List (Section σ)} (h : 0 < g.sem.count)
    (hi : g.callers[i]? = some (.outside sections)) :
    ∃ n, run (List.replicate n (.step i)) g =
      { g with data := bodies sections g.data, callers := g.callers.set i (.outside []) } := by
  have hlt := (List.getElem?_eq_some_iff.mp hi).1
  induction sections generalizing g with
  | nil =>
      refine ⟨0, ?_⟩
      change g = { g with callers := g.callers.set i (.outside []) }
      rw [← (List.getElem?_eq_some_iff.mp hi).2, List.set_getElem_self]
  | cons sec rest ih =>
      have hstep := two_steps h hi
      obtain ⟨n, hn⟩ := @ih { g with
        data := sec.body g.data, callers := g.callers.set i (.outside rest) } h
        (by rw [List.getElem?_set_self hlt]) (by rwa [List.length_set])
      refine ⟨n + 2, ?_⟩
      change run (List.replicate n (.step i)) (run [.step i, .step i] g) = _
      rw [hstep, hn]
      simp only [List.set_set]
      rfl

/-! ### A count of zero -/

/-- There is nothing to take, and nobody will give. -/
def Closed (g : Guarded σ) : Prop := g.sem.count = 0 ∧ g.holding = 0

theorem Closed.run (h : g.Closed) (events : List (Event σ)) : (run events g).Closed := by
  have hsum := balance h.2 events
  rw [h.1] at hsum
  exact Nat.add_eq_zero_iff.mp hsum

/-- A step can only pass over a section. -/
theorem Closed.stepCaller {c : Caller σ} (h : g.Closed) (hi : g.callers[i]? = some c) :
    g.stepCaller i c = g ∨ ∃ sec rest, c = .outside (sec :: rest) ∧ sec.wait = false ∧
      g.stepCaller i c = { g with callers := g.callers.set i (.outside rest) } := by
  match c with
  | .outside [] => exact .inl rfl
  | .outside (sec :: rest) =>
      cases hwait : sec.wait with
      | true => exact .inl (stepCaller_waiting h.1 hwait)
      | false => exact .inr ⟨sec, rest, rfl, hwait, stepCaller_refused h.1 hwait⟩
  | .inside sec rest =>
      have hset := holding_set (.outside rest) hi
      have hzero := h.2
      simp only [holding, Caller.holds, Bool.toNat_true, Bool.toNat_false] at hset hzero
      omega

theorem Closed.next_data (h : g.Closed) (e : Event σ) : (g.next e).data = g.data := by
  cases e with
  | call sections => rfl
  | step i =>
      unfold Guarded.next
      dsimp only
      split
      · rcases h.stepCaller ‹_› with heq | ⟨sec, rest, -, -, heq⟩ <;> rw [heq]
      · rfl

/-- A caller that waits is left as it is. -/
theorem Closed.next_waiting (h : g.Closed) (e : Event σ)
    (hi : g.callers[i]? = some (.outside (sec :: rest))) (hwait : sec.wait = true) :
    (g.next e).callers[i]? = some (.outside (sec :: rest)) := by
  cases e with
  | call sections =>
      change (g.callers ++ _)[i]? = _
      rw [List.getElem?_append_left (List.getElem?_eq_some_iff.mp hi).1, hi]
  | step j =>
      unfold Guarded.next
      dsimp only
      split
      · rename_i c hj
        rcases h.stepCaller hj with heq | ⟨sec', rest', rfl, hrefused, heq⟩
        · rwa [heq]
        · have hij : j ≠ i := by
            rintro rfl
            rw [hi] at hj
            cases hj
            rw [hwait] at hrefused
            cases hrefused
          rw [heq]
          exact (List.getElem?_set_ne hij).trans hi
      · exact hi

theorem Closed.run_data (h : g.Closed) (events : List (Event σ)) :
    (Guarded.run events g).data = g.data := by
  induction events generalizing g with
  | nil => rfl
  | cons e rest ih => exact (ih (h.run [e])).trans (h.next_data e)

/-- **A caller that waits does so for ever.** -/
theorem Closed.waits (h : g.Closed) (hi : g.callers[i]? = some (.outside (sec :: rest)))
    (hwait : sec.wait = true) (events : List (Event σ)) :
    (Guarded.run events g).callers[i]? = some (.outside (sec :: rest)) := by
  induction events generalizing g with
  | nil => exact hi
  | cons e rest' ih => exact ih (h.run [e]) (h.next_waiting e hi hwait)

/-- A caller that does not wait passes over its sections. -/
theorem Closed.refused {sections : List (Section σ)} (h : g.Closed)
    (hi : g.callers[i]? = some (.outside sections)) (hwait : ∀ sec ∈ sections, sec.wait = false) :
    Guarded.run (List.replicate sections.length (.step i)) g =
      { g with callers := g.callers.set i (.outside []) } := by
  have hlt := (List.getElem?_eq_some_iff.mp hi).1
  induction sections generalizing g with
  | nil =>
      change g = { g with callers := g.callers.set i (.outside []) }
      rw [← (List.getElem?_eq_some_iff.mp hi).2, List.set_getElem_self]
  | cons sec rest ih =>
      have hstep : g.next (.step i) = { g with callers := g.callers.set i (.outside rest) } := by
        unfold Guarded.next
        dsimp only
        rw [hi]
        exact stepCaller_refused h.1 (hwait sec List.mem_cons_self)
      have hclosed := h.run [.step i]
      change Guarded.run (List.replicate rest.length (.step i)) (g.next (.step i)) = _
      change (g.next (.step i)).Closed at hclosed
      rw [hstep] at hclosed ⊢
      rw [ih hclosed (by rw [List.getElem?_set_self hlt])
        (fun s hs => hwait s (List.mem_cons_of_mem _ hs)) (by rwa [List.length_set])]
      simp only [List.set_set]

end Guarded

end NanoDrone
