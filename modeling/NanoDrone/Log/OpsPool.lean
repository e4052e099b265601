import NanoDrone.Log.Log
import Mathlib.Data.List.FinRange

/-! # The pool of ops

The ops of the allocated blocks share one pool without an allocation flag: an op is free when its
variable is `NULL`.  `Pool s lists` says that this works out in the state `s`, where `lists b` is
the list of ops of the block `b`: the lists are linked lists of the ops with a variable, each of
which is in exactly one of them.

Each operation of `log.c` on blocks and ops has a lemma here.  The operations are those of
allocation: an empty list is added (`Pool.create`), a free op goes to the end of a list
(`Pool.append`), a list is given back (`Pool.delete`), all lists are (`Cleared.pool`). -/

namespace NanoDrone.Log

namespace LogState

def Allocated (s : LogState) (b : BlockPtr) : Prop := (s.logBlocks b).id ≠ blockIdFree

instance (s : LogState) (b : BlockPtr) : Decidable (s.Allocated b) :=
  inferInstanceAs (Decidable (_ ≠ _))

variable (s : LogState) (o : OpsPtr) (b : BlockPtr)

@[simp] theorem setOps_logBlocks (f : LogOps → LogOps) : (s.setOps o f).logBlocks = s.logBlocks :=
  rfl

@[simp] theorem setBlock_logOps (f : LogBlock → LogBlock) : (s.setBlock b f).logOps = s.logOps :=
  rfl

@[simp] theorem setOps_self (f : LogOps → LogOps) :
    (s.setOps o f).logOps o = f (s.logOps o) := Function.update_self ..

@[simp] theorem setBlock_self (f : LogBlock → LogBlock) :
    (s.setBlock b f).logBlocks b = f (s.logBlocks b) := Function.update_self ..

theorem setOps_of_ne {a : OpsPtr} (h : a ≠ o) (f : LogOps → LogOps) :
    (s.setOps o f).logOps a = s.logOps a := Function.update_of_ne h ..

theorem setBlock_of_ne {a : BlockPtr} (h : a ≠ b) (f : LogBlock → LogBlock) :
    (s.setBlock b f).logBlocks a = s.logBlocks a := Function.update_of_ne h ..

variable {s o b} {s' : LogState}

theorem next_congr (h : s'.logOps = s.logOps) : s'.next = s.next := by
  funext o
  unfold next
  rw [h]

theorem allocated_congr (h : (s'.logBlocks b).id = (s.logBlocks b).id) :
    s'.Allocated b ↔ s.Allocated b := by
  unfold Allocated
  rw [h]

variable (s o)

theorem setOps_next (f : LogOps → LogOps) :
    (s.setOps o f).next = Function.update s.next o (f (s.logOps o)).next := by
  funext a
  rcases eq_or_ne a o with rfl | ha
  · simp [next]
  · simp [next, setOps_of_ne s o ha, ha]

end LogState

/-- The lists of ops of the blocks share the pool; a block that is not allocated has none. -/
structure Pool (s : LogState) (lists : BlockPtr → List OpsPtr) : Prop where
  ids : ∀ a b, s.Allocated a → s.Allocated b → (s.logBlocks a).id = (s.logBlocks b).id → a = b
  timers : ∀ b, s.Allocated b → (s.logBlocks b).timer ≠ none
  linked : ∀ b, s.Allocated b → Linked s.next (s.logBlocks b).ops (lists b)
  free : ∀ b, ¬ s.Allocated b → lists b = []
  used : ∀ b, ∀ o ∈ lists b, (s.logOps o).variablePtr ≠ none
  types : ∀ b, ∀ o ∈ lists b, (s.logOps o).logType ≤ logFp16
  owned : ∀ o, (s.logOps o).variablePtr ≠ none → ∃ b, o ∈ lists b
  disjoint : ∀ a b o, o ∈ lists a → o ∈ lists b → a = b

/-- Nothing is allocated. -/
structure Cleared (s : LogState) : Prop where
  blocks : ∀ b, ¬ s.Allocated b
  ops : ∀ o, (s.logOps o).variablePtr = none

theorem Cleared.pool {s : LogState} (h : Cleared s) : Pool s (fun _ => []) where
  ids a _ ha := absurd ha (h.blocks a)
  timers b hb := absurd hb (h.blocks b)
  linked b hb := absurd hb (h.blocks b)
  free _ _ := rfl
  used _ _ ho := absurd ho List.not_mem_nil
  types _ _ ho := absurd ho List.not_mem_nil
  owned o ho := absurd (h.ops o) ho
  disjoint _ _ _ ho := absurd ho List.not_mem_nil

/-- All blocks are free, except perhaps those of a list. -/
def FreeExcept (rest : List BlockPtr) (s : LogState) : Prop := ∀ b, b ∉ rest → ¬ s.Allocated b

theorem FreeExcept.all (s : LogState) : FreeExcept (List.finRange logMaxBlocks) s :=
  fun b hb => absurd (List.mem_finRange b) hb

theorem FreeExcept.setFree {i : BlockPtr} {rest : List BlockPtr} {s : LogState}
    (h : FreeExcept (i :: rest) s) :
    FreeExcept rest (s.setBlock i fun b => { b with id := blockIdFree }) := by
  intro b hb
  rcases eq_or_ne b i with rfl | hbi
  · simp [LogState.Allocated]
  · unfold LogState.Allocated
    rw [LogState.setBlock_of_ne s i hbi]
    exact h b (by simp [hbi, hb])

/-- Nothing is allocated, except perhaps the ops of a list. -/
structure ClearedExcept (rest : List OpsPtr) (s : LogState) : Prop where
  blocks : ∀ b, ¬ s.Allocated b
  ops : ∀ o, o ∉ rest → (s.logOps o).variablePtr = none

theorem FreeExcept.cleared {s : LogState} (h : FreeExcept [] s) :
    ClearedExcept (List.finRange logMaxOps) s :=
  ⟨fun b => h b List.not_mem_nil, fun o ho => absurd (List.mem_finRange o) ho⟩

theorem ClearedExcept.opsFree {x : OpsPtr} {rest : List OpsPtr} {s : LogState}
    (h : ClearedExcept (x :: rest) s) :
    ClearedExcept rest (s.setOps x fun o => { o with variablePtr := none }) := by
  refine ⟨h.blocks, ?_⟩
  intro o ho
  rcases eq_or_ne o x with rfl | hox
  · simp
  · rw [LogState.setOps_of_ne s x hox]
    exact h.ops o (by simp [hox, ho])

theorem ClearedExcept.cleared {s : LogState} (h : ClearedExcept [] s) : Cleared s :=
  ⟨h.blocks, fun o => h.ops o List.not_mem_nil⟩

namespace Pool

variable {s s' : LogState} {lists : BlockPtr → List OpsPtr} {b : BlockPtr} {o : OpsPtr}

/-- A block with an op in its list is allocated. -/
theorem allocated (h : Pool s lists) (ho : o ∈ lists b) : s.Allocated b := by
  by_contra hb
  rw [h.free b hb] at ho
  cases ho

/-- The ops stay as they are, and so do the ids and the lists of allocated blocks. -/
theorem congr (h : Pool s lists) (hops : s'.logOps = s.logOps)
    (hid : ∀ a, (s'.logBlocks a).id = (s.logBlocks a).id)
    (hlist : ∀ a, s.Allocated a → (s'.logBlocks a).ops = (s.logBlocks a).ops)
    (htimer : ∀ a, s.Allocated a → (s'.logBlocks a).timer ≠ none) : Pool s' lists := by
  have halloc : ∀ a, s'.Allocated a ↔ s.Allocated a := fun a => LogState.allocated_congr (hid a)
  have hnext := LogState.next_congr hops
  refine ⟨?_, ?_, ?_, ?_, ?_, ?_, ?_, h.disjoint⟩
  · intro a c ha hc
    rw [hid, hid]
    exact h.ids a c ((halloc a).mp ha) ((halloc c).mp hc)
  · intro a ha
    exact htimer a ((halloc a).mp ha)
  · intro a ha
    rw [hnext, hlist a ((halloc a).mp ha)]
    exact h.linked a ((halloc a).mp ha)
  · intro a ha
    exact h.free a (fun e => ha ((halloc a).mpr e))
  · rw [hops]
    exact h.used
  · rw [hops]
    exact h.types
  · rw [hops]
    exact h.owned

/-- An update of a block that keeps its id, its list and that it has a timer. -/
theorem setBlock (h : Pool s lists) (b : BlockPtr) {f : LogBlock → LogBlock}
    (hid : ∀ c, (f c).id = c.id) (hlist : ∀ c, (f c).ops = c.ops)
    (htimer : ∀ c, c.timer ≠ none → (f c).timer ≠ none) : Pool (s.setBlock b f) lists := by
  refine h.congr rfl ?_ ?_ ?_
  · intro a
    rcases eq_or_ne a b with rfl | ha
    · rw [LogState.setBlock_self, hid]
    · rw [LogState.setBlock_of_ne s b ha]
  · intro a _
    rcases eq_or_ne a b with rfl | ha
    · rw [LogState.setBlock_self, hlist]
    · rw [LogState.setBlock_of_ne s b ha]
  · intro a ha
    rcases eq_or_ne a b with rfl | hab
    · rw [LogState.setBlock_self]
      exact htimer _ (h.timers a ha)
    · rw [LogState.setBlock_of_ne s b hab]
      exact h.timers a ha

/-- A free block becomes one without ops. -/
theorem create (h : Pool s lists) (hfree : ¬ s.Allocated b) (hops : s'.logOps = s.logOps)
    (hother : ∀ a, a ≠ b → s'.logBlocks a = s.logBlocks a)
    (hnew : ∀ a, (s.logBlocks a).id ≠ (s'.logBlocks b).id)
    (halloc : s'.Allocated b) (htimer : (s'.logBlocks b).timer ≠ none)
    (hnil : (s'.logBlocks b).ops = none) : Pool s' lists := by
  have hnext := LogState.next_congr hops
  have hsame : ∀ a, a ≠ b → (s'.Allocated a ↔ s.Allocated a) :=
    fun a hab => LogState.allocated_congr (by rw [hother a hab])
  refine ⟨?_, ?_, ?_, ?_, ?_, ?_, ?_, h.disjoint⟩
  · intro a c ha hc heq
    rcases eq_or_ne a b with rfl | hab
    · rcases eq_or_ne c a with rfl | hca
      · rfl
      · rw [hother c hca] at heq
        exact absurd heq.symm (hnew c)
    · rcases eq_or_ne c b with rfl | hcb
      · rw [hother a hab] at heq
        exact absurd heq (hnew a)
      · rw [hother a hab, hother c hcb] at heq
        exact h.ids a c ((hsame a hab).mp ha) ((hsame c hcb).mp hc) heq
  · intro a ha
    rcases eq_or_ne a b with rfl | hab
    · exact htimer
    · rw [hother a hab]
      exact h.timers a ((hsame a hab).mp ha)
  · intro a ha
    rcases eq_or_ne a b with rfl | hab
    · rw [h.free a hfree]
      exact hnil
    · rw [hnext, hother a hab]
      exact h.linked a ((hsame a hab).mp ha)
  · intro a ha
    rcases eq_or_ne a b with rfl | hab
    · exact absurd halloc ha
    · exact h.free a (fun e => ha ((hsame a hab).mpr e))
  · rw [hops]
    exact h.used
  · rw [hops]
    exact h.types
  · rw [hops]
    exact h.owned

/-- A free op that has got a variable is linked at the end of the list of a block. -/
theorem append (h : Pool s lists) (hb : s.Allocated b) (ho : (s.logOps o).variablePtr = none)
    (hops : ∀ a, a ≠ o → (s'.logOps a).variablePtr = (s.logOps a).variablePtr ∧
      (s'.logOps a).logType = (s.logOps a).logType)
    (hvar : (s'.logOps o).variablePtr ≠ none) (htype : (s'.logOps o).logType ≤ logFp16)
    (hid : ∀ a, (s'.logBlocks a).id = (s.logBlocks a).id)
    (htimer : ∀ a, (s'.logBlocks a).timer = (s.logBlocks a).timer)
    (hlinked : Linked s'.next (s'.logBlocks b).ops (lists b ++ [o]))
    (hother : ∀ a, a ≠ b → Linked s.next (s.logBlocks a).ops (lists a) →
      Linked s'.next (s'.logBlocks a).ops (lists a)) :
    Pool s' (Function.update lists b (lists b ++ [o])) := by
  have halloc : ∀ a, s'.Allocated a ↔ s.Allocated a := fun a => LogState.allocated_congr (hid a)
  -- an op of one of the new lists is the new one, or an op of the list before
  have hmem : ∀ {a p}, p ∈ Function.update lists b (lists b ++ [o]) a →
      p = o ∧ a = b ∨ p ≠ o ∧ p ∈ lists a := by
    intro a p hp
    have hold : p ∈ lists a → p ≠ o := fun hp e => h.used a p hp (e ▸ ho)
    rcases eq_or_ne a b with rfl | hab
    · rw [Function.update_self, List.mem_append, List.mem_singleton] at hp
      rcases hp with hp | hp
      · exact Or.inr ⟨hold hp, hp⟩
      · exact Or.inl ⟨hp, rfl⟩
    · rw [Function.update_of_ne hab] at hp
      exact Or.inr ⟨hold hp, hp⟩
  refine ⟨?_, ?_, ?_, ?_, ?_, ?_, ?_, ?_⟩
  · intro a c ha hc
    rw [hid, hid]
    exact h.ids a c ((halloc a).mp ha) ((halloc c).mp hc)
  · intro a ha
    rw [htimer]
    exact h.timers a ((halloc a).mp ha)
  · intro a ha
    rcases eq_or_ne a b with rfl | hab
    · rw [Function.update_self]
      exact hlinked
    · rw [Function.update_of_ne hab]
      exact hother a hab (h.linked a ((halloc a).mp ha))
  · intro a ha
    rcases eq_or_ne a b with rfl | hab
    · exact absurd ((halloc a).mpr hb) ha
    · rw [Function.update_of_ne hab]
      exact h.free a (fun e => ha ((halloc a).mpr e))
  · intro a p hp
    rcases hmem hp with ⟨rfl, _⟩ | ⟨hpo, hp⟩
    · exact hvar
    · rw [(hops p hpo).1]
      exact h.used a p hp
  · intro a p hp
    rcases hmem hp with ⟨rfl, _⟩ | ⟨hpo, hp⟩
    · exact htype
    · rw [(hops p hpo).2]
      exact h.types a p hp
  · intro p hp
    rcases eq_or_ne p o with rfl | hpo
    · exact ⟨b, by simp⟩
    · rw [(hops p hpo).1] at hp
      obtain ⟨a, ha⟩ := h.owned p hp
      refine ⟨a, ?_⟩
      rcases eq_or_ne a b with rfl | hab
      · rw [Function.update_self]
        exact List.mem_append_left _ ha
      · rw [Function.update_of_ne hab]
        exact ha
  · intro a c p ha hc
    rcases hmem ha with ⟨rfl, rfl⟩ | ⟨hpo, ha⟩
    · rcases hmem hc with ⟨_, rfl⟩ | ⟨hpo, _⟩
      · rfl
      · exact absurd rfl hpo
    · rcases hmem hc with ⟨hp, _⟩ | ⟨_, hc⟩
      · exact absurd hp hpo
      · exact h.disjoint a c p ha hc

/-- A block is freed and so are the ops of its list. -/
theorem delete (h : Pool s lists) (hfree : ¬ s'.Allocated b)
    (hother : ∀ a, a ≠ b → s'.logBlocks a = s.logBlocks a) (hnext : s'.next = s.next)
    (hops : ∀ o, o ∉ lists b → s'.logOps o = s.logOps o)
    (hnone : ∀ o ∈ lists b, (s'.logOps o).variablePtr = none) :
    Pool s' (Function.update lists b []) := by
  have hsame : ∀ a, a ≠ b → (s'.Allocated a ↔ s.Allocated a) :=
    fun a hab => LogState.allocated_congr (by rw [hother a hab])
  have hne : ∀ {a}, s'.Allocated a → a ≠ b := fun ha e => hfree (e ▸ ha)
  have hmem : ∀ {a p}, p ∈ Function.update lists b [] a →
      p ∈ lists a ∧ s'.logOps p = s.logOps p := by
    intro a p hp
    rcases eq_or_ne a b with rfl | hab
    · rw [Function.update_self] at hp
      cases hp
    · rw [Function.update_of_ne hab] at hp
      exact ⟨hp, hops p (fun e => hab (h.disjoint a b p hp e))⟩
  refine ⟨?_, ?_, ?_, ?_, ?_, ?_, ?_, ?_⟩
  · intro a c ha hc
    rw [hother a (hne ha), hother c (hne hc)]
    exact h.ids a c ((hsame a (hne ha)).mp ha) ((hsame c (hne hc)).mp hc)
  · intro a ha
    rw [hother a (hne ha)]
    exact h.timers a ((hsame a (hne ha)).mp ha)
  · intro a ha
    rw [hnext, hother a (hne ha), Function.update_of_ne (hne ha)]
    exact h.linked a ((hsame a (hne ha)).mp ha)
  · intro a ha
    rcases eq_or_ne a b with rfl | hab
    · exact Function.update_self ..
    · rw [Function.update_of_ne hab]
      exact h.free a (fun e => ha ((hsame a hab).mpr e))
  · intro a p hp
    obtain ⟨hp, heq⟩ := hmem hp
    rw [heq]
    exact h.used a p hp
  · intro a p hp
    obtain ⟨hp, heq⟩ := hmem hp
    rw [heq]
    exact h.types a p hp
  · intro p hp
    have hpb : p ∉ lists b := fun e => hp (hnone p e)
    rw [hops p hpb] at hp
    obtain ⟨a, ha⟩ := h.owned p hp
    have hab : a ≠ b := fun e => hpb (e ▸ ha)
    refine ⟨a, ?_⟩
    rw [Function.update_of_ne hab]
    exact ha
  · intro a c p ha hc
    exact h.disjoint a c p (hmem ha).1 (hmem hc).1

end Pool

end NanoDrone.Log
