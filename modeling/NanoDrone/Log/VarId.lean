import NanoDrone.Log.Toc

/-! # Variables by name (`logGetVarId`)

Inside the drone a variable is referred to by its place in the table, markers included.
`logGetVarId` looks the place up for a group and a name, and `logGetGroupAndName` gives them back.
Both replay the group markers, each with a group name of its own.  `varId_inverse` says that they
are inverse on every table whose variables have different names. -/

namespace NanoDrone.Log

/-! ### The code -/

/-- `invalidVarId`. -/
def invalidVarId : ℕ := 0xffff

/-- The running group name behind an entry. -/
def LogEntry.currgroup (curr : List UInt8) (e : LogEntry) : List UInt8 :=
  if e.type &&& logGroup ≠ 0 then
    if e.type &&& logStart ≠ 0 then e.name else curr
  else curr

/-- The loop of `logGetVarId` from the entry `i` on; the names are compared up to their zeros. -/
def varIdLoop (group name : List UInt8) : List LogEntry → ℕ → List UInt8 → ℕ
  | [], _, _ => invalidVarId
  | e :: rest, i, curr =>
      if e.type &&& logGroup ≠ 0 then varIdLoop group name rest (i + 1) (e.currgroup curr)
      else if group = curr ∧ name = e.name then i % 2 ^ 16
      else varIdLoop group name rest (i + 1) curr

def logGetVarId (logs : List LogEntry) (group name : List UInt8) : ℕ :=
  varIdLoop group name logs 0 []

/-- The loop of `logGetGroupAndName`; none leaves the null pointers. -/
def groupAndNameLoop (varid : ℕ) : List LogEntry → ℕ → List UInt8 → Option (List UInt8 × List UInt8)
  | [], _, _ => none
  | e :: rest, i, curr =>
      if i = varid then some (e.currgroup curr, e.name)
      else groupAndNameLoop varid rest (i + 1) (e.currgroup curr)

def logGetGroupAndName (logs : List LogEntry) (varid : ℕ) : Option (List UInt8 × List UInt8) :=
  groupAndNameLoop varid logs 0 []

/-! ### The variables of a table -/

/-- The group and the name of every variable. -/
def tocPairs (groups : List LogGroup) : List (List UInt8 × List UInt8) :=
  groups.flatMap fun g => g.vars.map fun v => (g.name, v.name)

theorem tocEntries_append (xs ys : List LogGroup) :
    tocEntries (xs ++ ys) = tocEntries xs ++ tocEntries ys := List.flatMap_append

/-- Around a variable lie the earlier entries of its group, and the groups before and behind. -/
theorem tocEntries_split {g : LogGroup} {before after : List LogGroup} {vars rest : List LogAdd}
    {v : LogAdd} (h : g.vars = vars ++ v :: rest) :
    tocEntries (before ++ g :: after) =
      tocEntries before ++ g.start :: (vars.map LogAdd.entry ++
        v.entry :: (rest.map LogAdd.entry ++ g.stop :: tocEntries after)) := by
  rw [tocEntries_append, tocEntries_cons, h, List.map_append, List.map_cons, List.append_assoc]
  rfl

/-- Every entry that is no marker is a variable of a group. -/
theorem entryAt_of_getElem? {groups : List LogGroup} {i : ℕ} {e : LogEntry}
    (he : (tocEntries groups)[i]? = some e) (hvar : e.type &&& logGroup = 0) :
    ∃ g v, EntryAt groups i g v ∧ e = v.entry := by
  induction groups generalizing i with
  | nil => cases he
  | cons g groups ih =>
      rw [tocEntries_cons] at he
      obtain rfl | ⟨j, rfl⟩ : i = 0 ∨ ∃ j, i = 1 + j := by
        cases i with
        | zero => exact Or.inl rfl
        | succ j => exact Or.inr ⟨j, Nat.add_comm j 1⟩
      · cases he
        exact absurd hvar g.start_isGroup
      · rw [Nat.add_comm, List.getElem?_cons_succ] at he
        have hlen : (g.vars.map LogAdd.entry).length = g.vars.length := List.length_map _
        rcases Nat.lt_or_ge j g.vars.length with hj | hj
        · -- one of the variables of this group
          rw [List.getElem?_append_left (by omega), List.getElem?_map,
            List.getElem?_eq_getElem hj] at he
          cases he
          have hsplit : g.vars = g.vars.take j ++ g.vars[j] :: g.vars.drop (j + 1) := by simp
          have hat : EntryAt (g :: groups) _ g g.vars[j] := .here hsplit
          rw [List.length_take, Nat.min_eq_left hj.le] at hat
          exact ⟨g, g.vars[j], hat, rfl⟩
        · -- the stop marker, or an entry of a later group
          rw [List.getElem?_append_right (by omega), hlen] at he
          obtain hk | ⟨k, hk⟩ : j - g.vars.length = 0 ∨ ∃ k, j - g.vars.length = k + 1 := by
            cases j - g.vars.length with
            | zero => exact Or.inl rfl
            | succ k => exact Or.inr ⟨k, rfl⟩
          · rw [hk] at he
            cases he
            exact absurd hvar g.stop_isGroup
          · rw [hk, List.getElem?_cons_succ] at he
            obtain ⟨g', v, hat, rfl⟩ := ih he
            have hpos : 1 + j = g.vars.length + 2 + k := by omega
            exact ⟨g', v, hpos ▸ hat.later, rfl⟩

/-! ### The name of a variable -/

/-- Variables leave the running group name. -/
theorem foldl_currgroup_vars (vars : List LogAdd) (curr : List UInt8) :
    (vars.map LogAdd.entry).foldl LogEntry.currgroup curr = curr := by
  induction vars with
  | nil => rfl
  | cons v vars ih =>
      rw [List.map_cons, List.foldl_cons, LogEntry.currgroup, if_neg v.entry_isVariable]
      exact ih

theorem currgroup_start (g : LogGroup) (curr : List UInt8) : g.start.currgroup curr = g.name := by
  unfold LogEntry.currgroup
  rw [if_pos g.start_isGroup, if_pos g.start_isStart]
  rfl

/-- The loop goes on behind entries before the searched one. -/
theorem groupAndNameLoop_append {varid i : ℕ} {xs rest : List LogEntry} {curr : List UInt8}
    (h : i + xs.length ≤ varid) : groupAndNameLoop varid (xs ++ rest) i curr =
      groupAndNameLoop varid rest (i + xs.length) (xs.foldl LogEntry.currgroup curr) := by
  induction xs generalizing i curr with
  | nil => rfl
  | cons e xs ih =>
      rw [List.length_cons] at h
      rw [List.cons_append, groupAndNameLoop, if_neg (by omega), ih (by omega), List.length_cons,
        List.foldl_cons, Nat.add_assoc, Nat.add_comm 1]

/-- A variable has the name of its group, which the last start marker before it shows. -/
theorem logGetGroupAndName_of_entryAt {groups : List LogGroup} {i : ℕ} {g : LogGroup} {v : LogAdd}
    (h : EntryAt groups i g v) :
    logGetGroupAndName (tocEntries groups) i = some (g.name, v.name) := by
  obtain ⟨before, after, vars, rest, rfl, hvars, rfl⟩ := h
  have hlen : (vars.map LogAdd.entry).length = vars.length := List.length_map _
  unfold logGetGroupAndName
  rw [tocEntries_split hvars, groupAndNameLoop_append (by omega), groupAndNameLoop,
    if_neg (by omega), currgroup_start, groupAndNameLoop_append (by omega), foldl_currgroup_vars,
    groupAndNameLoop, if_pos (by omega), LogEntry.currgroup, if_neg v.entry_isVariable]
  rfl

/-! ### The place of a name -/

section
variable {group name : List UInt8}

/-- The loop goes on behind the variables of a group with other names. -/
theorem varIdLoop_vars {vars : List LogAdd} {rest : List LogEntry} {i : ℕ} {curr : List UInt8}
    (h : (group, name) ∉ vars.map fun v => (curr, v.name)) :
    varIdLoop group name (vars.map LogAdd.entry ++ rest) i curr =
      varIdLoop group name rest (i + vars.length) curr := by
  induction vars generalizing i with
  | nil => rfl
  | cons v vars ih =>
      rw [List.map_cons, List.mem_cons, not_or, Prod.mk.injEq] at h
      have hother : ¬ (group = curr ∧ name = v.entry.name) := h.1
      rw [List.map_cons, List.cons_append, varIdLoop, if_neg v.entry_isVariable, if_neg hother,
        ih h.2, List.length_cons, Nat.add_assoc, Nat.add_comm 1]

/-- The loop goes on behind groups without the searched variable. -/
theorem varIdLoop_groups {groups : List LogGroup} (rest : List LogEntry) (i : ℕ)
    (curr : List UInt8) (h : (group, name) ∉ tocPairs groups) :
    ∃ curr', varIdLoop group name (tocEntries groups ++ rest) i curr =
      varIdLoop group name rest (i + (tocEntries groups).length) curr' := by
  induction groups generalizing i curr with
  | nil => exact ⟨curr, rfl⟩
  | cons g groups ih =>
      rw [tocPairs, List.flatMap_cons, List.mem_append, not_or] at h
      obtain ⟨curr', hrest⟩ := ih (i + 1 + g.vars.length + 1) (g.stop.currgroup g.name) h.2
      refine ⟨curr', ?_⟩
      have hlen : i + (tocEntries (g :: groups)).length =
          i + 1 + g.vars.length + 1 + (tocEntries groups).length := by
        rw [tocEntries_cons]
        simp only [List.length_cons, List.length_append, List.length_map]
        omega
      rw [hlen, ← hrest, tocEntries_cons, List.cons_append, varIdLoop, if_pos g.start_isGroup,
        currgroup_start, List.append_assoc, varIdLoop_vars h.1, List.cons_append, varIdLoop,
        if_pos g.stop_isGroup]

theorem logGetVarId_of_notMem {groups : List LogGroup} (h : (group, name) ∉ tocPairs groups) :
    logGetVarId (tocEntries groups) group name = invalidVarId := by
  obtain ⟨curr, hrest⟩ := varIdLoop_groups [] 0 [] h
  rw [List.append_nil] at hrest
  exact hrest

end

/-- A variable is found at its place when no variable before it has its names. -/
theorem logGetVarId_of_entryAt {groups : List LogGroup} {i : ℕ} {g : LogGroup} {v : LogAdd}
    (hnodup : (tocPairs groups).Nodup) (hi : i < 2 ^ 16) (h : EntryAt groups i g v) :
    logGetVarId (tocEntries groups) g.name v.name = i := by
  obtain ⟨before, after, vars, rest, rfl, hvars, rfl⟩ := h
  have hpairs : tocPairs (before ++ g :: after) = tocPairs before ++
      (vars.map (fun v => (g.name, v.name)) ++
        (g.name, v.name) :: (rest.map (fun v => (g.name, v.name)) ++ tocPairs after)) := by
    unfold tocPairs
    rw [List.flatMap_append, List.flatMap_cons, hvars, List.map_append, List.map_cons,
      List.append_assoc]
    rfl
  rw [hpairs] at hnodup
  have hbefore : (g.name, v.name) ∉ tocPairs before := by
    intro hmem
    exact List.disjoint_of_nodup_append hnodup hmem
      (List.mem_append_right _ List.mem_cons_self)
  have hgroup : (g.name, v.name) ∉ vars.map (fun v => (g.name, v.name)) := by
    intro hmem
    exact List.disjoint_of_nodup_append (List.nodup_append.mp hnodup).2.1 hmem List.mem_cons_self
  unfold logGetVarId
  rw [tocEntries_split hvars]
  obtain ⟨curr, hskip⟩ := varIdLoop_groups _ 0 [] hbefore
  rw [hskip, varIdLoop, if_pos g.start_isGroup, currgroup_start, varIdLoop_vars hgroup, varIdLoop,
    if_neg v.entry_isVariable, if_pos ⟨rfl, rfl⟩, Nat.zero_add]
  exact Nat.mod_eq_of_lt hi

/-- **Names and places.**  In every table laid out in groups, of fewer than 65535 entries and with
different pairs of names, the place of a variable leads to the names of its group and itself, and
these lead back to the place; other names lead to the invalid place. -/
theorem varId_inverse {groups : List LogGroup} (hlen : (tocEntries groups).length < 65535)
    (hnodup : (tocPairs groups).Nodup) :
    (∀ i e, (tocEntries groups)[i]? = some e → e.type &&& logGroup = 0 →
      ∃ g v, EntryAt groups i g v ∧ e = v.entry ∧
        logGetGroupAndName (tocEntries groups) i = some (g.name, v.name) ∧
        logGetVarId (tocEntries groups) g.name v.name = i) ∧
    ∀ group name, (group, name) ∉ tocPairs groups →
      logGetVarId (tocEntries groups) group name = invalidVarId := by
  refine ⟨fun i e he hvar => ?_, fun group name h => logGetVarId_of_notMem h⟩
  obtain ⟨g, v, hat, rfl⟩ := entryAt_of_getElem? he hvar
  have hi : i < 2 ^ 16 := by
    obtain ⟨hlt, -⟩ := List.getElem?_eq_some_iff.mp he
    omega
  exact ⟨g, v, hat, rfl, logGetGroupAndName_of_entryAt hat, logGetVarId_of_entryAt hnodup hi hat⟩

/-- A group that is opened twice. -/
theorem varId_inverse_twice :
    let a : LogAdd := ⟨1, [0x61], none, by decide⟩
    let b : LogAdd := ⟨3, [0x62], none, by decide⟩
    let groups : List LogGroup := [⟨[0x67], [a]⟩, ⟨[0x68], [a, b]⟩, ⟨[0x67], [b]⟩]
    (∀ i e, (tocEntries groups)[i]? = some e → e.type &&& logGroup = 0 →
      ∃ g v, EntryAt groups i g v ∧ e = v.entry ∧
        logGetGroupAndName (tocEntries groups) i = some (g.name, v.name) ∧
        logGetVarId (tocEntries groups) g.name v.name = i) ∧
    ∀ group name, (group, name) ∉ tocPairs groups →
      logGetVarId (tocEntries groups) group name = invalidVarId :=
  varId_inverse (by decide) (by decide)

end NanoDrone.Log
