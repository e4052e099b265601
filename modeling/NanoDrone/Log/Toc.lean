import NanoDrone.Log.RunBlock

/-! # The table of contents of the log

The linker lays out the table of contents group by group: a start marker, the variables and a stop
marker.  Clients refer to a variable by its number among the variables, and three loops count them:
`logTOCProcess` for the answer to a client, `variableGetIndex` for an op and `logInit` for the
total.  `logInit` also checks that the names are short enough for the answer, with a group name of
its own.

`toc_answers` says that all of them agree on every table that `logInit` accepts. -/

namespace NanoDrone.Log

/-- `LOG_START`. -/
def logStart : ℕ := 1

/-- `struct log_s`, with the bytes of the name before its zero. -/
structure LogEntry extends LogVar where
  name : List UInt8
deriving DecidableEq, Repr

/-! ### The layout -/

/-- `LOG_ADD`, `LOG_ADD_CORE` or `LOG_ADD_BY_FUNCTION`, whose types lack the bit of groups. -/
structure LogAdd where
  type : ℕ
  name : List UInt8
  address : Option Address
  isVariable : type &&& logGroup = 0

def LogAdd.entry (v : LogAdd) : LogEntry := ⟨⟨v.type, v.address⟩, v.name⟩

/-- `LOG_GROUP_START`, the variables and `LOG_GROUP_STOP`. -/
structure LogGroup where
  name : List UInt8
  vars : List LogAdd

namespace LogGroup

def start (g : LogGroup) : LogEntry := ⟨⟨logGroup ||| logStart, none⟩, g.name⟩

/-- The name of the stop marker begins with `stop_`. -/
def stop (g : LogGroup) : LogEntry :=
  ⟨⟨logGroup, none⟩, [0x73, 0x74, 0x6F, 0x70, 0x5F] ++ g.name⟩

def entries (g : LogGroup) : List LogEntry := g.start :: (g.vars.map LogAdd.entry ++ [g.stop])

end LogGroup

/-- The table from `_log_start` to `_log_stop`. -/
def tocEntries (groups : List LogGroup) : List LogEntry := groups.flatMap LogGroup.entries

/-! ### The code -/

/-- The variables of `log.c` about the table. -/
structure Toc where
  logs : List LogEntry
  logsCount : ℕ
  logsCrc : UInt32

/-- The check of `logInit`: a variable's answer has at most 26 bytes besides its head. -/
def LengthsOk : List LogEntry → ℕ → Prop
  | [], _ => True
  | e :: rest, groupLength =>
      if e.type &&& logGroup ≠ 0 then
        LengthsOk rest (if e.type &&& logStart ≠ 0 then e.name.length else groupLength)
      else e.name.length + groupLength + 2 ≤ 26 ∧ LengthsOk rest groupLength

instance LengthsOk.decidable : (logs : List LogEntry) → (groupLength : ℕ) →
    Decidable (LengthsOk logs groupLength)
  | [], _ => isTrue trivial
  | e :: rest, groupLength => by
      unfold LengthsOk
      have := LengthsOk.decidable rest
      infer_instance

/-- The count of `logInit`, in 16 bits. -/
def countVariables : List LogEntry → ℕ → ℕ
  | [], logsCount => logsCount
  | e :: rest, logsCount =>
      countVariables rest (if e.type &&& logGroup = 0 then (logsCount + 1) % 2 ^ 16 else logsCount)

/-- `logInit`: the part about the table, with the checksum that it computes; none if the assertion
fails. -/
def tocInit (logs : List LogEntry) (crc : UInt32) : Option Toc :=
  if LengthsOk logs 0 then some ⟨logs, countVariables logs 0, crc⟩ else none

/-- The packet `p`. -/
structure TocPacket where
  header : UInt8
  size : UInt8
  data : Bytes

def TocPacket.payload (p : TocPacket) : List UInt8 := p.data.slice 0 p.size.toNat

inductive TocResult where
  | sent (p : TocPacket)
  | silent
  | assertFailed

/-! The commands. -/

@[match_pattern] abbrev cmdGetItem : ℕ := 0
@[match_pattern] abbrev cmdGetInfo : ℕ := 1
@[match_pattern] abbrev cmdGetItemV2 : ℕ := 2
@[match_pattern] abbrev cmdGetInfoV2 : ℕ := 3

/-- `CRTP_HEADER(CRTP_PORT_LOG, TOC_CH)`. -/
def tocHeader : UInt8 := 0x50

/-- The loop that looks for a variable from the entry `ptr` on, with `n` variables before it. -/
def findItem (id : ℕ) : List LogEntry → ℕ → ℕ → List UInt8 → Option (ℕ × List UInt8)
  | [], _, _, _ => none
  | e :: rest, ptr, n, group =>
      if e.type &&& logGroup ≠ 0 then
        findItem id rest (ptr + 1) n (if e.type &&& logStart ≠ 0 then e.name else [])
      else if n = id then some (ptr, group)
      else findItem id rest (ptr + 1) ((n + 1) % 2 ^ 16) group

/-- `CMD_GET_ITEM` and `CMD_GET_ITEM_V2`, with an id of `idLength` bytes; the group at start is
`plop`. -/
def getItem (cmd : UInt8) (idLength : ℕ) (toc : Toc) (p : TocPacket) : TocResult :=
  let id := ofLeBytes (p.data.slice 1 idLength)
  match findItem id toc.logs 0 0 [0x70, 0x6C, 0x6F, 0x70] with
  | some (ptr, group) =>
      let name := (toc.logs.getD ptr ⟨⟨0, none⟩, []⟩).name
      let head := cmd :: (leBytes idLength id ++
        [UInt8.ofNat (logGetType (toc.logs.map LogEntry.toLogVar) ptr)])
      let size := UInt8.ofNat (idLength + 2 + 2 + group.length + name.length)
      if size.toNat ≤ crtpMaxDataSize then
        .sent
          { header := tocHeader
            size := size
            data := ((p.data.write 0 head).write (idLength + 2) (group ++ [0])).write
              (idLength + 2 + group.length + 1) (name ++ [0]) }
      else .assertFailed
  | none => .sent { header := tocHeader, size := 1, data := p.data.write 0 [cmd] }

def logTOCProcess (toc : Toc) (command : ℕ) (p : TocPacket) : TocResult :=
  match command with
  | cmdGetInfo => .sent
      { header := tocHeader
        size := 8
        data := p.data.write 0
          ([UInt8.ofNat cmdGetInfo,
              if toc.logsCount < 255 then UInt8.ofNat toc.logsCount else 255] ++
            leBytes 4 toc.logsCrc.toNat ++ [UInt8.ofNat logMaxBlocks, UInt8.ofNat logMaxOps]) }
  | cmdGetItem => getItem (UInt8.ofNat cmdGetItem) 1 toc p
  | cmdGetInfoV2 => .sent
      { header := tocHeader
        size := 9
        data := p.data.write 0
          ([UInt8.ofNat cmdGetInfoV2] ++ leBytes 2 toc.logsCount ++ leBytes 4 toc.logsCrc.toNat ++
            [UInt8.ofNat logMaxBlocks, UInt8.ofNat logMaxOps]) }
  | cmdGetItemV2 => getItem (UInt8.ofNat cmdGetItemV2) 2 toc p
  | _ => .silent

/-! ### The loops agree -/

section
variable {id ptr n : ℕ} {group : List UInt8}

theorem findItem_fst (entries : List LogEntry) (hn : n + entries.length < 2 ^ 16) :
    (findItem id entries ptr n group).map Prod.fst =
      variableGetIndexFrom id (entries.map LogEntry.toLogVar) ptr n := by
  induction entries generalizing ptr n group with
  | nil => rfl
  | cons e rest ih =>
      rw [List.length_cons] at hn
      rw [List.map_cons, findItem, variableGetIndexFrom]
      by_cases hgroup : e.type &&& logGroup = 0
      · rw [if_neg (not_not_intro hgroup), if_pos hgroup, Nat.mod_eq_of_lt (by omega)]
        split
        · rfl
        · exact ih (by omega)
      · rw [if_pos hgroup, if_neg hgroup]
        exact ih (by omega)

theorem le_countVariables (entries : List LogEntry) (hn : n + entries.length < 2 ^ 16) :
    n ≤ countVariables entries n := by
  induction entries generalizing n with
  | nil => exact Nat.le_refl n
  | cons e rest ih =>
      rw [List.length_cons] at hn
      rw [countVariables]
      split
      · rw [Nat.mod_eq_of_lt (by omega)]
        have hrest := ih (n := n + 1) (by omega)
        omega
      · exact ih (by omega)

/-- The variable with the number `id` is missing exactly if there are no more than that. -/
theorem variableGetIndexFrom_eq_none_iff (entries : List LogEntry) (hid : n ≤ id)
    (hn : n + entries.length < 2 ^ 16) :
    variableGetIndexFrom id (entries.map LogEntry.toLogVar) ptr n = none ↔
      countVariables entries n ≤ id := by
  induction entries generalizing ptr n with
  | nil => exact iff_of_true rfl hid
  | cons e rest ih =>
      rw [List.length_cons] at hn
      rw [List.map_cons, variableGetIndexFrom, countVariables]
      by_cases hgroup : e.type &&& logGroup = 0
      · rw [if_pos hgroup, if_pos hgroup, Nat.mod_eq_of_lt (by omega)]
        by_cases hhere : n = id
        · rw [if_pos hhere]
          have hmore := le_countVariables (n := n + 1) rest (by omega)
          exact iff_of_false nofun (by omega)
        · rw [if_neg hhere]
          exact ih (by omega) (by omega)
      · rw [if_neg hgroup, if_neg hgroup]
        exact ih hid (by omega)

end

/-! ### Groups -/

/-- The entry at `ptr` is the variable `v` of the group `g`. -/
def EntryAt (groups : List LogGroup) (ptr : ℕ) (g : LogGroup) (v : LogAdd) : Prop :=
  ∃ before after vars rest, groups = before ++ g :: after ∧ g.vars = vars ++ v :: rest ∧
    ptr = (tocEntries before).length + 1 + vars.length

theorem LogAdd.entry_isVariable (v : LogAdd) : ¬ v.entry.type &&& logGroup ≠ 0 :=
  not_not_intro v.isVariable

theorem LogGroup.start_isGroup (g : LogGroup) : g.start.type &&& logGroup ≠ 0 := by
  change (logGroup ||| logStart) &&& logGroup ≠ 0
  decide

theorem LogGroup.start_isStart (g : LogGroup) : g.start.type &&& logStart ≠ 0 := by
  change (logGroup ||| logStart) &&& logStart ≠ 0
  decide

theorem LogGroup.stop_isGroup (g : LogGroup) : g.stop.type &&& logGroup ≠ 0 := by
  change logGroup &&& logGroup ≠ 0
  decide

theorem tocEntries_cons (g : LogGroup) (groups : List LogGroup) :
    tocEntries (g :: groups) =
      g.start :: (g.vars.map LogAdd.entry ++ g.stop :: tocEntries groups) := by
  rw [tocEntries, List.flatMap_cons, LogGroup.entries, List.cons_append, List.append_assoc]
  rfl

theorem EntryAt.here {g : LogGroup} {groups : List LogGroup} {vars rest : List LogAdd} {v : LogAdd}
    (h : g.vars = vars ++ v :: rest) : EntryAt (g :: groups) (1 + vars.length) g v :=
  ⟨[], groups, vars, rest, rfl, h, by simp [tocEntries]⟩

theorem EntryAt.later {g' g : LogGroup} {groups : List LogGroup} {ptr : ℕ} {v : LogAdd}
    (h : EntryAt groups ptr g v) : EntryAt (g' :: groups) (g'.vars.length + 2 + ptr) g v := by
  obtain ⟨before, after, vars, rest, rfl, hvars, rfl⟩ := h
  refine ⟨g' :: before, after, vars, rest, rfl, hvars, ?_⟩
  rw [tocEntries_cons]
  simp only [List.length_cons, List.length_append, List.length_map]
  omega

theorem EntryAt.getElem? {groups : List LogGroup} {ptr : ℕ} {g : LogGroup} {v : LogAdd}
    (h : EntryAt groups ptr g v) : (tocEntries groups)[ptr]? = some v.entry := by
  obtain ⟨before, after, vars, rest, rfl, hvars, rfl⟩ := h
  have htoc : tocEntries (before ++ g :: after) =
      (tocEntries before ++ g.start :: vars.map LogAdd.entry) ++
        v.entry :: (rest.map LogAdd.entry ++ g.stop :: tocEntries after) := by
    rw [tocEntries, List.flatMap_append, ← tocEntries, ← tocEntries, tocEntries_cons, hvars]
    simp
  have hlen : (tocEntries before ++ g.start :: vars.map LogAdd.entry).length =
      (tocEntries before).length + 1 + vars.length := by
    simp only [List.length_append, List.length_cons, List.length_map]
    omega
  rw [htoc, ← hlen, List.getElem?_append_right (Nat.le_refl _), Nat.sub_self]
  rfl

theorem EntryAt.mem {groups : List LogGroup} {ptr : ℕ} {g : LogGroup} {v : LogAdd}
    (h : EntryAt groups ptr g v) : g ∈ groups ∧ v ∈ g.vars := by
  obtain ⟨before, after, vars, rest, rfl, hvars, rfl⟩ := h
  rw [hvars]
  exact ⟨by simp, by simp⟩

section
variable {id ptr n q : ℕ} {group group' : List UInt8}

/-- The loop finds one of the variables of the group, or it goes on behind them. -/
theorem findItem_vars {vars : List LogAdd} {rest : List LogEntry}
    (h : findItem id (vars.map LogAdd.entry ++ rest) ptr n group = some (q, group')) :
    (∃ before v after, vars = before ++ v :: after ∧ q = ptr + before.length ∧ group' = group) ∨
    ∃ n', findItem id rest (ptr + vars.length) n' group = some (q, group') := by
  induction vars generalizing ptr n with
  | nil => exact Or.inr ⟨n, h⟩
  | cons v vars ih =>
      rw [List.map_cons, List.cons_append, findItem, if_neg v.entry_isVariable] at h
      split at h
      · cases h
        exact Or.inl ⟨[], v, vars, rfl, rfl, rfl⟩
      · rcases ih h with ⟨before, w, after, rfl, rfl, hgroup⟩ | ⟨n', hrest⟩
        · refine Or.inl ⟨v :: before, w, after, rfl, ?_, hgroup⟩
          rw [List.length_cons]
          omega
        · refine Or.inr ⟨n', ?_⟩
          rw [List.length_cons, Nat.add_comm vars.length, ← Nat.add_assoc]
          exact hrest

/-- What the loop finds in a table, and in which group. -/
theorem findItem_toc {groups : List LogGroup}
    (h : findItem id (tocEntries groups) ptr n group = some (q, group')) :
    ∃ pos g v, q = ptr + pos ∧ EntryAt groups pos g v ∧ group' = g.name := by
  induction groups generalizing ptr n group with
  | nil => cases h
  | cons g groups ih =>
      rw [tocEntries_cons, findItem, if_pos g.start_isGroup, if_pos g.start_isStart] at h
      rcases findItem_vars h with ⟨before, v, after, hvars, rfl, rfl⟩ | ⟨n', hrest⟩
      · refine ⟨1 + before.length, g, v, by omega, .here hvars, rfl⟩
      · rw [findItem, if_pos g.stop_isGroup] at hrest
        obtain ⟨pos, g', v, rfl, hat, rfl⟩ := ih hrest
        exact ⟨_, g', v, by omega, hat.later, rfl⟩

theorem lengthsOk_vars {vars : List LogAdd} {rest : List LogEntry} {groupLength : ℕ}
    (h : LengthsOk (vars.map LogAdd.entry ++ rest) groupLength) :
    (∀ v ∈ vars, v.name.length + groupLength + 2 ≤ 26) ∧ LengthsOk rest groupLength := by
  induction vars with
  | nil => exact ⟨nofun, h⟩
  | cons v vars ih =>
      rw [List.map_cons, List.cons_append, LengthsOk, if_neg v.entry_isVariable] at h
      obtain ⟨hvars, hrest⟩ := ih h.2
      refine ⟨fun w hw => ?_, hrest⟩
      rcases List.mem_cons.mp hw with rfl | hw
      · exact h.1
      · exact hvars w hw

/-- The names of every variable and its group are short enough. -/
theorem lengthsOk_toc {groups : List LogGroup} {groupLength : ℕ}
    (h : LengthsOk (tocEntries groups) groupLength) :
    ∀ g ∈ groups, ∀ v ∈ g.vars, v.name.length + g.name.length + 2 ≤ 26 := by
  induction groups generalizing groupLength with
  | nil => exact nofun
  | cons g groups ih =>
      rw [tocEntries_cons, LengthsOk, if_pos g.start_isGroup, if_pos g.start_isStart] at h
      obtain ⟨hvars, hrest⟩ := lengthsOk_vars h
      rw [LengthsOk, if_pos g.stop_isGroup] at hrest
      intro g' hg'
      rcases List.mem_cons.mp hg' with rfl | hg'
      · exact hvars
      · exact ih hrest g' hg'

end

/-! ### The answers -/

/-- The number of a variable in a request. -/
def requestedId (idLength : ℕ) (p : TocPacket) : ℕ := ofLeBytes (p.data.slice 1 idLength)

/-- What the answer says of a variable. -/
def itemPayload (cmd : UInt8) (idLength id : ℕ) (g : LogGroup) (v : LogAdd) : List UInt8 :=
  cmd :: (leBytes idLength id ++ [UInt8.ofNat (v.type &&& logTypeMask)]) ++
    ((g.name ++ [0]) ++ (v.name ++ [0]))

/-- The request for a variable is answered with the entry that `variableGetIndex` selects for an op
and the group it is in, within the size of a packet; there is no such entry exactly if the answer
is out of range, and exactly if there are no more variables than the number. -/
structure ItemAnswered (groups : List LogGroup) (toc : Toc) (command idLength : ℕ)
    (p : TocPacket) : Prop where
  selected : ∀ ptr, variableGetIndex (toc.logs.map LogEntry.toLogVar) (requestedId idLength p) =
      some ptr → ∃ g v, EntryAt groups ptr g v ∧ toc.logs[ptr]? = some v.entry ∧
    ∃ a, logTOCProcess toc command p = .sent a ∧ a.size.toNat ≤ crtpMaxDataSize ∧
      a.payload = itemPayload (UInt8.ofNat command) idLength (requestedId idLength p) g v
  outOfRange : (∃ a, logTOCProcess toc command p = .sent a ∧ a.payload = [UInt8.ofNat command]) ↔
    variableGetIndex (toc.logs.map LogEntry.toLogVar) (requestedId idLength p) = none
  range : variableGetIndex (toc.logs.map LogEntry.toLogVar) (requestedId idLength p) = none ↔
    toc.logsCount ≤ requestedId idLength p

theorem itemPayload_length (cmd : UInt8) (idLength id : ℕ) (g : LogGroup) (v : LogAdd) :
    (itemPayload cmd idLength id g v).length =
      idLength + 2 + 2 + g.name.length + v.name.length := by
  simp only [itemPayload, List.length_append, List.length_cons, leBytes_length, List.length_nil]
  omega

/-- Three writes one after the other. -/
theorem item_data (data : Bytes) (cmd : UInt8) (idLength id : ℕ) (g : LogGroup) (v : LogAdd) :
    ((data.write 0 (cmd :: (leBytes idLength id ++ [UInt8.ofNat (v.type &&& logTypeMask)]))).write
        (idLength + 2) (g.name ++ [0])).write (idLength + 2 + g.name.length + 1) (v.name ++ [0]) =
      data.write 0 (itemPayload cmd idLength id g v) := by
  have hhead : 0 + (cmd :: (leBytes idLength id ++
      [UInt8.ofNat (v.type &&& logTypeMask)])).length = idLength + 2 := by
    simp only [List.length_cons, List.length_append, leBytes_length, List.length_nil]
    omega
  have hgroup : idLength + 2 + (g.name ++ [0]).length = idLength + 2 + g.name.length + 1 := by
    simp only [List.length_append, List.length_cons, List.length_nil]
    omega
  rw [← hgroup, Bytes.write_append, ← hhead, Bytes.write_append]
  rfl

/-- The entry that the loop has found is answered, and fits. -/
theorem getItem_found {toc : Toc} {p : TocPacket} {idLength ptr : ℕ} {g : LogGroup} {v : LogAdd}
    (cmd : UInt8) (hid : idLength ≤ 2)
    (hfind : findItem (requestedId idLength p) toc.logs 0 0 [0x70, 0x6C, 0x6F, 0x70] =
      some (ptr, g.name)) (hentry : toc.logs[ptr]? = some v.entry)
    (hlen : v.name.length + g.name.length + 2 ≤ 26) :
    ∃ a, getItem cmd idLength toc p = .sent a ∧ a.size.toNat ≤ crtpMaxDataSize ∧
      a.payload = itemPayload cmd idLength (requestedId idLength p) g v := by
  have hname : (toc.logs.getD ptr ⟨⟨0, none⟩, []⟩) = v.entry := by
    rw [List.getD_eq_getElem?_getD, hentry]
    rfl
  have htype : logGetType (toc.logs.map LogEntry.toLogVar) ptr = v.type &&& logTypeMask := by
    rw [logGetType, logsAt, List.getD_eq_getElem?_getD, List.getElem?_map, hentry]
    rfl
  have hsize : (UInt8.ofNat (idLength + 2 + 2 + g.name.length + v.name.length)).toNat =
      idLength + 2 + 2 + g.name.length + v.name.length := by
    rw [UInt8.toNat_ofNat']
    omega
  have hfits : (UInt8.ofNat (idLength + 2 + 2 + g.name.length + v.name.length)).toNat ≤
      crtpMaxDataSize := by
    rw [hsize]
    unfold crtpMaxDataSize
    omega
  unfold getItem
  rw [← requestedId]
  dsimp only
  rw [hfind]
  dsimp only
  have hvname : v.entry.name = v.name := rfl
  rw [hname, htype, hvname, item_data, if_pos hfits]
  refine ⟨_, rfl, hfits, ?_⟩
  rw [TocPacket.payload]
  dsimp only
  rw [hsize, ← itemPayload_length cmd idLength (requestedId idLength p)]
  exact Bytes.slice_write_self _ _ _

theorem getItem_missing {toc : Toc} {p : TocPacket} {idLength : ℕ} (cmd : UInt8)
    (hfind : findItem (requestedId idLength p) toc.logs 0 0 [0x70, 0x6C, 0x6F, 0x70] = none) :
    ∃ a, getItem cmd idLength toc p = .sent a ∧ a.payload = [cmd] := by
  unfold getItem
  rw [← requestedId]
  dsimp only
  rw [hfind]
  exact ⟨_, rfl, Bytes.slice_write_self p.data 0 [cmd]⟩

/-- Both versions of the request. -/
theorem item_answered {groups : List LogGroup} {crc : UInt32} {toc : Toc} {command idLength : ℕ}
    (hlen : (tocEntries groups).length < 65535) (hinit : tocInit (tocEntries groups) crc = some toc)
    (p : TocPacket) (hid : idLength ≤ 2)
    (hcmd : logTOCProcess toc command p = getItem (UInt8.ofNat command) idLength toc p) :
    ItemAnswered groups toc command idLength p := by
  unfold tocInit at hinit
  split at hinit
  · rename_i hok
    cases hinit
    have hfst : (findItem (requestedId idLength p) (tocEntries groups) 0 0
        [0x70, 0x6C, 0x6F, 0x70]).map Prod.fst = variableGetIndexFrom (requestedId idLength p)
          ((tocEntries groups).map LogEntry.toLogVar) 0 0 :=
      findItem_fst (tocEntries groups) (by omega)
    have hrange : variableGetIndexFrom (requestedId idLength p)
        ((tocEntries groups).map LogEntry.toLogVar) 0 0 = none ↔
          countVariables (tocEntries groups) 0 ≤ requestedId idLength p :=
      variableGetIndexFrom_eq_none_iff (tocEntries groups) (Nat.zero_le _) (by omega)
    have hselected : ∀ ptr, variableGetIndex ((tocEntries groups).map LogEntry.toLogVar)
        (requestedId idLength p) = some ptr → ∃ g v, EntryAt groups ptr g v ∧
        (tocEntries groups)[ptr]? = some v.entry ∧
        ∃ a, logTOCProcess ⟨tocEntries groups, countVariables (tocEntries groups) 0, crc⟩
          command p = .sent a ∧ a.size.toNat ≤ crtpMaxDataSize ∧
          a.payload = itemPayload (UInt8.ofNat command) idLength (requestedId idLength p) g v := by
      intro ptr hptr
      rw [variableGetIndex, ← hfst] at hptr
      obtain ⟨⟨q, group⟩, hfind, rfl⟩ := Option.map_eq_some_iff.mp hptr
      obtain ⟨pos, g, v, hpos, hat, rfl⟩ := findItem_toc hfind
      rw [Nat.zero_add] at hpos
      subst hpos
      have hnames := lengthsOk_toc hok g hat.mem.1 v hat.mem.2
      rw [hcmd]
      exact ⟨g, v, hat, hat.getElem?, getItem_found _ hid hfind hat.getElem? hnames⟩
    refine ⟨hselected, ⟨?_, fun hnone => ?_⟩, hrange⟩
    · rintro ⟨a, hsent, hpayload⟩
      cases hindex : variableGetIndex ((tocEntries groups).map LogEntry.toLogVar)
          (requestedId idLength p) with
      | none => rfl
      | some ptr =>
          obtain ⟨g, v, -, -, a', hsent', -, hpayload'⟩ := hselected ptr hindex
          rw [hsent] at hsent'
          cases hsent'
          have hlong := congrArg List.length (hpayload.symm.trans hpayload')
          rw [itemPayload_length, List.length_singleton] at hlong
          omega
    · rw [variableGetIndex, ← hfst, Option.map_eq_none_iff] at hnone
      rw [hcmd]
      exact getItem_missing _ hnone
  · cases hinit

/-- **The table of contents.**  For every table that `logInit` accepts, both requests for a variable
are answered, for every number, with the group, the name and the type of the entry that an op with
this number gets, within the size of a packet; out of range is exactly what has no such entry. -/
theorem toc_answers {groups : List LogGroup} {crc : UInt32} {toc : Toc}
    (hlen : (tocEntries groups).length < 65535) (hinit : tocInit (tocEntries groups) crc = some toc)
    (p : TocPacket) : ItemAnswered groups toc cmdGetItem 1 p ∧
      ItemAnswered groups toc cmdGetItemV2 2 p :=
  ⟨item_answered hlen hinit p (by decide) rfl, item_answered hlen hinit p (by decide) rfl⟩

/-- A table of one group with one variable. -/
theorem toc_answers_small :
    ItemAnswered [⟨[0x70, 0x6D], [⟨logFloat, [0x76], some 0x2000, by decide⟩]⟩]
      ⟨tocEntries [⟨[0x70, 0x6D], [⟨logFloat, [0x76], some 0x2000, by decide⟩]⟩], 1, 0⟩
      cmdGetItem 1 ⟨0x50, 2, fun _ => 0⟩ ∧
    ItemAnswered [⟨[0x70, 0x6D], [⟨logFloat, [0x76], some 0x2000, by decide⟩]⟩]
      ⟨tocEntries [⟨[0x70, 0x6D], [⟨logFloat, [0x76], some 0x2000, by decide⟩]⟩], 1, 0⟩
      cmdGetItemV2 2 ⟨0x50, 2, fun _ => 0⟩ :=
  toc_answers (by decide) (if_pos (by decide)) ⟨0x50, 2, fun _ => 0⟩

end NanoDrone.Log
