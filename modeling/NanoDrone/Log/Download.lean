import NanoDrone.Lib.Wire
import NanoDrone.Log.TocHash
import NanoDrone.Log.VarId

/-! # Downloading the table of contents

A client builds its own table: it asks for the number of variables, then for each of them, and
takes the answers apart.  `download` is such a client, for the second version of the protocol.  It
ends up with all the variables of the drone, in the order of their numbers (`download_table`). -/

namespace NanoDrone.Log

/-! ### The client -/

/-- What a client knows of a variable. -/
structure TocElement where
  ident : ℕ
  group : List UInt8
  name : List UInt8
  ctype : ℕ
deriving DecidableEq, Repr

/-- An answer with a variable; none if it is too short for one. -/
def TocElement.ofAnswer : List UInt8 → Option TocElement
  | _ :: lo :: hi :: ctype :: names =>
      let group := upTo 0 names
      some ⟨ofLeBytes [lo, hi], group.1, (upTo 0 group.2).1, ctype.toNat⟩
  | _ => none

/-- A request in the packet `p`, behind which there may be anything. -/
def tocRequest (behind : Bytes) (request : List UInt8) : TocPacket where
  header := tocHeader
  size := UInt8.ofNat request.length
  data := behind.write 0 request

/-- `logTask` with a packet of the channel `TOC_CH`: what it sends, if anything. -/
def tocAnswer (toc : Toc) (p : TocPacket) : Option (List UInt8) :=
  match logTOCProcess toc (p.data 0).toNat p with
  | .sent a => some a.payload
  | _ => none

def downloadItem (toc : Toc) (behind : Bytes) (id : ℕ) : Option TocElement :=
  (tocAnswer toc (tocRequest behind (UInt8.ofNat cmdGetItemV2 :: leBytes 2 id))).bind
    TocElement.ofAnswer

/-- Each request comes with bytes of its own behind it. -/
def download (toc : Toc) (behind : ℕ → Bytes) : Option (List TocElement) := do
  let info ← tocAnswer toc (tocRequest (behind 0) [UInt8.ofNat cmdGetInfoV2])
  (List.range (ofLeBytes ((info.drop 1).take 2))).mapM fun id =>
    downloadItem toc (behind (id + 1)) id

/-! ### The table -/

/-- The variables in the order of their numbers, each with its group. -/
def tocVariables (groups : List LogGroup) : List (LogGroup × LogAdd) :=
  groups.flatMap fun g => g.vars.map fun v => (g, v)

/-- What there is to know of the variable with the number `id`. -/
def tocElement (id : ℕ) (x : LogGroup × LogAdd) : TocElement where
  ident := id
  group := x.1.name
  name := x.2.name
  ctype := x.2.type &&& logTypeMask

/-- Names end with their zeros. -/
def ZeroFree (groups : List LogGroup) : Prop :=
  ∀ g ∈ groups, 0 ∉ g.name ∧ ∀ v ∈ g.vars, 0 ∉ v.name

/-- A table that `logInit` has gone through inside its packet, for some checksum.  It has fewer than
65535 entries: `logInit` does not look at that, and its count has 16 bits. -/
structure Toc.Accepts (toc : Toc) (groups : List LogGroup) : Prop where
  init : ∃ crc32CalculateBuffer, logInitToc crc32CalculateBuffer (tocEntries groups) = some toc
  length : (tocEntries groups).length < 65535
  zeroFree : ZeroFree groups

theorem tocVariables_cons (g : LogGroup) (groups : List LogGroup) :
    tocVariables (g :: groups) = g.vars.map (fun v => (g, v)) ++ tocVariables groups :=
  List.flatMap_cons

theorem tocVariables_length_le (groups : List LogGroup) :
    (tocVariables groups).length ≤ (tocEntries groups).length := by
  induction groups with
  | nil => simp [tocVariables, tocEntries]
  | cons g groups ih =>
      rw [tocVariables_cons, tocEntries_cons]
      simp
      omega

theorem mem_of_mem_tocVariables {groups : List LogGroup} {x : LogGroup × LogAdd}
    (h : x ∈ tocVariables groups) : x.1 ∈ groups ∧ x.2 ∈ x.1.vars := by
  obtain ⟨g, hg, hx⟩ := List.mem_flatMap.mp h
  obtain ⟨v, hv, rfl⟩ := List.mem_map.mp hx
  exact ⟨hg, hv⟩

section
variable {id ptr n : ℕ} {group : List UInt8}

/-- The count goes over the variables of a group, and then over what is behind them. -/
theorem countVariables_vars {vars : List LogAdd} {rest : List LogEntry}
    (hn : n + vars.length < 2 ^ 16) : countVariables (vars.map LogAdd.entry ++ rest) n =
      countVariables rest (n + vars.length) := by
  induction vars generalizing n with
  | nil => rfl
  | cons v vars ih =>
      rw [List.length_cons] at hn
      rw [List.map_cons, List.cons_append, countVariables, if_pos (not_not.mp v.entry_isVariable),
        Nat.mod_eq_of_lt (by omega), ih (by omega), List.length_cons, Nat.add_assoc,
        Nat.add_comm 1]

/-- `logsCount` is the number of variables. -/
theorem countVariables_toc {groups : List LogGroup} (hn : n + (tocEntries groups).length < 2 ^ 16) :
    countVariables (tocEntries groups) n = n + (tocVariables groups).length := by
  induction groups generalizing n with
  | nil => rfl
  | cons g groups ih =>
      rw [tocEntries_cons] at hn ⊢
      simp only [List.length_cons, List.length_append, List.length_map] at hn
      rw [countVariables, if_neg g.start_isGroup, countVariables_vars (by omega), countVariables,
        if_neg g.stop_isGroup, ih (by omega), tocVariables_cons]
      simp [Nat.add_assoc]

/-- The loop finds the variable of a group that has the number, or passes all of them. -/
theorem findItem_vars_eq {vars : List LogAdd} {rest : List LogEntry} (hid : n ≤ id)
    (hn : n + vars.length < 2 ^ 16) : findItem id (vars.map LogAdd.entry ++ rest) ptr n group =
      if id < n + vars.length then some (ptr + (id - n), group)
      else findItem id rest (ptr + vars.length) (n + vars.length) group := by
  induction vars generalizing ptr n with
  | nil => simp [Nat.not_lt.mpr hid]
  | cons v vars ih =>
      rw [List.length_cons] at hn
      rw [List.map_cons, List.cons_append, findItem, if_neg v.entry_isVariable, List.length_cons]
      by_cases hhere : n = id
      · rw [if_pos hhere, if_pos (by omega), hhere, Nat.sub_self]
        rfl
      · rw [if_neg hhere, Nat.mod_eq_of_lt (by omega), ih (by omega) (by omega)]
        have hcount : n + 1 + vars.length = n + (vars.length + 1) := by omega
        have hptr : ptr + 1 + vars.length = ptr + (vars.length + 1) := by omega
        rw [hcount, hptr]
        split
        · congr 2
          omega
        · rfl

/-- The loop finds the variable with the number, and its group. -/
theorem findItem_tocVariables {groups : List LogGroup} {x : LogGroup × LogAdd} (hid : n ≤ id)
    (hn : n + (tocEntries groups).length < 2 ^ 16) (hx : (tocVariables groups)[id - n]? = some x) :
    ∃ pos, findItem id (tocEntries groups) ptr n group = some (ptr + pos, x.1.name) ∧
      EntryAt groups pos x.1 x.2 := by
  induction groups generalizing ptr n group with
  | nil => simp [tocVariables] at hx
  | cons g groups ih =>
      rw [tocEntries_cons] at hn ⊢
      simp only [List.length_cons, List.length_append, List.length_map] at hn
      rw [findItem, if_pos g.start_isGroup, if_pos g.start_isStart,
        findItem_vars_eq hid (by omega)]
      rw [tocVariables_cons] at hx
      by_cases hhere : id < n + g.vars.length
      · have hlt : id - n < g.vars.length := by omega
        rw [List.getElem?_append_left (by simpa using hlt), List.getElem?_map,
          List.getElem?_eq_getElem hlt] at hx
        cases hx
        have hsplit : g.vars = g.vars.take (id - n) ++ g.vars[id - n] :: g.vars.drop (id - n + 1) :=
          by simp
        have hat : EntryAt (g :: groups) _ g g.vars[id - n] := .here hsplit
        rw [List.length_take, Nat.min_eq_left hlt.le] at hat
        rw [if_pos hhere]
        exact ⟨1 + (id - n), by rw [Nat.add_assoc]; rfl, hat⟩
      · rw [List.getElem?_append_right (by simp; omega), List.length_map, Nat.sub_sub] at hx
        rw [if_neg hhere, findItem, if_pos g.stop_isGroup]
        obtain ⟨pos, hfind, hat⟩ := ih (by omega) (by omega) hx
        exact ⟨_, hfind.trans (by simp; omega), hat.later⟩

end

/-! ### The answers -/

section
variable {toc : Toc} {groups : List LogGroup} (behind : Bytes)

theorem tocRequest_command (c : UInt8) (request : List UInt8) :
    (tocRequest behind (c :: request)).data 0 = c := by
  simp [tocRequest, Bytes.write]

theorem tocRequest_body (c : UInt8) (request : List UInt8) :
    (tocRequest behind (c :: request)).data.slice 1 request.length = request := by
  have hall : (tocRequest behind (c :: request)).data.slice 0 (1 + request.length) =
      c :: request := by
    rw [Nat.add_comm]
    exact Bytes.slice_write_self behind 0 (c :: request)
  rw [Bytes.slice_append] at hall
  exact (List.cons.inj hall).2

theorem Toc.Accepts.tocInit_eq (h : toc.Accepts groups) :
    ∃ crc, tocInit (tocEntries groups) crc = some toc := by
  obtain ⟨_, hinit⟩ := h.init
  exact tocInit_of_logInitToc hinit

theorem Toc.Accepts.logs (h : toc.Accepts groups) : toc.logs = tocEntries groups := by
  obtain ⟨crc, hinit⟩ := h.tocInit_eq
  unfold tocInit at hinit
  split at hinit
  · cases hinit
    rfl
  · cases hinit

theorem Toc.Accepts.lengthsOk (h : toc.Accepts groups) : LengthsOk (tocEntries groups) 0 := by
  obtain ⟨crc, hinit⟩ := h.tocInit_eq
  unfold tocInit at hinit
  split at hinit
  · assumption
  · cases hinit

theorem Toc.Accepts.logsCount (h : toc.Accepts groups) :
    toc.logsCount = (tocVariables groups).length := by
  have hlength := h.length
  obtain ⟨crc, hinit⟩ := h.tocInit_eq
  unfold tocInit at hinit
  split at hinit
  · cases hinit
    have hcount : countVariables (tocEntries groups) 0 = 0 + (tocVariables groups).length :=
      countVariables_toc (by omega)
    simpa using hcount
  · cases hinit

theorem Toc.Accepts.count_lt (h : toc.Accepts groups) : (tocVariables groups).length < 65535 :=
  (tocVariables_length_le groups).trans_lt h.length

/-- The client reads what the drone wrote. -/
theorem ofAnswer_itemPayload {g : LogGroup} {v : LogAdd} {id : ℕ} (cmd : UInt8) (hid : id < 65536)
    (hg : 0 ∉ g.name) (hv : 0 ∉ v.name) :
    TocElement.ofAnswer (itemPayload cmd 2 id g v) = some (tocElement id (g, v)) := by
  have hident : ofLeBytes (leBytes 2 id) = id := by
    rw [ofLeBytes_leBytes]
    omega
  have htype : (v.type &&& logTypeMask) % 2 ^ 8 = v.type &&& logTypeMask :=
    Nat.mod_eq_of_lt (Nat.and_le_right.trans_lt (by decide))
  have hnames : upTo 0 ((g.name ++ [0]) ++ (v.name ++ [0])) = (g.name, v.name ++ [0]) := by
    rw [List.append_assoc]
    exact upTo_append hg
  change some (TocElement.mk (ofLeBytes (leBytes 2 id))
    (upTo 0 ((g.name ++ [0]) ++ (v.name ++ [0]))).1
    (upTo 0 (upTo 0 ((g.name ++ [0]) ++ (v.name ++ [0]))).2).1 _) = _
  rw [hident, hnames, upTo_append hv, UInt8.toNat_ofNat', htype]
  rfl

/-- The drone finds the variable with the number that the client asks for. -/
theorem Toc.Accepts.downloadItem_eq (h : toc.Accepts groups) {id : ℕ}
    (hid : id < (tocVariables groups).length) :
    downloadItem toc behind id = some (tocElement id (tocVariables groups)[id]) := by
  have hlength := h.length
  have hcount := h.count_lt
  have hrequested : requestedId 2 (tocRequest behind (UInt8.ofNat cmdGetItemV2 :: leBytes 2 id)) =
      id := by
    have hbody := tocRequest_body behind (UInt8.ofNat cmdGetItemV2) (leBytes 2 id)
    rw [leBytes_length] at hbody
    rw [requestedId, hbody, ofLeBytes_leBytes]
    omega
  obtain ⟨pos, hfind, hat⟩ := @findItem_tocVariables id 0 0 [0x70, 0x6C, 0x6F, 0x70] groups _
    (Nat.zero_le id) (by omega) (List.getElem?_eq_getElem hid)
  rw [Nat.zero_add] at hfind
  have hmem := mem_of_mem_tocVariables (List.getElem_mem hid)
  have hfound : findItem (requestedId 2 (tocRequest behind (UInt8.ofNat cmdGetItemV2 ::
      leBytes 2 id))) toc.logs 0 0 [0x70, 0x6C, 0x6F, 0x70] =
        some (pos, (tocVariables groups)[id].1.name) := by
    rw [hrequested, h.logs]
    exact hfind
  obtain ⟨a, hsent, -, hpayload⟩ := getItem_found (UInt8.ofNat cmdGetItemV2) (Nat.le_refl 2) hfound
    (h.logs ▸ hat.getElem?) (lengthsOk_toc h.lengthsOk _ hmem.1 _ hmem.2)
  have hzero := h.zeroFree _ hmem.1
  have hanswer : tocAnswer toc (tocRequest behind (UInt8.ofNat cmdGetItemV2 :: leBytes 2 id)) =
      some a.payload := by
    unfold tocAnswer
    rw [tocRequest_command]
    change (match getItem _ 2 toc _ with | .sent a => some a.payload | _ => none) = _
    rw [hsent]
  rw [downloadItem, hanswer, hpayload, hrequested, Option.bind_some]
  exact ofAnswer_itemPayload (UInt8.ofNat cmdGetItemV2) (by omega) hzero.1 (hzero.2 _ hmem.2)

/-- The answer to the first question. -/
theorem Toc.Accepts.downloadInfo (h : toc.Accepts groups) : ∃ info,
    tocAnswer toc (tocRequest behind [UInt8.ofNat cmdGetInfoV2]) = some info ∧
      ofLeBytes ((info.drop 1).take 2) = (tocVariables groups).length := by
  have hcount := h.count_lt
  have hmod : ofLeBytes (leBytes 2 toc.logsCount) = (tocVariables groups).length := by
    rw [ofLeBytes_leBytes, h.logsCount]
    omega
  refine ⟨[UInt8.ofNat cmdGetInfoV2] ++ leBytes 2 toc.logsCount ++ leBytes 4 toc.logsCrc.toNat ++
    [UInt8.ofNat logMaxBlocks, UInt8.ofNat logMaxOps], ?_, hmod⟩
  unfold tocAnswer
  rw [tocRequest_command]
  exact congrArg some (Bytes.slice_write_self _ 0 _)

/-- The loop of the client. -/
theorem Toc.Accepts.download_eq (h : toc.Accepts groups) (behind : ℕ → Bytes) :
    download toc behind = some ((tocVariables groups).mapIdx tocElement) := by
  obtain ⟨info, hinfo, hcount⟩ := h.downloadInfo (behind 0)
  have hlength : ((tocVariables groups).mapIdx tocElement).length = (tocVariables groups).length :=
    List.length_mapIdx
  have hitems := mapM_range_eq (f := fun id => downloadItem toc (behind (id + 1)) id)
    (l := (tocVariables groups).mapIdx tocElement) fun i hi => by
      rw [List.getElem_mapIdx]
      exact h.downloadItem_eq (behind (i + 1)) (hlength ▸ hi)
  unfold download
  rw [hinfo]
  change (List.range (ofLeBytes ((info.drop 1).take 2))).mapM _ = _
  rw [hcount, ← hlength]
  exact hitems

end

/-- **Downloading.**  From a table of fewer than 65535 entries that `logInit` has gone through, a
client that asks for the number of variables and then for each of them ends up with all variables,
in order, each with its group, its name and its type. -/
theorem download_table {toc : Toc} {groups : List LogGroup} (h : toc.Accepts groups)
    (behind : ℕ → Bytes) : download toc behind = some ((tocVariables groups).mapIdx tocElement) :=
  h.download_eq behind

/-- A table of two groups. -/
def twoGroups : List LogGroup :=
  [⟨[0x70, 0x6D], [⟨logFloat, [0x76], some 0x2000, by decide⟩]⟩,
    ⟨[0x67], [⟨logUint8, [0x61], some 0x2004, by decide⟩]⟩]

def twoGroupsToc : Toc := ⟨tocEntries twoGroups, 2, 0⟩

theorem twoGroups_accepted : twoGroupsToc.Accepts twoGroups :=
  ⟨⟨fun _ => 0, rfl⟩, by decide, by unfold ZeroFree; decide⟩

theorem download_table_small : download twoGroupsToc (fun _ _ => 0xFF) =
    some [⟨0, [0x70, 0x6D], [0x76], logFloat⟩, ⟨1, [0x67], [0x61], logUint8⟩] :=
  (download_table twoGroups_accepted fun _ _ => 0xFF).trans (by decide)

end NanoDrone.Log
