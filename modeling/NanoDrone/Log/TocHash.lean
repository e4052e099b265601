import NanoDrone.Log.Toc

/-! # The hash of the table of contents

`logInit` computes a checksum over the table by chaining its entries: the checksum so far, the type
and the name of an entry are copied to the data of the packet `p`, and the next checksum is that of
these bytes.  The loop also checks the names of variables, but for the answers to requests; the
markers of the groups are copied too.

`copies_inside_iff` says for which tables all copies stay in the packet, and `logInitToc_isSome_iff`
which tables `logInit` takes without leaving it.  The checksum of a buffer is a parameter. -/

namespace NanoDrone.Log

/-- A `memcpy` to `p.data`. -/
structure Copy where
  offset : ℕ
  bytes : List UInt8
deriving DecidableEq, Repr

/-- What the loop goes on with; `group` matters for a message only. -/
structure HashState where
  data : Bytes
  logsCrc : UInt32
  groupLength : ℕ

/-- The copies of one entry: `logsCrc`, the type and the name. -/
def LogEntry.copies (e : LogEntry) (logsCrc : UInt32) : List Copy :=
  [⟨0, leBytes 4 logsCrc.toNat⟩, ⟨4, [UInt8.ofNat e.type]⟩, ⟨5, e.name⟩]

section
variable (crc32CalculateBuffer : List UInt8 → UInt32)

/-- The loop over the table: the copies that it makes, and what it leaves unless the assertion
fails. -/
def hashLoop : List LogEntry → HashState → List Copy × Option HashState
  | [], h => ([], some h)
  | e :: rest, h =>
      let copies := e.copies h.logsCrc
      let isGroup := e.type &&& logGroup ≠ 0
      if ¬ isGroup ∧ e.name.length + h.groupLength + 2 > 26 then
        -- the name has not been copied yet
        (copies.take 2, none)
      else
        let data := copies.foldl (fun data c => data.write c.offset c.bytes) h.data
        let r := hashLoop rest
          { data := data
            logsCrc := crc32CalculateBuffer (data.slice 0 (5 + e.name.length))
            groupLength :=
              if isGroup ∧ e.type &&& logStart ≠ 0 then e.name.length else h.groupLength }
        (copies ++ r.1, r.2)

/-- The loop of `logInit`; the packet is zero before. -/
def hashToc (logs : List LogEntry) : List Copy × Option HashState :=
  hashLoop crc32CalculateBuffer logs ⟨fun _ => 0, 0, 0⟩

end

/-- A copy stays in the data of the packet. -/
def Copy.Inside (c : Copy) : Prop := c.offset + c.bytes.length ≤ crtpMaxDataSize

instance (c : Copy) : Decidable c.Inside := inferInstanceAs (Decidable (_ ≤ _))

section
variable (crc32CalculateBuffer : List UInt8 → UInt32)

/-- `logInit`: the part about the table, with its checksum; none if the assertion fails or a copy
leaves the packet. -/
def logInitToc (logs : List LogEntry) : Option Toc :=
  let r := hashToc crc32CalculateBuffer logs
  if ∀ c ∈ r.1, c.Inside then r.2.bind fun h => tocInit logs h.logsCrc else none

end

/-! ### Copies and names -/

variable {crc32CalculateBuffer : List UInt8 → UInt32} {logs : List LogEntry} {h : HashState}

/-- Only the copy of the name can be too long. -/
theorem LogEntry.copies_inside (e : LogEntry) (logsCrc : UInt32) :
    (∀ c ∈ e.copies logsCrc, c.Inside) ↔ 5 + e.name.length ≤ crtpMaxDataSize := by
  simp [copies, Copy.Inside, leBytes_length, crtpMaxDataSize]

theorem hashLoop_cons {e : LogEntry} {rest : List LogEntry}
    (hdone : (hashLoop crc32CalculateBuffer (e :: rest) h).2 ≠ none) :
    ∃ h', (hashLoop crc32CalculateBuffer rest h').2 ≠ none ∧
      (hashLoop crc32CalculateBuffer (e :: rest) h).1 =
        e.copies h.logsCrc ++ (hashLoop crc32CalculateBuffer rest h').1 := by
  rw [hashLoop] at hdone ⊢
  dsimp only at hdone ⊢
  split at hdone
  · exact absurd rfl hdone
  · rename_i hok
    rw [if_neg hok]
    exact ⟨_, hdone, rfl⟩

/-- When the loop completes, it has copied every name. -/
theorem hashLoop_inside_iff (hdone : (hashLoop crc32CalculateBuffer logs h).2 ≠ none) :
    (∀ c ∈ (hashLoop crc32CalculateBuffer logs h).1, c.Inside) ↔
      ∀ e ∈ logs, 5 + e.name.length ≤ crtpMaxDataSize := by
  induction logs generalizing h with
  | nil => exact iff_of_true nofun nofun
  | cons e rest ih =>
      obtain ⟨h', hrest, hcopies⟩ := hashLoop_cons hdone
      rw [hcopies, List.forall_mem_append, e.copies_inside, ih hrest, List.forall_mem_cons]

/-- The assertion of the loop is the check of the lengths. -/
theorem hashLoop_done_iff :
    (hashLoop crc32CalculateBuffer logs h).2 ≠ none ↔ LengthsOk logs h.groupLength := by
  induction logs generalizing h with
  | nil => exact iff_of_true (Option.some_ne_none h) trivial
  | cons e rest ih =>
      rw [hashLoop, LengthsOk]
      dsimp only
      by_cases hgroup : e.type &&& logGroup ≠ 0
      · rw [if_neg (fun hv => hv.1 hgroup), if_pos hgroup, ih]
        simp only [hgroup, ne_eq, not_false_eq_true, true_and]
      · rw [if_neg hgroup]
        by_cases hlong : e.name.length + h.groupLength + 2 > 26
        · rw [if_pos ⟨hgroup, hlong⟩]
          exact iff_of_false (fun hne => hne rfl) fun hok => absurd hok.1 (Nat.not_le.mpr hlong)
        · rw [if_neg (fun hv => hlong hv.2), ih, if_neg (fun hs => hgroup hs.1)]
          exact (and_iff_right (Nat.not_lt.mp hlong)).symm

/-- The lengths of the names of a group. -/
theorem LogGroup.names_iff (g : LogGroup)
    (hvars : ∀ v ∈ g.vars, v.name.length + g.name.length + 2 ≤ 26) :
    (∀ e ∈ g.entries, 5 + e.name.length ≤ crtpMaxDataSize) ↔ g.name.length ≤ 20 := by
  have hstop : g.stop.name.length = 5 + g.name.length := by
    unfold stop
    rw [List.length_append]
    rfl
  constructor
  · intro hall
    have hlast := hall g.stop (by simp [entries])
    rw [hstop] at hlast
    unfold crtpMaxDataSize at hlast
    omega
  · intro hshort e he
    unfold crtpMaxDataSize
    unfold entries at he
    rcases List.mem_cons.mp he with rfl | he
    · change 5 + g.name.length ≤ 30
      omega
    · rcases List.mem_append.mp he with he | he
      · obtain ⟨v, hv, rfl⟩ := List.mem_map.mp he
        have hname : v.name.length + g.name.length + 2 ≤ 26 := hvars v hv
        change 5 + v.name.length ≤ 30
        omega
      · rw [List.mem_singleton.mp he, hstop]
        omega

theorem hashToc_inside_iff {groups : List LogGroup}
    (hdone : (hashToc crc32CalculateBuffer (tocEntries groups)).2 ≠ none) :
    (∀ c ∈ (hashToc crc32CalculateBuffer (tocEntries groups)).1, c.Inside) ↔
      ∀ g ∈ groups, g.name.length ≤ 20 := by
  have hvars := lengthsOk_toc (hashLoop_done_iff.mp hdone)
  unfold hashToc at hdone ⊢
  rw [hashLoop_inside_iff hdone]
  constructor
  · intro hall g hg
    refine (g.names_iff (hvars g hg)).mp fun e he => hall e ?_
    exact List.mem_flatMap.mpr ⟨g, hg, he⟩
  · intro hshort e he
    obtain ⟨g, hg, heg⟩ := List.mem_flatMap.mp he
    exact (g.names_iff (hvars g hg)).mpr (hshort g hg) e heg

/-- The loop comes to its end exactly for the tables that `tocInit` accepts. -/
theorem tocInit_isSome_iff (crc : UInt32) :
    (tocInit logs crc).isSome ↔ (hashToc crc32CalculateBuffer logs).2 ≠ none := by
  unfold tocInit hashToc
  rw [hashLoop_done_iff]
  split
  · rename_i hok
    exact iff_of_true rfl hok
  · rename_i hok
    exact iff_of_false nofun hok

/-- What `logInit` leaves, but for the checksum, is what `tocInit` says. -/
theorem tocInit_of_logInitToc {toc : Toc} (hinit : logInitToc crc32CalculateBuffer logs = some toc) :
    ∃ crc, tocInit logs crc = some toc := by
  unfold logInitToc at hinit
  dsimp only at hinit
  split at hinit
  · obtain ⟨h, -, htoc⟩ := Option.bind_eq_some_iff.mp hinit
    exact ⟨h.logsCrc, htoc⟩
  · cases hinit

/-- **Which tables `logInit` takes.**  The names of the variables have to be short enough for the
answers, which it checks, and those of the groups for the packet, which it does not. -/
theorem logInitToc_isSome_iff {groups : List LogGroup} :
    (logInitToc crc32CalculateBuffer (tocEntries groups)).isSome ↔
      LengthsOk (tocEntries groups) 0 ∧ ∀ g ∈ groups, g.name.length ≤ 20 := by
  have hdone : (hashToc crc32CalculateBuffer (tocEntries groups)).2 ≠ none ↔
      LengthsOk (tocEntries groups) 0 := hashLoop_done_iff
  unfold logInitToc
  dsimp only
  by_cases hok : LengthsOk (tocEntries groups) 0
  · have hinside := hashToc_inside_iff (hdone.mpr hok)
    obtain ⟨h, hh⟩ := Option.ne_none_iff_exists'.mp (hdone.mpr hok)
    rw [hh, Option.bind_some]
    by_cases hshort : ∀ g ∈ groups, g.name.length ≤ 20
    · rw [if_pos (hinside.mpr hshort), @tocInit_isSome_iff crc32CalculateBuffer]
      exact iff_of_true (hdone.mpr hok) ⟨hok, hshort⟩
    · rw [if_neg (fun hall => hshort (hinside.mp hall))]
      exact iff_of_false nofun fun hboth => hshort hboth.2
  · have hnone := not_not.mp (fun hne => hok (hdone.mp hne))
    rw [hnone]
    refine iff_of_false ?_ fun hboth => hok hboth.1
    split <;> nofun

/-- **Copies to the packet.**  For every table that `logInit` accepts, whatever the checksums, every
copy of the loop stays in the packet exactly if no group has a name of more than 20 bytes. -/
theorem copies_inside_iff {groups : List LogGroup}
    (hdone : (hashToc crc32CalculateBuffer (tocEntries groups)).2 ≠ none) :
    (∀ c ∈ (hashToc crc32CalculateBuffer (tocEntries groups)).1, c.Inside) ↔
      ∀ g ∈ groups, g.name.length ≤ 20 := hashToc_inside_iff hdone

/-- A table of one group with one variable. -/
theorem copies_inside_small :
    (∀ c ∈ (hashToc (fun _ => 7) (tocEntries
      [⟨[0x70, 0x6D], [⟨logFloat, [0x76], some 0x2000, by decide⟩]⟩])).1, c.Inside) ↔
    ∀ g ∈ [LogGroup.mk [0x70, 0x6D] [⟨logFloat, [0x76], some 0x2000, by decide⟩]],
      g.name.length ≤ 20 :=
  copies_inside_iff (by decide)

/-- The name of a group of 21 bytes is not too long for its variable, but for its stop marker. -/
theorem copy_outside :
    (hashToc (fun _ => 7) (tocEntries
      [⟨List.replicate 21 0x61, [⟨logFloat, [0x76], some 0x2000, by decide⟩]⟩])).2 ≠ none ∧
    ¬ ∀ c ∈ (hashToc (fun _ => 7) (tocEntries
      [⟨List.replicate 21 0x61, [⟨logFloat, [0x76], some 0x2000, by decide⟩]⟩])).1, c.Inside := by
  decide +kernel

end NanoDrone.Log
