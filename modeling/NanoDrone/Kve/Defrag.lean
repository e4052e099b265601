import NanoDrone.Kve.Scan

/-! # Defragmentation

`kveDefrag` slides the items over the holes.  In every round the table is a run of items, the
hole it works on, further holes, a group of items and a rest.  The group moves down over the
holes and one hole as long as all of them follows it (`slideDown`); the rest gets shorter in
every round, which is what bounds the number of rounds.  When only holes are left the end tag
is written over the first one.

The function looks at headers only.  `defrag_rule` is therefore about a walk over headers, and
about any relation between the memory and the headers that the two kinds of writes keep
(`DefragInvariant`).  For a table this is that the items stay (`defrag_spec`): `kveDefrag`
returns and leaves the items in their order, without holes. -/

namespace NanoDrone

/-! ### Splitting a table into runs -/

theorem run_prefix {α : Type} (p : α → Prop) [DecidablePred p] : ∀ l : List α,
    ∃ xs, (∀ x ∈ xs, p x) ∧ (l = xs ∨ ∃ y r, l = xs ++ y :: r ∧ ¬ p y)
  | [] => ⟨[], by simp, Or.inl rfl⟩
  | x :: l => by
      by_cases hx : p x
      · obtain ⟨xs, hxs, h⟩ := run_prefix p l
        refine ⟨x :: xs, by simpa using ⟨hx, hxs⟩, ?_⟩
        rcases h with rfl | ⟨y, r, rfl, hy⟩
        · exact Or.inl rfl
        · exact Or.inr ⟨y, r, rfl, hy⟩
      · exact ⟨[], by simp, Or.inr ⟨x, l, rfl, hx⟩⟩

/-- A group of items up to the next hole or the end. -/
theorem group_prefix {y : KveItemHeader} (hy : y.keyLength ≠ 0) (r : List KveItemHeader) :
    ∃ g tail, y :: r = g ++ tail ∧ (∀ x ∈ g, x.keyLength ≠ 0) ∧ g ≠ [] ∧
      (tail = [] ∨ ∃ x r', tail = x :: r' ∧ x.keyLength = 0) := by
  obtain ⟨g, hg, rfl | ⟨x, r', rfl, hx⟩⟩ := run_prefix (fun x => x.keyLength ≠ 0) r
  · exact ⟨y :: r, [], by simp, by simpa using ⟨hy, hg⟩, by simp, Or.inl rfl⟩
  · exact ⟨y :: g, x :: r', by simp, by simpa using ⟨hy, hg⟩, by simp,
      Or.inr ⟨x, r', rfl, not_not.mp hx⟩⟩

theorem compact_items {es : List Entry} (h : ∀ e ∈ es, e.isItem = true) :
    Layout.compact es = es := List.filter_eq_self.mpr h

theorem compact_holes {es : List Entry} (h : ∀ e ∈ es, e.isItem = false) :
    Layout.compact es = [] := List.filter_eq_nil_iff.mpr (fun e he => by simp [h e he])

theorem keys_holes {es : List Entry} (h : ∀ e ∈ es, e.isItem = false) : keys es = [] := by
  rw [← Layout.keys_compact, compact_holes h, keys_nil]

/-! ### The memory after a round -/

/-- The memory in which the `n` bytes behind a gap at `b` have moved down to `b`, with a hole as
long as the gap behind them. -/
def slideDown (m : Bytes) (b gap n : ℕ) : Bytes :=
  (m.write b (m.slice (b + gap) n)).write (b + n) (Entry.hole gap).bytes

section
variable (m : Bytes) {b gap n i : ℕ}

theorem slideDown_below (h : i < b) : slideDown m b gap n i = m i := by
  unfold slideDown
  rw [Bytes.write_outside _ (by omega), Bytes.write_outside _ (by omega)]

theorem slideDown_group (h : i < n) : slideDown m b gap n (b + i) = m (b + gap + i) := by
  unfold slideDown
  rw [Bytes.write_outside _ (by omega), Bytes.write_inside _ (by simpa using h),
    Bytes.getElem_slice]

theorem slideDown_hole : Stored (slideDown m b gap n) (b + n) (Entry.hole gap).bytes :=
  stored_write _ _ _

theorem slideDown_above (hgap : 3 ≤ gap) (h : b + gap + n ≤ i) : slideDown m b gap n i = m i := by
  have hl : (Entry.hole gap).bytes.length = 3 := rfl
  unfold slideDown
  rw [Bytes.write_outside _ (by omega),
    Bytes.write_outside _ (by rw [Bytes.slice_length]; omega)]

end

/-- The end tag written over the first of the holes at the end. -/
theorem Table.crop {m : Bytes} {limit n : ℕ} {is hs : List Entry}
    (T : Table m limit (is ++ .hole n :: hs)) :
    Table (m.write (firstItemAddress + span is) [0xff, 0xff]) limit is := by
  have hv : ∀ e ∈ is, e.Valid := fun e he => T.valid e (by simp [he])
  have hfit := T.fits
  rw [span_append] at hfit
  refine ⟨⟨?_, ?_, ?_, ?_, ?_⟩, ?_⟩
  · rw [Bytes.write_outside _ (by unfold versionAddress firstItemAddress; omega)]
    exact T.version
  · exact (segAt_append.mp T.seg).1.frame hv (Or.inl (Nat.le_refl _))
  · exact stored_write _ _ _
  · exact hv
  · have := T.nodup
    rw [keys_append] at this
    exact this.of_append_left
  · omega

/-- A group of items moved down over the holes before it, with one hole left behind it. -/
theorem Table.slide {m : Bytes} {limit n : ℕ} {is hs g tail : List Entry}
    (T : Table m limit (is ++ .hole n :: (hs ++ (g ++ tail))))
    (hh : ∀ e ∈ hs, e.isItem = false) :
    Table (slideDown m (firstItemAddress + span is) (n + span hs) (span g)) limit
      (is ++ g ++ .hole (n + span hs) :: tail) := by
  have hvi : ∀ e ∈ is, e.Valid := fun e he => T.valid e (by simp [he])
  have hvg : ∀ e ∈ g, e.Valid := fun e he => T.valid e (by simp [he])
  have hvt : ∀ e ∈ tail, e.Valid := fun e he => T.valid e (by simp [he])
  have hvn : 4 ≤ n := T.valid (.hole n) (by simp)
  have hsg := segAt_append.mp T.seg
  have hs1 := segAt_append.mp hsg.2.2
  have hs2 := segAt_append.mp hs1.2
  have hend := T.endTag
  have hfit := T.fits
  have hnd := T.nodup
  simp only [span_append, span_cons, Entry.length_hole] at hend hfit hs2
  simp only [keys_append, keys_hole, keys_holes hh, List.nil_append] at hnd
  refine ⟨⟨?_, ?_, ?_, ?_, ?_⟩, ?_⟩
  · rw [slideDown_below m (by unfold versionAddress firstItemAddress; omega)]
    exact T.version
  · refine segAt_append.mpr ⟨segAt_append.mpr ⟨?_, ?_⟩, ?_, ?_⟩
    · exact hsg.1.congr hvi (fun i _ hi => slideDown_below m hi)
    · refine hs2.1.move hvg ?_
      intro i hi
      rw [slideDown_group m hi, ← Nat.add_assoc (firstItemAddress + span is) n]
    · rw [span_append, ← Nat.add_assoc firstItemAddress]
      exact slideDown_hole m
    · have e : firstItemAddress + span (is ++ g) + (Entry.hole (n + span hs)).length =
          firstItemAddress + span is + n + span hs + span g := by
        rw [span_append, Entry.length_hole]
        omega
      rw [e]
      exact hs2.2.congr hvt (fun i hi _ => slideDown_above m (by omega) (by omega))
  · simp only [span_append, span_cons, Entry.length_hole]
    have e : firstItemAddress + (span is + span g + (n + span hs + span tail)) =
        firstItemAddress + (span is + (n + (span hs + (span g + span tail)))) := by omega
    rw [e]
    exact hend.congr (fun i hi _ => slideDown_above m (by omega) (by omega))
  · intro e he
    simp only [List.mem_append, List.mem_cons] at he
    rcases he with (he | he) | rfl | he
    · exact hvi e he
    · exact hvg e he
    · exact Nat.le_add_right_of_le hvn
    · exact hvt e he
  · simpa only [keys_append, keys_hole, List.append_assoc] using hnd
  · simp only [span_append, span_cons, Entry.length_hole]
    omega

/-! ### What the rounds keep -/

/-- A relation between the memory and the headers in it that the writes of a round keep. -/
structure DefragInvariant (limit : ℕ) (I : Bytes → List KveItemHeader → Prop) : Prop where
  walk : ∀ {m : Bytes} {hs : List KveItemHeader}, I m hs → Walk m limit firstItemAddress hs
  crop : ∀ {m : Bytes} {is hs : List KveItemHeader} {x : KveItemHeader}, I m (is ++ x :: hs) →
    (∀ y ∈ x :: hs, y.keyLength = 0) →
    I (m.write (firstItemAddress + chainLength is) [0xff, 0xff]) is
  slide : ∀ {m : Bytes} {is hs g tail : List KveItemHeader} {x : KveItemHeader},
    I m (is ++ x :: (hs ++ (g ++ tail))) → (∀ y ∈ x :: hs, y.keyLength = 0) →
    (∀ y ∈ g, y.keyLength ≠ 0) →
    I (slideDown m (firstItemAddress + chainLength is) (x.fullLength + chainLength hs)
      (chainLength g)) (is ++ g ++ ⟨x.fullLength + chainLength hs, 0⟩ :: tail)

/-- A walk stays one through the rounds of a defragmentation. -/
theorem walk_invariant {limit : ℕ} (hl : limit ≤ 65535) :
    DefragInvariant limit (fun m hs => Walk m limit firstItemAddress hs) where
  walk W := W
  crop := by
    intro m is hs x W _
    have hfit := W.fits
    have hlong : ∀ y ∈ is, 4 ≤ y.fullLength := fun y hy => W.long y (by simp [hy])
    rw [chainLength_append] at hfit
    refine ⟨?_, hlong, stored_write _ _ _, by omega⟩
    refine (chainAt_append.mp W.chain).1.congr hlong ?_
    intro i _ hi
    exact Bytes.write_outside _ (Or.inl hi)
  slide := by
    intro m is hs g tail x W _ _
    have hend := W.endTag
    have hfit := W.fits
    have hx := W.long x (by simp)
    have hc := chainAt_append.mp W.chain
    have hc1 := chainAt_append.mp hc.2.2
    have hc2 := chainAt_append.mp hc1.2
    simp only [chainLength_append, chainLength_cons, sizeofHeader] at hend hfit hc2
    have hlg : ∀ y ∈ g, 4 ≤ y.fullLength := fun y hy => W.long y (by simp [hy])
    have hlt : ∀ y ∈ tail, 4 ≤ y.fullLength := fun y hy => W.long y (by simp [hy])
    refine ⟨?_, ?_, ?_, ?_⟩
    · refine chainAt_append.mpr ⟨chainAt_append.mpr ⟨?_, ?_⟩, ?_, ?_⟩
      · exact hc.1.congr (fun y hy => W.long y (by simp [hy]))
          (fun i _ hi => slideDown_below m hi)
      · refine hc2.1.move hlg ?_
        intro i hi
        rw [slideDown_group m hi]
        congr 1
        omega
      · rw [chainLength_append, ← Nat.add_assoc]
        exact headerAt_of_stored (h := ⟨x.fullLength + chainLength hs, 0⟩) (by dsimp only; omega)
          (by simp) (slideDown_hole m)
      · have e : firstItemAddress + chainLength (is ++ g) + (x.fullLength + chainLength hs) =
            firstItemAddress + chainLength is + x.fullLength + chainLength hs + chainLength g := by
          rw [chainLength_append]
          omega
        rw [e]
        exact hc2.2.congr hlt (fun i hi _ => slideDown_above m (by omega) (by omega))
    · intro y hy
      simp only [List.mem_append, List.mem_cons] at hy
      rcases hy with (hy | hy) | rfl | hy
      · exact W.long y (by simp [hy])
      · exact hlg y hy
      · exact Nat.le_add_right_of_le hx
      · exact hlt y hy
    · simp only [chainLength_append, chainLength_cons]
      have e : firstItemAddress + (chainLength is + chainLength g +
          (x.fullLength + chainLength hs + chainLength tail)) =
          firstItemAddress + (chainLength is +
            (x.fullLength + (chainLength hs + (chainLength g + chainLength tail)))) := by omega
      rw [e]
      exact hend.congr (fun i hi _ => slideDown_above m (by omega) (by omega))
    · simp only [chainLength_append, chainLength_cons, sizeofHeader]
      omega

/-- The memory holds a table with the items of `es`, in their order. -/
def SameItems (limit : ℕ) (es : List Entry) (m : Bytes) (hs : List KveItemHeader) : Prop :=
  ∃ es', Table m limit es' ∧ es'.map Entry.header = hs ∧ Layout.compact es' = Layout.compact es

theorem holes_of_headers {es : List Entry} (hv : ∀ e ∈ es, e.Valid)
    (h : ∀ x ∈ es.map Entry.header, x.keyLength = 0) : ∀ e ∈ es, e.isItem = false :=
  fun e he => (hv e he).keyLength_eq_zero.mp (h _ (List.mem_map_of_mem he))

theorem sameItems_invariant {limit : ℕ} (hl : limit ≤ 65535) (es : List Entry) :
    DefragInvariant limit (SameItems limit es) where
  walk := by
    rintro m _ ⟨es', T, rfl, _⟩
    exact T.walk hl
  crop := by
    rintro m is hs x ⟨es', T, hes, hc⟩ hx
    obtain ⟨is', rest, rfl, rfl, hrest⟩ := List.map_eq_append_iff.mp hes
    rw [← hrest] at hx
    obtain ⟨e, hs', rfl, -, -⟩ := List.map_eq_cons_iff.mp hrest
    have hh := holes_of_headers (fun e he => T.valid e (List.mem_append_right _ he)) hx
    rw [chainLength_map_header]
    cases e with
    | item k v => cases hh _ List.mem_cons_self
    | hole n =>
        refine ⟨is', T.crop, rfl, ?_⟩
        rw [← hc, Layout.compact_append, compact_holes hh, List.append_nil]
  slide := by
    rintro m is hs g tail x ⟨es', T, hes, hc⟩ hx hg
    obtain ⟨is', r, rfl, rfl, hr⟩ := List.map_eq_append_iff.mp hes
    obtain ⟨e, r1, rfl, rfl, hr1⟩ := List.map_eq_cons_iff.mp hr
    obtain ⟨hs', r2, rfl, rfl, hr2⟩ := List.map_eq_append_iff.mp hr1
    obtain ⟨g', tail', rfl, rfl, rfl⟩ := List.map_eq_append_iff.mp hr2
    have hv : ∀ y ∈ e :: hs', y.Valid := by
      intro y hy
      rcases List.mem_cons.mp hy with rfl | hy
      · exact T.valid y (by simp)
      · exact T.valid y (by simp [hy])
    have hh := holes_of_headers hv hx
    cases e with
    | item k v => cases hh _ List.mem_cons_self
    | hole n =>
        have hh' : ∀ y ∈ hs', y.isItem = false := fun y hy => hh y (List.mem_cons_of_mem _ hy)
        simp only [chainLength_map_header]
        refine ⟨is' ++ g' ++ .hole (n + span hs') :: tail', T.slide hh', by simp; rfl, ?_⟩
        rw [← hc]
        simp only [Layout.compact_append, Layout.compact_hole, compact_holes hh', List.nil_append,
          List.append_assoc]

/-! ### Moving memory -/

section
variable {σ : Type} {kve : KveMemory σ} {limit top : ℕ} {At : KveState σ → Bytes → Prop}

/-- The loop, with any relation between states and memories that its reads and writes respect. -/
theorem moveMemoryLoop_rule
    (hread : ∀ {s : KveState σ} {m : Bytes} {a n : ℕ} {Q : Bytes → KveState σ → Prop}, At s m →
      a + n ≤ limit → (∀ b s', At s' m → Q (Bytes.write b 0 (m.slice a n)) s') →
      Returns (readMoveBuffer kve a n) s Q)
    (hwrite : ∀ {s : KveState σ} {m : Bytes} {a : ℕ} {d : List UInt8}
      {Q : Unit → KveState σ → Prop}, At s m → a + d.length ≤ top →
      (∀ s', At s' (m.write a d) → Q () s') → Returns (kveWrite kve a d) s Q) :
    ∀ (fuel left : ℕ) {src dst : ℕ} {m : Bytes} {s : KveState σ}, left ≤ fuel → At s m →
      dst < src → src + left ≤ limit → dst + left ≤ top →
      Returns (moveMemoryLoop kve fuel src dst left) s
        (fun _ s' => At s' (m.write dst (m.slice src left)))
  | 0, left, src, dst, m, s, hl, h, _, _, _ => by
      obtain rfl : left = 0 := by omega
      simpa [moveMemoryLoop] using h
  | fuel + 1, left, src, dst, m, s, hl, h, hlt, hb, hw => by
      unfold moveMemoryLoop
      by_cases hpos : 0 < left
      · rw [if_pos hpos]
        dsimp only
        rw [returns_bind]
        apply hread h (by omega)
        intro b s1 h1
        rw [Bytes.slice_write_take _ _ _ _ (by simp), List.take_of_length_le (by simp),
          returns_bind]
        apply hwrite h1 (by rw [Bytes.slice_length]; omega)
        intro s2 h2
        have ih := moveMemoryLoop_rule hread hwrite fuel (left - min left 32) (by omega) h2
          (by omega : dst + min left 32 < src + min left 32) (by omega) (by omega)
        refine ih.mono (fun _ s' h' => ?_)
        -- the bytes still to be moved lie above everything written so far
        rw [Bytes.slice_write_of_disjoint _ (Or.inr (by rw [Bytes.slice_length]; omega))] at h'
        have e := Bytes.write_append m dst (m.slice src (min left 32))
          (m.slice (src + min left 32) (left - min left 32))
        rw [← Bytes.slice_append, Bytes.slice_length,
          show min left 32 + (left - min left 32) = left by omega] at e
        rwa [e] at h'
      · obtain rfl : left = 0 := by omega
        simpa using h

end

section
variable {σ : Type} {kve : KveMemory σ} {limit top : ℕ} (A : Access kve limit top)
include A

/-- The bytes at the destination are those that were at the source, although the two ranges
may overlap. -/
theorem moveMemory_spec {src dst n : ℕ} {m : Bytes} {s : KveState σ} (h : A.At s m)
    (hlt : dst < src) (hb : src + n ≤ limit) (hw : dst + n ≤ top) :
    Returns (kveStorageMoveMemory kve src dst n) s
      (fun _ s' => A.At s' (m.write dst (m.slice src n))) := by
  simp only [kveStorageMoveMemory, returns_bind]
  have hloop := moveMemoryLoop_rule (returns_readMoveBuffer A) (returns_kveWrite A) n n
    (Nat.le_refl n) h hlt hb hw
  refine hloop.mono ?_
  intro _ s' h'
  exact returns_kveFlush A h' (fun _ h'' => h'')

/-! ### The rounds -/

/-- The next hole behind a group of items, or the end of the table. -/
theorem nextHole_spec {m : Bytes} {g tail : List KveItemHeader} {a fuel : ℕ} {s : KveState σ}
    (h : A.At s m) (W : Walk m limit a (g ++ tail)) (hg : ∀ x ∈ g, x.keyLength ≠ 0)
    (ht : tail = [] ∨ ∃ x r, tail = x :: r ∧ x.keyLength = 0) (hf : kve.memorySize ≤ fuel) :
    Returns (nextHoleOrEnd fuel kve a) s (fun r s' => r = a + chainLength g ∧ A.At s' m) := by
  have hlim := A.limit_le
  have hsz := kve.size_le
  have hfit := W.fits
  rw [chainLength_append] at hfit
  have hne : a + chainLength g ≠ sizeMax := by
    unfold sizeMax
    omega
  unfold nextHoleOrEnd
  rcases ht with rfl | ⟨x, r, rfl, hx⟩
  · rw [List.append_nil] at W
    refine (W.findHole_none A h hg hf).bind ?_
    rintro hole s' ⟨rfl | rfl, h'⟩
    · rw [if_neg hne, returns_pure]
      exact ⟨rfl, h'⟩
    · rw [if_pos rfl]
      exact W.findEnd A h' hf
  · refine (W.findHole_some A h hx hg hf).bind ?_
    rintro hole s' ⟨rfl, h'⟩
    rw [if_neg hne, returns_pure]
    exact ⟨rfl, h'⟩

/-- The writes of one round: a group is moved down over a gap, and a hole is left behind it. -/
theorem moveGroup_spec {m : Bytes} (b gap n : ℕ) {s : KveState σ} (h : A.At s m)
    (hgap : 3 ≤ gap) (hb : b + gap + n ≤ limit) (hw : b + gap + n ≤ top) :
    Returns (do
      kveStorageMoveMemory kve (b + gap) b n
      kveStorageWriteHole kve (b + n) gap) s (fun _ s' => A.At s' (slideDown m b gap n)) := by
  have hlim := A.limit_le
  have hsz := kve.size_le
  refine (moveMemory_spec A h (by omega) hb (by omega)).bind ?_
  intro _ s1 h1
  apply returns_writeHole A h1 (by omega) (by omega)
  intro s2 h2
  exact h2

variable {I : Bytes → List KveItemHeader → Prop}

/-- The loop of `kveDefrag`, working on the first hole of a walk. -/
theorem defragLoop_rule (D : DefragInvariant limit I) {fuel : ℕ} (hf : kve.memorySize ≤ fuel) :
    ∀ (rounds : ℕ) {is rest : List KveItemHeader} {x : KveItemHeader} {m : Bytes}
      {s : KveState σ}, rest.length < rounds → A.At s m → I m (is ++ x :: rest) →
      x.keyLength = 0 → (∀ y ∈ is, y.keyLength ≠ 0) →
      firstItemAddress + chainLength (is ++ x :: rest) + kveEndTagLendth ≤ top →
      Returns (defragLoop fuel kve rounds (firstItemAddress + chainLength is)) s
        (fun _ s' => ∃ m' hs, A.At s' m' ∧ I m' hs ∧ ∀ y ∈ hs, y.keyLength ≠ 0)
  | 0, _, _, _, _, _, hr, _, _, _, _, _ => absurd hr (Nat.not_lt_zero _)
  | rounds + 1, is, rest, x, m, s, hr, h, hI, hx, hi, hw => by
      have hlim := A.limit_le
      have hsz := kve.size_le
      have W := D.walk hI
      have hfit := W.fits
      have hxl := W.long x (by simp)
      unfold kveEndTagLendth at hw
      unfold sizeofHeader at hfit
      unfold defragLoop
      rw [if_pos (by rw [chainLength_append] at hfit; unfold sizeMax; omega)]
      obtain ⟨hs, hh, rfl | ⟨y, r, rfl, hy⟩⟩ := run_prefix (fun y => y.keyLength = 0) rest
      · -- only holes are left
        refine (W.drop.findNextItem_none A h hh hf).bind ?_
        rintro _ s1 ⟨rfl, h1⟩
        rw [if_pos rfl, returns_bind]
        apply returns_writeEnd A h1 (by
          rw [chainLength_append, chainLength_cons] at hw
          omega)
        intro s2 h2
        rw [returns_pure]
        refine ⟨_, is, h2, D.crop hI ?_, hi⟩
        simpa using ⟨hx, hh⟩
      · refine (W.drop.findNextItem_some A h hh hy hf).bind ?_
        rintro _ s1 ⟨rfl, h1⟩
        obtain ⟨g, tail, hg, hgi, hgn, ht⟩ := group_prefix hy r
        rw [hg] at hI hw W hfit hr
        have W1 : Walk m limit (firstItemAddress + chainLength is +
            (x.fullLength + chainLength hs)) (g ++ tail) := by
          have hd := Walk.drop (show Walk m limit _ ((x :: hs) ++ (g ++ tail)) from W.drop)
          rwa [chainLength_cons] at hd
        simp only [chainLength_append, chainLength_cons] at hfit hw
        rw [if_neg (by unfold sizeMax; omega)]
        refine (nextHole_spec A h1 W1 hgi ht hf).bind ?_
        rintro _ s2 ⟨rfl, h2⟩
        have hmove : sizeT (firstItemAddress + chainLength is + (x.fullLength + chainLength hs) +
            chainLength g + 2 ^ 32 - (firstItemAddress + chainLength is +
              (x.fullLength + chainLength hs))) = chainLength g := by
          unfold sizeT
          omega
        have hround := moveGroup_spec A (firstItemAddress + chainLength is)
          (x.fullLength + chainLength hs) (chainLength g) h2 (by omega) (by omega) (by omega)
        dsimp only
        rw [hmove, show firstItemAddress + chainLength is + (x.fullLength + chainLength hs) -
          (firstItemAddress + chainLength is) = x.fullLength + chainLength hs by omega]
        simp only [returns_bind] at hround ⊢
        refine hround.mono ?_
        intro _ s3 h3
        refine h3.mono ?_
        intro _ s4 h4
        have hI4 := D.slide hI (by simpa using ⟨hx, hh⟩) hgi
        have hlen : tail.length < rounds := by
          have : 0 < g.length := List.length_pos_iff.mpr hgn
          simp only [List.length_append] at hr
          omega
        rw [Nat.add_assoc, ← chainLength_append]
        refine defragLoop_rule D hf rounds hlen h4 hI4 rfl ?_ ?_
        · intro z hz
          rcases List.mem_append.mp hz with hz | hz
          · exact hi z hz
          · exact hgi z hz
        · simp only [chainLength_append, chainLength_cons, kveEndTagLendth]
          omega

/-- **Defragmentation.**  On every walk `kveDefrag` returns, keeps every relation that its writes
keep, and leaves no holes. -/
theorem defrag_rule (D : DefragInvariant limit I) {m : Bytes} {hs : List KveItemHeader}
    {fuel : ℕ} {s : KveState σ} (h : A.At s m) (hI : I m hs)
    (hw : firstItemAddress + chainLength hs + kveEndTagLendth ≤ top)
    (hf : kve.memorySize ≤ fuel) :
    Returns (kveDefrag fuel kve) s
      (fun _ s' => ∃ m' hs', A.At s' m' ∧ I m' hs' ∧ ∀ y ∈ hs', y.keyLength ≠ 0) := by
  have hlim := A.limit_le
  have hsz := kve.size_le
  have W := D.walk hI
  have hfit := W.fits
  have hlen := four_mul_length_le_chainLength W.long
  unfold sizeofHeader at hfit
  unfold kveDefrag
  obtain ⟨is, hi, rfl | ⟨x, rest, rfl, hx⟩⟩ := run_prefix (fun y => y.keyLength ≠ 0) hs
  · refine (W.findHole_none A h hi hf).bind ?_
    obtain ⟨f, rfl⟩ : ∃ f, fuel = f + 1 := ⟨fuel - 1, by omega⟩
    rintro _ s1 ⟨rfl | rfl, h1⟩
    · -- the end tag was taken for a hole: it is written again
      unfold defragLoop
      rw [if_pos (by unfold sizeMax; omega)]
      refine (findNextItem_endTag A h1 W.endTag hfit).bind ?_
      rintro _ s2 ⟨rfl, h2⟩
      rw [if_pos rfl, returns_bind]
      apply returns_writeEnd A h2 hw
      intro s3 h3
      rw [returns_pure]
      have e : m.write (firstItemAddress + chainLength hs) [0xff, 0xff] = m := by
        rw [← W.endTag]
        exact Bytes.write_slice_self m _ _
      exact ⟨m, hs, e ▸ h3, hI, hi⟩
    · unfold defragLoop
      rw [if_neg (by simp), returns_pure]
      exact ⟨m, hs, h1, hI, hi⟩
  · have hx0 := not_not.mp hx
    refine (W.findHole_some A h hx0 hi hf).bind ?_
    rintro _ s1 ⟨rfl, h1⟩
    refine defragLoop_rule A D hf fuel ?_ h1 hI hx0 hi hw
    simp only [List.length_append, List.length_cons] at hlen
    omega

/-- On every table `kveDefrag` returns and leaves the same items in the same order, without
holes. -/
theorem defrag_spec {m : Bytes} {es : List Entry} {fuel : ℕ} {s : KveState σ} (h : A.At s m)
    (T : Table m limit es) (hw : firstItemAddress + span es + kveEndTagLendth ≤ top)
    (hf : kve.memorySize ≤ fuel) :
    Returns (kveDefrag fuel kve) s
      (fun _ s' => ∃ m', A.At s' m' ∧ Table m' limit (Layout.compact es)) := by
  have hlim := A.limit_le
  have hsz := kve.size_le
  refine (defrag_rule A (sameItems_invariant (by omega) es) h ⟨es, T, rfl, rfl⟩
    (by rwa [chainLength_map_header]) hf).mono ?_
  rintro _ s' ⟨m', _, h', ⟨es', T', rfl, hc⟩, hitems⟩
  have hi : ∀ e ∈ es', e.isItem = true := by
    intro e he
    by_contra hne
    exact hitems _ (List.mem_map_of_mem he)
      ((T'.valid e he).keyLength_eq_zero.mpr (by simpa using hne))
  rw [← hc, compact_items hi]
  exact ⟨m', h', T'⟩

end

end NanoDrone
