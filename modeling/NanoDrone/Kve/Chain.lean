import NanoDrone.Kve.Table

/-! # Chains of headers

Most scans of `kve_storage.c` look at headers only.  `ChainAt m a hs` says that the headers `hs`
are what such a scan reads from address `a` on, each as far behind the one before as its
`full_length` says; the bytes between them may be anything.  A `Walk` is a chain that ends at an
end tag, with no header shorter than the shortest item.  A table is a walk over the headers of
its entries (`Table.walk`).

For each scan a `_skip` lemma says that it passes over headers of the wrong kind, whatever it does
afterwards, and the specifications follow by stopping at the header behind them or at the end
tag.  `kveStorageFindHole` does not test for the end tag: there it either takes the tag for a
hole (the stale byte behind it is zero) or jumps past the end of the memory. -/

namespace NanoDrone

/-- The headers lie one behind the other from address `a`. -/
def ChainAt (m : Bytes) : ℕ → List KveItemHeader → Prop
  | _, [] => True
  | a, h :: hs => headerAt m a = h ∧ ChainAt m (a + h.fullLength) hs

/-- Number of bytes that a chain spans. -/
def chainLength (hs : List KveItemHeader) : ℕ := (hs.map KveItemHeader.fullLength).sum

@[simp] theorem chainLength_nil : chainLength [] = 0 := rfl

@[simp] theorem chainLength_cons (h : KveItemHeader) (hs : List KveItemHeader) :
    chainLength (h :: hs) = h.fullLength + chainLength hs := by
  simp [chainLength]

@[simp] theorem chainLength_append (xs ys : List KveItemHeader) :
    chainLength (xs ++ ys) = chainLength xs + chainLength ys := by
  simp [chainLength]

theorem chainAt_append {m : Bytes} {a : ℕ} {xs ys : List KveItemHeader} :
    ChainAt m a (xs ++ ys) ↔ ChainAt m a xs ∧ ChainAt m (a + chainLength xs) ys := by
  induction xs generalizing a with
  | nil => simp [ChainAt]
  | cons h xs ih =>
      simp only [List.cons_append, ChainAt, ih, chainLength_cons, and_assoc, Nat.add_assoc]

/-- The chain ends at an end tag, no header is shorter than four bytes, and a header can be read
at the end tag. -/
structure Walk (m : Bytes) (limit a : ℕ) (hs : List KveItemHeader) : Prop where
  chain : ChainAt m a hs
  long : ∀ h ∈ hs, 4 ≤ h.fullLength
  endTag : Stored m (a + chainLength hs) [0xff, 0xff]
  fits : a + chainLength hs + sizeofHeader ≤ limit

theorem Walk.nil {m : Bytes} {limit a : ℕ} (h : (headerAt m a).fullLength = kveEndTag)
    (hfit : a + sizeofHeader ≤ limit) : Walk m limit a [] :=
  ⟨trivial, by simp, stored_endTag h, hfit⟩

theorem Walk.cons {m : Bytes} {limit a : ℕ} {hs : List KveItemHeader}
    (W : Walk m limit (a + (headerAt m a).fullLength) hs) (h : 4 ≤ (headerAt m a).fullLength) :
    Walk m limit a (headerAt m a :: hs) := by
  have hend := W.endTag
  have hfit := W.fits
  rw [Nat.add_assoc a, ← chainLength_cons] at hend hfit
  exact ⟨⟨rfl, W.chain⟩, by simpa using ⟨h, W.long⟩, hend, hfit⟩

theorem four_mul_length_le_chainLength {hs : List KveItemHeader}
    (h : ∀ x ∈ hs, 4 ≤ x.fullLength) : 4 * hs.length ≤ chainLength hs := by
  induction hs with
  | nil => simp
  | cons x hs ih =>
      have h1 := h x List.mem_cons_self
      have h2 := ih (fun y hy => h y (List.mem_cons_of_mem _ hy))
      simp only [List.length_cons, chainLength_cons]
      omega

/-- The rest of a walk is a walk. -/
theorem Walk.drop {m : Bytes} {limit a : ℕ} {xs ys : List KveItemHeader}
    (W : Walk m limit a (xs ++ ys)) : Walk m limit (a + chainLength xs) ys := by
  have hend := W.endTag
  have hfit := W.fits
  rw [chainLength_append, ← Nat.add_assoc] at hend hfit
  exact ⟨(chainAt_append.mp W.chain).2, fun h hh => W.long h (by simp [hh]), hend, hfit⟩

/-- A chain moved to another address. -/
theorem ChainAt.move {m m' : Bytes} {a b : ℕ} {hs : List KveItemHeader} (h : ChainAt m a hs)
    (hl : ∀ x ∈ hs, 4 ≤ x.fullLength) (he : ∀ i, i < chainLength hs → m' (b + i) = m (a + i)) :
    ChainAt m' b hs := by
  induction hs generalizing a b with
  | nil => trivial
  | cons x hs ih =>
      have hx := hl x List.mem_cons_self
      rw [chainLength_cons] at he
      constructor
      · have hread : headerAt m a = x := h.1
        rw [← hread]
        have h0 : m' b = m a := he 0 (by omega)
        unfold headerAt
        rw [h0, he 1 (by omega), he 2 (by omega)]
      · refine ih h.2 (fun y hy => hl y (List.mem_cons_of_mem _ hy)) ?_
        intro i hi
        rw [Nat.add_assoc, he (x.fullLength + i) (by omega), Nat.add_assoc]

theorem ChainAt.congr {m m' : Bytes} {a : ℕ} {hs : List KveItemHeader} (h : ChainAt m a hs)
    (hl : ∀ x ∈ hs, 4 ≤ x.fullLength)
    (he : ∀ i, a ≤ i → i < a + chainLength hs → m' i = m i) : ChainAt m' a hs :=
  h.move hl fun i hi => he (a + i) (by omega) (by omega)

/-! ### The headers of a table -/

/-- The header that an entry shows. -/
def Entry.header (e : Entry) : KveItemHeader := ⟨e.length, e.keyLength⟩

@[simp] theorem chainLength_map_header (es : List Entry) :
    chainLength (es.map Entry.header) = span es := by
  unfold chainLength span
  rw [List.map_map]
  rfl

theorem SegAt.chain {m : Bytes} {a : ℕ} {es : List Entry} (h : SegAt m a es)
    (hv : ∀ e ∈ es, e.Valid) (hl : span es < 65536) : ChainAt m a (es.map Entry.header) := by
  induction es generalizing a with
  | nil => trivial
  | cons e es ih =>
      rw [span_cons] at hl
      refine ⟨headerAt_entry h.1 (hv e List.mem_cons_self) (by omega), ?_⟩
      exact ih h.2 (fun x hx => hv x (List.mem_cons_of_mem _ hx)) (by omega)

theorem header_long {es : List Entry} (hv : ∀ e ∈ es, e.Valid) :
    ∀ x ∈ es.map Entry.header, 4 ≤ x.fullLength := by
  intro x hx
  obtain ⟨e, he, rfl⟩ := List.mem_map.mp hx
  exact (hv e he).length_ge

theorem Table.walk {m : Bytes} {limit : ℕ} {es : List Entry} (T : Table m limit es)
    (hl : limit ≤ 65535) : Walk m limit firstItemAddress (es.map Entry.header) := by
  have hfit := T.fits
  refine ⟨T.seg.chain T.valid (by omega), header_long T.valid, ?_, ?_⟩
  · rw [chainLength_map_header]
    exact T.endTag
  · rw [chainLength_map_header]
    exact hfit

theorem Entry.Valid.keyLength_eq_zero {e : Entry} (h : e.Valid) :
    e.header.keyLength = 0 ↔ e.isItem = false := by
  cases e with
  | item k v =>
      simp only [Entry.Valid] at h
      simp only [Entry.header, Entry.keyLength_item, Entry.isItem_item, Bool.true_eq_false,
        iff_false]
      omega
  | hole n => simp [Entry.header]

section
variable {σ : Type} {kve : KveMemory σ} {limit top : ℕ} (A : Access kve limit top)
include A

/-! ### Passing over headers -/

theorem findEndLoop_skip {hs : List KveItemHeader} {m : Bytes} {fuel : ℕ}
    {Q : ℕ → KveState σ → Prop} (hl : ∀ x ∈ hs, 4 ≤ x.fullLength) :
    ∀ {a : ℕ} {b : Bytes} {s : KveState σ}, A.At s m → ChainAt m a hs →
      a + chainLength hs + 3 ≤ limit →
      (∀ b' s', A.At s' m → Returns (findEndLoop kve fuel (a + chainLength hs) b') s' Q) →
      Returns (findEndLoop kve (hs.length + fuel) a b) s Q := by
  have hlim := A.limit_le
  have hsz := kve.size_le
  induction hs with
  | nil =>
      intro a b s h _ _ hQ
      simpa using hQ b s h
  | cons x hs ih =>
      intro a b s h hc hb hQ
      have hge := hl x List.mem_cons_self
      rw [chainLength_cons] at hb hQ
      rw [List.length_cons, Nat.add_right_comm]
      unfold findEndLoop
      rw [if_pos (by omega), returns_bind]
      apply returns_kveRead A h (by unfold sizeofHeader; omega)
      intro s1 h1
      rw [ofBuffer_read, hc.1]
      dsimp only
      rw [if_neg (by unfold kveEndTag; omega), if_neg (by unfold sizeofHeader; omega)]
      refine ih (fun y hy => hl y (List.mem_cons_of_mem _ hy)) h1 hc.2 (by omega) ?_
      simpa only [Nat.add_assoc] using hQ

theorem findHoleLoop_skip {hs : List KveItemHeader} {m : Bytes} {fuel : ℕ}
    {Q : ℕ → KveState σ → Prop} (hi : ∀ x ∈ hs, x.keyLength ≠ 0) :
    ∀ {a : ℕ} {b : Bytes} {s : KveState σ}, A.At s m → ChainAt m a hs →
      a + chainLength hs + 3 ≤ limit →
      (∀ b' s', A.At s' m → Returns (findHoleLoop kve fuel (a + chainLength hs) b') s' Q) →
      Returns (findHoleLoop kve (hs.length + fuel) a b) s Q := by
  have hlim := A.limit_le
  induction hs with
  | nil =>
      intro a b s h _ _ hQ
      simpa using hQ b s h
  | cons x hs ih =>
      intro a b s h hc hb hQ
      rw [chainLength_cons] at hb hQ
      rw [List.length_cons, Nat.add_right_comm]
      unfold findHoleLoop
      rw [if_pos (by omega), returns_bind]
      apply returns_kveRead A h (by unfold sizeofHeader; omega)
      intro s1 h1
      rw [ofBuffer_read, hc.1]
      dsimp only
      rw [if_neg (hi x List.mem_cons_self)]
      refine ih (fun y hy => hi y (List.mem_cons_of_mem _ hy)) h1 hc.2 (by omega) ?_
      simpa only [Nat.add_assoc] using hQ

theorem findNextItemLoop_skip {hs : List KveItemHeader} {m : Bytes} {fuel : ℕ}
    {Q : ℕ → KveState σ → Prop} (hl : ∀ x ∈ hs, 4 ≤ x.fullLength)
    (hi : ∀ x ∈ hs, x.keyLength = 0) :
    ∀ {a : ℕ} {b : Bytes} {s : KveState σ}, A.At s m → ChainAt m a hs →
      a + chainLength hs + 3 ≤ limit →
      (∀ b' s', A.At s' m → Returns (findNextItemLoop kve fuel (a + chainLength hs) b') s' Q) →
      Returns (findNextItemLoop kve (hs.length + fuel) a b) s Q := by
  have hlim := A.limit_le
  have hsz := kve.size_le
  induction hs with
  | nil =>
      intro a b s h _ _ hQ
      simpa using hQ b s h
  | cons x hs ih =>
      intro a b s h hc hb hQ
      have hge := hl x List.mem_cons_self
      have hkl := hi x List.mem_cons_self
      rw [chainLength_cons] at hb hQ
      rw [List.length_cons, Nat.add_right_comm]
      unfold findNextItemLoop
      rw [if_pos (by omega), returns_bind]
      apply returns_kveRead A h (by unfold sizeofHeader; omega)
      intro s1 h1
      rw [ofBuffer_read, hc.1]
      dsimp only
      rw [if_neg (by unfold kveEndTag; omega), if_neg (by simp [hkl])]
      refine ih (fun y hy => hl y (List.mem_cons_of_mem _ hy))
        (fun y hy => hi y (List.mem_cons_of_mem _ hy)) h1 hc.2 (by omega) ?_
      simpa only [Nat.add_assoc] using hQ

/-! ### At the end tag -/

theorem findEndLoop_end {m b : Bytes} {a fuel : ℕ} {s : KveState σ} (h : A.At s m)
    (hend : Stored m a [0xff, 0xff]) (hb : a + 3 ≤ limit) :
    Returns (findEndLoop kve (fuel + 1) a b) s (fun r s' => r = a ∧ A.At s' m) := by
  have hlim := A.limit_le
  unfold findEndLoop
  rw [if_pos (by omega), returns_bind]
  apply returns_kveRead A h (show a + sizeofHeader ≤ limit from hb)
  intro s1 h1
  rw [ofBuffer_read, if_pos (headerAt_endTag hend), returns_pure]
  exact ⟨rfl, h1⟩

/-- At the end tag the search for a hole stops there or finds nothing. -/
theorem findHoleLoop_end {m b : Bytes} {a fuel : ℕ} {s : KveState σ} (h : A.At s m)
    (hend : Stored m a [0xff, 0xff]) (hb : a + 3 ≤ limit) :
    Returns (findHoleLoop kve (fuel + 2) a b) s
      (fun r s' => (r = a ∨ r = sizeMax) ∧ A.At s' m) := by
  have hlim := A.limit_le
  have hsz := kve.size_le
  unfold findHoleLoop
  rw [if_pos (by omega), returns_bind]
  apply returns_kveRead A h (show a + sizeofHeader ≤ limit from hb)
  intro s1 h1
  rw [ofBuffer_read]
  dsimp only
  split
  · rw [returns_pure]
    exact ⟨Or.inl rfl, h1⟩
  · have hjump : ¬ a + (headerAt m a).fullLength < kve.memorySize - 2 := by
      rw [headerAt_endTag hend]
      unfold kveEndTag
      omega
    unfold findHoleLoop
    rw [if_neg hjump, returns_pure]
    exact ⟨Or.inr rfl, h1⟩

theorem findNextItemLoop_end {m b : Bytes} {a fuel : ℕ} {s : KveState σ} (h : A.At s m)
    (hend : Stored m a [0xff, 0xff]) (hb : a + 3 ≤ limit) :
    Returns (findNextItemLoop kve (fuel + 1) a b) s (fun r s' => r = sizeMax ∧ A.At s' m) := by
  unfold findNextItemLoop
  split
  · rw [returns_bind]
    apply returns_kveRead A h (show a + sizeofHeader ≤ limit from hb)
    intro s1 h1
    rw [ofBuffer_read, if_pos (headerAt_endTag hend), returns_pure]
    exact ⟨rfl, h1⟩
  · rw [returns_pure]
    exact ⟨rfl, h⟩

/-! ### Specifications of the scans -/

/-- The end of a walk that starts anywhere in the memory. -/
theorem Walk.findEnd {m : Bytes} {hs : List KveItemHeader} {a fuel : ℕ} {s : KveState σ}
    (W : Walk m limit a hs) (h : A.At s m) (hf : kve.memorySize ≤ fuel) :
    Returns (kveStorageFindEnd kve fuel a) s (fun r s' => r = a + chainLength hs ∧ A.At s' m) := by
  have hlim := A.limit_le
  have hfit := W.fits
  have hlen := four_mul_length_le_chainLength W.long
  unfold sizeofHeader at hfit
  obtain ⟨f, rfl⟩ : ∃ f, fuel = hs.length + (f + 1) := ⟨fuel - hs.length - 1, by omega⟩
  simp only [kveStorageFindEnd, uninitialised, returns_bind, returns_get, returns_pure]
  refine findEndLoop_skip A W.long h W.chain hfit ?_
  intro b' s' h'
  exact findEndLoop_end A h' W.endTag hfit

/-- The first hole of a walk. -/
theorem Walk.findHole_some {m : Bytes} {is hs : List KveItemHeader} {x : KveItemHeader}
    {a fuel : ℕ} {s : KveState σ} (W : Walk m limit a (is ++ x :: hs)) (h : A.At s m)
    (hx : x.keyLength = 0) (hi : ∀ y ∈ is, y.keyLength ≠ 0) (hf : kve.memorySize ≤ fuel) :
    Returns (kveStorageFindHole kve fuel a) s
      (fun r s' => r = a + chainLength is ∧ A.At s' m) := by
  have hlim := A.limit_le
  have hfit := W.fits
  have hlen := four_mul_length_le_chainLength (fun y hy => W.long y (List.mem_append_left _ hy))
  have hc := chainAt_append.mp W.chain
  simp only [chainLength_append, chainLength_cons, sizeofHeader] at hfit
  obtain ⟨f, rfl⟩ : ∃ f, fuel = is.length + (f + 1) := ⟨fuel - is.length - 1, by omega⟩
  simp only [kveStorageFindHole, uninitialised, returns_bind, returns_get, returns_pure]
  refine findHoleLoop_skip A hi h hc.1 (by omega) ?_
  intro b' s' h'
  unfold findHoleLoop
  rw [if_pos (by omega), returns_bind]
  apply returns_kveRead A h' (by unfold sizeofHeader; omega)
  intro s1 h1
  rw [ofBuffer_read, hc.2.1]
  dsimp only
  rw [if_pos hx, returns_pure]
  exact ⟨rfl, h1⟩

/-- Without a hole the search ends at the end tag or fails. -/
theorem Walk.findHole_none {m : Bytes} {is : List KveItemHeader} {a fuel : ℕ} {s : KveState σ}
    (W : Walk m limit a is) (h : A.At s m) (hi : ∀ y ∈ is, y.keyLength ≠ 0)
    (hf : kve.memorySize ≤ fuel) :
    Returns (kveStorageFindHole kve fuel a) s
      (fun r s' => (r = a + chainLength is ∨ r = sizeMax) ∧ A.At s' m) := by
  have hlim := A.limit_le
  have hfit := W.fits
  have hsz := kve.size_ge
  have hlen := four_mul_length_le_chainLength W.long
  unfold sizeofHeader at hfit
  obtain ⟨f, rfl⟩ : ∃ f, fuel = is.length + (f + 2) := ⟨fuel - is.length - 2, by omega⟩
  simp only [kveStorageFindHole, uninitialised, returns_bind, returns_get, returns_pure]
  refine findHoleLoop_skip A hi h W.chain hfit ?_
  intro b' s' h'
  exact findHoleLoop_end A h' W.endTag hfit

/-- The next item behind a header and the holes that follow it. -/
theorem Walk.findNextItem_some {m : Bytes} {hs rest : List KveItemHeader}
    {x y : KveItemHeader} {a fuel : ℕ} {s : KveState σ} (W : Walk m limit a (x :: hs ++ y :: rest))
    (h : A.At s m) (hh : ∀ z ∈ hs, z.keyLength = 0) (hy : y.keyLength ≠ 0)
    (hf : kve.memorySize ≤ fuel) :
    Returns (kveStorageFindNextItem kve fuel a) s
      (fun r s' => r = a + (x.fullLength + chainLength hs) ∧ A.At s' m) := by
  have hlim := A.limit_le
  have hsz := kve.size_le
  have hfit := W.fits
  have hlong : ∀ z ∈ hs, 4 ≤ z.fullLength := fun z hz => W.long z (by simp [hz])
  have hlen := four_mul_length_le_chainLength hlong
  have hx := W.long x (by simp)
  have hy4 := W.long y (by simp)
  obtain ⟨hc1, hc2⟩ := W.chain
  have hc := chainAt_append.mp hc2
  simp only [List.cons_append, chainLength_append, chainLength_cons, sizeofHeader] at hfit
  obtain ⟨f, rfl⟩ : ∃ f, fuel = hs.length + (f + 1) := ⟨fuel - hs.length - 1, by omega⟩
  simp only [kveStorageFindNextItem, uninitialised, returns_bind, returns_get, returns_pure]
  apply returns_kveRead A h (by unfold sizeofHeader; omega)
  intro s1 h1
  rw [ofBuffer_read, hc1]
  rw [if_neg (by unfold kveEndTag; omega)]
  refine findNextItemLoop_skip A hlong hh h1 hc.1 (by omega) ?_
  intro b' s' h'
  unfold findNextItemLoop
  rw [if_pos (by omega), returns_bind]
  apply returns_kveRead A h' (by unfold sizeofHeader; omega)
  intro s2 h2
  rw [ofBuffer_read, hc.2.1]
  dsimp only
  rw [if_neg (by unfold kveEndTag; omega), if_pos hy, returns_pure]
  exact ⟨by omega, h2⟩

/-- Behind the last hole there is no item. -/
theorem Walk.findNextItem_none {m : Bytes} {hs : List KveItemHeader} {x : KveItemHeader}
    {a fuel : ℕ} {s : KveState σ} (W : Walk m limit a (x :: hs)) (h : A.At s m)
    (hh : ∀ z ∈ hs, z.keyLength = 0) (hf : kve.memorySize ≤ fuel) :
    Returns (kveStorageFindNextItem kve fuel a) s (fun r s' => r = sizeMax ∧ A.At s' m) := by
  have hlim := A.limit_le
  have hsz := kve.size_le
  have hfit := W.fits
  have hend := W.endTag
  have hlong : ∀ z ∈ hs, 4 ≤ z.fullLength := fun z hz => W.long z (List.mem_cons_of_mem _ hz)
  have hlen := four_mul_length_le_chainLength hlong
  have hx := W.long x List.mem_cons_self
  obtain ⟨hc1, hc2⟩ := W.chain
  simp only [chainLength_cons, sizeofHeader, ← Nat.add_assoc] at hfit hend
  obtain ⟨f, rfl⟩ : ∃ f, fuel = hs.length + (f + 1) := ⟨fuel - hs.length - 1, by omega⟩
  simp only [kveStorageFindNextItem, uninitialised, returns_bind, returns_get, returns_pure]
  apply returns_kveRead A h (by unfold sizeofHeader; omega)
  intro s1 h1
  rw [ofBuffer_read, hc1]
  rw [if_neg (by unfold kveEndTag; omega)]
  refine findNextItemLoop_skip A hlong hh h1 hc2 hfit ?_
  intro b' s' h'
  exact findNextItemLoop_end A h' hend hfit

/-- At the end tag itself there is no next item. -/
theorem findNextItem_endTag {m : Bytes} {a fuel : ℕ} {s : KveState σ} (h : A.At s m)
    (hend : Stored m a [0xff, 0xff]) (hb : a + 3 ≤ limit) :
    Returns (kveStorageFindNextItem kve fuel a) s (fun r s' => r = sizeMax ∧ A.At s' m) := by
  simp only [kveStorageFindNextItem, uninitialised, returns_bind, returns_get, returns_pure]
  apply returns_kveRead A h (show a + sizeofHeader ≤ limit from hb)
  intro s1 h1
  rw [ofBuffer_read, if_pos (headerAt_endTag hend), returns_pure]
  exact ⟨rfl, h1⟩

end

end NanoDrone
