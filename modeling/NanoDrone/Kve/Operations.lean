import NanoDrone.Kve.Defrag

/-! # The operations of `kve.c` on a table

On a table the operations return, and what they leave is again a table: the one that
`Layout.store`, `Layout.delete` and `Layout.compact` compute on the list of entries.

A store answers as `Layout.store` does for every length of the value.  That it leaves the
entries needs room for the end tag below `limit`, and that they are a table again needs room for
the header that a scan reads there, which is one byte longer; on a memory that is faithful over
its whole size the code's own test for space gives both (`store_span_le`). -/

namespace NanoDrone

/-! ### Changing the table -/

/-- An entry replaced in place by one of the same length. -/
theorem Table.replace {m : Bytes} {limit : ℕ} {pre post : List Entry} {e e' : Entry}
    (T : Table m limit (pre ++ e :: post)) (hl : e'.length = e.length) (hv : e'.Valid)
    (hk : (keys (pre ++ e' :: post)).Nodup) :
    Table (m.write (firstItemAddress + span pre) e'.bytes) limit (pre ++ e' :: post) := by
  have hvp : ∀ x ∈ pre, x.Valid := fun x hx => T.valid x (by simp [hx])
  have hvq : ∀ x ∈ post, x.Valid := fun x hx => T.valid x (by simp [hx])
  have hb := Entry.bytes_length_le hv
  have hsg := segAt_append.mp T.seg
  have hend := T.endTag
  have hspan : span (pre ++ e' :: post) = span (pre ++ e :: post) := by
    simp only [span_append, span_cons, hl]
  refine ⟨⟨?_, ?_, ?_, ?_, hk⟩, ?_⟩
  · rw [Bytes.write_outside _ (by unfold versionAddress firstItemAddress; omega)]
    exact T.version
  · refine segAt_append.mpr ⟨hsg.1.frame hvp (Or.inl (Nat.le_refl _)), stored_write _ _ _, ?_⟩
    rw [hl]
    exact hsg.2.2.frame hvq (Or.inr (by omega))
  · rw [hspan]
    refine hend.frame (Or.inr ?_)
    rw [span_append, span_cons]
    omega
  · intro x hx
    rcases List.mem_append.mp hx with hx | hx
    · exact hvp x hx
    · rcases List.mem_cons.mp hx with rfl | hx
      · exact hv
      · exact hvq x hx
  · rw [hspan]
    exact T.fits

/-- An item and a new end tag written over the old one. -/
theorem Laid.push {m : Bytes} {es : List Entry} {key value : List UInt8} (L : Laid m es)
    (hv : (Entry.item key value).Valid) (hn : key ∉ keys es) :
    Laid ((m.write (firstItemAddress + span es) (Entry.item key value).bytes).write
      (firstItemAddress + span es + (3 + key.length + value.length)) [0xff, 0xff])
      (es ++ [.item key value]) := by
  have hb : (Entry.item key value).bytes.length = 3 + (key.length + value.length) := by
    simp only [Entry.bytes, KveItemHeader.toBytes, List.length_append, List.length_cons,
      List.length_nil]
  constructor
  · rw [Bytes.write_outside _ (by unfold versionAddress firstItemAddress; omega),
      Bytes.write_outside _ (by unfold versionAddress firstItemAddress; omega)]
    exact L.version
  · refine segAt_append.mpr ⟨?_, ?_, trivial⟩
    · exact (L.seg.frame L.valid (Or.inl (Nat.le_refl _))).frame L.valid (Or.inl (by omega))
    · exact (stored_write _ _ _).frame (Or.inl (by omega))
  · simp only [span_append, span_cons, span_nil, Entry.length_item, Nat.add_zero,
      ← Nat.add_assoc]
    exact stored_write _ _ _
  · intro x hx
    rcases List.mem_append.mp hx with hx | hx
    · exact L.valid x hx
    · rw [List.mem_singleton.mp hx]
      exact hv
  · rw [keys_append, keys_item, keys_nil]
    exact List.nodup_append.mpr ⟨L.nodup, List.nodup_singleton _, by
      rintro x hx y hy rfl
      rw [List.mem_singleton.mp hy] at hx
      exact hn hx⟩

/-- A table splits at each of its keys, which occurs nowhere else. -/
theorem Laid.split {m : Bytes} {es : List Entry} {key v : List UInt8} (L : Laid m es)
    (h : Layout.lookup es key = some v) : ∃ pre post, es = pre ++ .item key v :: post ∧
      key ∉ keys pre ∧ key ∉ keys post := by
  obtain ⟨pre, post, rfl, _⟩ := Layout.lookup_split h
  exact ⟨pre, post, rfl, keys_nodup_split L.nodup⟩

/-- The test of the code is the test on the layout. -/
theorem enoughSpace_eq {σ : Type} (kve : KveMemory σ) (es : List Entry)
    (key buffer : List UInt8) : enoughSpace kve (firstItemAddress + span es) key buffer =
      Layout.fits kve.memorySize es key buffer := rfl

section
variable {σ : Type} {kve : KveMemory σ} {limit top : ℕ} (A : Access kve limit top)
include A

/-! ### Appending -/

theorem writeItemAndEnd_spec {m : Bytes} {es : List Entry} {key buffer : List UInt8}
    {s : KveState σ} (h : A.At s m) (L : Laid m es) (hk1 : 1 ≤ key.length)
    (hk2 : key.length ≤ 255) (hn : key ∉ keys es)
    (hb : firstItemAddress + span es + (3 + key.length + buffer.length) + 2 ≤ top) :
    Returns (writeItemAndEnd kve (firstItemAddress + span es) key buffer) s
      (fun _ s' => ∃ m', A.At s' m' ∧ Laid m' (es ++ [.item key buffer])) := by
  have htop := A.top_le
  have hsz := kve.size_le
  simp only [writeItemAndEnd, returns_bind, returns_pure]
  apply returns_writeItem A h hk2 (by omega) (by omega)
  intro s1 h1
  apply returns_writeEnd A h1 hb
  intro s2 h2
  exact ⟨_, h2, L.push ⟨hk1, hk2⟩ hn⟩

omit A in
theorem returns_writeItemAndEnd (a : ℕ) (key buffer : List UInt8) (s : KveState σ) :
    Returns (writeItemAndEnd kve a key buffer) s (fun _ _ => True) := by
  simp only [writeItemAndEnd, kveStorageWriteItem, kveStorageWriteEnd, returns_bind,
    returns_kveWrite_iff, returns_kveFlush_iff, returns_pure]

/-- The item and the end tag written behind a table on which there is enough space. -/
theorem push_spec {m : Bytes} {es : List Entry} {key buffer : List UInt8} {s : KveState σ}
    (h : A.At s m) (T : Table m limit es) (hk1 : 1 ≤ key.length) (hk2 : key.length ≤ 255)
    (hn : key ∉ keys es) :
    Returns (do
      writeItemAndEnd kve (firstItemAddress + span es) key buffer
      pure true) s (fun r s' => r = true ∧
        (firstItemAddress + span (es ++ [.item key buffer]) + kveEndTagLendth ≤ top →
          ∃ m', A.At s' m' ∧ Laid m' (es ++ [.item key buffer]))) := by
  rw [returns_bind]
  by_cases hle : firstItemAddress + span (es ++ [.item key buffer]) + kveEndTagLendth ≤ top
  · have hb := hle
    simp only [span_append, span_cons, span_nil, Entry.length_item, kveEndTagLendth] at hb
    refine (writeItemAndEnd_spec A h T.toLaid hk1 hk2 hn (by omega)).mono ?_
    intro _ s' h'
    rw [returns_pure]
    exact ⟨rfl, fun _ => h'⟩
  · refine (returns_writeItemAndEnd _ _ _ s).mono ?_
    intro _ s' _
    rw [returns_pure]
    exact ⟨rfl, fun hle' => absurd hle' hle⟩

theorem append_spec {m : Bytes} {es : List Entry} {key buffer : List UInt8} {fuel : ℕ}
    {s : KveState σ} (h : A.At s m) (T : Table m limit es)
    (hw : firstItemAddress + span es + kveEndTagLendth ≤ top) (hk1 : 1 ≤ key.length)
    (hk2 : key.length ≤ 255) (hn : key ∉ keys es) (hf : kve.memorySize ≤ fuel) :
    Returns (appendItemToEnd fuel kve firstItemAddress key buffer) s
      (fun r s' => r = (Layout.append kve.memorySize es key buffer).2 ∧
        (firstItemAddress + span (Layout.append kve.memorySize es key buffer).1 + kveEndTagLendth
          ≤ top → ∃ m', A.At s' m' ∧
            Laid m' (Layout.append kve.memorySize es key buffer).1)) := by
  have hlim := A.limit_le
  have hsz := kve.size_le
  have hfit := T.fits
  have hne : firstItemAddress + span es ≠ sizeMax := by unfold sizeMax; omega
  unfold appendItemToEnd
  refine (T.findEnd A h hf).bind ?_
  rintro _ s1 ⟨rfl, h1⟩
  rw [if_neg hne]
  unfold Layout.append
  by_cases hfits : Layout.fits kve.memorySize es key buffer = true
  · rw [enoughSpace_eq, if_pos hfits, if_pos hfits]
    exact push_spec A h1 T hk1 hk2 hn
  · rw [enoughSpace_eq, if_neg hfits, if_neg hfits]
    refine (defrag_spec A h1 T hw hf).bind ?_
    rintro _ s2 ⟨m2, h2, T2⟩
    refine (T2.findEnd A h2 hf).bind ?_
    rintro _ s3 ⟨rfl, h3⟩
    rw [enoughSpace_eq]
    by_cases hfits2 : Layout.fits kve.memorySize (Layout.compact es) key buffer = true
    · rw [if_pos hfits2, if_pos hfits2]
      exact push_spec A h3 T2 hk1 hk2 (by simpa using hn)
    · rw [if_neg hfits2, if_neg hfits2, returns_pure]
      exact ⟨rfl, fun _ => ⟨m2, h3, T2.toLaid⟩⟩

/-! ### The public operations -/

/-- The header of an item. -/
theorem getItemInfo_item {m : Bytes} {a : ℕ} {key v : List UInt8} {s : KveState σ}
    (h : A.At s m) (I : ItemAt m limit a key v) :
    Returns (kveStorageGetItemInfo kve a) s
      (fun r s' => r = ⟨3 + key.length + v.length, key.length⟩ ∧ A.At s' m) := by
  have hlim := A.limit_le
  have hsz := kve.size_le
  have hfit := I.fits
  apply returns_getItemInfo A h (by omega)
  intro s1 h1
  rw [I.header (by omega)]
  exact ⟨rfl, h1⟩

omit A in
/-- The size that the code computes for the value of an item. -/
theorem storeSize_item {key v : List UInt8} (h : 3 + key.length + v.length < 65536) :
    sizeT (3 + key.length + v.length + 2 ^ 32 - key.length - sizeofHeader) = v.length := by
  unfold sizeT sizeofHeader
  omega

/-- The first bytes of the value of an item. -/
theorem getBuffer_item {m b : Bytes} {a n : ℕ} {key v : List UInt8} {s : KveState σ}
    (h : A.At s m) (I : ItemAt m limit a key v) :
    Returns (kveStorageGetBuffer kve a ⟨3 + key.length + v.length, key.length⟩ b
      (min v.length n)) s
      (fun r s' => r = (min n v.length, b.write 0 (v.take n)) ∧ A.At s' m) := by
  have hlim := A.limit_le
  have hsz := kve.size_le
  have hfit := I.fits
  have e1 : kveStorageGetBufferLength ⟨3 + key.length + v.length, key.length⟩ = v.length := by
    unfold kveStorageGetBufferLength sizeT sizeofHeader
    dsimp only
    omega
  have e2 : min v.length (min v.length n) = min n v.length := by omega
  unfold kveStorageGetBuffer
  dsimp only
  rw [e1, e2, returns_bind]
  apply returns_kveRead A h (by unfold sizeofHeader; omega)
  intro s1 h1
  have hs : m.slice (a + 3 + key.length) v.length = v := stored_value I.stored
  have ht := Bytes.take_slice m (a + 3 + key.length) v.length n
  rw [hs] at ht
  rw [returns_pure, ht]
  exact ⟨rfl, h1⟩

omit A in
/-- The item of a key turned into a hole in memory. -/
theorem Table.markHole {m : Bytes} {pre post : List Entry} {key old : List UInt8}
    (T : Table m limit (pre ++ .item key old :: post)) (hp : key ∉ keys pre)
    (hq : key ∉ keys post) :
    Table (m.write (firstItemAddress + span pre)
      (Entry.hole (3 + key.length + old.length)).bytes) limit
      (Layout.markHole (pre ++ .item key old :: post) key) := by
  have hv := T.valid (.item key old) (by simp)
  have hnd := T.nodup
  simp only [Entry.Valid] at hv
  rw [Layout.markHole_split hp hq]
  refine T.replace rfl (by simp only [Entry.Valid]; omega) ?_
  simp only [keys_append, keys_item, keys_hole] at hnd ⊢
  exact (List.nodup_cons.mp (List.nodup_middle.mp hnd)).2

theorem store_spec {m : Bytes} {es : List Entry} {key buffer : List UInt8} {fuel : ℕ}
    {s : KveState σ} (h : A.At s m) (T : Table m limit es)
    (hw : firstItemAddress + span es + kveEndTagLendth ≤ top) (hk1 : 1 ≤ key.length)
    (hk2 : key.length ≤ 255) (hf : kve.memorySize ≤ fuel) :
    Returns (kveStore fuel kve key buffer) s
      (fun r s' => r = (Layout.store kve.memorySize es key buffer).2 ∧
        (firstItemAddress + span (Layout.store kve.memorySize es key buffer).1 + kveEndTagLendth
          ≤ top → ∃ m', A.At s' m' ∧
            Laid m' (Layout.store kve.memorySize es key buffer).1)) := by
  have hlim := A.limit_le
  have hsz := kve.size_le
  have hfit := T.fits
  unfold kveStore Layout.store
  cases hl : Layout.lookup es key with
  | none =>
      have hn := Layout.lookup_eq_none.mp hl
      refine ((T.searchable _).findItemByKey_none A h hk1 hk2 hf hn).bind ?_
      rintro _ s1 ⟨rfl, h1⟩
      rw [if_pos rfl]
      exact append_spec A h1 T hw hk1 hk2 hn hf
  | some old =>
      obtain ⟨pre, post, rfl, hp, hq⟩ := T.toLaid.split hl
      have htop := A.top_le
      have hw' := hw
      simp only [span_append, span_cons, Entry.length_item, sizeofHeader, kveEndTagLendth]
        at hfit hw'
      refine ((T.searchable _).findItemByKey_some A h hf hp).bind ?_
      rintro _ s1 ⟨rfl, h1⟩
      rw [if_neg (by unfold sizeMax; omega)]
      refine (getItemInfo_item A h1 T.itemAt).bind ?_
      rintro _ s2 ⟨rfl, h2⟩
      dsimp only
      split
      · rw [returns_bind]
        apply returns_writeHole A h2 (by omega) (by omega)
        intro s3 h3
        have hn : key ∉ keys (Layout.markHole (pre ++ .item key old :: post) key) :=
          Layout.lookup_eq_none.mp (by simp [Layout.lookup_markHole])
        exact append_spec A h3 (T.markHole hp hq) (by rwa [Layout.span_markHole]) hk1 hk2 hn
          hf
      · rename_i hsame
        rw [Layout.overwrite_split hp hq, returns_bind]
        by_cases hle : firstItemAddress + span (pre ++ .item key buffer :: post) +
            kveEndTagLendth ≤ top
        · have hb := hle
          simp only [span_append, span_cons, Entry.length_item, kveEndTagLendth] at hb
          -- the truncated length can only agree when the lengths do
          have hlen : old.length = buffer.length := by omega
          apply returns_writeItem A h2 hk2 (by omega) (by omega)
          intro s3 h3
          rw [returns_pure]
          refine ⟨rfl, fun _ => ⟨_, h3, Table.toLaid (?_ : Table _ limit _)⟩⟩
          refine T.replace (by simp only [Entry.length_item, hlen]) ⟨hk1, hk2⟩ ?_
          have := T.nodup
          simpa only [keys_append, keys_item] using this
        · simp only [kveStorageWriteItem, returns_bind, returns_kveWrite_iff,
            returns_kveFlush_iff, returns_pure, true_and]
          exact fun hle' => absurd hle' hle

theorem delete_spec {m : Bytes} {es : List Entry} {key : List UInt8} {fuel : ℕ}
    {s : KveState σ} (h : A.At s m) (T : Table m limit es)
    (hw : firstItemAddress + span es + kveEndTagLendth ≤ top) (hk1 : 1 ≤ key.length)
    (hk2 : key.length ≤ 255) (hf : kve.memorySize ≤ fuel) :
    Returns (kveDelete fuel kve key) s
      (fun r s' => r = (Layout.delete es key).2 ∧ ∃ m', A.At s' m' ∧
        Table m' limit (Layout.delete es key).1) := by
  have hlim := A.limit_le
  have hsz := kve.size_le
  have hfit := T.fits
  unfold kveDelete Layout.delete
  cases hl : Layout.lookup es key with
  | none =>
      have hn := Layout.lookup_eq_none.mp hl
      refine ((T.searchable _).findItemByKey_none A h hk1 hk2 hf hn).bind ?_
      rintro _ s1 ⟨rfl, h1⟩
      rw [if_neg (by simp), returns_pure]
      exact ⟨rfl, m, h1, T⟩
  | some old =>
      obtain ⟨pre, post, rfl, hp, hq⟩ := T.toLaid.split hl
      simp only [span_append, span_cons, Entry.length_item, sizeofHeader, kveEndTagLendth]
        at hfit hw
      refine ((T.searchable _).findItemByKey_some A h hf hp).bind ?_
      rintro _ s1 ⟨rfl, h1⟩
      rw [if_pos (by unfold sizeMax; omega)]
      refine (getItemInfo_item A h1 T.itemAt).bind ?_
      rintro _ s2 ⟨rfl, h2⟩
      dsimp only
      rw [returns_bind]
      apply returns_writeHole A h2 (by omega) (by omega)
      intro s3 h3
      rw [returns_pure]
      exact ⟨rfl, _, h3, T.markHole hp hq⟩

theorem Searchable.fetch {m b : Bytes} {es : List Entry} {key : List UInt8} {fuel n : ℕ}
    {s : KveState σ} (h : A.At s m) (L : Searchable m limit kve.memorySize es)
    (hk1 : 1 ≤ key.length) (hk2 : key.length ≤ 255) (hf : kve.memorySize ≤ fuel) :
    Returns (kveFetch fuel kve key b n) s (fun r s' => A.At s' m ∧
      r = match Layout.lookup es key with
        | none => (0, b)
        | some v => (min n v.length, b.write 0 (v.take n))) := by
  have hlim := A.limit_le
  have hsz := kve.size_le
  have hfit := L.span_le
  unfold kveFetch
  cases hl : Layout.lookup es key with
  | none =>
      refine (L.findItemByKey_none A h hk1 hk2 hf (Layout.lookup_eq_none.mp hl)).bind ?_
      rintro _ s1 ⟨rfl, h1⟩
      rw [if_neg (by simp), returns_pure]
      exact ⟨h1, rfl⟩
  | some v =>
      obtain ⟨pre, post, rfl, hp, hq⟩ := L.toLaid.split hl
      simp only [span_append, span_cons, Entry.length_item] at hfit
      refine (L.findItemByKey_some A h hf hp).bind ?_
      rintro _ s1 ⟨rfl, h1⟩
      rw [if_pos (by unfold sizeMax; omega)]
      refine (getItemInfo_item A h1 L.itemAt).bind ?_
      rintro _ s2 ⟨rfl, h2⟩
      dsimp only
      rw [storeSize_item (by unfold firstItemAddress at hfit; omega)]
      refine (getBuffer_item A h2 L.itemAt).mono ?_
      rintro _ s3 ⟨rfl, h3⟩
      exact ⟨h3, rfl⟩

theorem fetch_spec {m b : Bytes} {es : List Entry} {key : List UInt8} {fuel n : ℕ}
    {s : KveState σ} (h : A.At s m) (T : Table m limit es) (hk1 : 1 ≤ key.length)
    (hk2 : key.length ≤ 255) (hf : kve.memorySize ≤ fuel) :
    Returns (kveFetch fuel kve key b n) s (fun r s' => A.At s' m ∧
      r = match Layout.lookup es key with
        | none => (0, b)
        | some v => (min n v.length, b.write 0 (v.take n))) :=
  (T.searchable _).fetch A h hk1 hk2 hf

omit A in
theorem laid_format {m : Bytes} : Laid ((m.write versionAddress [kveVersion]).write
    firstItemAddress [0xff, 0xff]) [] := by
  constructor
  · rw [Bytes.write_outside _ (by unfold versionAddress firstItemAddress; omega)]
    rfl
  · trivial
  · exact stored_write _ _ _
  · simp
  · simp

theorem format_spec {m : Bytes} {s : KveState σ} (h : A.At s m) (hl : 4 ≤ limit)
    (hw : 3 ≤ top) :
    Returns (kveFormat kve) s (fun _ s' => ∃ m', A.At s' m' ∧ Table m' limit []) := by
  simp only [kveFormat, returns_bind, returns_pure]
  apply returns_kveWrite A h (by simp [versionAddress]; omega)
  intro s1 h1
  apply returns_writeEnd A h1 (by unfold firstItemAddress; omega)
  intro s2 h2
  refine ⟨_, h2, laid_format, ?_⟩
  unfold firstItemAddress sizeofHeader
  simpa using hl

/-- A table passes the check. -/
theorem check_spec {m : Bytes} {es : List Entry} {fuel : ℕ} {s : KveState σ} (h : A.At s m)
    (T : Table m limit es) (hf : kve.memorySize ≤ fuel) :
    Returns (kveCheck fuel kve) s (fun r s' => r = true ∧ A.At s' m) := by
  have hlim := A.limit_le
  have hsz := kve.size_le
  have hfit := T.fits
  simp only [kveCheck, uninitialised, returns_bind, returns_get, returns_pure]
  apply returns_kveRead A h (by unfold versionAddress; unfold sizeofHeader at hfit; omega)
  intro s1 h1
  have hver : ∀ b : Bytes, (b.write 0 (m.slice versionAddress 1)) 0 = kveVersion :=
    fun _ => T.version
  rw [if_neg (by simp [hver]), returns_bind]
  refine (T.findEnd A h1 hf).mono ?_
  rintro _ s2 ⟨rfl, h2⟩
  rw [returns_pure]
  have hne : firstItemAddress + span es ≠ sizeMax := by
    unfold sizeMax
    omega
  exact ⟨decide_eq_true hne, h2⟩

end

/-! ### Room on a memory that is faithful over its whole size -/

namespace Layout

theorem append_span_le {memorySize : ℕ} {es : List Entry} {key value : List UInt8}
    (hes : 1 + span es + 3 ≤ memorySize)
    (hw : memorySize + key.length + value.length + 2 < 2 ^ 32) :
    1 + span (append memorySize es key value).1 + 3 ≤ memorySize := by
  have hc := span_compact_le es
  have hpush : ∀ es', span es' ≤ span es → fits memorySize es' key value = true →
      1 + span (es' ++ [.item key value]) + 3 ≤ memorySize := by
    intro es' hle hfits
    have h' := of_decide_eq_true hfits
    unfold sizeT sizeofHeader kveEndTagLendth at h'
    simp only [span_append, span_cons, span_nil, Entry.length_item]
    omega
  unfold append
  split
  · rename_i hfits
    exact hpush es (Nat.le_refl _) hfits
  · split
    · rename_i hfits
      exact hpush _ hc hfits
    · change 1 + span (compact es) + 3 ≤ memorySize
      omega

/-- Only an item in place can outgrow the memory: everything else is checked for room. -/
theorem store_of_oversize {memorySize : ℕ} {es : List Entry} {key value : List UInt8}
    (hes : 1 + span es + 3 ≤ memorySize)
    (hw : memorySize + key.length + value.length + 2 < 2 ^ 32)
    (hbig : ¬ 1 + span (store memorySize es key value).1 + 3 ≤ memorySize) :
    ∃ old, lookup es key = some old ∧
      ¬ 3 + key.length + old.length ≠ (value.length + 3 + key.length) % 65536 ∧
      store memorySize es key value = (overwrite es key value, true) := by
  unfold store at hbig ⊢
  cases hl : lookup es key with
  | none =>
      rw [hl] at hbig
      exact absurd (append_span_le hes hw) hbig
  | some old =>
      rw [hl] at hbig
      dsimp only at hbig ⊢
      by_cases hne : 3 + key.length + old.length ≠ (value.length + 3 + key.length) % 65536
      · rw [if_pos hne] at hbig
        exact absurd (append_span_le (by rw [span_markHole]; exact hes) hw) hbig
      · exact ⟨old, rfl, hne, if_neg hne⟩

/-- **Room after a store.**  A value whose length fits in `full_length` is stored so that the header
at the new end tag can still be read. -/
theorem store_span_le {memorySize : ℕ} {es : List Entry} {key value : List UInt8}
    (hnd : (keys es).Nodup) (hes : 1 + span es + 3 ≤ memorySize) (hsz : memorySize ≤ 65535)
    (hk : key.length ≤ 255) (hv : value.length < 65536) :
    1 + span (store memorySize es key value).1 + 3 ≤ memorySize := by
  by_contra hbig
  obtain ⟨old, hl, hsame, hst⟩ := store_of_oversize hes (by omega) hbig
  have hspan := span_overwrite value hnd hl
  have hold := length_le_of_lookup hl
  rw [hst] at hbig
  dsimp only at hbig
  omega

end Layout

end NanoDrone
