import NanoDrone.Kve.Chain

/-! # Finding a key

`kveStorageFindItemByKey` reads the headers as the other scans do, and the key of each entry whose
key length is right.  It passes over entries with other keys, whatever it does afterwards, so it
stops at the item of the key or at the end tag. -/

namespace NanoDrone

section
variable {σ : Type} {kve : KveMemory σ} {limit top : ℕ} (A : Access kve limit top)
include A

/-- One round of the scan, at an entry with another key. -/
theorem findItemByKeyLoop_pass {key : List UInt8} (hk1 : 1 ≤ key.length)
    (hk2 : key.length ≤ 255) {e : Entry} {m : Bytes} {fuel a : ℕ} {s : KveState σ}
    {Q : ℕ → KveState σ → Prop} (he : e.Valid) (hn : e.key? ≠ some key) (ha : 1 ≤ a)
    (h : A.At s m) (hst : Stored m a e.bytes) (hb : a + e.length ≤ limit)
    (hQ : ∀ s', A.At s' m → Returns (findItemByKeyLoop kve key fuel (a + e.length)) s' Q) :
    Returns (findItemByKeyLoop kve key (fuel + 1) a) s Q := by
  have hlim := A.limit_le
  have hsz := kve.size_le
  have hge := he.length_ge
  have hkey : key.length % 256 = key.length := Nat.mod_eq_of_lt (by omega)
  have hne : e.length ≠ kveEndTag := by unfold kveEndTag; omega
  unfold findItemByKeyLoop
  rw [if_pos (by omega), returns_bind]
  apply returns_readSearchBuffer A h (by omega)
  intro b s1 h1
  rw [ofBuffer_write_slice, headerAt_entry hst he (by omega)]
  dsimp only
  rw [if_neg hne, hkey]
  by_cases hl : e.keyLength = key.length
  · cases e with
    | hole n =>
        simp only [Entry.keyLength_hole] at hl
        omega
    | item k v =>
        simp only [Entry.keyLength_item] at hl
        simp only [Entry.length_item] at hb hge
        rw [if_pos (by simpa using hl), returns_bind]
        apply returns_readSearchBuffer A h1 (by omega)
        intro b' s2 h2
        have hs : m.slice (a + 3) key.length = k := hl ▸ stored_key hst
        have hkk : k ≠ key := fun hk => hn (congrArg some hk)
        rw [Bytes.slice_write_take _ _ _ _ (by simp [hl]), hs]
        simp only [Entry.keyLength_item, hl, List.take_length]
        rw [← hl, List.take_length, if_neg (Ne.symm hkk)]
        exact hQ s2 h2
  · rw [if_neg hl]
    exact hQ s1 h1

theorem findItemByKeyLoop_skip {key : List UInt8} (hk1 : 1 ≤ key.length)
    (hk2 : key.length ≤ 255) {pre : List Entry} {m : Bytes} {fuel : ℕ}
    {Q : ℕ → KveState σ → Prop} (hv : ∀ e ∈ pre, e.Valid) (hn : key ∉ keys pre) :
    ∀ {a : ℕ} {s : KveState σ}, 1 ≤ a → A.At s m → SegAt m a pre → a + span pre ≤ limit →
      (∀ s', A.At s' m → Returns (findItemByKeyLoop kve key fuel (a + span pre)) s' Q) →
      Returns (findItemByKeyLoop kve key (pre.length + fuel) a) s Q := by
  induction pre with
  | nil =>
      intro a s _ h _ _ hQ
      simpa using hQ s h
  | cons e pre ih =>
      intro a s ha h hseg hb hQ
      rw [span_cons] at hb hQ
      have hfirst : e.key? ≠ some key := fun hk =>
        hn (List.mem_filterMap.mpr ⟨e, List.mem_cons_self, hk⟩)
      have hothers : key ∉ keys pre := by
        intro hm
        obtain ⟨x, hx, hk⟩ := List.mem_filterMap.mp hm
        exact hn (List.mem_filterMap.mpr ⟨x, List.mem_cons_of_mem _ hx, hk⟩)
      rw [List.length_cons, Nat.add_right_comm]
      refine findItemByKeyLoop_pass A hk1 hk2 (hv e List.mem_cons_self) hfirst ha h hseg.1
        (by omega) ?_
      intro s' h'
      refine ih (fun x hx => hv x (List.mem_cons_of_mem _ hx)) hothers (by omega) h'
        hseg.2 (by omega) ?_
      simpa only [Nat.add_assoc] using hQ

theorem findItemByKeyLoop_end {key : List UInt8} {m : Bytes} {a fuel : ℕ} {s : KveState σ}
    (h : A.At s m) (hend : Stored m a [0xff, 0xff])
    (hb : a + 3 ≤ limit ∨ kve.memorySize ≤ a + 3) :
    Returns (findItemByKeyLoop kve key (fuel + 1) a) s (fun r s' => r = sizeMax ∧ A.At s' m) := by
  unfold findItemByKeyLoop
  split
  · rw [returns_bind]
    apply returns_readSearchBuffer A h (by omega)
    intro b s1 h1
    rw [ofBuffer_write_slice]
    dsimp only
    rw [if_pos (headerAt_endTag hend), returns_pure]
    exact ⟨rfl, h1⟩
  · rw [returns_pure]
    exact ⟨rfl, h⟩

/-- A key that is not in the table is not found. -/
theorem Searchable.findItemByKey_none {m : Bytes} {es : List Entry} {key : List UInt8}
    {fuel : ℕ} {s : KveState σ} (h : A.At s m) (L : Searchable m limit kve.memorySize es)
    (hk1 : 1 ≤ key.length) (hk2 : key.length ≤ 255) (hf : kve.memorySize ≤ fuel)
    (hn : key ∉ keys es) : Returns (kveStorageFindItemByKey kve fuel firstItemAddress key) s
      (fun r s' => r = sizeMax ∧ A.At s' m) := by
  have hlim := A.limit_le
  have hfit := L.span_le
  have hlen := four_mul_length_le_span L.valid
  unfold firstItemAddress at hfit
  obtain ⟨f, rfl⟩ : ∃ f, fuel = es.length + (f + 1) := ⟨fuel - es.length - 1, by omega⟩
  unfold kveStorageFindItemByKey
  refine findItemByKeyLoop_skip A hk1 hk2 L.valid hn (Nat.le_refl 1) h L.seg hfit ?_
  intro s' h'
  exact findItemByKeyLoop_end A h' L.endTag L.stops

/-- A key is found at its item. -/
theorem Searchable.findItemByKey_some {m : Bytes} {pre post : List Entry} {key v : List UInt8}
    {fuel : ℕ} {s : KveState σ} (h : A.At s m)
    (L : Searchable m limit kve.memorySize (pre ++ .item key v :: post))
    (hf : kve.memorySize ≤ fuel) (hn : key ∉ keys pre) :
    Returns (kveStorageFindItemByKey kve fuel firstItemAddress key) s
      (fun r s' => r = firstItemAddress + span pre ∧ A.At s' m) := by
  have hlim := A.limit_le
  have hsz := kve.size_le
  have hfit := L.span_le
  have hvp : ∀ e ∈ pre, e.Valid := fun e he => L.valid e (by simp [he])
  have hve : (Entry.item key v).Valid := L.valid _ (by simp)
  have hlen := four_mul_length_le_span hvp
  have hseg := segAt_append.mp L.seg
  have hst : Stored m (firstItemAddress + span pre) (Entry.item key v).bytes := hseg.2.1
  simp only [span_append, span_cons, Entry.length_item] at hfit
  unfold firstItemAddress at hfit
  have hk := hve
  simp only [Entry.Valid] at hk
  obtain ⟨f, rfl⟩ : ∃ f, fuel = pre.length + (f + 1) := ⟨fuel - pre.length - 1, by omega⟩
  unfold kveStorageFindItemByKey
  refine findItemByKeyLoop_skip A hk.1 hk.2 hvp hn (Nat.le_refl 1) h hseg.1
    (by unfold firstItemAddress; omega) ?_
  intro s' h'
  have hne : (Entry.item key v).length ≠ kveEndTag := by
    rw [Entry.length_item]
    unfold kveEndTag
    omega
  have hkey : key.length % 256 = key.length := Nat.mod_eq_of_lt (by omega)
  unfold findItemByKeyLoop
  rw [if_pos (by unfold firstItemAddress; omega), returns_bind]
  apply returns_readSearchBuffer A h' (by unfold firstItemAddress; omega)
  intro b s1 h1
  rw [ofBuffer_write_slice, headerAt_entry hst hve (by simp only [Entry.length_item]; omega)]
  dsimp only
  rw [if_neg hne, hkey, Entry.keyLength_item, if_pos rfl, returns_bind]
  apply returns_readSearchBuffer A h1 (by unfold firstItemAddress; omega)
  intro b' s2 h2
  have hs : m.slice (firstItemAddress + span pre + 3) key.length = key := stored_key hst
  rw [Bytes.slice_write_take _ _ _ _ (by simp), hs, if_pos rfl, returns_pure]
  exact ⟨rfl, h2⟩

theorem Table.findEnd {m : Bytes} {es : List Entry} {fuel : ℕ} {s : KveState σ}
    (T : Table m limit es) (h : A.At s m) (hf : kve.memorySize ≤ fuel) :
    Returns (kveStorageFindEnd kve fuel firstItemAddress) s
      (fun r s' => r = firstItemAddress + span es ∧ A.At s' m) := by
  have hlim := A.limit_le
  have hsz := kve.size_le
  have hend := (T.walk (by omega)).findEnd A h hf
  rwa [chainLength_map_header] at hend

end

end NanoDrone
