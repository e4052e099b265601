import NanoDrone.Kve.Contents
import NanoDrone.Kve.Stats

/-! # What the statistics say (`kveGetStats`)

On a table the sums of `kveGetStats` are those of its content: `sumsOf` reads them off the entries,
and `getStats_reached` says that in every state reached from `kveFormat` the call returns them, with
no sum that wraps, no difference below zero and no division by zero. -/

namespace NanoDrone

/-! ### The sums of a list of entries -/

/-- Number of bytes of the keys. -/
def keyBytes (ps : List (List UInt8 × List UInt8)) : ℕ := (ps.map (fun p => p.1.length)).sum

/-- Number of bytes of the values. -/
def valueBytes (ps : List (List UInt8 × List UInt8)) : ℕ := (ps.map (fun p => p.2.length)).sum

/-- Number of bytes of the holes. -/
def holeBytes (es : List Entry) : ℕ := span (es.filter (fun e => !e.isItem))

theorem contentLength_eq (ps : List (List UInt8 × List UInt8)) :
    contentLength ps = keyBytes ps + valueBytes ps + 3 * ps.length := by
  unfold contentLength keyBytes valueBytes
  induction ps with
  | nil => rfl
  | cons p ps ih =>
      simp only [List.map_cons, List.sum_cons, List.length_cons, ih]
      omega

theorem span_eq (es : List Entry) : span es = contentLength (contents es) + holeBytes es := by
  unfold contentLength holeBytes
  induction es with
  | nil => rfl
  | cons e es ih =>
      cases e with
      | item k v =>
          rw [contents_item, List.filter_cons_of_neg (by simp)]
          simp only [List.map_cons, List.sum_cons, span_cons, Entry.length_item, ih]
          omega
      | hole n =>
          rw [contents_hole, List.filter_cons_of_pos (by simp)]
          simp only [span_cons, Entry.length_hole, ih]
          omega

/-- The sums of a list of entries. -/
def sumsOf (es : List Entry) : StatsSums :=
  { totalSize := span es
    totalItems := (contents es).length
    holeSize := holeBytes es
    itemSize := contentLength (contents es)
    dataSize := valueBytes (contents es)
    keySize := keyBytes (contents es)
    metadataSize := 3 * (contents es).length }

theorem contents_append (xs ys : List Entry) : contents (xs ++ ys) = contents xs ++ contents ys :=
  List.filterMap_append

theorem sumsOf_item (es : List Entry) (k v : List UInt8) :
    sumsOf (es ++ [.item k v]) =
      { totalSize := span es + (3 + k.length + v.length)
        totalItems := (contents es).length + 1
        holeSize := holeBytes es
        itemSize := contentLength (contents es) + (3 + k.length + v.length)
        dataSize := valueBytes (contents es) + v.length
        keySize := keyBytes (contents es) + k.length
        metadataSize := 3 * (contents es).length + 3 } := by
  unfold sumsOf holeBytes contentLength keyBytes valueBytes
  rw [contents_append, List.filter_append]
  simp [Nat.mul_add]

theorem sumsOf_hole (es : List Entry) (n : ℕ) :
    sumsOf (es ++ [.hole n]) =
      { sumsOf es with totalSize := span es + n, holeSize := holeBytes es + n } := by
  unfold sumsOf holeBytes
  rw [contents_append, List.filter_append]
  simp

/-! ### The loop -/

/-- One more entry behind the others: no sum wraps as long as all of them fit. -/
theorem sumsOf_add {es : List Entry} {e : Entry} (he : e.Valid)
    (hspan : span (es ++ [e]) < 2 ^ 32) : (sumsOf es).add e.header = sumsOf (es ++ [e]) := by
  have hes := span_eq es
  have hcontent := contentLength_eq (contents es)
  rw [span_append, span_cons, span_nil] at hspan
  unfold StatsSums.add
  cases e with
  | item k v =>
      have hk : (Entry.item k v).header.keyLength ≠ 0 :=
        fun h0 => Bool.noConfusion (he.keyLength_eq_zero.mp h0)
      rw [Entry.length_item] at hspan
      rw [if_neg hk, sumsOf_item]
      unfold sumsOf
      simp only [Entry.header, Entry.length_item, Entry.keyLength_item, StatsSums.mk.injEq,
        true_and]
      unfold sizeT sizeofHeader
      omega
  | hole n =>
      have hk : (Entry.hole n).header.keyLength = 0 := he.keyLength_eq_zero.mpr rfl
      rw [Entry.length_hole] at hspan
      rw [if_pos hk, sumsOf_hole]
      unfold sumsOf
      simp only [Entry.header, Entry.length_hole, StatsSums.mk.injEq, and_true, true_and]
      unfold sizeT
      omega

section
variable {σ : Type} {kve : KveMemory σ} {limit : ℕ} (A : Access kve limit limit) {m : Bytes}

/-- The loop adds up the entries that are left. -/
theorem statsLoop_spec (pre : List Entry) {post : List Entry} {fuel : ℕ} {s : KveState σ}
    (h : A.At s m) (T : Table m limit (pre ++ post)) (hf : post.length < fuel) :
    Returns (statsLoop kve (firstItemAddress + span (pre ++ post)) fuel
      (firstItemAddress + span pre) (sumsOf pre)) s
      (fun t s' => t = sumsOf (pre ++ post) ∧ A.At s' m) := by
  have hlim := A.limit_le
  have hsz := kve.size_le
  have hfit := T.fits
  induction post generalizing pre fuel s with
  | nil =>
      obtain ⟨f, rfl⟩ : ∃ f, fuel = f + 1 := ⟨fuel - 1, by omega⟩
      unfold statsLoop
      rw [List.append_nil, if_neg (Nat.lt_irrefl _), returns_pure]
      exact ⟨rfl, h⟩
  | cons e post ih =>
      obtain ⟨f, rfl⟩ : ∃ f, fuel = f + 1 := ⟨fuel - 1, by omega⟩
      have hvalid := T.valid e (List.mem_append_right _ List.mem_cons_self)
      have hlong := hvalid.length_ge
      have hassoc : pre ++ e :: post = (pre ++ [e]) ++ post := List.append_cons pre e post
      have hspan : span (pre ++ e :: post) = span pre + e.length + span post := by
        rw [span_append, span_cons, Nat.add_assoc]
      have hpre : span (pre ++ [e]) = span pre + e.length := by simp
      have hlength : e.header.fullLength = e.length := rfl
      have hhead : headerAt m (firstItemAddress + span pre) = e.header :=
        headerAt_entry (segAt_append.mp T.seg).2.1 hvalid (by omega)
      unfold sizeofHeader firstItemAddress at hfit
      unfold statsLoop
      rw [if_pos (by omega), returns_bind]
      refine returns_getItemInfo A h (by unfold firstItemAddress; omega) fun s' h' => ?_
      have hnext : sizeT (firstItemAddress + span pre + e.header.fullLength) =
          firstItemAddress + span (pre ++ [e]) := by
        rw [hlength, hpre]
        unfold sizeT firstItemAddress
        omega
      have htag : e.header.fullLength ≠ kveEndTag := by
        rw [hlength]
        unfold kveEndTag
        omega
      rw [hhead, if_neg htag, hnext, sumsOf_add hvalid (by omega), hassoc]
      rw [hassoc] at T
      exact ih (pre ++ [e]) h' T (Nat.lt_of_succ_lt_succ hf) T.fits

/-- What the statistics of a table with a content say. -/
structure StatsOf (memorySize : ℕ) (es : List Entry) (r : KveStats) : Prop where
  totalSize : r.totalSize = memorySize
  totalItems : r.totalItems = (contents es).length
  keySize : r.keySize = keyBytes (contents es)
  dataSize : r.dataSize = valueBytes (contents es)
  metadataSize : r.metadataSize = 3 * r.totalItems
  itemSize : r.itemSize = r.keySize + r.dataSize + r.metadataSize
  holeSize : r.itemSize + r.holeSize = firstItemAddress + span es - 1
  freeSpace : r.itemSize + r.freeSpace = memorySize
  freeSpace_pos : 0 < r.freeSpace
  fragmentation : r.fragmentation = r.holeSize * 100 / r.freeSpace
  spaceLeft : r.itemSize + r.holeSize + r.spaceLeftUntilForcedDefrag = memorySize

/-- The fields that are computed from the sums of a table. -/
theorem statsOf_sumsOf {memorySize : ℕ} {es : List Entry}
    (hfit : firstItemAddress + span es + sizeofHeader ≤ memorySize) (hsize : memorySize ≤ 65535) :
    ∃ r, statsOf memorySize (sumsOf es) = some r ∧ StatsOf memorySize es r := by
  have hspan := span_eq es
  have hcontent := contentLength_eq (contents es)
  unfold firstItemAddress sizeofHeader at hfit
  have hfree : sizeT (memorySize + 2 ^ 32 - contentLength (contents es)) =
      memorySize - contentLength (contents es) := by
    unfold sizeT
    omega
  have hleft : sizeT (memorySize + 2 ^ 32 - span es) = memorySize - span es := by
    unfold sizeT
    omega
  have hhundred : sizeT (holeBytes es * 100) = holeBytes es * 100 := by
    unfold sizeT
    omega
  refine ⟨_, if_neg ?_, ?_⟩
  · change sizeT (memorySize + 2 ^ 32 - contentLength (contents es)) ≠ 0
    omega
  · unfold sumsOf
    dsimp only
    rw [hfree, hleft, hhundred]
    constructor
    case totalSize => rfl
    case totalItems => rfl
    case keySize => rfl
    case dataSize => rfl
    case metadataSize => rfl
    case itemSize => exact hcontent
    case holeSize =>
      dsimp only
      unfold firstItemAddress
      omega
    case fragmentation => rfl
    all_goals dsimp only; omega

theorem getStats_spec {es : List Entry} {fuel : ℕ} {s : KveState σ} (h : A.At s m)
    (T : Table m limit es) (hf : kve.memorySize ≤ fuel) :
    Returns (kveGetStats fuel kve) s (fun r s' => StatsOf kve.memorySize es r ∧ A.At s' m) := by
  have hlim := A.limit_le
  have hfit := T.fits
  have hlen := four_mul_length_le_span T.valid
  have hfuel : es.length < fuel := by
    unfold sizeofHeader at hfit
    omega
  unfold kveGetStats
  refine (T.findEnd A h hf).bind ?_
  rintro _ s1 ⟨rfl, h1⟩
  refine (statsLoop_spec A [] h1 T hfuel).bind ?_
  rintro _ s2 ⟨rfl, h2⟩
  obtain ⟨r, hr, hstats⟩ := statsOf_sumsOf (hfit.trans hlim) kve.size_le
  exact returns_lift.mpr ⟨r, hr, hstats, h2⟩

end

/-! ### Every table of a run -/

/-- **The statistics of a table.**  In every state reached from `kveFormat`, whatever the static
buffers and the stack hold, `kveGetStats` returns, and reports the content of the table: its number
of items and the bytes of its keys and values. -/
theorem getStats_reached {n : ℕ} {h1 : 16 ≤ n} {h2 : n ≤ 65535} {fuel : ℕ} {s0 : KveState Bytes}
    {ops : List KveOp} (hops : ∀ op ∈ ops, op.Addressable) (hf : n ≤ fuel) :
    Returns (KveOp.fromFormat fuel (idealMemory n h1 h2) ops) s0 (fun _ s =>
      (∃ es, Table s.dev n es) ∧ ∀ es, Table s.dev n es →
        (keys es).Nodup ∧
        (∀ key value, (key, value) ∈ contents es ↔ Layout.lookup es key = some value) ∧
        ∀ t : KveState Bytes, t.dev = s.dev →
          Returns (kveGetStats fuel (idealMemory n h1 h2)) t (fun r t' =>
            StatsOf n es r ∧ t'.dev = s.dev)) := by
  refine (fromFormat_ideal hops hf).mono ?_
  intro _ s T0
  refine ⟨⟨_, T0⟩, fun es T => ⟨T.nodup, fun key value => mem_contents_iff T.nodup, ?_⟩⟩
  intro t ht
  refine (getStats_spec (idealAccess n h1 h2) ⟨trivial, ht⟩ T hf).mono ?_
  rintro r t' ⟨hr, h'⟩
  exact ⟨hr, h'.2⟩

/-- Two items with the hole of a third between them. -/
theorem getStats_reached_small :
    Returns (KveOp.fromFormat 32 (idealMemory 32 (by decide) (by decide))
      [.store [97] [1], .store [98] [2], .store [99] [3], .delete [98]]) blankState (fun _ s =>
        (∃ es, Table s.dev 32 es) ∧ ∀ es, Table s.dev 32 es →
          (keys es).Nodup ∧
          (∀ key value, (key, value) ∈ contents es ↔ Layout.lookup es key = some value) ∧
          ∀ t : KveState Bytes, t.dev = s.dev →
            Returns (kveGetStats 32 (idealMemory 32 (by decide) (by decide))) t (fun r t' =>
              StatsOf 32 es r ∧ t'.dev = s.dev)) :=
  getStats_reached (by simp [KveOp.Addressable, KeyOk, ptrdiffMax]) (Nat.le_refl 32)

end NanoDrone
