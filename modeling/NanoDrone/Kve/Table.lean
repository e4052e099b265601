import NanoDrone.Kve.Layout

/-! # The table in memory

`Table m limit es` relates a list of entries to the memory `m`: the version byte, the entries
one after the other from address 1, the end tag behind them, and room for the three byte header
that a scan reads at the end tag before `limit`.  Nothing is said about the bytes inside a hole
or after the end tag.

The code reaches `m` through a device.  `Faithful kve limit` is what the proofs assume of it:
below `limit` reads give the bytes that are there and writes replace exactly the bytes they
name, as long as the device is `Ok` (a predicate of the device's own, kept by such accesses).
`Access kve limit top` asks for less, with reads below `limit` and writes below `top`: what an
operation does with it, it does without a write from `top` on.  `A.At s m` says that the device
of the state `s` is `Ok` and holds `m`. -/

namespace NanoDrone

/-- The device transfers bytes faithfully below `limit`. -/
structure Faithful {σ : Type} (kve : KveMemory σ) (limit : ℕ) where
  view : σ → Bytes
  Ok : σ → Prop
  limit_le : limit ≤ kve.memorySize
  read_bytes : ∀ {s : σ} {a n : ℕ}, Ok s → a + n ≤ limit → (kve.read a n s).1 = (view s).slice a n
  read_ok : ∀ {s : σ} {a n : ℕ}, Ok s → a + n ≤ limit → Ok (kve.read a n s).2
  read_view : ∀ {s : σ} {a n : ℕ}, Ok s → a + n ≤ limit → view (kve.read a n s).2 = view s
  write_ok : ∀ {s : σ} {a : ℕ} {d : List UInt8}, Ok s → a + d.length ≤ limit →
    Ok (kve.write a d s)
  write_view : ∀ {s : σ} {a : ℕ} {d : List UInt8}, Ok s → a + d.length ≤ limit →
    view (kve.write a d s) = (view s).write a d
  flush_ok : ∀ {s : σ}, Ok s → Ok (kve.flush s)
  flush_view : ∀ {s : σ}, Ok s → view (kve.flush s) = view s

/-- The device reads faithfully below `limit` and writes faithfully below `top`. -/
structure Access {σ : Type} (kve : KveMemory σ) (limit top : ℕ) where
  view : σ → Bytes
  Ok : σ → Prop
  limit_le : limit ≤ kve.memorySize
  top_le : top ≤ kve.memorySize
  read_bytes : ∀ {s : σ} {a n : ℕ}, Ok s → a + n ≤ limit → (kve.read a n s).1 = (view s).slice a n
  read_ok : ∀ {s : σ} {a n : ℕ}, Ok s → a + n ≤ limit → Ok (kve.read a n s).2
  read_view : ∀ {s : σ} {a n : ℕ}, Ok s → a + n ≤ limit → view (kve.read a n s).2 = view s
  write_ok : ∀ {s : σ} {a : ℕ} {d : List UInt8}, Ok s → a + d.length ≤ top →
    Ok (kve.write a d s)
  write_view : ∀ {s : σ} {a : ℕ} {d : List UInt8}, Ok s → a + d.length ≤ top →
    view (kve.write a d s) = (view s).write a d
  flush_ok : ∀ {s : σ}, Ok s → Ok (kve.flush s)
  flush_view : ∀ {s : σ}, Ok s → view (kve.flush s) = view s

/-- A faithful device gives access below its limit. -/
def Faithful.access {σ : Type} {kve : KveMemory σ} {limit : ℕ} (F : Faithful kve limit) :
    Access kve limit limit := { F with top_le := F.limit_le }

/-- The device of `s` is in order and holds `m`. -/
def Access.At {σ : Type} {kve : KveMemory σ} {limit top : ℕ} (A : Access kve limit top)
    (s : KveState σ) (m : Bytes) : Prop := A.Ok s.dev ∧ A.view s.dev = m

/-! ### Headers -/

/-- The header that a scan reads at address `a`. -/
def headerAt (m : Bytes) (a : ℕ) : KveItemHeader :=
  ⟨(m a).toNat + 256 * (m (a + 1)).toNat, (m (a + 2)).toNat⟩

/-- A header read into any buffer is the one in memory. -/
theorem ofBuffer_write_slice (b m : Bytes) (a : ℕ) :
    KveItemHeader.ofBuffer (b.write 0 (m.slice a 3)) = headerAt m a := rfl

theorem ofBuffer_read (b m : Bytes) (a : ℕ) :
    KveItemHeader.ofBuffer (b.write 0 (m.slice a sizeofHeader)) = headerAt m a := rfl

theorem headerAt_of_stored {m : Bytes} {a : ℕ} {h : KveItemHeader} (hf : h.fullLength < 65536)
    (hk : h.keyLength < 256) (hs : Stored m a h.toBytes) : headerAt m a = h := by
  have h0 : m a = UInt8.ofNat h.fullLength := hs.get (i := 0) (by simp [KveItemHeader.toBytes])
  have h1 : m (a + 1) = UInt8.ofNat (h.fullLength / 256) :=
    hs.get (i := 1) (by simp [KveItemHeader.toBytes])
  have h2 : m (a + 2) = UInt8.ofNat h.keyLength :=
    hs.get (i := 2) (by simp [KveItemHeader.toBytes])
  unfold headerAt
  rw [h0, h1, h2]
  cases h with
  | mk f k =>
      simp only [UInt8.toNat_ofNat', KveItemHeader.mk.injEq] at hf hk ⊢
      omega

/-- At the end tag the length field reads as the end tag, whatever the third byte is. -/
theorem headerAt_endTag {m : Bytes} {a : ℕ} (hs : Stored m a [0xff, 0xff]) :
    (headerAt m a).fullLength = kveEndTag := by
  have h0 : m a = 0xff := hs.get (i := 0) (by simp)
  have h1 : m (a + 1) = 0xff := hs.get (i := 1) (by simp)
  unfold headerAt
  rw [h0, h1]
  rfl

/-- A length field that reads as the end tag is one. -/
theorem stored_endTag {m : Bytes} {a : ℕ} (h : (headerAt m a).fullLength = kveEndTag) :
    Stored m a [0xff, 0xff] := by
  have h0 : (m a).toNat < 256 := (m a).toNat_lt
  have h1 : (m (a + 1)).toNat < 256 := (m (a + 1)).toNat_lt
  unfold headerAt kveEndTag at h
  dsimp only at h
  have e0 : m a = 0xff := UInt8.toNat.inj (by change (m a).toNat = 255; omega)
  have e1 : m (a + 1) = 0xff := UInt8.toNat.inj (by change (m (a + 1)).toNat = 255; omega)
  change [m (a + 0), m (a + 1)] = [0xff, 0xff]
  rw [Nat.add_zero, e0, e1]

/-! ### Entries in memory -/

/-- The entries lie one after the other from address `a`. -/
def SegAt (m : Bytes) : ℕ → List Entry → Prop
  | _, [] => True
  | a, e :: es => Stored m a e.bytes ∧ SegAt m (a + e.length) es

theorem segAt_append {m : Bytes} {a : ℕ} {xs ys : List Entry} :
    SegAt m a (xs ++ ys) ↔ SegAt m a xs ∧ SegAt m (a + span xs) ys := by
  induction xs generalizing a with
  | nil => simp [SegAt]
  | cons e xs ih => simp only [List.cons_append, SegAt, ih, span_cons, and_assoc, Nat.add_assoc]

theorem SegAt.congr {m m' : Bytes} {a : ℕ} {es : List Entry} (h : SegAt m a es)
    (hv : ∀ e ∈ es, e.Valid) (he : ∀ i, a ≤ i → i < a + span es → m' i = m i) :
    SegAt m' a es := by
  induction es generalizing a with
  | nil => trivial
  | cons e es ih =>
      have hle := Entry.bytes_length_le (hv e List.mem_cons_self)
      rw [span_cons] at he
      refine ⟨h.1.congr (fun i h1 h2 => he i h1 (by omega)), ?_⟩
      exact ih h.2 (fun x hx => hv x (List.mem_cons_of_mem _ hx))
        (fun i h1 h2 => he i (by omega) (by omega))

theorem SegAt.frame {m : Bytes} {a b : ℕ} {es : List Entry} {d : List UInt8} (h : SegAt m a es)
    (hv : ∀ e ∈ es, e.Valid) (hd : a + span es ≤ b ∨ b + d.length ≤ a) :
    SegAt (m.write b d) a es :=
  h.congr hv (fun i h1 h2 => Bytes.write_outside _ (by omega))

/-- Entries moved to another address. -/
theorem SegAt.move {m m' : Bytes} {a b : ℕ} {es : List Entry} (h : SegAt m a es)
    (hv : ∀ e ∈ es, e.Valid) (he : ∀ i, i < span es → m' (b + i) = m (a + i)) :
    SegAt m' b es := by
  induction es generalizing a b with
  | nil => trivial
  | cons e es ih =>
      have hle := Entry.bytes_length_le (hv e List.mem_cons_self)
      rw [span_cons] at he
      constructor
      · unfold Stored
        apply List.ext_getElem (by simp)
        intro i h1 h2
        rw [Bytes.getElem_slice, he i (by omega), h.1.get h2]
      · refine ih h.2 (fun x hx => hv x (List.mem_cons_of_mem _ hx)) ?_
        intro i hi
        rw [Nat.add_assoc, he (e.length + i) (by omega), Nat.add_assoc]

theorem headerAt_entry {m : Bytes} {a : ℕ} {e : Entry} (hs : Stored m a e.bytes)
    (hv : e.Valid) (hl : e.length < 65536) : headerAt m a = ⟨e.length, e.keyLength⟩ := by
  cases e with
  | item k v =>
      simp only [Entry.Valid, Entry.length_item] at hv hl
      exact headerAt_of_stored (h := ⟨3 + k.length + v.length, k.length⟩) hl (by simp; omega)
        (stored_append.mp hs).1
  | hole n => exact headerAt_of_stored (h := ⟨n, 0⟩) hl (by simp) hs

theorem stored_key {m : Bytes} {a : ℕ} {k v : List UInt8}
    (hs : Stored m a (Entry.item k v).bytes) : Stored m (a + 3) k :=
  (stored_append.mp (stored_append.mp hs).2).1

theorem stored_value {m : Bytes} {a : ℕ} {k v : List UInt8}
    (hs : Stored m a (Entry.item k v).bytes) : Stored m (a + 3 + k.length) v :=
  (stored_append.mp (stored_append.mp hs).2).2

/-- Two entries at one address that show the same header are the same. -/
theorem Entry.eq_of_stored {m : Bytes} {a : ℕ} {e e' : Entry} (h : Stored m a e.bytes)
    (h' : Stored m a e'.bytes) (hv : e.Valid) (hv' : e'.Valid) (hl : e.length = e'.length)
    (hk : e.keyLength = e'.keyLength) : e = e' := by
  cases e with
  | item k v =>
      cases e' with
      | item k' v' =>
          simp only [Entry.keyLength_item, Entry.length_item] at hk hl
          have hkey := stored_key h'
          unfold Stored at hkey
          rw [← hk, stored_key h] at hkey
          subst hkey
          have hvalue := stored_value h'
          unfold Stored at hvalue
          rw [show v'.length = v.length by omega, stored_value h] at hvalue
          rw [hvalue]
      | hole n =>
          simp only [Entry.keyLength_item, Entry.keyLength_hole, Entry.Valid] at hk hv
          omega
  | hole n =>
      cases e' with
      | item k v =>
          simp only [Entry.keyLength_item, Entry.keyLength_hole, Entry.Valid] at hk hv'
          omega
      | hole n' => rw [show n = n' from hl]

/-- The bytes of a memory determine the entries up to the end tag. -/
theorem SegAt.unique {m : Bytes} {a : ℕ} {es es' : List Entry} (h : SegAt m a es)
    (h' : SegAt m a es') (hv : ∀ e ∈ es, e.Valid) (hv' : ∀ e ∈ es', e.Valid)
    (hl : span es < 65535) (hl' : span es' < 65535) (hend : Stored m (a + span es) [0xff, 0xff])
    (hend' : Stored m (a + span es') [0xff, 0xff]) : es = es' := by
  induction es generalizing a es' with
  | nil =>
      cases es' with
      | nil => rfl
      | cons e' es' =>
          rw [span_cons] at hl'
          have hlen := headerAt_endTag hend
          rw [span_nil, Nat.add_zero, headerAt_entry h'.1 (hv' e' List.mem_cons_self) (by omega)]
            at hlen
          unfold kveEndTag at hlen
          dsimp only at hlen
          omega
  | cons e es ih =>
      rw [span_cons] at hl
      have hve := hv e List.mem_cons_self
      have hhead := headerAt_entry h.1 hve (by omega)
      cases es' with
      | nil =>
          have hlen := headerAt_endTag hend'
          rw [span_nil, Nat.add_zero, hhead] at hlen
          unfold kveEndTag at hlen
          dsimp only at hlen
          omega
      | cons e' es' =>
          rw [span_cons] at hl'
          have hve' := hv' e' List.mem_cons_self
          rw [headerAt_entry h'.1 hve' (by omega), KveItemHeader.mk.injEq] at hhead
          have he : e = e' := Entry.eq_of_stored h.1 h'.1 hve hve' hhead.1.symm hhead.2.symm
          subst he
          rw [span_cons, ← Nat.add_assoc] at hend hend'
          rw [ih h.2 h'.2 (fun x hx => hv x (List.mem_cons_of_mem _ hx))
            (fun x hx => hv' x (List.mem_cons_of_mem _ hx)) (by omega) (by omega) hend hend']

/-- The entries `es` and the end tag behind them are laid out in the memory `m`. -/
structure Laid (m : Bytes) (es : List Entry) : Prop where
  version : m versionAddress = kveVersion
  seg : SegAt m firstItemAddress es
  endTag : Stored m (firstItemAddress + span es) [0xff, 0xff]
  valid : ∀ e ∈ es, e.Valid
  nodup : (keys es).Nodup

/-- The table `es` lies in the memory `m`, and a header can be read at its end tag. -/
structure Table (m : Bytes) (limit : ℕ) (es : List Entry) : Prop extends Laid m es where
  fits : firstItemAddress + span es + sizeofHeader ≤ limit

/-- The entries `es` lie below the limit, and a search for a key reads nothing from there on: it
does not look at the last three bytes of the memory. -/
structure Searchable (m : Bytes) (limit memorySize : ℕ) (es : List Entry) : Prop
    extends Laid m es where
  span_le : firstItemAddress + span es ≤ limit
  stops : firstItemAddress + span es + 3 ≤ limit ∨ memorySize ≤ firstItemAddress + span es + 3

theorem Table.searchable {m : Bytes} {limit : ℕ} {es : List Entry} (T : Table m limit es)
    (memorySize : ℕ) : Searchable m limit memorySize es := by
  have hfit := T.fits
  unfold sizeofHeader at hfit
  exact ⟨T.toLaid, by omega, Or.inl hfit⟩

/-- The item of a key and a value lies at address `a`, below the limit. -/
structure ItemAt (m : Bytes) (limit a : ℕ) (key value : List UInt8) : Prop where
  stored : Stored m a (Entry.item key value).bytes
  valid : (Entry.item key value).Valid
  fits : a + (3 + key.length + value.length) ≤ limit

theorem ItemAt.header {m : Bytes} {limit a : ℕ} {key value : List UInt8}
    (I : ItemAt m limit a key value) (hl : limit ≤ 65535) :
    headerAt m a = ⟨3 + key.length + value.length, key.length⟩ := by
  have hfit := I.fits
  exact headerAt_entry I.stored I.valid (by rw [Entry.length_item]; omega)

theorem Searchable.itemAt {m : Bytes} {limit memorySize : ℕ} {pre post : List Entry}
    {key value : List UInt8} (L : Searchable m limit memorySize (pre ++ .item key value :: post)) :
    ItemAt m limit (firstItemAddress + span pre) key value := by
  have hfit := L.span_le
  simp only [span_append, span_cons, Entry.length_item] at hfit
  exact ⟨(segAt_append.mp L.seg).2.1, L.valid _ (by simp), by omega⟩

theorem Table.itemAt {m : Bytes} {limit : ℕ} {pre post : List Entry} {key value : List UInt8}
    (T : Table m limit (pre ++ .item key value :: post)) :
    ItemAt m limit (firstItemAddress + span pre) key value :=
  (T.searchable limit).itemAt

/-- Only the bytes up to the end tag make a table. -/
theorem Table.congr {m m' : Bytes} {limit : ℕ} {es : List Entry} (T : Table m limit es)
    (he : ∀ i, i < firstItemAddress + span es + kveEndTagLendth → m' i = m i) :
    Table m' limit es := by
  refine ⟨⟨?_, ?_, ?_, T.valid, T.nodup⟩, T.fits⟩
  · rw [he _ (by unfold versionAddress firstItemAddress; omega)]
    exact T.version
  · exact T.seg.congr T.valid (fun i _ h2 => he i (by omega))
  · exact T.endTag.congr (fun i _ h2 => he i h2)

/-- A memory holds at most one table. -/
theorem Table.unique {m : Bytes} {limit : ℕ} {es es' : List Entry} (T : Table m limit es)
    (T' : Table m limit es') (hl : limit ≤ 65535) : es = es' := by
  have hfit := T.fits
  have hfit' := T'.fits
  unfold sizeofHeader at hfit hfit'
  exact T.seg.unique T'.seg T.valid T'.valid (by omega) (by omega) T.endTag T'.endTag

/-- The end tag of a table lies below the limit. -/
theorem Table.endTag_le {m : Bytes} {limit : ℕ} {es : List Entry} (T : Table m limit es) :
    firstItemAddress + span es + kveEndTagLendth ≤ limit :=
  Nat.le_trans (Nat.le_succ _) T.fits

/-! ### Accesses -/

section
variable {σ : Type} {kve : KveMemory σ} {s : KveState σ}

theorem returns_kveWrite_iff {a : ℕ} {d : List UInt8} {Q : Unit → KveState σ → Prop} :
    Returns (kveWrite kve a d) s Q ↔ Q () { s with dev := kve.write a d s.dev } :=
  returns_iff_of_eq rfl

theorem returns_kveFlush_iff {Q : Unit → KveState σ → Prop} :
    Returns (kveFlush kve) s Q ↔ Q () { s with dev := kve.flush s.dev } :=
  returns_iff_of_eq rfl

end

section
variable {σ : Type} {kve : KveMemory σ} {limit top : ℕ} (A : Access kve limit top)
include A

theorem returns_kveRead {s : KveState σ} {m b : Bytes} {a n : ℕ} {Q : Bytes → KveState σ → Prop}
    (h : A.At s m) (hb : a + n ≤ limit)
    (hQ : ∀ s', A.At s' m → Q (b.write 0 (m.slice a n)) s') :
    Returns (kveRead kve a b n) s Q := by
  refine ⟨_, _, rfl, ?_⟩
  rw [A.read_bytes h.1 hb, h.2]
  exact hQ _ ⟨A.read_ok h.1 hb, (A.read_view h.1 hb).trans h.2⟩

theorem returns_kveWrite {s : KveState σ} {m : Bytes} {a : ℕ} {d : List UInt8}
    {Q : Unit → KveState σ → Prop} (h : A.At s m) (hb : a + d.length ≤ top)
    (hQ : ∀ s', A.At s' (m.write a d) → Q () s') : Returns (kveWrite kve a d) s Q := by
  refine returns_kveWrite_iff.mpr (hQ _ ⟨A.write_ok h.1 hb, ?_⟩)
  rw [← h.2]
  exact A.write_view h.1 hb

theorem returns_kveFlush {s : KveState σ} {m : Bytes} {Q : Unit → KveState σ → Prop}
    (h : A.At s m) (hQ : ∀ s', A.At s' m → Q () s') : Returns (kveFlush kve) s Q :=
  returns_kveFlush_iff.mpr (hQ _ ⟨A.flush_ok h.1, (A.flush_view h.1).trans h.2⟩)

theorem returns_readSearchBuffer {s : KveState σ} {m : Bytes} {a n : ℕ}
    {Q : Bytes → KveState σ → Prop} (h : A.At s m) (hb : a + n ≤ limit)
    (hQ : ∀ b s', A.At s' m → Q (Bytes.write b 0 (m.slice a n)) s') :
    Returns (readSearchBuffer kve a n) s Q := by
  simp only [readSearchBuffer, returns_bind, returns_get]
  apply returns_kveRead A h hb
  intro s' h'
  simp only [returns_modify, returns_pure]
  exact hQ _ _ h'

theorem returns_readMoveBuffer {s : KveState σ} {m : Bytes} {a n : ℕ}
    {Q : Bytes → KveState σ → Prop} (h : A.At s m) (hb : a + n ≤ limit)
    (hQ : ∀ b s', A.At s' m → Q (Bytes.write b 0 (m.slice a n)) s') :
    Returns (readMoveBuffer kve a n) s Q := by
  simp only [readMoveBuffer, returns_bind, returns_get]
  apply returns_kveRead A h hb
  intro s' h'
  simp only [returns_modify, returns_pure]
  exact hQ _ _ h'

theorem returns_writeHole {s : KveState σ} {m : Bytes} {a n : ℕ} {Q : ℕ → KveState σ → Prop}
    (h : A.At s m) (hn : n < 65536) (hb : a + 3 ≤ top)
    (hQ : ∀ s', A.At s' (m.write a (Entry.hole n).bytes) → Q n s') :
    Returns (kveStorageWriteHole kve a n) s Q := by
  simp only [kveStorageWriteHole, returns_bind, Nat.mod_eq_of_lt hn, returns_pure]
  apply returns_kveWrite A h hb
  intro s1 h1
  exact returns_kveFlush A h1 hQ

theorem returns_writeEnd {s : KveState σ} {m : Bytes} {a : ℕ} {Q : ℕ → KveState σ → Prop}
    (h : A.At s m) (hb : a + 2 ≤ top)
    (hQ : ∀ s', A.At s' (m.write a [0xff, 0xff]) → Q 2 s') :
    Returns (kveStorageWriteEnd kve a) s Q := by
  simp only [kveStorageWriteEnd, returns_bind, returns_pure]
  apply returns_kveWrite A h hb
  intro s1 h1
  exact returns_kveFlush A h1 hQ

/-- The three writes of an item are one write of the entry. -/
theorem returns_writeItem {s : KveState σ} {m : Bytes} {a : ℕ} {key buffer : List UInt8}
    {Q : ℕ → KveState σ → Prop} (h : A.At s m) (hk : key.length ≤ 255)
    (hl : 3 + key.length + buffer.length < 65536)
    (hb : a + (3 + key.length + buffer.length) ≤ top)
    (hQ : ∀ s', A.At s' (m.write a (Entry.item key buffer).bytes) →
      Q (3 + key.length + buffer.length) s') :
    Returns (kveStorageWriteItem kve a key buffer) s Q := by
  have ek : key.length % 256 = key.length := Nat.mod_eq_of_lt (by omega)
  have el : (2 + 1 + key.length + buffer.length) % 65536 = 3 + key.length + buffer.length :=
    Nat.mod_eq_of_lt hl
  simp only [kveStorageWriteItem, returns_bind, ek, el, List.take_length, returns_pure,
    sizeofHeader]
  apply returns_kveWrite A h (by simp [KveItemHeader.toBytes]; omega)
  intro s1 h1
  apply returns_kveWrite A h1 (by omega)
  intro s2 h2
  apply returns_kveWrite A h2 (by omega)
  intro s3 h3
  apply returns_kveFlush A h3
  intro s4 h4
  apply hQ
  have e1 := Bytes.write_append m a
    (KveItemHeader.toBytes ⟨3 + key.length + buffer.length, key.length⟩) (key ++ buffer)
  have e2 := Bytes.write_append
    (m.write a (KveItemHeader.toBytes ⟨3 + key.length + buffer.length, key.length⟩)) (a + 3)
    key buffer
  rw [e2] at h4
  exact e1 ▸ h4

theorem returns_getItemInfo {s : KveState σ} {m : Bytes} {a : ℕ}
    {Q : KveItemHeader → KveState σ → Prop} (h : A.At s m) (hb : a + 3 ≤ limit)
    (hQ : ∀ s', A.At s' m → Q (headerAt m a) s') :
    Returns (kveStorageGetItemInfo kve a) s Q := by
  simp only [kveStorageGetItemInfo, uninitialised, returns_bind, returns_get, returns_pure]
  exact returns_kveRead A h hb hQ

end

end NanoDrone
