import NanoDrone.Kve.KeyMap

/-! # Stores that fail

A store that finds no room returns false.  For a new key it has written nothing but a
defragmentation; an update has by then turned the old item into a hole, so the old value is
gone.  `failed_store_keeps_fetches_iff` says in which states, and for which arguments, a false
answer leaves every fetch as it was.

The tables are those reachable from `kveFormat` on an ideal memory.  Values have any length that
an object of the target can have (`ptrdiffMax`), also one that the memory cannot hold: an item
written in place whose length agrees only modulo 65536 reaches over the end of the memory, and
the write of its value is refused (`Layout.storeWithin`). -/

namespace NanoDrone

/-- `PTRDIFF_MAX`, the size that no object of the 32-bit target exceeds. -/
def ptrdiffMax : ℕ := 2 ^ 31 - 1

/-- Both states answer every fetch alike. -/
def SameFetches {σ : Type} (fuel : ℕ) (kve : KveMemory σ) (s s' : KveState σ) : Prop :=
  ∀ key buffer n, KeyOk key → (kveFetch fuel kve key buffer n s').map Prod.fst =
    (kveFetch fuel kve key buffer n s).map Prod.fst

namespace Layout

/-- The entries after a store on a memory of `n` bytes that refuses what does not fit. -/
def storeWithin (n : ℕ) (es : List Entry) (key value : List UInt8) : List Entry :=
  if 1 + span (store n es key value).1 + 3 ≤ n then (store n es key value).1 else es

/-- There is room for the item behind the items of the other keys. -/
def RoomFor (n : ℕ) (es : List Entry) (key value : List UInt8) : Prop :=
  1 + span (compact (markHole es key)) + (3 + key.length + value.length) + 2 < n

/-- What protects the old value: there is none, it is empty, the new one takes its place, or
there is room for the new one. -/
def KeepsOld (n : ℕ) (es : List Entry) (key value : List UInt8) : Prop :=
  match lookup es key with
  | none => True
  | some old => old = [] ∨ old.length = value.length % 65536 ∨ RoomFor n es key value

instance (n : ℕ) (es : List Entry) (key value : List UInt8) :
    Decidable (RoomFor n es key value) := inferInstanceAs (Decidable (_ < n))

instance (n : ℕ) (es : List Entry) (key value : List UInt8) :
    Decidable (KeepsOld n es key value) :=
  match h : lookup es key with
  | none => isTrue (by simp [KeepsOld, h])
  | some old =>
      decidable_of_iff (old = [] ∨ old.length = value.length % 65536 ∨ RoomFor n es key value)
        (by simp [KeepsOld, h])

/-- What makes a store answer false: the key has no value whose length is the new one modulo
65536, and neither before nor after a defragmentation does the test for space succeed. -/
def Refuses (n : ℕ) (es : List Entry) (key value : List UInt8) : Prop :=
  (lookup es key).map List.length ≠ some (value.length % 65536) ∧
    fits n es key value = false ∧ fits n (compact (markHole es key)) key value = false

instance (n : ℕ) (es : List Entry) (key value : List UInt8) :
    Decidable (Refuses n es key value) := inferInstanceAs (Decidable (_ ∧ _))

theorem append_refused_iff (n : ℕ) (es : List Entry) (key value : List UInt8) :
    (append n es key value).2 = false ↔
      fits n es key value = false ∧ fits n (compact es) key value = false := by
  unfold append
  split
  · simp_all
  · split <;> simp_all

theorem fits_markHole (n : ℕ) (es : List Entry) (key value : List UInt8) :
    fits n (markHole es key) key value = fits n es key value := by
  unfold fits
  rw [span_markHole]

/-- A store of any length answers false exactly when it is refused. -/
theorem store_refused_iff {n : ℕ} {es : List Entry} {key value : List UInt8}
    (hes : 1 + span es + 3 ≤ n) (hn : n ≤ 65535) :
    (store n es key value).2 = false ↔ Refuses n es key value := by
  unfold store Refuses
  cases hl : lookup es key with
  | none =>
      rw [markHole_of_notMem (lookup_eq_none.mp hl)]
      simpa using append_refused_iff n es key value
  | some old =>
      have hold := length_le_of_lookup hl
      have hlen : 3 + key.length + old.length ≠ (value.length + 3 + key.length) % 65536 ↔
          old.length ≠ value.length % 65536 := by
        omega
      dsimp only
      by_cases hne : old.length ≠ value.length % 65536
      · rw [if_pos (hlen.mpr hne), append_refused_iff, fits_markHole]
        simp [hne]
      · rw [if_neg (mt hlen.mp hne)]
        simp [not_not.mp hne]

/-- A store that is refused leaves no more than there was. -/
theorem span_store_of_refused {n : ℕ} {es : List Entry} {key value : List UInt8}
    (h : (store n es key value).2 = false) : span (store n es key value).1 ≤ span es := by
  have happend : ∀ es', (append n es' key value).2 = false →
      span (append n es' key value).1 ≤ span es' := by
    intro es' hr
    have hno := (append_refused_iff n es' key value).mp hr
    unfold append
    rw [hno.1, hno.2]
    exact span_compact_le es'
  unfold store at h ⊢
  cases hl : lookup es key with
  | none =>
      rw [hl] at h
      exact happend es h
  | some old =>
      rw [hl] at h
      dsimp only at h ⊢
      by_cases hne : 3 + key.length + old.length ≠ (value.length + 3 + key.length) % 65536
      · rw [if_pos hne] at h ⊢
        rw [← span_markHole es key]
        exact happend _ h
      · rw [if_neg hne] at h
        cases h

theorem append_snd {n : ℕ} {es : List Entry} {key value : List UInt8} (hes : 1 + span es ≤ n)
    (hn : n ≤ 65535) (hk : key.length ≤ 255) (hv : value.length ≤ ptrdiffMax) :
    (append n es key value).2 = true ↔
      1 + span (compact es) + (3 + key.length + value.length) + 2 < n := by
  have hc := span_compact_le es
  unfold ptrdiffMax at hv
  have hfits : ∀ es' : List Entry, 1 + span es' ≤ n → (fits n es' key value = true ↔
      1 + span es' + (3 + key.length + value.length) + 2 < n) := by
    intro es' h'
    unfold fits sizeT sizeofHeader kveEndTagLendth
    rw [decide_eq_true_iff]
    omega
  unfold append
  split
  · rename_i hf
    have := (hfits es hes).mp hf
    constructor
    · intro _
      omega
    · intro _
      rfl
  · split
    · rename_i hf
      simpa using (hfits _ (by omega)).mp hf
    · rename_i hf
      constructor
      · intro h
        cases h
      · intro h
        exact absurd ((hfits _ (by omega)).mpr h) hf

/-- An update answers true exactly when it takes the old item's place or has room. -/
theorem store_snd_of_lookup {n : ℕ} {es : List Entry} {key value old : List UInt8}
    (hes : 1 + span es + 3 ≤ n) (hn : n ≤ 65535) (hk : key.length ≤ 255)
    (hv : value.length ≤ ptrdiffMax) (hl : lookup es key = some old) :
    (store n es key value).2 = true ↔
      old.length = value.length % 65536 ∨ RoomFor n es key value := by
  have hold := length_le_of_lookup hl
  unfold store
  rw [hl]
  dsimp only
  split
  · rename_i hne
    rw [append_snd (by rw [span_markHole]; omega) hn hk hv]
    have hne' : old.length ≠ value.length % 65536 := by omega
    simp only [hne', false_or]
    rfl
  · rename_i hsame
    have he : old.length = value.length % 65536 := by omega
    simp [he]

/-- A store that answers false leaves what fits, without its key. -/
theorem lookup_storeWithin_of_failed {n : ℕ} {es : List Entry} {key value : List UInt8}
    (hes : 1 + span es + 3 ≤ n) (hn : n ≤ 65535) (hk : key.length ≤ 255)
    (hv : value.length ≤ ptrdiffMax) (hfail : (store n es key value).2 = false)
    (k : List UInt8) : lookup (storeWithin n es key value) k =
      if k = key then none else lookup es k := by
  unfold ptrdiffMax at hv
  have hfit : 1 + span (store n es key value).1 + 3 ≤ n := by
    by_contra hbig
    obtain ⟨old, _, _, hst⟩ := store_of_oversize hes (by omega) hbig
    rw [hst] at hfail
    cases hfail
  rw [storeWithin, if_pos hfit, lookup_store, hfail]
  rfl

/-- Keeping every value through a failure, up to empty values. -/
theorem keepsOld_iff {n : ℕ} {es : List Entry} {key value : List UInt8}
    (hes : 1 + span es + 3 ≤ n) (hn : n ≤ 65535) (hk : KeyOk key)
    (hv : value.length ≤ ptrdiffMax) :
    ((store n es key value).2 = false → ∀ k, KeyOk k →
      (lookup (storeWithin n es key value) k).getD [] = (lookup es k).getD []) ↔
      KeepsOld n es key value := by
  have hlost := lookup_storeWithin_of_failed hes hn hk.2 hv
  unfold KeepsOld
  cases hl : lookup es key with
  | none =>
      simp only [iff_true]
      intro hfail k _
      rw [hlost hfail k]
      split
      · rename_i he
        rw [he, hl]
      · rfl
  | some old =>
      have hsnd := store_snd_of_lookup hes hn hk.2 hv hl
      constructor
      · intro hall
        by_cases hok : (store n es key value).2 = true
        · exact Or.inr (hsnd.mp hok)
        · have := hall (by simpa using hok) key hk
          rw [hlost (by simpa using hok) key, if_pos rfl, hl] at this
          exact Or.inl this.symm
      · intro hkeep hfail k _
        have hold : old = [] := by
          rcases hkeep with h | h
          · exact h
          · rw [hsnd.mpr h] at hfail
            cases hfail
        rw [hlost hfail k]
        split
        · rename_i he
          rw [he, hl, hold]
          rfl
        · rfl

end Layout

/-! ### Values of every length on an ideal memory -/

theorem Stored.write_self {m : Bytes} {a : ℕ} {d : List UInt8} (h : Stored m a d) :
    m.write a d = m := by
  have := Bytes.write_slice_self m a d.length
  rwa [h] at this

section
variable {n : ℕ} {h1 : 16 ≤ n} {h2 : n ≤ 65535} {fuel : ℕ}

/-- An item written over itself with a value that reaches over the end of the memory: the header
and the key are as before, and the value is refused. -/
theorem writeItem_oversize {m : Bytes} {pre post : List Entry} {key old value : List UInt8}
    {s : KveState Bytes} (h : (idealAccess n h1 h2).At s m)
    (T : Table m n (pre ++ .item key old :: post)) (hl : old.length = value.length % 65536)
    (hv : n < value.length) :
    Returns (kveStorageWriteItem (idealMemory n h1 h2) (firstItemAddress + span pre) key value) s
      (fun _ s' => (idealAccess n h1 h2).At s' m) := by
  have hval := T.valid (.item key old) (by simp)
  have hfit := T.fits
  have hst := (segAt_append.mp T.seg).2.1
  simp only [Entry.Valid, span_append, span_cons, Entry.length_item, sizeofHeader] at hval hfit
  have ek : key.length % 256 = key.length := Nat.mod_eq_of_lt (by omega)
  have el : (2 + 1 + key.length + value.length) % 65536 = 3 + key.length + old.length := by omega
  simp only [kveStorageWriteItem, returns_bind, ek, el, List.take_length, returns_pure,
    sizeofHeader]
  apply returns_kveWrite (idealAccess n h1 h2) h (by simp [KveItemHeader.toBytes]; omega)
  intro s1 hs1
  rw [Stored.write_self (stored_append.mp hst).1] at hs1
  apply returns_kveWrite (idealAccess n h1 h2) hs1 (by omega)
  intro s2 hs2
  rw [Stored.write_self (stored_key hst)] at hs2
  refine ⟨_, _, rfl, ?_⟩
  apply returns_kveFlush (idealAccess n h1 h2) (m := m)
  · refine ⟨trivial, ?_⟩
    have hout : ¬ firstItemAddress + span pre + 3 + key.length + value.length ≤ n := by omega
    have := hs2.2
    simpa only [idealMemory, idealAccess, if_neg hout] using this
  · intro s3 hs3
    exact hs3

/-- **A store of any length on an ideal memory.** -/
theorem store_ideal {m : Bytes} {es : List Entry} {key value : List UInt8} {s : KveState Bytes}
    (h : (idealAccess n h1 h2).At s m) (T : Table m n es) (hk : KeyOk key)
    (hv : value.length ≤ ptrdiffMax) (hf : n ≤ fuel) :
    Returns (kveStore fuel (idealMemory n h1 h2) key value) s
      (fun r s' => r = (Layout.store n es key value).2 ∧ ∃ m', (idealAccess n h1 h2).At s' m' ∧
        Table m' n (Layout.storeWithin n es key value)) := by
  have hspec : Returns (kveStore fuel (idealMemory n h1 h2) key value) s _ :=
    store_spec (idealAccess n h1 h2) h T T.endTag_le hk.1 hk.2 hf
  by_cases hfit : 1 + span (Layout.store n es key value).1 + 3 ≤ n
  · refine hspec.mono ?_
    intro r s' hr
    obtain ⟨m', h', L'⟩ := hr.2 (by
      change 1 + span (Layout.store n es key value).1 + 2 ≤ n
      omega)
    unfold Layout.storeWithin
    rw [if_pos hfit]
    exact ⟨hr.1, m', h', L', hfit⟩
  -- what does not fit is an item in place
  · have hes := T.fits
    unfold firstItemAddress sizeofHeader at hes
    have hk2 := hk.2
    have hwithin : Layout.storeWithin n es key value = es := if_neg hfit
    obtain ⟨old, hl, hsame, hst⟩ := Layout.store_of_oversize hes
      (by unfold ptrdiffMax at hv; omega) hfit
    rw [hwithin, hst]
    obtain ⟨pre, post, rfl, hp, hq⟩ := T.toLaid.split hl
    simp only [hst, Layout.overwrite_split hp hq, span_append, span_cons,
      Entry.length_item] at hfit hes
    have hadr : firstItemAddress + span pre ≠ sizeMax := by
      unfold firstItemAddress sizeMax
      omega
    unfold kveStore
    refine ((T.searchable _).findItemByKey_some (idealAccess n h1 h2) h hf hp).bind ?_
    rintro _ s1 ⟨rfl, hs1⟩
    rw [if_neg hadr]
    refine (getItemInfo_item (idealAccess n h1 h2) hs1 T.itemAt).bind ?_
    rintro _ s2 ⟨rfl, hs2⟩
    dsimp only
    rw [if_neg hsame]
    refine (writeItem_oversize hs2 T (by omega) (by omega)).bind ?_
    intro _ s3 hs3
    rw [returns_pure]
    exact ⟨rfl, m, hs3, T⟩

/-- The arguments that a caller on the target can pass. -/
def KveOp.Addressable : KveOp → Prop
  | store key value => KeyOk key ∧ value.length ≤ ptrdiffMax
  | delete key => KeyOk key
  | defrag => True
  | fetch key _ bufferLength => KeyOk key ∧ bufferLength ≤ ptrdiffMax

/-- The entries after a call on an ideal memory of `n` bytes. -/
def KveOp.layout (n : ℕ) (es : List Entry) : KveOp → List Entry
  | store key value => Layout.storeWithin n es key value
  | delete key => (Layout.delete es key).1
  | defrag => Layout.compact es
  | fetch _ _ _ => es

/-- The entries after `kveFormat` and the calls `ops`. -/
def KveOp.entries (n : ℕ) (ops : List KveOp) : List Entry := ops.foldl (KveOp.layout n) []

/-- A store of any length that is refused. -/
theorem store_refused {m : Bytes} {es : List Entry} {key value : List UInt8} {s : KveState Bytes}
    (h : (idealAccess n h1 h2).At s m) (T : Table m n es) (hk : KeyOk key)
    (hr : Layout.Refuses n es key value) (hf : n ≤ fuel) :
    Returns (kveStore fuel (idealMemory n h1 h2) key value) s
      (fun _ s' => ∃ m', (idealAccess n h1 h2).At s' m' ∧
        Table m' n (Layout.storeWithin n es key value)) := by
  have hes := T.fits
  unfold firstItemAddress sizeofHeader at hes
  have hspan := Layout.span_store_of_refused ((Layout.store_refused_iff hes h2).mpr hr)
  have hwithin : Layout.storeWithin n es key value = (Layout.store n es key value).1 :=
    if_pos (by omega)
  have hspec : Returns (kveStore fuel (idealMemory n h1 h2) key value) s _ :=
    store_spec (idealAccess n h1 h2) h T T.endTag_le hk.1 hk.2 hf
  refine hspec.mono ?_
  intro _ s' hs'
  obtain ⟨m', h', L'⟩ := hs'.2 (by
    change 1 + span (Layout.store n es key value).1 + 2 ≤ n
    omega)
  rw [hwithin]
  exact ⟨m', h', L', by unfold firstItemAddress sizeofHeader; omega⟩

/-- The calls that are known to leave a table: a value longer than any object is refused. -/
def KveOp.Kept (n : ℕ) (es : List Entry) : KveOp → Prop
  | store key value =>
      KeyOk key ∧ (value.length ≤ ptrdiffMax ∨ Layout.Refuses n es key value)
  | delete key => KeyOk key
  | defrag => True
  | fetch key _ _ => KeyOk key

/-- Each call of a run is kept where it is made. -/
def KveOp.AllKept (n : ℕ) : List Entry → List KveOp → Prop
  | _, [] => True
  | es, op :: ops => op.Kept n es ∧ AllKept n (op.layout n es) ops

theorem KveOp.Addressable.kept {op : KveOp} (h : op.Addressable) (es : List Entry) :
    op.Kept n es := by
  cases op with
  | store key value => exact ⟨h.1, Or.inl h.2⟩
  | delete key => exact h
  | defrag => trivial
  | fetch key buffer len => exact h.1

theorem KveOp.allKept {ops : List KveOp} (h : ∀ op ∈ ops, op.Addressable) (es : List Entry) :
    KveOp.AllKept n es ops := by
  induction ops generalizing es with
  | nil => trivial
  | cons op ops ih =>
      exact ⟨(h op List.mem_cons_self).kept es, ih (fun x hx => h x (List.mem_cons_of_mem _ hx)) _⟩

theorem exec_ideal {m : Bytes} {es : List Entry} {s : KveState Bytes} {op : KveOp}
    (h : (idealAccess n h1 h2).At s m) (T : Table m n es) (hv : op.Kept n es)
    (hf : n ≤ fuel) :
    Returns (op.exec fuel (idealMemory n h1 h2)) s (fun _ s' => ∃ m',
      (idealAccess n h1 h2).At s' m' ∧ Table m' n (op.layout n es)) := by
  cases op with
  | store key value =>
      have hstore : Returns (kveStore fuel (idealMemory n h1 h2) key value) s (fun _ s' => ∃ m',
          (idealAccess n h1 h2).At s' m' ∧ Table m' n (Layout.storeWithin n es key value)) := by
        rcases hv.2 with hlen | hr
        · exact (store_ideal h T hv.1 hlen hf).mono (fun _ _ hs => hs.2)
        · exact store_refused h T hv.1 hr hf
      refine hstore.bind ?_
      intro r s' hr
      exact returns_pure.mpr hr
  | delete key =>
      refine (delete_spec (idealAccess n h1 h2) h T T.endTag_le hv.1 hv.2 hf).bind ?_
      intro r s' hr
      exact returns_pure.mpr hr.2
  | defrag =>
      refine (defrag_spec (idealAccess n h1 h2) h T T.endTag_le hf).bind ?_
      intro r s' hr
      exact returns_pure.mpr hr
  | fetch key buffer len =>
      refine (fetch_spec (idealAccess n h1 h2) h T hv.1 hv.2 hf).bind ?_
      intro r s' hr
      exact returns_pure.mpr ⟨m, hr.1, T⟩

theorem execAll_ideal {m : Bytes} {es : List Entry} {s : KveState Bytes} {ops : List KveOp}
    (h : (idealAccess n h1 h2).At s m) (T : Table m n es)
    (hv : KveOp.AllKept n es ops) (hf : n ≤ fuel) :
    Returns (KveOp.execAll fuel (idealMemory n h1 h2) ops) s (fun _ s' => ∃ m',
      (idealAccess n h1 h2).At s' m' ∧ Table m' n (ops.foldl (KveOp.layout n) es)) := by
  induction ops generalizing m es s with
  | nil =>
      simp only [KveOp.execAll, returns_pure]
      exact ⟨m, h, T⟩
  | cons op ops ih =>
      refine (exec_ideal h T hv.1 hf).bind ?_
      intro r s1 hr
      obtain ⟨m1, hs1, T1⟩ := hr
      refine (ih hs1 T1 hv.2).bind ?_
      intro rs s2 hrs
      exact returns_pure.mpr hrs

/-- **What a run leaves.**  After `kveFormat` and calls that are kept the memory holds a table. -/
theorem fromFormat_kept {s0 : KveState Bytes} {ops : List KveOp}
    (hops : KveOp.AllKept n [] ops) (hf : n ≤ fuel) :
    Returns (KveOp.fromFormat fuel (idealMemory n h1 h2) ops) s0
      (fun _ s => Table s.dev n (KveOp.entries n ops)) := by
  refine (format_spec (idealAccess n h1 h2) ⟨trivial, rfl⟩ (by omega) (by omega)).bind ?_
  intro _ s1 hs1
  obtain ⟨m1, hs1, T1⟩ := hs1
  refine (execAll_ideal hs1 T1 hops hf).mono ?_
  intro _ s hs
  obtain ⟨m, hs, T⟩ := hs
  have e : s.dev = m := hs.2
  rw [e]
  exact T

theorem fromFormat_ideal {s0 : KveState Bytes} {ops : List KveOp}
    (hops : ∀ op ∈ ops, op.Addressable) (hf : n ≤ fuel) :
    Returns (KveOp.fromFormat fuel (idealMemory n h1 h2) ops) s0
      (fun _ s => Table s.dev n (KveOp.entries n ops)) :=
  fromFormat_kept (KveOp.allKept hops []) hf

/-! ### When a failed store keeps every fetch -/

theorem fetch_eq {m : Bytes} {es : List Entry} {s : KveState Bytes} {key : List UInt8}
    (h : (idealAccess n h1 h2).At s m) (T : Table m n es) (hk : KeyOk key) (hf : n ≤ fuel)
    (buffer : Bytes) (len : ℕ) :
    (kveFetch fuel (idealMemory n h1 h2) key buffer len s).map Prod.fst =
      some (KeyMap.fetch (Layout.lookup es) key buffer len) := by
  obtain ⟨r, s', hrun, _, hr⟩ := fetch_spec (idealAccess n h1 h2) (b := buffer) (n := len) h T
    hk.1 hk.2 hf
  rw [hrun, hr]
  rfl

/-- The fetches of two tables agree when each key has the same value, or an empty one against
none. -/
theorem sameFetches_iff {m m' : Bytes} {es es' : List Entry} {s s' : KveState Bytes}
    (h : (idealAccess n h1 h2).At s m) (T : Table m n es)
    (h' : (idealAccess n h1 h2).At s' m') (T' : Table m' n es') (hf : n ≤ fuel) :
    SameFetches fuel (idealMemory n h1 h2) s s' ↔ ∀ key, KeyOk key →
      (Layout.lookup es' key).getD [] = (Layout.lookup es key).getD [] := by
  have hfetch : ∀ (f : KeyMap) key buffer len, f.fetch key buffer len =
      (min len ((f key).getD []).length, buffer.write 0 (((f key).getD []).take len)) := by
    intro f key buffer len
    unfold KeyMap.fetch
    cases f key with
    | none => simp
    | some v => rfl
  constructor
  · intro hsame key hk
    -- fetch into a buffer that holds either value
    have hlong := fun (b : Bytes) => hsame key b
      (((Layout.lookup es' key).getD []).length + ((Layout.lookup es key).getD []).length) hk
    simp only [fetch_eq h T hk hf, fetch_eq h' T' hk hf, hfetch, Option.some.injEq,
      Prod.mk.injEq] at hlong
    obtain ⟨hlen, hbytes⟩ := hlong (fun _ => 0)
    have hlen' : ((Layout.lookup es' key).getD []).length =
        ((Layout.lookup es key).getD []).length := by omega
    rw [List.take_of_length_le (by omega), List.take_of_length_le (by omega)] at hbytes
    have := congrArg (fun b => Bytes.slice b 0 ((Layout.lookup es' key).getD []).length) hbytes
    rw [Bytes.slice_write_self, hlen', Bytes.slice_write_self] at this
    exact this
  · intro hall key buffer len hk
    rw [fetch_eq h T hk hf, fetch_eq h' T' hk hf, hfetch, hfetch, hall key hk]

/-- **A failed store.**  In every state reached from `kveFormat`, a store of which a false answer
would leave every fetch as it was is one of a key without a value, with an empty one or with one
of the same length, or one for which there is room behind the other items; and these stores
do. -/
theorem failed_store_keeps_fetches_iff {s0 : KveState Bytes} {ops : List KveOp}
    {key value : List UInt8} (hops : ∀ op ∈ ops, op.Addressable) (hk : KeyOk key)
    (hv : value.length ≤ ptrdiffMax) (hf : n ≤ fuel) :
    Returns (KveOp.fromFormat fuel (idealMemory n h1 h2) ops) s0 (fun _ s =>
      Returns (kveStore fuel (idealMemory n h1 h2) key value) s (fun r s' =>
        (r = false → SameFetches fuel (idealMemory n h1 h2) s s') ↔
          Layout.KeepsOld n (KveOp.entries n ops) key value)) := by
  refine (fromFormat_ideal hops hf).mono ?_
  intro _ s T
  have hs : (idealAccess n h1 h2).At s s.dev := ⟨trivial, rfl⟩
  generalize KveOp.entries n ops = es at T
  refine (store_ideal hs T hk hv hf).mono ?_
  intro r s' hs'
  obtain ⟨rfl, m', hs', T'⟩ := hs'
  have hes := T.fits
  unfold firstItemAddress sizeofHeader at hes
  rw [sameFetches_iff hs T hs' T' hf]
  exact Layout.keepsOld_iff hes h2 hk hv

end

/-- The value of one byte is lost by an update to twenty bytes that a memory of 16 bytes cannot
hold. -/
theorem failed_store_loses_value : ∃ s s' : KveState Bytes,
    (KveOp.fromFormat 16 (idealMemory 16 (by decide) (by decide)) [.store [97] [1]]
      blankState).map Prod.snd = some s ∧
    kveStore 16 (idealMemory 16 (by decide) (by decide)) [97] (List.replicate 20 0) s =
      some (false, s') ∧
    ¬ SameFetches 16 (idealMemory 16 (by decide) (by decide)) s s' := by
  let mem := idealMemory 16 (by decide) (by decide)
  let count := fun s => (kveFetch 16 mem [97] (fun _ => 0) 8 s).map (fun p => p.1.1)
  have hrun : (KveOp.fromFormat 16 mem [.store [97] [1]] blankState).bind (fun p =>
      (kveStore 16 mem [97] (List.replicate 20 0) p.2).map (fun q =>
        (q.1, count p.2, count q.2))) = some (false, some 1, some 0) := by
    decide +kernel
  obtain ⟨⟨rs, s⟩, h1, hrun⟩ := Option.bind_eq_some_iff.mp hrun
  obtain ⟨⟨ok, s'⟩, h2, hrun⟩ := Option.map_eq_some_iff.mp hrun
  simp only [Prod.mk.injEq] at hrun
  obtain ⟨rfl, hbefore, hafter⟩ := hrun
  refine ⟨s, s', congrArg (Option.map Prod.snd) h1, h2, fun hsame => ?_⟩
  have := congrArg (Option.map Prod.fst) (hsame [97] (fun _ => 0) 8 (by simp [KeyOk]))
  simp only [Option.map_map] at this
  exact absurd (hafter.symm.trans (this.trans hbefore)) (by decide)

/-- A new key that does not fit costs the other one nothing. -/
theorem failed_store_keeps_fetches_small :
    Returns (KveOp.fromFormat 16 (idealMemory 16 (by decide) (by decide)) [.store [97] [1]])
      blankState (fun _ s => Returns (kveStore 16 (idealMemory 16 (by decide) (by decide)) [98]
        (List.replicate 20 0)) s (fun r s' =>
          r = false → SameFetches 16 (idealMemory 16 (by decide) (by decide)) s s')) := by
  have h := @failed_store_keeps_fetches_iff 16 (by decide) (by decide) 16 blankState
    [.store [97] [1]] [98] (List.replicate 20 0) (by simp [KveOp.Addressable, KeyOk, ptrdiffMax])
    (by simp [KeyOk]) (by simp [ptrdiffMax]) (Nat.le_refl 16)
  exact h.mono (fun _ _ h' => h'.mono (fun _ _ hiff => hiff.mpr (by decide)))

end NanoDrone
