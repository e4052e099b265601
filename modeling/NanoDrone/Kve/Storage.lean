import NanoDrone.Eeprom.Device
import NanoDrone.Kve.KeyMap

/-! # The store on the EEPROM (`storage.c`)

`storage.c` gives the key-value memory the partition of `KVE_PARTITION_LENGTH` bytes at
`KVE_PARTITION_START`.  The partition ends one byte behind the last byte that the range check of
the EEPROM lets through, so the code's accesses are faithful below `partitionLimit` only.

A table whose end tag is put on the last three bytes of the partition is accepted by the test
for space, but the three byte header at the end tag can then not be read any more.
`storage_sound_run` shows that this is the only way to lose a table: in a run without such a
store no access is refused, and the table passes every later check.  `end_at_limit_check` shows
what one such store does. -/

namespace NanoDrone

/-- `KVE_PARTITION_START`. -/
def kvePartitionStart : ℕ := 1024

/-- `KVE_PARTITION_LENGTH`. -/
def kvePartitionLength : ℕ := 7 * 1024

/-- The bytes of the partition that the EEPROM gives access to. -/
def partitionLimit : ℕ := eepromSize - kvePartitionStart

/-- The arguments of `eepromReadBuffer` are `uint16_t`. -/
def readEeprom (address length : ℕ) (d : EepromDevice) : List UInt8 × EepromDevice :=
  if length = 0 then ([], d)
  else
    let r := d.readBuffer ((kvePartitionStart + address) % 65536) (length % 65536)
    (r.1.getD [], r.2)

def writeEeprom (address : ℕ) (data : List UInt8) (d : EepromDevice) : EepromDevice :=
  if data.length = 0 then d
  else (d.writeBuffer ((kvePartitionStart + address) % 65536)
    (data.take (data.length % 65536))).2

/-- A NOP for now. -/
def flushEeprom (d : EepromDevice) : EepromDevice := d

def storageKve : KveMemory EepromDevice where
  memorySize := kvePartitionLength
  read := readEeprom
  write := writeEeprom
  flush := flushEeprom
  size_ge := by decide
  size_le := by decide

/-- The static variables of `storage.c`. -/
structure StorageState where
  isInit : Bool
  kve : KveState EepromDevice

abbrev StorageM := StateT StorageState Option

/-- A call into `kve.c` while the mutex is held. -/
def locked {α : Type} (x : KveM EepromDevice α) : StorageM α := fun s =>
  (x s.kve).map (fun p => (p.1, { s with kve := p.2 }))

section
variable (fuel : ℕ)

def storageInit : StorageM Unit := modify (fun s => { s with isInit := true })

def storageReformat : StorageM Bool := do
  locked (kveFormat storageKve)
  locked (kveCheck fuel storageKve)

def storageTest : StorageM Bool := do
  let pass ← locked (kveCheck fuel storageKve)
  if pass then pure pass else storageReformat fuel

def storageStore (key buffer : List UInt8) : StorageM Bool := do
  let s ← get
  if !s.isInit then pure false else locked (kveStore fuel storageKve key buffer)

def storageFetch (key : List UInt8) (buffer : Bytes) (length : ℕ) : StorageM (ℕ × Bytes) := do
  let s ← get
  if !s.isInit then pure (0, buffer) else locked (kveFetch fuel storageKve key buffer length)

def storageDelete (key : List UInt8) : StorageM Bool := do
  let s ← get
  if !s.isInit then pure false else locked (kveDelete fuel storageKve key)

end

theorem returns_locked {α : Type} {x : KveM EepromDevice α} {s : StorageState}
    {Q : α → StorageState → Prop} :
    Returns (locked x) s Q ↔ Returns x s.kve (fun a k => Q a { s with kve := k }) :=
  @returns_zoom _ _ _ x StorageState.kve (fun k t => { t with kve := k }) s Q

/-- A call does nothing before `storageInit`. -/
theorem returns_call {α : Type} {a : α} {x : KveM EepromDevice α} {s : StorageState}
    {Q : α → StorageState → Prop} :
    Returns (do let s ← get; if !s.isInit then pure a else locked x) s Q ↔
      if s.isInit then Returns x s.kve (fun b k => Q b { s with kve := k }) else Q a s := by
  cases hi : s.isInit <;> simp [hi, returns_locked]

/-! ### The accesses -/

theorem readEeprom_of_le {a n : ℕ} (d : EepromDevice) (h : a + n ≤ partitionLimit) :
    readEeprom a n d = (d.bytes.slice (kvePartitionStart + a) n, d) := by
  unfold partitionLimit eepromSize at h
  unfold readEeprom
  split
  · rename_i hn
    rw [hn]
    rfl
  · have ha : (kvePartitionStart + a) % 65536 = kvePartitionStart + a := by
      unfold kvePartitionStart
      omega
    rw [ha, Nat.mod_eq_of_lt (by omega), EepromDevice.readBuffer_of_le]
    · rfl
    · unfold kvePartitionStart at h ⊢
      unfold eepromSize
      omega

theorem writeEeprom_of_le {a : ℕ} {data : List UInt8} (d : EepromDevice)
    (h : a + data.length ≤ partitionLimit) :
    writeEeprom a data d =
      { d with bytes := d.bytes.write (kvePartitionStart + a) data } := by
  unfold partitionLimit eepromSize at h
  unfold writeEeprom
  split
  · rename_i hn
    rw [List.length_eq_zero_iff.mp hn, Bytes.write_nil]
  · have ha : (kvePartitionStart + a) % 65536 = kvePartitionStart + a := by
      unfold kvePartitionStart
      omega
    rw [ha, Nat.mod_eq_of_lt (by omega), List.take_length, EepromDevice.writeBuffer_of_le]
    unfold kvePartitionStart at h ⊢
    unfold eepromSize
    omega

/-- The partition as an array of its own. -/
def partition (d : EepromDevice) : Bytes := fun i => d.bytes (kvePartitionStart + i)

theorem slice_partition (d : EepromDevice) (a n : ℕ) :
    (partition d).slice a n = d.bytes.slice (kvePartitionStart + a) n := by
  apply List.ext_getElem (by simp)
  intro i h1 h2
  rw [Bytes.getElem_slice, Bytes.getElem_slice, Nat.add_assoc]
  rfl

theorem partition_write (d : EepromDevice) (a : ℕ) (data : List UInt8) :
    partition { d with bytes := d.bytes.write (kvePartitionStart + a) data } =
      (partition d).write a data := by
  funext i
  by_cases h : i < a ∨ a + data.length ≤ i
  · rw [Bytes.write_outside _ h]
    exact Bytes.write_outside _ (by omega)
  · obtain ⟨j, rfl⟩ : ∃ j, i = a + j := ⟨i - a, by omega⟩
    rw [Bytes.write_inside _ (by omega)]
    unfold partition
    rw [← Nat.add_assoc]
    exact Bytes.write_inside _ (by omega)

/-- **The EEPROM below the limit.**  A device that has refused nothing is in order. -/
def storageFaithful : Faithful storageKve partitionLimit where
  view := partition
  Ok d := d.refused = 0
  limit_le := by decide
  read_bytes := by
    intro d a n _ hb
    rw [slice_partition]
    exact congrArg Prod.fst (readEeprom_of_le d hb)
  read_ok := by
    intro d a n hd hb
    rw [show (storageKve.read a n d).2 = d from congrArg Prod.snd (readEeprom_of_le d hb)]
    exact hd
  read_view := by
    intro d a n _ hb
    rw [show (storageKve.read a n d).2 = d from congrArg Prod.snd (readEeprom_of_le d hb)]
  write_ok := by
    intro d a data hd hb
    rw [show storageKve.write a data d = _ from writeEeprom_of_le d hb]
    exact hd
  write_view := by
    intro d a data _ hb
    rw [show storageKve.write a data d = _ from writeEeprom_of_le d hb]
    exact partition_write d a data
  flush_ok h := h
  flush_view _ := rfl

/-! ### Runs -/

/-- A call that changes the table. -/
inductive StorageOp where
  | store (key value : List UInt8)
  | delete (key : List UInt8)

namespace StorageOp

/-- Keys of 1 to 255 bytes and values below the partition length. -/
def Valid : StorageOp → Prop
  | store key value => KeyOk key ∧ value.length < kvePartitionLength
  | delete key => KeyOk key

def exec (fuel : ℕ) : StorageOp → StorageM Bool
  | store key value => storageStore fuel key value
  | delete key => storageDelete fuel key

def execAll (fuel : ℕ) : List StorageOp → StorageM Unit
  | [] => pure ()
  | op :: ops => do
      let _ ← exec fuel op
      execAll fuel ops

/-- The entries after a call. -/
def layout (es : List Entry) : StorageOp → List Entry
  | store key value => (Layout.store kvePartitionLength es key value).1
  | delete key => (Layout.delete es key).1

end StorageOp

/-- The store is set up and formatted, and then used. -/
def storageRun (fuel : ℕ) (ops : List StorageOp) : StorageM Unit := do
  storageInit
  let _ ← storageReformat fuel
  StorageOp.execAll fuel ops

/-- No access has been refused, and at the next boot, whatever the memory of the processor then
holds, `kveCheck` is true and `storageTest` leaves the partition as it is. -/
def StorageSound (fuel : ℕ) (s : StorageState) : Prop :=
  s.kve.dev.refused = 0 ∧ ∀ boot : StorageState, boot.kve.dev = s.kve.dev →
    Returns (kveCheck fuel storageKve) boot.kve (fun r _ => r = true) ∧
    Returns (storageTest fuel) boot (fun r s' => r = true ∧ s'.kve.dev.refused = 0 ∧
      partition s'.kve.dev = partition s.kve.dev)

namespace Layout

/-- An item put behind the entries does not leave the end tag three bytes before the end of the
memory. -/
def AppendSpares (memorySize : ℕ) (es : List Entry) (key value : List UInt8) : Prop :=
  1 + span (if fits memorySize es key value then es else compact es) +
    (3 + key.length + value.length) ≠ memorySize - 3

instance (memorySize : ℕ) (es : List Entry) (key value : List UInt8) :
    Decidable (AppendSpares memorySize es key value) :=
  inferInstanceAs (Decidable (_ ≠ memorySize - 3))

/-- A store that takes the place of the old item, or else appends as above. -/
def StoreSpares (memorySize : ℕ) (es : List Entry) (key value : List UInt8) : Prop :=
  match lookup es key with
  | none => AppendSpares memorySize es key value
  | some old => old.length = value.length ∨
      AppendSpares memorySize (markHole es key) key value

instance (memorySize : ℕ) (es : List Entry) (key value : List UInt8) :
    Decidable (StoreSpares memorySize es key value) :=
  match h : lookup es key with
  | none => decidable_of_iff (AppendSpares memorySize es key value) (by simp [StoreSpares, h])
  | some old =>
      decidable_of_iff (old.length = value.length ∨
        AppendSpares memorySize (markHole es key) key value) (by simp [StoreSpares, h])

end Layout

/-- No store of the run leaves the end tag three bytes before the end of the partition. -/
def StoresSpare : List Entry → List StorageOp → Prop
  | _, [] => True
  | es, .store key value :: ops =>
      Layout.StoreSpares kvePartitionLength es key value ∧
        StoresSpare (StorageOp.layout es (.store key value)) ops
  | es, .delete key :: ops => StoresSpare (StorageOp.layout es (.delete key)) ops

namespace Layout

theorem append_span_lt {n : ℕ} {es : List Entry} {key value : List UInt8}
    (hes : 1 + span es + 4 ≤ n) (hw : n + key.length + value.length + 2 < 2 ^ 32)
    (hsp : AppendSpares n es key value) : 1 + span (append n es key value).1 + 4 ≤ n := by
  have hc := span_compact_le es
  have hfit : ∀ es', span es' ≤ span es → fits n es' key value = true →
      1 + span es' + (3 + key.length + value.length) + 3 ≤ n := by
    intro es' hle hf
    have h' := of_decide_eq_true hf
    unfold sizeT sizeofHeader kveEndTagLendth at h'
    omega
  unfold AppendSpares at hsp
  unfold append
  split
  · rename_i hf
    have h' := hfit es (Nat.le_refl _) hf
    rw [if_pos hf] at hsp
    simp only [span_append, span_cons, span_nil, Entry.length_item]
    omega
  · rename_i hf
    rw [if_neg hf] at hsp
    split
    · rename_i hf2
      have h' := hfit _ hc hf2
      simp only [span_append, span_cons, span_nil, Entry.length_item]
      omega
    · change 1 + span (compact es) + 4 ≤ n
      omega

theorem store_span_lt {n : ℕ} {es : List Entry} {key value : List UInt8}
    (hnd : (keys es).Nodup) (hes : 1 + span es + 4 ≤ n) (hn : n ≤ 65535)
    (hk : key.length ≤ 255) (hv : value.length < n) (hsp : StoreSpares n es key value) :
    1 + span (store n es key value).1 + 4 ≤ n := by
  unfold StoreSpares at hsp
  unfold store
  cases hl : lookup es key with
  | none =>
      rw [hl] at hsp
      exact append_span_lt hes (by omega) hsp
  | some old =>
      rw [hl] at hsp
      dsimp only at hsp ⊢
      have hold := length_le_of_lookup hl
      split
      · rename_i hne
        rcases hsp with hsp | hsp
        · exact absurd (by omega) hne
        · exact append_span_lt (by rw [span_markHole]; exact hes) (by omega) hsp
      · rename_i hsame
        have hspan := span_overwrite value hnd hl
        dsimp only
        omega

end Layout

section
variable {fuel : ℕ} (hf : kvePartitionLength ≤ fuel)
include hf

theorem storage_sound_of_table {m : Bytes} {es : List Entry} {s : StorageState}
    (h : storageFaithful.access.At s.kve m) (T : Table m partitionLimit es) :
    StorageSound fuel s := by
  refine ⟨h.1, fun boot hb => ?_⟩
  have hboot : storageFaithful.access.At boot.kve m := by
    unfold Access.At
    rw [hb]
    exact h
  have hcheck := check_spec storageFaithful.access hboot T hf
  refine ⟨hcheck.mono (fun _ _ hr => hr.1), ?_⟩
  unfold storageTest
  rw [returns_bind, returns_locked]
  refine hcheck.mono ?_
  intro r k hr
  obtain ⟨rfl, hk⟩ := hr
  rw [if_pos rfl, returns_pure]
  exact ⟨rfl, hk.1, hk.2.trans h.2.symm⟩

/-- A call on a table leaves a table, unless it is a store that leaves the end tag three bytes
before the end of the partition. -/
theorem storageOp_step {m : Bytes} {es : List Entry} {s : StorageState} {op : StorageOp}
    {ops : List StorageOp} (h : storageFaithful.access.At s.kve m) (T : Table m partitionLimit es)
    (hi : s.isInit = true) (hv : op.Valid) (hsp : StoresSpare es (op :: ops)) :
    Returns (op.exec fuel) s (fun _ s' => s'.isInit = true ∧ StoresSpare (op.layout es) ops ∧
      ∃ m', storageFaithful.access.At s'.kve m' ∧ Table m' partitionLimit (op.layout es)) := by
  cases op with
  | store key value =>
      obtain ⟨⟨hk1, hk2⟩, hvl⟩ := hv
      obtain ⟨hsp, hsps⟩ := hsp
      have hfit := T.fits
      change 1 + span es + 3 ≤ 7167 at hfit
      have hroom := Layout.store_span_lt T.nodup
        (show 1 + span es + 4 ≤ kvePartitionLength by unfold kvePartitionLength; omega)
        (by decide) hk2 hvl hsp
      unfold kvePartitionLength at hroom
      apply returns_call.mpr
      rw [if_pos hi]
      refine (store_spec storageFaithful.access h T T.endTag_le hk1 hk2 hf).mono ?_
      intro r k hr
      obtain ⟨m', h', L'⟩ := hr.2 (by
        change 1 + span (Layout.store (7 * 1024) es key value).1 + 2 ≤ 7167
        omega)
      refine ⟨hi, hsps, m', h', L', ?_⟩
      change 1 + span (Layout.store (7 * 1024) es key value).1 + 3 ≤ 7167
      omega
  | delete key =>
      apply returns_call.mpr
      rw [if_pos hi]
      refine (delete_spec storageFaithful.access h T T.endTag_le hv.1 hv.2 hf).mono ?_
      intro r k hr
      exact ⟨hi, hsp, hr.2⟩

theorem storageOp_run {m : Bytes} {es : List Entry} {s : StorageState} {ops : List StorageOp}
    (h : storageFaithful.access.At s.kve m) (T : Table m partitionLimit es) (hi : s.isInit = true)
    (hv : ∀ op ∈ ops, op.Valid) (hsp : StoresSpare es ops) :
    Returns (StorageOp.execAll fuel ops) s (fun _ s' => ∃ m' es',
      storageFaithful.access.At s'.kve m' ∧ Table m' partitionLimit es') := by
  induction ops generalizing m es s with
  | nil => exact returns_pure.mpr ⟨m, es, h, T⟩
  | cons op ops ih =>
      refine (storageOp_step hf h T hi (hv op List.mem_cons_self) hsp).bind ?_
      intro _ s1 h1
      obtain ⟨hi1, hsp1, m1, h1, T1⟩ := h1
      exact ih h1 T1 hi1 (fun x hx => hv x (List.mem_cons_of_mem _ hx)) hsp1

theorem storageReformat_spec {s : StorageState} (h : s.kve.dev.refused = 0) :
    Returns (storageReformat fuel) s (fun r s' => r = true ∧ s'.isInit = s.isInit ∧
      ∃ m', storageFaithful.access.At s'.kve m' ∧ Table m' partitionLimit []) := by
  unfold storageReformat
  rw [returns_bind, returns_locked]
  refine (format_spec storageFaithful.access ⟨h, rfl⟩ (by decide) (by decide)).mono ?_
  intro _ k hk
  obtain ⟨m', hk, T⟩ := hk
  rw [returns_locked]
  refine (check_spec storageFaithful.access hk T hf).mono ?_
  intro r k' hr
  exact ⟨hr.1, rfl, m', hr.2, T⟩

/-- **The store keeps its table.**  From a reformat on, in every run that never leaves the end
tag three bytes before the end of the partition, every access passes the range check of the
EEPROM, and no boot reformats. -/
theorem storage_sound_run {s : StorageState} {ops : List StorageOp} (h : s.kve.dev.refused = 0)
    (hv : ∀ op ∈ ops, op.Valid) (hsp : StoresSpare [] ops) :
    Returns (storageRun fuel ops) s (fun _ s' => StorageSound fuel s') := by
  simp only [storageRun, storageInit, returns_bind, returns_modify]
  refine (storageReformat_spec (s := ⟨true, s.kve⟩) hf h).mono ?_
  intro _ s1 h1
  obtain ⟨_, hi, m1, h1, T1⟩ := h1
  refine (storageOp_run hf h1 T1 hi hv hsp).mono ?_
  intro _ s2 h2
  obtain ⟨m2, es2, h2, T2⟩ := h2
  exact storage_sound_of_table hf h2 T2

/-! ### The end tag on the last three bytes -/

omit hf in
/-- The header at the end tag cannot be read: the scan sees the last entry's header again and
runs over the end of the table. -/
theorem findEndLoop_refused {b : Bytes} {k : KveState EepromDevice} {rounds : ℕ}
    (h1 : 4 ≤ (KveItemHeader.ofBuffer b).fullLength)
    (h2 : (KveItemHeader.ofBuffer b).fullLength ≠ kveEndTag) :
    Returns (findEndLoop storageKve (rounds + 2) 7165 b) k (fun r _ => r = sizeMax) := by
  have hread : ∀ d : EepromDevice, storageKve.read 7165 sizeofHeader d =
      ([], { d with refused := d.refused + 1 }) := fun _ => rfl
  unfold findEndLoop
  rw [if_pos (by decide), returns_bind]
  refine ⟨_, _, rfl, ?_⟩
  rw [hread, Bytes.write_nil]
  dsimp only
  rw [if_neg h2, if_neg (by unfold sizeofHeader; omega)]
  unfold findEndLoop
  rw [if_neg (by change ¬ 7165 + (KveItemHeader.ofBuffer b).fullLength < 7166; omega),
    returns_pure]

/-- **A table that reaches the limit does not pass the check.** -/
theorem end_at_limit_check {m : Bytes} {es : List Entry} {k : KveState EepromDevice}
    (h : storageFaithful.access.At k m) (L : Laid m es) (hend : firstItemAddress + span es = 7165) :
    Returns (kveCheck fuel storageKve) k (fun r _ => r = false) := by
  unfold firstItemAddress at hend
  unfold kvePartitionLength at hf
  obtain ⟨init, e, rfl⟩ : ∃ init e, es = init ++ [e] := by
    rcases List.eq_nil_or_concat' es with rfl | hes
    · simp at hend
    · exact hes
  have hvi : ∀ x ∈ init, x.Valid := fun x hx => L.valid x (by simp [hx])
  have hve : e.Valid := L.valid e (by simp)
  have hge := hve.length_ge
  have hlen := four_mul_length_le_span hvi
  have hsg := segAt_append.mp L.seg
  simp only [span_append, span_cons, span_nil] at hend
  have hne : e.length ≠ kveEndTag := by unfold kveEndTag; omega
  have hver : ∀ b : Bytes, (b.write 0 (m.slice versionAddress 1)) 0 = kveVersion :=
    fun _ => L.version
  obtain ⟨f, rfl⟩ : ∃ f, fuel = (init.map Entry.header).length + (f + 2 + 1) :=
    ⟨fuel - init.length - 3, by rw [List.length_map]; omega⟩
  simp only [kveCheck, uninitialised, returns_bind, returns_get, returns_pure]
  apply returns_kveRead storageFaithful.access h (by decide)
  intro k1 hk1
  rw [if_neg (by simp [hver]), returns_bind]
  simp only [kveStorageFindEnd, uninitialised, returns_bind, returns_get, returns_pure]
  refine findEndLoop_skip storageFaithful.access (header_long hvi) hk1 (hsg.1.chain hvi (by omega))
    (by rw [chainLength_map_header]; change 1 + span init + 3 ≤ 7167; omega) ?_
  rw [chainLength_map_header]
  -- the last entry
  intro b k2 hk2
  unfold findEndLoop
  rw [if_pos (by change 1 + span init < 7166; omega), returns_bind]
  apply returns_kveRead storageFaithful.access hk2 (by change 1 + span init + 3 ≤ 7167; omega)
  intro k3 hk3
  have hhd := ofBuffer_read b m (firstItemAddress + span init)
  rw [headerAt_entry hsg.2.1 hve (by omega)] at hhd
  rw [hhd]
  dsimp only
  rw [if_neg hne, if_neg (by unfold sizeofHeader; omega),
    show firstItemAddress + span init + e.length = 7165 by unfold firstItemAddress; omega]
  refine (findEndLoop_refused (by rw [hhd]; exact hge) (by rw [hhd]; exact hne)).mono ?_
  intro r _ hr
  rw [hr]
  rfl

end

/-- A value of 7160 bytes under a key of one byte fills the partition to the limit. -/
theorem storage_sound_run_fails : Returns (storageRun 7168 [.store [97] (List.replicate 7160 0)])
    ⟨false, ⟨⟨fun _ => 0, 0⟩, fun _ => 0, fun _ => 0, fun _ => 0⟩⟩
    (fun _ s' => ¬ StorageSound 7168 s') := by
  have hf : kvePartitionLength ≤ 7168 := by decide
  simp only [storageRun, storageInit, returns_bind, returns_modify]
  refine (storageReformat_spec (s := ⟨true, _⟩) hf rfl).mono ?_
  intro _ s1 h1
  obtain ⟨_, hi, m1, h1, T1⟩ := h1
  have hstore : Layout.store kvePartitionLength [] [97] (List.replicate 7160 0) =
      ([.item [97] (List.replicate 7160 0)], true) := by
    have hfits : Layout.fits kvePartitionLength [] [97] (List.replicate 7160 0) = true := by
      unfold Layout.fits
      rw [List.length_replicate]
      rfl
    unfold Layout.store Layout.append
    rw [if_pos hfits]
    rfl
  have hspan : span [.item [97] (List.replicate 7160 0)] = 7164 := by
    simp only [span_cons, span_nil, Entry.length_item, List.length_replicate]
    rfl
  simp only [StorageOp.execAll, StorageOp.exec, returns_bind, returns_pure]
  apply returns_call.mpr
  rw [if_pos hi]
  refine Returns.mono (store_spec storageFaithful.access h1 T1 T1.endTag_le (by decide)
    (by decide) hf) ?_
  intro r k hr
  have hlaid := hr.2
  rw [show storageKve.memorySize = kvePartitionLength from rfl, hstore] at hlaid
  obtain ⟨m2, h2, L2⟩ := hlaid (by rw [hspan]; decide)
  intro hsound
  obtain ⟨a, k', hrun, hr'⟩ := (hsound.2 ⟨true, k⟩ rfl).1
  have := (end_at_limit_check hf h2 L2 (by rw [hspan]; rfl)).of_eq hrun
  rw [hr'] at this
  cases this

/-- A run of three calls. -/
theorem storage_sound_run_small :
    Returns (storageRun 7168 [.store [97] [1, 2], .store [97] [3], .delete [97]])
      ⟨false, ⟨⟨fun _ => 0, 0⟩, fun _ => 0, fun _ => 0, fun _ => 0⟩⟩
      (fun _ s' => StorageSound 7168 s') :=
  storage_sound_run (by decide) rfl (by simp [StorageOp.Valid, KeyOk, kvePartitionLength])
    ⟨by decide, by decide, trivial⟩

end NanoDrone
