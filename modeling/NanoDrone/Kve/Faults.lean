import NanoDrone.Kve.FailedStore
import NanoDrone.Kve.MirrorDevice
import NanoDrone.Kve.Storage

/-! # EEPROM accesses that fail

`readEeprom` and `writeEeprom` return 0 when the EEPROM does not answer, but no function of
`kve_storage.c` looks at these counts: a scan goes on with what its buffer held before, and a store
or a delete says true whatever has become of its writes.

The pattern `fault` gives the accesses of a call that fail, and after how many bytes; without
faults the calls are those of `Storage.lean` (`mirrors_storage`).  A call that `fault` does not
touch (`Undisturbed`) does what the same call does without faults, and what that is the table says:
`undisturbed_calls` has what the answers of the three operations are then good for.  A single
failure is enough to break each of them. -/

namespace NanoDrone

/-- The EEPROM during a call, with the number of accesses made so far and what each read has
transferred. -/
structure CountedEeprom extends EepromDevice where
  accesses : ℕ
  reads : List (List UInt8)

namespace CountedEeprom

/-- Access number `i` fails after `k` bytes if `fault i` is `some k`. -/
def transfer (fault : ℕ → Option ℕ) (data : List UInt8) (d : CountedEeprom) :
    Bool × List UInt8 :=
  match fault d.accesses with
  | none => (true, data)
  | some k => (false, data.take k)

/-- `eepromReadBuffer`: what it returns, and the bytes that have gone to the buffer. -/
def readBuffer (fault : ℕ → Option ℕ) (readAddr len : ℕ) (d : CountedEeprom) :
    (Bool × List UInt8) × CountedEeprom :=
  if readAddr + len > eepromSize then ((false, []), { d with refused := d.refused + 1 })
  else
    let r := d.transfer fault (d.bytes.slice readAddr len)
    (r, { d with accesses := d.accesses + 1, reads := d.reads ++ [r.2] })

/-- `eepromWriteBuffer`. -/
def writeBuffer (fault : ℕ → Option ℕ) (writeAddr : ℕ) (buffer : List UInt8)
    (d : CountedEeprom) : Bool × CountedEeprom :=
  if writeAddr + buffer.length > eepromSize then (false, { d with refused := d.refused + 1 })
  else
    let r := d.transfer fault buffer
    (r.1, { d with bytes := d.bytes.write writeAddr r.2, accesses := d.accesses + 1 })

end CountedEeprom

/-- The static variables of `storage.c` during a call. -/
structure FaultyStorage where
  isInit : Bool
  kve : KveState CountedEeprom

abbrev FaultyM := StateT FaultyStorage Option

/-- The state in which a call starts. -/
def StorageState.counted (s : StorageState) : FaultyStorage :=
  ⟨s.isInit, s.kve.map (fun d => ⟨d, 0, []⟩)⟩

/-- The state that a call leaves. -/
def FaultyStorage.uncounted (t : FaultyStorage) : StorageState :=
  ⟨t.isInit, t.kve.map CountedEeprom.toEepromDevice⟩

namespace Faulty

section
variable (fuel : ℕ) (fault : ℕ → Option ℕ)

/-- What `readEeprom` returns, and the bytes that have gone to `data`. -/
def readEeprom (address length : ℕ) (d : CountedEeprom) : (ℕ × List UInt8) × CountedEeprom :=
  if length = 0 then ((0, []), d)
  else
    let r := d.readBuffer fault ((kvePartitionStart + address) % 65536) (length % 65536)
    ((if r.1.1 then length else 0, r.1.2), r.2)

def writeEeprom (address : ℕ) (data : List UInt8) (d : CountedEeprom) : ℕ × CountedEeprom :=
  if data.length = 0 then (0, d)
  else
    let r := d.writeBuffer fault ((kvePartitionStart + address) % 65536)
      (data.take (data.length % 65536))
    (if r.1 then data.length else 0, r.2)

/-- The counts that the two functions return are dropped. -/
def storageKve : KveMemory CountedEeprom where
  memorySize := kvePartitionLength
  read a n d := ((readEeprom fault a n d).1.2, (readEeprom fault a n d).2)
  write a data d := (writeEeprom fault a data d).2
  flush d := d
  size_ge := NanoDrone.storageKve.size_ge
  size_le := NanoDrone.storageKve.size_le

/-- A call into `kve.c` while the mutex is held. -/
def locked {α : Type} (x : KveM CountedEeprom α) : FaultyM α := fun s =>
  (x s.kve).map (fun p => (p.1, { s with kve := p.2 }))

def storageStore (key buffer : List UInt8) : FaultyM Bool := do
  let s ← get
  if !s.isInit then pure false else locked (kveStore fuel (storageKve fault) key buffer)

def storageFetch (key : List UInt8) (buffer : Bytes) (length : ℕ) : FaultyM (ℕ × Bytes) := do
  let s ← get
  if !s.isInit then pure (0, buffer)
  else locked (kveFetch fuel (storageKve fault) key buffer length)

def storageDelete (key : List UInt8) : FaultyM Bool := do
  let s ← get
  if !s.isInit then pure false else locked (kveDelete fuel (storageKve fault) key)

end

end Faulty

/-! ### What the answers promise -/

section
variable (fuel : ℕ) (fault : ℕ → Option ℕ) (s : StorageState)

/-- After a store that returns true a fetch without faults gives the value. -/
def StorePromise (key value : List UInt8) : Prop :=
  ∀ t, Faulty.storageStore fuel fault key value s.counted = some (true, t) → ∀ buffer n,
    Returns (storageFetch fuel key buffer n) t.uncounted
      (fun r _ => r = (min n value.length, buffer.write 0 (value.take n)))

/-- After a delete that returns true a fetch without faults gives nothing. -/
def DeletePromise (key : List UInt8) : Prop :=
  ∀ t, Faulty.storageDelete fuel fault key s.counted = some (true, t) → ∀ buffer n,
    Returns (storageFetch fuel key buffer n) t.uncounted (fun r _ => r = (0, buffer))

/-- The bytes that a fetch says it has put into the buffer have come from a read of this call. -/
def FetchPromise (key : List UInt8) (buffer : Bytes) (n : ℕ) : Prop :=
  ∀ r t, Faulty.storageFetch fuel fault key buffer n s.counted = some (r, t) → 0 < r.1 →
    ∃ bytes ∈ t.kve.dev.reads, bytes.length = r.1 ∧ r.2 = buffer.write 0 bytes

/-- The pattern has none of the accesses made so far fail. -/
def Spared (d : CountedEeprom) : Prop := ∀ i, i < d.accesses → fault i = none

/-- Without faults the call makes only accesses that the EEPROM takes, and `fault` spares them. -/
def Undisturbed {α : Type} (call : (ℕ → Option ℕ) → FaultyM α) : Prop :=
  Returns (call fun _ => none) s.counted
    (fun _ t => t.kve.dev.refused = 0 ∧ Spared fault t.kve.dev)

end

/-! ### The accesses -/

namespace CountedEeprom

variable {fault : ℕ → Option ℕ} {d : CountedEeprom}

theorem transfer_of_none (data : List UInt8) (h : fault d.accesses = none) :
    d.transfer fault data = (true, data) := by
  unfold transfer
  rw [h]

theorem readBuffer_spared {a n : ℕ} (h : Spared fault (d.readBuffer (fun _ => none) a n).2) :
    Spared fault d ∧ d.readBuffer fault a n = d.readBuffer (fun _ => none) a n := by
  unfold readBuffer at h ⊢
  by_cases hr : a + n > eepromSize
  · rw [if_pos hr] at h
    rw [if_pos hr, if_pos hr]
    exact ⟨h, rfl⟩
  · rw [if_neg hr] at h
    rw [if_neg hr, if_neg hr]
    refine ⟨fun i hi => h i (Nat.lt_succ_of_lt hi), ?_⟩
    rw [transfer_of_none _ (h d.accesses (Nat.lt_succ_self _)), transfer_of_none _ rfl]

theorem writeBuffer_spared {a : ℕ} {data : List UInt8}
    (h : Spared fault (d.writeBuffer (fun _ => none) a data).2) :
    Spared fault d ∧ d.writeBuffer fault a data = d.writeBuffer (fun _ => none) a data := by
  unfold writeBuffer at h ⊢
  by_cases hr : a + data.length > eepromSize
  · rw [if_pos hr] at h
    rw [if_pos hr, if_pos hr]
    exact ⟨h, rfl⟩
  · rw [if_neg hr] at h
    rw [if_neg hr, if_neg hr]
    refine ⟨fun i hi => h i (Nat.lt_succ_of_lt hi), ?_⟩
    rw [transfer_of_none _ (h d.accesses (Nat.lt_succ_self _)), transfer_of_none _ rfl]

/-- Without faults a read that is not refused transfers what is there. -/
theorem readBuffer_taken {a n : ℕ} (h : (d.readBuffer (fun _ => none) a n).2.refused = 0) :
    d.refused = 0 ∧ d.readBuffer (fun _ => none) a n = ((true, d.bytes.slice a n),
      { d with accesses := d.accesses + 1, reads := d.reads ++ [d.bytes.slice a n] }) := by
  unfold readBuffer at h ⊢
  by_cases hr : a + n > eepromSize
  · rw [if_pos hr] at h
    cases h
  · rw [if_neg hr] at h
    rw [if_neg hr, transfer_of_none _ rfl]
    exact ⟨h, rfl⟩

theorem writeBuffer_taken {a : ℕ} {data : List UInt8}
    (h : (d.writeBuffer (fun _ => none) a data).2.refused = 0) :
    d.refused = 0 ∧ d.writeBuffer (fun _ => none) a data = (true,
      { d with bytes := d.bytes.write a data, accesses := d.accesses + 1 }) := by
  unfold writeBuffer at h ⊢
  by_cases hr : a + data.length > eepromSize
  · rw [if_pos hr] at h
    cases h
  · rw [if_neg hr] at h
    rw [if_neg hr, transfer_of_none _ rfl]
    exact ⟨h, rfl⟩

end CountedEeprom

/-- The EEPROM without faults and without a range check. -/
def uncheckedKve : KveMemory Bytes where
  memorySize := kvePartitionLength
  read a n m := (m.slice ((kvePartitionStart + a) % 65536) (n % 65536), m)
  write a data m := m.write ((kvePartitionStart + a) % 65536) (data.take (data.length % 65536))
  flush m := m
  size_ge := NanoDrone.storageKve.size_ge
  size_le := NanoDrone.storageKve.size_le

/-- The whole partition, with the byte that the range check keeps from the code. -/
def uncheckedFaithful : Faithful uncheckedKve kvePartitionLength where
  view m := partition ⟨m, 0⟩
  Ok _ := True
  limit_le := Nat.le_refl _
  read_bytes := by
    intro m a n _ hb
    unfold kvePartitionLength at hb
    have ha : (kvePartitionStart + a) % 65536 = kvePartitionStart + a :=
      Nat.mod_eq_of_lt (by unfold kvePartitionStart; omega)
    rw [slice_partition]
    change m.slice ((kvePartitionStart + a) % 65536) (n % 65536) = _
    rw [ha, Nat.mod_eq_of_lt (by omega)]
  read_ok _ _ := trivial
  read_view _ _ := rfl
  write_ok _ _ := trivial
  write_view := by
    intro m a data _ hb
    unfold kvePartitionLength at hb
    have ha : (kvePartitionStart + a) % 65536 = kvePartitionStart + a :=
      Nat.mod_eq_of_lt (by unfold kvePartitionStart; omega)
    rw [← partition_write]
    change partition ⟨m.write ((kvePartitionStart + a) % 65536)
      (data.take (data.length % 65536)), 0⟩ = _
    rw [ha, Nat.mod_eq_of_lt (by omega), List.take_length]
  flush_ok _ := trivial
  flush_view _ := rfl

/-- A fetch puts into the buffer what its last access has read, or it has found nothing. -/
theorem kveFetch_lastRead {σ : Type} {kve : KveMemory σ} {fuel n : ℕ} {key : List UInt8}
    {b : Bytes} {k k' : KveState σ} {r : ℕ × Bytes}
    (h : kveFetch fuel kve key b n k = some (r, k')) : r = (0, b) ∨ ∃ (a : ℕ) (d : σ),
      r.2 = b.write 0 (kve.read a r.1 d).1 ∧ k'.dev = (kve.read a r.1 d).2 := by
  have hrun : Returns (kveFetch fuel kve key b n) k (fun r' u => r' = r ∧ u = k') :=
    ⟨r, k', h, rfl, rfl⟩
  unfold kveFetch at hrun
  obtain ⟨a, k1, _, hrun⟩ := returns_bind.mp hrun
  by_cases ha : a ≠ sizeMax
  · rw [if_pos ha] at hrun
    obtain ⟨header, k2, _, hrun⟩ := returns_bind.mp hrun
    unfold kveStorageGetBuffer at hrun
    obtain ⟨b', k3, hread, hrun⟩ := returns_bind.mp hrun
    obtain ⟨rfl, rfl⟩ := returns_pure.mp hrun
    cases hread
    exact Or.inr ⟨_, k2.dev, rfl, rfl⟩
  · rw [if_neg ha] at hrun
    exact Or.inl (returns_pure.mp hrun).1.symm

namespace Faulty

/-- As long as the pattern has no access fail, it makes no difference. -/
theorem mirrors_fault (fault : ℕ → Option ℕ) :
    DeviceMirrors (storageKve fun _ => none) (storageKve fault) id (Spared fault) where
  memorySize := rfl
  read := by
    intro a n d h
    simp only [storageKve, readEeprom] at h ⊢
    by_cases hn : n = 0
    · rw [if_pos hn] at h
      rw [if_pos hn, if_pos hn]
      exact ⟨h, rfl⟩
    · rw [if_neg hn] at h
      rw [if_neg hn, if_neg hn]
      obtain ⟨hd, he⟩ := CountedEeprom.readBuffer_spared h
      refine ⟨hd, ?_⟩
      rw [id, he]
      rfl
  write := by
    intro a data d h
    simp only [storageKve, writeEeprom] at h ⊢
    by_cases hn : data.length = 0
    · rw [if_pos hn] at h
      rw [if_pos hn, if_pos hn]
      exact ⟨h, rfl⟩
    · rw [if_neg hn] at h
      rw [if_neg hn, if_neg hn]
      obtain ⟨hd, he⟩ := CountedEeprom.writeBuffer_spared h
      refine ⟨hd, ?_⟩
      rw [id, he]
      rfl
  flush d h := ⟨h, rfl⟩

/-- As long as the range check refuses nothing, it makes no difference. -/
theorem mirrors_unchecked :
    DeviceMirrors (storageKve fun _ => none) uncheckedKve (fun d => d.bytes)
      (fun d => d.refused = 0) where
  memorySize := rfl
  read := by
    intro a n d h
    simp only [storageKve, readEeprom, uncheckedKve] at h ⊢
    by_cases hn : n = 0
    · rw [if_pos hn] at h
      rw [if_pos hn, hn]
      exact ⟨h, rfl⟩
    · rw [if_neg hn] at h
      rw [if_neg hn]
      obtain ⟨hd, he⟩ := CountedEeprom.readBuffer_taken h
      rw [he]
      exact ⟨hd, rfl⟩
  write := by
    intro a data d h
    simp only [storageKve, writeEeprom, uncheckedKve] at h ⊢
    by_cases hn : data.length = 0
    · rw [if_pos hn] at h
      rw [if_pos hn, List.length_eq_zero_iff.mp hn, List.take_nil, Bytes.write_nil]
      exact ⟨h, rfl⟩
    · rw [if_neg hn] at h
      rw [if_neg hn]
      obtain ⟨hd, he⟩ := CountedEeprom.writeBuffer_taken h
      rw [he]
      exact ⟨hd, rfl⟩
  flush d h := ⟨h, rfl⟩

/-- Without faults the counted EEPROM is the one of `Storage.lean`. -/
theorem mirrors_storageKve : DeviceMirrors (storageKve fun _ => none) NanoDrone.storageKve
    CountedEeprom.toEepromDevice (fun _ => True) where
  memorySize := rfl
  read := by
    intro a n d _
    simp only [storageKve, readEeprom, CountedEeprom.readBuffer, NanoDrone.storageKve,
      NanoDrone.readEeprom, EepromDevice.readBuffer]
    split
    · exact ⟨trivial, rfl⟩
    · split <;> exact ⟨trivial, rfl⟩
  write := by
    intro a data d _
    simp only [storageKve, writeEeprom, CountedEeprom.writeBuffer, NanoDrone.storageKve,
      NanoDrone.writeEeprom, EepromDevice.writeBuffer]
    split
    · exact ⟨trivial, rfl⟩
    · split <;> exact ⟨trivial, rfl⟩
  flush _ h := ⟨h, rfl⟩

/-- A call that does the same on both devices. -/
theorem mirrors_call {α : Type} {a : α} {x : KveM CountedEeprom α} {y : KveM EepromDevice α}
    (h : KveMirrors CountedEeprom.toEepromDevice (fun _ => True) x y) :
    Mirrors FaultyStorage.uncounted (fun _ => True)
      (do let s ← get; if !s.isInit then pure a else locked x)
      (do let s ← get; if !s.isInit then pure a else NanoDrone.locked y) := by
  refine Mirrors.get_bind fun t => Mirrors.ite (fun _ => Mirrors.pure a) fun _ => ?_
  intro u _ u' hu _
  obtain ⟨⟨b, k⟩, hk, he⟩ := Option.map_eq_some_iff.mp hu
  cases he
  refine ⟨trivial, ?_⟩
  change (y (u.kve.map CountedEeprom.toEepromDevice)).map _ = _
  rw [(h u.kve b k hk trivial).2]
  rfl

/-- **Without faults the calls are those of `storage.c`.** -/
theorem mirrors_storage (fuel : ℕ) (key : List UInt8) :
    (∀ value, Mirrors FaultyStorage.uncounted (fun _ => True)
      (storageStore fuel (fun _ => none) key value) (NanoDrone.storageStore fuel key value)) ∧
    (∀ buffer n, Mirrors FaultyStorage.uncounted (fun _ => True)
      (storageFetch fuel (fun _ => none) key buffer n)
      (NanoDrone.storageFetch fuel key buffer n)) ∧
    Mirrors FaultyStorage.uncounted (fun _ => True)
      (storageDelete fuel (fun _ => none) key) (NanoDrone.storageDelete fuel key) :=
  ⟨fun value => mirrors_call (mirrors_storageKve.store fuel key value),
    fun buffer n => mirrors_call (mirrors_storageKve.fetch fuel key buffer n),
    mirrors_call (mirrors_storageKve.delete fuel key)⟩

/-- A read without faults that is not refused has put all its bytes on record. -/
theorem read_taken {a n : ℕ} {d : CountedEeprom} (h1 : 0 < n) (h2 : n < 65536)
    (h : ((storageKve fun _ => none).read a n d).2.refused = 0) :
    ((storageKve fun _ => none).read a n d).1.length = n ∧
      ((storageKve fun _ => none).read a n d).1 ∈
        ((storageKve fun _ => none).read a n d).2.reads := by
  simp only [storageKve, readEeprom] at h ⊢
  rw [if_neg (Nat.pos_iff_ne_zero.mp h1)] at h ⊢
  rw [(CountedEeprom.readBuffer_taken h).2]
  simp [Nat.mod_eq_of_lt h2]

theorem returns_locked {α : Type} {x : KveM CountedEeprom α} {s : FaultyStorage}
    {Q : α → FaultyStorage → Prop} :
    Returns (locked x) s Q ↔ Returns x s.kve (fun a k => Q a { s with kve := k }) :=
  @returns_zoom _ _ _ x FaultyStorage.kve (fun k t => { t with kve := k }) s Q

/-- A call does nothing before `storageInit`. -/
theorem returns_call {α : Type} {a : α} {x : KveM CountedEeprom α} {s : FaultyStorage}
    {Q : α → FaultyStorage → Prop} :
    Returns (do let s ← get; if !s.isInit then pure a else locked x) s Q ↔
      if s.isInit then Returns x s.kve (fun b k => Q b { s with kve := k }) else Q a s := by
  cases hi : s.isInit <;> simp [hi, returns_locked]

/-- A call that returns something else than it does before `storageInit` has run on the EEPROM. -/
theorem call_run {α : Type} {a r : α} {x : KveM CountedEeprom α} {s t : FaultyStorage}
    (h : (do let s ← get; if !s.isInit then pure a else locked x : FaultyM α) s = some (r, t))
    (hr : r ≠ a) : s.isInit = true ∧ ∃ k, x s.kve = some (r, k) ∧ t = ⟨true, k⟩ := by
  have hret : Returns (do let s ← get; if !s.isInit then pure a else locked x) s
      (fun r' t' => r' = r ∧ t' = t) := ⟨r, t, h, rfl, rfl⟩
  rw [returns_call] at hret
  cases hi : s.isInit with
  | false =>
      rw [hi] at hret
      exact absurd hret.1.symm hr
  | true =>
      rw [hi] at hret
      obtain ⟨_, k, hk, rfl, rfl⟩ := hret
      exact ⟨rfl, k, hk, rfl⟩

/-- A run that the pattern spares does what the run on the unchecked EEPROM does. -/
theorem returns_spared {α : Type} {x x' : KveM CountedEeprom α} {y : KveM Bytes α}
    {fault : ℕ → Option ℕ} {k : KveState CountedEeprom} {Q : α → KveState Bytes → Prop}
    (hfault : KveMirrors id (Spared fault) x x')
    (hfree : KveMirrors (fun d => d.bytes) (fun d => d.refused = 0) x y)
    (hx : Returns x k (fun _ u => u.dev.refused = 0 ∧ Spared fault u.dev))
    (hy : Returns y (k.map (fun d => d.bytes)) Q) :
    Returns x' k (fun a u => x k = some (a, u) ∧ u.dev.refused = 0 ∧
      Q a (u.map (fun d => d.bytes))) := by
  obtain ⟨a, u, hu, href, hsp⟩ := hx
  exact ⟨a, u, (hfault k a u hu hsp).2, hu, href, hfree.of_returns hu href hy⟩

/-! ### The calls -/

section
variable {fuel : ℕ} (hf : kvePartitionLength ≤ fuel) {fault : ℕ → Option ℕ} {s : StorageState}
  {es : List Entry} (T : Table (partition s.kve.dev) kvePartitionLength es)
  {key : List UInt8} (hk : KeyOk key)
include hf hk

/-- What a fetch gives after a call that has left the entries `es'`. -/
theorem fetch_uncounted {k : KveState CountedEeprom} {m : Bytes} {es' : List Entry}
    (buffer : Bytes) (n : ℕ) (href : k.dev.refused = 0)
    (hm : partition k.dev.toEepromDevice = m) (L : Laid m es')
    (hroom : 1 + span es' + 3 ≤ kvePartitionLength) :
    Returns (NanoDrone.storageFetch fuel key buffer n) (FaultyStorage.mk true k).uncounted
      (fun r _ => r = match Layout.lookup es' key with
        | none => (0, buffer)
        | some v => (min n v.length, buffer.write 0 (v.take n))) := by
  have hat : storageFaithful.access.At (k.map CountedEeprom.toEepromDevice) m := ⟨href, hm⟩
  have S : Searchable m partitionLimit NanoDrone.storageKve.memorySize es' := by
    unfold kvePartitionLength at hroom
    refine ⟨L, ?_, ?_⟩
    · change 1 + span es' ≤ 7167
      omega
    · change 1 + span es' + 3 ≤ 7167 ∨ 7168 ≤ 1 + span es' + 3
      omega
  apply NanoDrone.returns_call.mpr
  rw [if_pos (show (FaultyStorage.mk true k).uncounted.isInit = true from rfl)]
  exact (S.fetch storageFaithful.access hat hk.1 hk.2 hf).mono (fun _ _ h => h.2)

include T

theorem storePromise_of_undisturbed {value : List UInt8}
    (hlen : value.length < 65536 ∨ Layout.Refuses kvePartitionLength es key value)
    (hu : Undisturbed fault s fun fault => storageStore fuel fault key value) :
    StorePromise fuel fault s key value := by
  intro t ht buffer n
  obtain ⟨hi, k, hrun, rfl⟩ := call_run ht (by decide)
  have hfree := returns_call.mp hu
  rw [if_pos hi] at hfree
  have hspec := returns_spared ((mirrors_fault fault).store fuel key value)
    (mirrors_unchecked.store fuel key value) hfree
    (store_spec uncheckedFaithful.access ⟨trivial, rfl⟩ T T.endTag_le hk.1 hk.2 hf)
  obtain ⟨_, href, hr, htab⟩ := hspec.of_eq hrun
  have htrue : (Layout.store kvePartitionLength es key value).2 = true := hr.symm
  rcases hlen with hlen | hrefuse
  · have hroom := Layout.store_span_le T.nodup T.fits (by decide) hk.2 hlen
    have hleft : ∃ m, uncheckedFaithful.access.At (k.map fun d => d.bytes) m ∧
        Laid m (Layout.store kvePartitionLength es key value).1 :=
      htab (Nat.le_trans (Nat.le_succ _) hroom)
    obtain ⟨m, hm, L⟩ := hleft
    have hlook := Layout.lookup_store kvePartitionLength es key value key
    rw [if_pos rfl, if_pos htrue] at hlook
    refine (fetch_uncounted hf hk buffer n href hm.2 L hroom).mono ?_
    rintro _ _ rfl
    rw [hlook]
  · rw [(Layout.store_refused_iff T.fits (by decide)).mpr hrefuse] at htrue
    cases htrue

theorem deletePromise_of_undisturbed
    (hu : Undisturbed fault s fun fault => storageDelete fuel fault key) :
    DeletePromise fuel fault s key := by
  intro t ht buffer n
  obtain ⟨hi, k, hrun, rfl⟩ := call_run ht (by decide)
  have hfree := returns_call.mp hu
  rw [if_pos hi] at hfree
  have hspec := returns_spared ((mirrors_fault fault).delete fuel key)
    (mirrors_unchecked.delete fuel key) hfree
    (delete_spec uncheckedFaithful.access ⟨trivial, rfl⟩ T T.endTag_le hk.1 hk.2 hf)
  obtain ⟨_, href, _, m, hm, T'⟩ := hspec.of_eq hrun
  refine (fetch_uncounted hf hk buffer n href hm.2 T'.toLaid T'.fits).mono ?_
  rintro _ _ rfl
  rw [Layout.lookup_delete, if_pos rfl]

theorem fetchPromise_of_undisturbed {buffer : Bytes} {n : ℕ}
    (hu : Undisturbed fault s fun fault => storageFetch fuel fault key buffer n) :
    FetchPromise fuel fault s key buffer n := by
  intro r t ht hpos
  obtain ⟨hi, k, hrun, rfl⟩ := call_run ht (fun h => Nat.lt_irrefl 0 (by rwa [h] at hpos))
  have hfree := returns_call.mp hu
  rw [if_pos hi] at hfree
  have hspec := returns_spared ((mirrors_fault fault).fetch fuel key buffer n)
    (mirrors_unchecked.fetch fuel key buffer n) hfree
    (fetch_spec uncheckedFaithful.access ⟨trivial, rfl⟩ T hk.1 hk.2 hf)
  obtain ⟨hlast, href, _, hr⟩ := hspec.of_eq hrun
  rcases kveFetch_lastRead hlast with rfl | ⟨a, d, hbytes, hdev⟩
  · cases hpos
  · have hshort : r.1 < 65536 := by
      rw [hr]
      cases hl : Layout.lookup es key with
      | none => exact Nat.zero_lt_succ _
      | some v =>
          have hv := Layout.length_le_of_lookup hl
          have hfit := T.fits
          unfold kvePartitionLength at hfit
          change min n v.length < 65536
          omega
    rw [hdev] at href
    obtain ⟨hlen, hmem⟩ := read_taken hpos hshort href
    refine ⟨_, ?_, hlen, hbytes⟩
    change _ ∈ k.dev.reads
    rw [hdev]
    exact hmem

end

end Faulty

/-- **What the answers are good for when no access fails.**  In every state of the store and for
every pattern of failures, a call whose accesses all succeed keeps its promise. -/
theorem undisturbed_calls {fuel : ℕ} (hf : kvePartitionLength ≤ fuel) {fault : ℕ → Option ℕ}
    {s : StorageState} {es : List Entry}
    (T : Table (partition s.kve.dev) kvePartitionLength es) {key : List UInt8} (hk : KeyOk key) :
    (∀ value, (value.length < 65536 ∨ Layout.Refuses kvePartitionLength es key value) →
      Undisturbed fault s (fun fault => Faulty.storageStore fuel fault key value) →
      StorePromise fuel fault s key value) ∧
    (Undisturbed fault s (fun fault => Faulty.storageDelete fuel fault key) →
      DeletePromise fuel fault s key) ∧
    ∀ buffer n, Undisturbed fault s (fun fault => Faulty.storageFetch fuel fault key buffer n) →
      FetchPromise fuel fault s key buffer n :=
  ⟨fun _ hlen => Faulty.storePromise_of_undisturbed hf T hk hlen,
    Faulty.deletePromise_of_undisturbed hf T hk,
    fun _ _ => Faulty.fetchPromise_of_undisturbed hf T hk⟩

/-! ### One failure -/

/-- The partition with the value 5 under the key `a`. -/
def oneItem : StorageState :=
  ⟨true, ⟨⟨Bytes.write (fun _ => 0xff) 1024 [1, 5, 0, 1, 97, 5], 0⟩,
    fun _ => 0, fun _ => 0, fun _ => 0⟩⟩

theorem oneItem_table : Table (partition oneItem.kve.dev) kvePartitionLength [.item [97] [5]] :=
  ⟨⟨rfl, ⟨rfl, trivial⟩, rfl, by simp [Entry.Valid], by simp⟩, by decide⟩

/-- Access `j` fails with nothing transferred. -/
def failsAt (j : ℕ) : ℕ → Option ℕ := fun i => if i = j then some 0 else none

/-- A store returns true although its value has not been written, a delete although its hole has
not, and a fetch says it has read a byte that it has not read. -/
theorem ignored_failures :
    ¬ StorePromise kvePartitionLength (failsAt 5) oneItem [97] [6] ∧
    ¬ DeletePromise kvePartitionLength (failsAt 3) oneItem [97] ∧
    ¬ FetchPromise kvePartitionLength (failsAt 3) oneItem [97] (fun _ => 0) 8 := by
  have hstore : (Faulty.storageStore kvePartitionLength (failsAt 5) [97] [6] oneItem.counted).map
      (fun p => (p.1, (storageFetch kvePartitionLength [97] (fun _ => 0) 8 p.2.uncounted).map
        (fun q => q.1.2 0))) = some (true, some 5) := by decide +kernel
  have hdelete : (Faulty.storageDelete kvePartitionLength (failsAt 3) [97] oneItem.counted).map
      (fun p => (p.1, (storageFetch kvePartitionLength [97] (fun _ => 0) 8 p.2.uncounted).map
        (fun q => q.1.1))) = some (true, some 1) := by decide +kernel
  have hfetch : (Faulty.storageFetch kvePartitionLength (failsAt 3) [97] (fun _ => 0) 8
      oneItem.counted).map (fun p => (p.1.1, p.1.2 0, p.2.kve.dev.reads)) =
        some (1, 0, [[5, 0, 1], [97], [5, 0, 1], []]) := by decide +kernel
  refine ⟨fun h => ?_, fun h => ?_, fun h => ?_⟩
  · obtain ⟨⟨_, t⟩, hrun, he⟩ := Option.map_eq_some_iff.mp hstore
    obtain ⟨rfl, he⟩ := Prod.mk.inj he
    obtain ⟨r, u, hu, rfl⟩ := h t hrun (fun _ => 0) 8
    rw [hu] at he
    exact absurd (show (6 : UInt8) = 5 from Option.some.inj he) (by decide)
  · obtain ⟨⟨_, t⟩, hrun, he⟩ := Option.map_eq_some_iff.mp hdelete
    obtain ⟨rfl, he⟩ := Prod.mk.inj he
    obtain ⟨r, u, hu, rfl⟩ := h t hrun (fun _ => 0) 8
    rw [hu] at he
    exact absurd (show 0 = 1 from Option.some.inj he) (by decide)
  · obtain ⟨⟨r, t⟩, hrun, he⟩ := Option.map_eq_some_iff.mp hfetch
    obtain ⟨hr, he⟩ := Prod.mk.inj he
    obtain ⟨hb, he⟩ := Prod.mk.inj he
    dsimp only at hr hb he
    obtain ⟨bytes, hmem, hlen, hbytes⟩ := h r t hrun (by rw [hr]; decide)
    rw [he] at hmem
    rw [hbytes] at hb
    rw [hr] at hlen
    simp only [List.mem_cons, List.not_mem_nil, or_false] at hmem
    rcases hmem with rfl | rfl | rfl | rfl
    · cases hlen
    · exact absurd hb (by decide)
    · cases hlen
    · cases hlen

theorem undisturbed_of_counts {α : Type} {fault : ℕ → Option ℕ} {s : StorageState}
    {call : (ℕ → Option ℕ) → FaultyM α} {c : ℕ}
    (h : (call (fun _ => none) s.counted).map
      (fun p => (p.2.kve.dev.refused, p.2.kve.dev.accesses)) = some (0, c))
    (hc : ∀ i, i < c → fault i = none) : Undisturbed fault s call := by
  obtain ⟨⟨a, t⟩, hrun, he⟩ := Option.map_eq_some_iff.mp h
  obtain ⟨href, hacc⟩ := Prod.mk.inj he
  refine ⟨a, t, hrun, href, fun i hi => hc i ?_⟩
  rw [← hacc]
  exact hi

/-- Three calls of four to six accesses, when the seventh access fails. -/
theorem undisturbed_calls_small :
    StorePromise kvePartitionLength (failsAt 6) oneItem [97] [6] ∧
    DeletePromise kvePartitionLength (failsAt 6) oneItem [97] ∧
    FetchPromise kvePartitionLength (failsAt 6) oneItem [97] (fun _ => 0) 8 := by
  have h := @undisturbed_calls kvePartitionLength (Nat.le_refl _) (failsAt 6) oneItem _
    oneItem_table [97] (by simp [KeyOk])
  have hc : ∀ i, i < 6 → failsAt 6 i = none := fun i hi => if_neg (Nat.ne_of_lt hi)
  refine ⟨h.1 [6] (Or.inl (by decide)) ?_, h.2.1 ?_, h.2.2 (fun _ => 0) 8 ?_⟩
  · exact undisturbed_of_counts (c := 6) (by decide +kernel) hc
  · exact undisturbed_of_counts (c := 4) (by decide +kernel) (fun i hi => hc i (by omega))
  · exact undisturbed_of_counts (c := 4) (by decide +kernel) (fun i hi => hc i (by omega))

end NanoDrone
