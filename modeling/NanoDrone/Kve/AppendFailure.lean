import NanoDrone.Kve.Reboot

/-! # Power failures while an item is put behind the others (`storage.c`)

`appendItemToEnd` writes an item over the end tag and then a new end tag.  In between the table has
none.  The items before it are not hurt, and the next boot would find them
(`append_keeps_others`); but the boot first runs `storageTest`, which formats the partition when no
end tag is found.

On an EEPROM that was erased and on which no store has defragmented the table, the bytes behind the
end tag are still erased and read as end tags.  There `append_power_loss` names the one point in a
store at which a power failure loses everything: between the two bytes of the length field. -/

namespace NanoDrone

section
variable {fuel : ℕ} (hf : kvePartitionLength ≤ fuel)
include hf

/-- A store that needs no defragmentation, with its image. -/
theorem direct_powered {m : Bytes} {es : List Entry} {s : StorageState} {key value : List UInt8}
    (h : storageFaithful.access.At s.kve m) (T : Table m partitionLimit es) (hk : KeyOk key)
    (hv : value.length < kvePartitionLength)
    (hdirect : Layout.Direct kvePartitionLength es key value) (b : ℕ) :
    Returns ((StorageOp.store key value).callPowered fuel) (s.powered b) (fun _ p => ∃ m' b',
      storageFaithful.access.Powers p m' ((Layout.storeLog es key value).cut m b) b') := by
  have hfit := T.fits
  have hk2 := hk.2
  unfold kvePartitionLength at hv
  unfold firstItemAddress sizeofHeader partitionLimit eepromSize kvePartitionStart at hfit
  have hplace : value.length < partitionLimit ∧ (Layout.InPlace es key value ∨
      firstItemAddress + span es + (3 + key.length + value.length) + 2 ≤ partitionLimit) := by
    rcases hdirect with hin | hfits
    · obtain ⟨old, hl, hlen⟩ := hin
      have hold := Layout.length_le_of_lookup hl
      refine ⟨?_, Or.inl ⟨old, hl, hlen⟩⟩
      unfold partitionLimit eepromSize kvePartitionStart
      omega
    · have hroom := of_decide_eq_true hfits
      unfold sizeT sizeofHeader kveEndTagLendth kvePartitionLength at hroom
      unfold firstItemAddress partitionLimit eepromSize kvePartitionStart
      omega
  obtain ⟨hvl, hb⟩ := hplace
  exact (store_log storageFaithful.access (powers_of_at h b) T hk hvl hdirect hb hf).mono
    fun _ _ hp => hp.imp fun _ hp => ⟨_, hp⟩

end

/-- The bytes of the partition from an address on are erased. -/
def ErasedFrom (top : ℕ) (m : Bytes) : Prop := ∀ i, top ≤ i → i < partitionLimit → m i = 0xff

/-- Writes below `top` keep what is erased from there on. -/
def storageErased (top : ℕ) (h : top ≤ partitionLimit) : Access storageKve partitionLimit top :=
  { storageFaithful.access with
    Ok d := d.refused = 0 ∧ ErasedFrom top (partition d)
    top_le := Nat.le_trans h storageFaithful.limit_le
    read_bytes := fun hd hb => storageFaithful.read_bytes hd.1 hb
    read_ok := fun hd hb => ⟨storageFaithful.read_ok hd.1 hb, by
      rw [show partition _ = partition _ from storageFaithful.read_view hd.1 hb]
      exact hd.2⟩
    read_view := fun hd hb => storageFaithful.read_view hd.1 hb
    write_ok := fun hd hb => ⟨storageFaithful.write_ok hd.1 (Nat.le_trans hb h), by
      rw [show partition _ = (partition _).write _ _ from
        storageFaithful.write_view hd.1 (Nat.le_trans hb h)]
      intro i hi hlt
      rw [Bytes.write_outside _ (Or.inr (Nat.le_trans hb hi))]
      exact hd.2 i hi hlt⟩
    write_view := fun hd hb => storageFaithful.write_view hd.1 (Nat.le_trans hb h)
    flush_ok := fun hd => hd
    flush_view := fun _ => rfl }

/-- No store of the run defragments the table. -/
def StoresDirect : List Entry → List StorageOp → Prop
  | _, [] => True
  | es, .store key value :: ops => Layout.Direct kvePartitionLength es key value ∧
      StoresDirect (StorageOp.layout es (.store key value)) ops
  | es, .delete key :: ops => StoresDirect (StorageOp.layout es (.delete key)) ops

/-- The entries after a run. -/
def StorageOp.entries (ops : List StorageOp) : List Entry := ops.foldl StorageOp.layout []

theorem Layout.span_le_of_direct {es : List Entry} {key value : List UInt8}
    (hnd : (keys es).Nodup) (hlen : 1 + span es + 3 ≤ partitionLimit) (hk : key.length ≤ 255)
    (hv : value.length < kvePartitionLength) (h : Layout.Direct kvePartitionLength es key value) :
    span es ≤ span (Layout.store kvePartitionLength es key value).1 := by
  unfold partitionLimit eepromSize kvePartitionStart at hlen
  unfold kvePartitionLength at hv
  have happend : ∀ es', span es' = span es → fits kvePartitionLength es key value = true →
      span es ≤ span (append kvePartitionLength es' key value).1 := by
    intro es' hspan hfits
    have hfits' : fits kvePartitionLength es' key value = true := by
      unfold fits
      rw [hspan]
      exact hfits
    unfold append
    rw [if_pos hfits', span_append, hspan]
    exact Nat.le_add_right _ _
  unfold store
  cases hl : lookup es key with
  | none =>
      rcases h with ⟨old, ho, _⟩ | h
      · rw [hl] at ho
        cases ho
      · exact happend es rfl h
  | some old =>
      have hold := length_le_of_lookup hl
      dsimp only
      rcases h with ⟨old', ho, hlen'⟩ | h
      · rw [hl] at ho
        cases ho
        have hspan := span_overwrite value hnd hl
        rw [if_neg (not_not.mpr (by omega))]
        dsimp only
        omega
      · split
        · exact happend _ (span_markHole es key) h
        · rename_i hsame
          have hspan := span_overwrite value hnd hl
          dsimp only
          omega

section
variable {fuel : ℕ} (hf : kvePartitionLength ≤ fuel)
include hf

/-! ### Runs on an erased EEPROM -/

/-- A call that does not defragment the table writes nothing behind the end tag it leaves. -/
theorem storageOp_erased {m : Bytes} {es : List Entry} {s : StorageState} {op : StorageOp}
    {ops : List StorageOp} (h : storageFaithful.access.At s.kve m) (T : Table m partitionLimit es)
    (herased : ErasedFrom (firstItemAddress + span es + kveEndTagLendth) m)
    (hi : s.isInit = true) (hv : op.Valid) (hsp : StoresSpare es (op :: ops))
    (hd : StoresDirect es (op :: ops)) :
    Returns (op.exec fuel) s (fun _ s' => StoresDirect (op.layout es) ops ∧
      ErasedFrom (firstItemAddress + span (op.layout es) + kveEndTagLendth)
        (partition s'.kve.dev)) := by
  have hfit := T.fits
  change 1 + span es + 3 ≤ 7167 at hfit
  cases op with
  | store key value =>
      obtain ⟨⟨hk1, hk2⟩, hvl⟩ := hv
      have hroom := Layout.store_span_lt T.nodup
        (show 1 + span es + 4 ≤ kvePartitionLength by unfold kvePartitionLength; omega)
        (by decide) hk2 hvl hsp.1
      have hgrow := Layout.span_le_of_direct T.nodup hfit hk2 hvl hd.1
      have htop : firstItemAddress + span (Layout.store kvePartitionLength es key value).1 +
          kveEndTagLendth ≤ partitionLimit := by
        unfold kvePartitionLength at hroom ⊢
        unfold firstItemAddress kveEndTagLendth partitionLimit eepromSize kvePartitionStart
        omega
      have hat : (storageErased _ htop).At s.kve m := by
        refine ⟨⟨h.1, ?_⟩, h.2⟩
        intro i h1 h2
        rw [show partition s.kve.dev = m from h.2]
        exact herased i (by omega) h2
      apply returns_call.mpr
      rw [if_pos hi]
      refine (store_spec (storageErased _ htop) hat T (by omega) hk1 hk2 hf).mono ?_
      intro r k hr
      obtain ⟨m', h', _⟩ := hr.2 (Nat.le_refl _)
      exact ⟨hd.2, h'.1.2⟩
  | delete key =>
      have hspan : span (Layout.delete es key).1 = span es := by
        unfold Layout.delete
        cases Layout.lookup es key with
        | none => rfl
        | some old => exact Layout.span_markHole es key
      have hat : (storageErased _ T.endTag_le).At s.kve m := by
        refine ⟨⟨h.1, ?_⟩, h.2⟩
        rw [show partition s.kve.dev = m from h.2]
        exact herased
      apply returns_call.mpr
      rw [if_pos hi]
      refine (delete_spec (storageErased _ T.endTag_le) hat T (Nat.le_refl _) hv.1 hv.2 hf).mono ?_
      intro r k hr
      obtain ⟨_, m', h', _⟩ := hr
      refine ⟨hd, ?_⟩
      rw [show StorageOp.layout es (.delete key) = (Layout.delete es key).1 from rfl, hspan]
      exact h'.1.2

theorem storageOp_erased_run {m : Bytes} {es : List Entry} {s : StorageState}
    {ops : List StorageOp} (h : storageFaithful.access.At s.kve m) (T : Table m partitionLimit es)
    (herased : ErasedFrom (firstItemAddress + span es + kveEndTagLendth) m)
    (hi : s.isInit = true) (hv : ∀ op ∈ ops, op.Valid) (hsp : StoresSpare es ops)
    (hd : StoresDirect es ops) :
    Returns (StorageOp.execAll fuel ops) s (fun _ s' => s'.isInit = true ∧ ∃ m',
      storageFaithful.access.At s'.kve m' ∧
        Table m' partitionLimit (ops.foldl StorageOp.layout es) ∧
        ErasedFrom (firstItemAddress + span (ops.foldl StorageOp.layout es) + kveEndTagLendth)
          m') := by
  induction ops generalizing m es s with
  | nil => exact returns_pure.mpr ⟨hi, m, h, T, herased⟩
  | cons op ops ih =>
      have hop := hv op List.mem_cons_self
      refine ((storageOp_step hf h T hi hop hsp).both
        (storageOp_erased hf h T herased hi hop hsp hd)).bind ?_
      intro _ s1 h1
      obtain ⟨⟨hi1, hsp1, m1, h1, T1⟩, hd1, herased1⟩ := h1
      rw [show partition s1.kve.dev = m1 from h1.2] at herased1
      exact ih h1 T1 herased1 hi1 (fun x hx => hv x (List.mem_cons_of_mem _ hx)) hsp1 hd1

/-- A reformat writes three bytes. -/
theorem storageReformat_erased {s : StorageState} (h : s.kve.dev.refused = 0)
    (herased : ErasedFrom 3 (partition s.kve.dev)) :
    Returns (storageReformat fuel) s (fun _ s' => ErasedFrom 3 (partition s'.kve.dev)) := by
  have hat : (storageErased 3 (by decide)).At s.kve (partition s.kve.dev) := ⟨⟨h, herased⟩, rfl⟩
  unfold storageReformat
  rw [returns_bind, returns_locked]
  refine (format_spec (storageErased 3 (by decide)) hat (by decide) (by decide)).mono ?_
  intro _ k hk
  obtain ⟨m', hk, T⟩ := hk
  rw [returns_locked]
  refine (check_spec (storageErased 3 (by decide)) hk T hf).mono ?_
  intro r k' hr
  exact hr.2.1.2

/-- The one byte of an append after which the next boot formats an erased partition. -/
def FatalByte (es : List Entry) (key value : List UInt8) (b : ℕ) : Prop :=
  b = (Layout.deleteLog es key).size + 1 ∧ overlapByte key value ≠ 255

instance (es : List Entry) (key value : List UInt8) (b : ℕ) :
    Decidable (FatalByte es key value b) :=
  inferInstanceAs (Decidable (_ ∧ _))

/-- A power failure while an item is put behind a table, and the boot after it. -/
theorem powerLoss_append {m : Bytes} {es : List Entry} {s : StorageState} {key value : List UInt8}
    {b : ℕ} {ram : KveState Unit} (h : storageFaithful.access.At s.kve m)
    (T : Table m partitionLimit es)
    (herased : ErasedFrom (firstItemAddress + span es + kveEndTagLendth) m)
    (hi : s.isInit = true) (hk : KeyOk key) (hnew : ¬ Layout.InPlace es key value)
    (hroom : firstItemAddress + span es + (3 + key.length + value.length) + 3 ≤ partitionLimit) :
    Returns (powerLoss fuel (.store key value) b ram) s (fun passed s' => passed = true ∧
      if FatalByte es key value b then ∀ k, KeyOk k → ∀ buffer n,
        Returns (storageFetch fuel k buffer n) s' (fun r _ => r = (0, buffer))
      else ∀ k v, k ≠ key → Layout.lookup es k = some v → ∀ buffer n,
        Returns (storageFetch fuel k buffer n) s'
          (fun r _ => r = (min n v.length, buffer.write 0 (v.take n)))) := by
  have hsmall := hroom
  unfold firstItemAddress partitionLimit eepromSize kvePartitionStart at hsmall
  have hfits : Layout.fits kvePartitionLength es key value = true := by
    unfold Layout.fits sizeT sizeofHeader kveEndTagLendth kvePartitionLength
    rw [decide_eq_true_eq]
    omega
  have hbehind : ∀ i, firstItemAddress + span es ≤ i → i < partitionLimit → m i = 0xff := by
    intro i h1 h2
    by_cases hend : i < firstItemAddress + span es + 2
    · have e0 := T.endTag.get (i := 0) (by decide)
      have e1 := T.endTag.get (i := 1) (by decide)
      obtain rfl | rfl : i = firstItemAddress + span es + 0 ∨
        i = firstItemAddress + span es + 1 := by omega
      · exact e0
      · exact e1
    · exact herased i (by unfold kveEndTagLendth; omega) h2
  obtain ⟨m1, es1, T1, hspan, hlookup, hframe, hcut⟩ := cut_storeLog_of_append T hnew b
  refine returns_powerLoss hi
    (direct_powered hf h T hk (by unfold kvePartitionLength; omega) (Or.inr hfits) b) ?_
  intro boot hb hat
  rw [hcut] at hat
  rw [← hspan] at hroom hframe hbehind
  have hcheck := check_cut_append storageFaithful.access hat T1 (by decide) hk hroom
    (fun i h1 h2 => by rw [hframe i h1, hbehind i h1 h2]) hf
  unfold storageTest
  rw [returns_bind, returns_locked]
  refine hcheck.mono ?_
  intro r k1 hr
  obtain ⟨rfl, hk1⟩ := hr
  have hiff : FatalByte es key value b ↔
      ¬ (b - (Layout.deleteLog es key).size ≠ 1 ∨ overlapByte key value = 255) := by
    unfold FatalByte
    omega
  by_cases hfatal : FatalByte es key value b
  · rw [decide_eq_false (hiff.mp hfatal), if_neg (by simp)]
    refine (storageReformat_spec (s := ⟨boot.isInit, k1⟩) hf hk1.1).mono ?_
    intro r s' hs
    obtain ⟨rfl, hi', m', hat', T'⟩ := hs
    refine ⟨rfl, ?_⟩
    rw [if_pos hfatal]
    intro k hvalid buffer n
    exact storageFetch_table hf (by rw [hi']; exact hb) hat' T' hvalid
  · rw [decide_eq_true (not_not.mp (fun h => hfatal (hiff.mpr h))), if_pos rfl, returns_pure]
    refine ⟨rfl, ?_⟩
    rw [if_neg hfatal]
    intro k v hne hl buffer n
    apply returns_call.mpr
    rw [if_pos (show boot.isInit = true from hb)]
    exact (T1.fetch_cut storageFaithful.access hk1 (fun i hi => cut_append_below hi)
      (by rw [hlookup k hne, hl]) hf).mono fun _ _ hr => hr.2

end

end NanoDrone
