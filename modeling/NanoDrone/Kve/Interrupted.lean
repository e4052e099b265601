import NanoDrone.Kve.FailedStore
import NanoDrone.Kve.PowerLoss

/-! # The table after an interrupted call

What the log of a call leaves of a table when it is cut off after `b` bytes.

A hole differs from the item it replaces in the key length only, so a delete is done with its third
byte and not begun before it (`table_cut_deleteLog`).  A value that takes the place of one of the
same length is at every moment a new beginning and an old rest (`table_cut_inPlace`).  An item
behind the entries is written over the end tag, and until the new end tag is there the entries have
none: they are still found (`Table.fetch_cut`), but `kveCheck` only passes the memory if what lies
behind the new item happens to be an end tag (`check_cut_append`). -/

namespace NanoDrone

/-- A value of which `j` bytes have been replaced. -/
def torn (old value : List UInt8) (j : ℕ) : List UInt8 := value.take j ++ old.drop j

theorem torn_length {old value : List UInt8} (h : old.length = value.length) (j : ℕ) :
    (torn old value j).length = value.length := by
  simp only [torn, List.length_append, List.length_take, List.length_drop]
  omega

theorem write_torn {m : Bytes} {a j : ℕ} {old value : List UInt8} (hs : Stored m a old)
    (h : old.length = value.length) : m.write a (torn old value j) = m.write a (value.take j) := by
  have hsplit : Stored m a (old.take j ++ old.drop j) := by rwa [List.take_append_drop]
  have hlen : (old.take j).length = (value.take j).length := by simp [h]
  have hrest := (stored_append.mp hsplit).2
  rw [hlen] at hrest
  unfold torn
  rw [← Bytes.write_append]
  exact (hrest.frame (Or.inr (Nat.le_refl _))).write_self

/-! ### Deletes and values in place -/

/-- **An interrupted delete** has either happened or not. -/
theorem table_cut_deleteLog {m : Bytes} {limit : ℕ} {es : List Entry} (T : Table m limit es)
    (key : List UInt8) (b : ℕ) : Table ((Layout.deleteLog es key).cut m b) limit
      (if 3 ≤ b then (Layout.delete es key).1 else es) := by
  unfold Layout.deleteLog Layout.delete
  cases hl : Layout.lookup es key with
  | none => simpa using T
  | some old =>
      obtain ⟨pre, post, rfl, hp, hq⟩ := T.toLaid.split hl
      dsimp only
      rw [Layout.offset_split hp]
      by_cases hb : 3 ≤ b
      · rw [if_pos hb, WriteLog.cut_of_le (show (Entry.hole _).bytes.length ≤ b from hb),
          WriteLog.cut_nil]
        exact T.markHole hp hq
      -- the length field of the hole is that of the item
      · have hst := (segAt_append.mp T.seg).2.1
        have hlen : Stored m (firstItemAddress + span pre)
            [UInt8.ofNat (3 + key.length + old.length),
              UInt8.ofNat ((3 + key.length + old.length) / 256)] :=
          (@stored_append _ _ [_, _] ([UInt8.ofNat key.length] ++ (key ++ old))).mp hst |>.1
        have hcut := WriteLog.cut_adjacent m (firstItemAddress + span pre)
          [UInt8.ofNat (3 + key.length + old.length),
            UInt8.ofNat ((3 + key.length + old.length) / 256)] [UInt8.ofNat 0] [] b
        rw [WriteLog.cut_same hlen, show b - ([_, _] : List UInt8).length = 0 by
          simp only [List.length_cons, List.length_nil]
          omega, WriteLog.cut_zero] at hcut
        rw [if_neg hb]
        exact hcut ▸ T

/-- **An interrupted store in place** leaves a new beginning of the value and its old rest. -/
theorem table_cut_inPlace {m : Bytes} {limit : ℕ} {es : List Entry} (T : Table m limit es)
    {key value old : List UInt8} (hl : Layout.lookup es key = some old)
    (hlen : old.length = value.length) (b : ℕ) :
    Table ((Layout.storeLog es key value).cut m b) limit
      (Layout.overwrite es key (torn old value (b - (3 + key.length)))) := by
  obtain ⟨pre, post, rfl, hp, hq⟩ := T.toLaid.split hl
  have hst := (segAt_append.mp T.seg).2.1
  have hnd := T.nodup
  have hv := T.valid (.item key old) (by simp)
  have htorn := torn_length hlen (b - (3 + key.length))
  unfold Layout.storeLog
  rw [hl]
  dsimp only
  rw [if_neg (not_not.mpr hlen), Layout.offset_split hp, Layout.overwrite_split hp hq]
  -- the header and the key are the old ones
  have hhead : Stored m (firstItemAddress + span pre)
      (KveItemHeader.toBytes ⟨3 + key.length + value.length, key.length⟩ ++ key) := by
    rw [← hlen]
    refine stored_append.mpr ⟨(stored_append.mp hst).1, ?_⟩
    exact stored_key hst
  have hsize : (KveItemHeader.toBytes ⟨3 + key.length + value.length, key.length⟩ ++
      key).length = 3 + key.length := by
    simp only [KveItemHeader.toBytes, List.length_append, List.length_cons, List.length_nil]
  have hvalue : Stored m (firstItemAddress + span pre + (3 + key.length)) old := by
    rw [← Nat.add_assoc]
    exact stored_value hst
  have hcut : WriteLog.cut m [(firstItemAddress + span pre, (Entry.item key value).bytes)] b =
      m.write (firstItemAddress + span pre)
        (Entry.item key (torn old value (b - (3 + key.length)))).bytes := by
    simp only [Entry.bytes, htorn, ← List.append_assoc]
    rw [← WriteLog.cut_adjacent, WriteLog.cut_same hhead, hsize, WriteLog.cut_cons,
      WriteLog.cut_nil, ← Bytes.write_append, hhead.write_self, hsize, write_torn hvalue hlen]
  rw [hcut]
  refine T.replace (by simp only [Entry.length_item, htorn, hlen]) hv ?_
  simpa only [keys_append, keys_item] using hnd

/-- **An interrupted append** is one on the table that its delete has left. -/
theorem cut_storeLog_of_append {m : Bytes} {limit : ℕ} {es : List Entry} (T : Table m limit es)
    {key value : List UInt8} (hnew : ¬ Layout.InPlace es key value) (b : ℕ) :
    ∃ m' es', Table m' limit es' ∧ span es' = span es ∧
      (∀ k, k ≠ key → Layout.lookup es' k = Layout.lookup es k) ∧
      (∀ i, firstItemAddress + span es ≤ i → m' i = m i) ∧
      (Layout.storeLog es key value).cut m b =
        (Layout.appendLog es' key value).cut m' (b - (Layout.deleteLog es key).size) := by
  have hlog : Layout.storeLog es key value =
      Layout.deleteLog es key ++ Layout.appendLog es key value := by
    unfold Layout.storeLog
    cases hl : Layout.lookup es key with
    | none => simp [Layout.deleteLog, hl]
    | some old =>
        have hne : old.length ≠ value.length := fun h => hnew ⟨old, hl, h⟩
        dsimp only
        rw [if_pos hne]
  have hspan : span (if 3 ≤ b then (Layout.delete es key).1 else es) = span es := by
    unfold Layout.delete
    split
    · cases Layout.lookup es key with
      | none => rfl
      | some old => exact Layout.span_markHole es key
    · rfl
  refine ⟨_, _, table_cut_deleteLog T key b, hspan, ?_, ?_, ?_⟩
  · intro k hk
    split
    · rw [Layout.lookup_delete, if_neg hk]
    · rfl
  · intro i hi
    apply WriteLog.cut_outside
    intro w hw
    unfold Layout.deleteLog at hw
    cases hl : Layout.lookup es key with
    | none => simp [hl] at hw
    | some old =>
        obtain ⟨pre, post, rfl, hp, _⟩ := T.toLaid.split hl
        rw [hl] at hw
        rw [List.mem_singleton.mp hw, Layout.offset_split hp]
        simp only [span_append, span_cons, Entry.length_item] at hi
        right
        change firstItemAddress + span pre + 3 ≤ i
        omega
  · rw [hlog, WriteLog.cut_append]
    unfold Layout.appendLog
    rw [hspan]

/-! ### Entries without an end tag -/

section
variable {σ : Type} {kve : KveMemory σ} {limit : ℕ} (A : Access kve limit limit)
include A

/-- A key is found at its item, whatever lies behind the item. -/
theorem findItemByKey_seg {m : Bytes} {pre : List Entry} {key v : List UInt8} {fuel : ℕ}
    {s : KveState σ} (h : A.At s m) (hseg : SegAt m firstItemAddress pre)
    (hv : ∀ e ∈ pre, e.Valid) (hn : key ∉ keys pre)
    (I : ItemAt m limit (firstItemAddress + span pre) key v) (hf : kve.memorySize ≤ fuel) :
    Returns (kveStorageFindItemByKey kve fuel firstItemAddress key) s
      (fun r s' => r = firstItemAddress + span pre ∧ A.At s' m) := by
  have hlim := A.limit_le
  have hsz := kve.size_le
  have hfit := I.fits
  have hcount := four_mul_length_le_span hv
  have hk := I.valid
  simp only [Entry.Valid] at hk
  have hmod : key.length % 256 = key.length := Nat.mod_eq_of_lt (by omega)
  obtain ⟨f, rfl⟩ : ∃ f, fuel = pre.length + (f + 1) :=
    ⟨fuel - pre.length - 1, by unfold firstItemAddress at hfit; omega⟩
  unfold kveStorageFindItemByKey
  refine findItemByKeyLoop_skip A hk.1 hk.2 hv hn (Nat.le_refl 1) h hseg (by omega) ?_
  intro s1 h1
  unfold findItemByKeyLoop
  rw [if_pos (by omega), returns_bind]
  apply returns_readSearchBuffer A h1 (by omega)
  intro b s2 h2
  rw [ofBuffer_write_slice, I.header (by omega)]
  dsimp only
  have hne : 3 + key.length + v.length ≠ kveEndTag := by
    unfold kveEndTag
    unfold firstItemAddress at hfit
    omega
  rw [if_neg hne, hmod, if_pos rfl, returns_bind]
  apply returns_readSearchBuffer A h2 (by omega)
  intro b' s3 h3
  have hkey : m.slice (firstItemAddress + span pre + 3) key.length = key := stored_key I.stored
  rw [Bytes.slice_write_take _ _ _ _ (by simp), hkey, if_pos rfl, returns_pure]
  exact ⟨rfl, h3⟩

/-- **The keys of a table** are fetched from every memory that agrees with it up to the end tag. -/
theorem Table.fetch_cut {m d b : Bytes} {es : List Entry} {key v : List UInt8} {fuel n : ℕ}
    {s : KveState σ} (h : A.At s d) (T : Table m limit es)
    (hd : ∀ i, i < firstItemAddress + span es → d i = m i)
    (hl : Layout.lookup es key = some v) (hf : kve.memorySize ≤ fuel) :
    Returns (kveFetch fuel kve key b n) s
      (fun r s' => A.At s' d ∧ r = (min n v.length, b.write 0 (v.take n))) := by
  have hlim := A.limit_le
  have hsz := kve.size_le
  obtain ⟨pre, post, rfl, hp, hq⟩ := T.toLaid.split hl
  have hseg := (segAt_append.mp (T.seg.congr T.valid fun i _ hi => hd i hi))
  have hfit := T.fits
  simp only [span_append, span_cons, Entry.length_item] at hfit
  have I : ItemAt d limit (firstItemAddress + span pre) key v :=
    ⟨hseg.2.1, T.valid _ (by simp), by omega⟩
  unfold kveFetch
  refine (findItemByKey_seg A h hseg.1 (fun e he => T.valid e (by simp [he])) hp I hf).bind ?_
  intro r s1 h1
  obtain ⟨rfl, h1⟩ := h1
  rw [if_pos (by unfold sizeMax; omega)]
  refine (getItemInfo_item A h1 I).bind ?_
  intro r s2 h2
  obtain ⟨rfl, h2⟩ := h2
  dsimp only
  rw [storeSize_item (by unfold firstItemAddress at hfit; omega)]
  refine (getBuffer_item A h2 I).mono ?_
  intro r s3 h3
  exact ⟨h3.2, h3.1⟩

/-! ### The check -/

/-- A memory passes the check when its headers lead to an end tag. -/
theorem check_of_walk {m : Bytes} {hs : List KveItemHeader} {fuel : ℕ} {s : KveState σ}
    (h : A.At s m) (hversion : m versionAddress = kveVersion)
    (W : Walk m limit firstItemAddress hs) (hf : kve.memorySize ≤ fuel) :
    Returns (kveCheck fuel kve) s (fun r s' => r = true ∧ A.At s' m) := by
  have hlim := A.limit_le
  have hsz := kve.size_le
  have hfit := W.fits
  simp only [kveCheck, uninitialised, returns_bind, returns_get, returns_pure]
  apply returns_kveRead A h (by unfold versionAddress; unfold sizeofHeader at hfit; omega)
  intro s1 h1
  have hver : ∀ b : Bytes, (b.write 0 (m.slice versionAddress 1)) 0 = kveVersion :=
    fun _ => hversion
  rw [if_neg (by simp [hver]), returns_bind]
  refine (W.findEnd A h1 hf).mono ?_
  intro e s2 h2
  obtain ⟨rfl, h2⟩ := h2
  have hne : firstItemAddress + chainLength hs ≠ sizeMax := by
    unfold sizeMax
    omega
  rw [returns_pure]
  exact ⟨decide_eq_true hne, h2⟩

/-- A memory fails the check when a header behind the entries points behind the memory. -/
theorem check_of_beyond {m d : Bytes} {es : List Entry} {fuel : ℕ} {s : KveState σ}
    (h : A.At s d) (T : Table m limit es) (hd : ∀ i, i < firstItemAddress + span es → d i = m i)
    (hne : (headerAt d (firstItemAddress + span es)).fullLength ≠ kveEndTag)
    (hbeyond : kve.memorySize ≤
      firstItemAddress + span es + (headerAt d (firstItemAddress + span es)).fullLength)
    (hf : kve.memorySize ≤ fuel) :
    Returns (kveCheck fuel kve) s (fun r s' => r = false ∧ A.At s' d) := by
  have hlim := A.limit_le
  have hsz := kve.size_le
  have hfit := T.fits
  have hcount := four_mul_length_le_span T.valid
  have hseg := T.seg.congr T.valid fun i _ hi => hd i hi
  have hver : d versionAddress = kveVersion := by
    rw [hd _ (by unfold versionAddress firstItemAddress; omega)]
    exact T.version
  simp only [kveCheck, uninitialised, returns_bind, returns_get, returns_pure]
  apply returns_kveRead A h (by unfold versionAddress; unfold sizeofHeader at hfit; omega)
  intro s1 h1
  have hread : ∀ b : Bytes, (b.write 0 (d.slice versionAddress 1)) 0 = kveVersion :=
    fun _ => hver
  rw [if_neg (by simp [hread])]
  obtain ⟨f, rfl⟩ : ∃ f, fuel = (es.map Entry.header).length + (f + 2) := by
    rw [List.length_map]
    exact ⟨fuel - es.length - 2, by unfold firstItemAddress sizeofHeader at hfit; omega⟩
  have hchain := hseg.chain T.valid (by omega)
  have hend : Returns (kveStorageFindEnd kve ((es.map Entry.header).length + (f + 2))
      firstItemAddress) s1 (fun r s' => r = sizeMax ∧ A.At s' d) := by
    simp only [kveStorageFindEnd, uninitialised, returns_bind, returns_get, returns_pure]
    refine findEndLoop_skip A (header_long T.valid) h1 hchain ?_ ?_
    · rw [chainLength_map_header]
      exact hfit
    intro b s2 h2
    rw [chainLength_map_header]
    -- the header behind the entries is no end tag; it is too short or leads outside
    unfold findEndLoop
    rw [if_pos (by unfold sizeofHeader at hfit; omega), returns_bind]
    apply returns_kveRead A h2 hfit
    intro s3 h3
    rw [ofBuffer_read, if_neg hne]
    split
    · rw [returns_pure]
      exact ⟨rfl, h3⟩
    · unfold findEndLoop
      rw [if_neg (by omega), returns_pure]
      exact ⟨rfl, h3⟩
  rw [returns_bind]
  refine hend.mono ?_
  intro e s2 h2
  obtain ⟨rfl, h2⟩ := h2
  rw [returns_pure]
  exact ⟨by simp, h2⟩

end

/-! ### An item over the end tag -/

/-- A byte of a write that stopped after `b` bytes. -/
theorem write_take_apply (m : Bytes) (a : ℕ) (d : List UInt8) (b p : ℕ) :
    m.write a (d.take b) (a + p) = if p < b then d.getD p (m (a + p)) else m (a + p) := by
  unfold Bytes.write
  rw [if_pos (Nat.le_add_right a p), Nat.add_sub_cancel_left]
  simp only [List.getD_eq_getElem?_getD, List.getElem?_take]
  split <;> rfl

/-- The low byte of the length of a new item, which goes where the old end tag begins. -/
def overlapByte (key value : List UInt8) : ℕ := (3 + key.length + value.length) % 256

section
variable {m : Bytes} {es : List Entry} {key value : List UInt8} {b : ℕ}

theorem cut_append_below {i : ℕ} (hi : i < firstItemAddress + span es) :
    (Layout.appendLog es key value).cut m b i = m i :=
  Bytes.write_outside _ (Or.inl hi)

/-- A byte of the new item, or of the end tag behind it. -/
theorem cut_append_apply (p : ℕ) :
    (Layout.appendLog es key value).cut m b (firstItemAddress + span es + p) =
      if p < b then ((Entry.item key value).bytes ++ [0xff, 0xff]).getD p
        (m (firstItemAddress + span es + p)) else m (firstItemAddress + span es + p) :=
  write_take_apply m _ _ b p

/-- After one byte of the item the length is that of the old end tag, but for its low byte. -/
theorem cut_append_length_one (hend : m (firstItemAddress + span es + 1) = 0xff) :
    (headerAt ((Layout.appendLog es key value).cut m 1) (firstItemAddress + span es)).fullLength =
      overlapByte key value + 65280 := by
  have h0 : (Layout.appendLog es key value).cut m 1 (firstItemAddress + span es) =
      UInt8.ofNat (3 + key.length + value.length) := @cut_append_apply m es key value 1 0
  have h1 : (Layout.appendLog es key value).cut m 1 (firstItemAddress + span es + 1) = 0xff := by
    rw [cut_append_apply, if_neg (Nat.lt_irrefl 1), hend]
  unfold headerAt overlapByte
  dsimp only
  rw [h0, h1, UInt8.toNat_ofNat']
  rfl

/-- After two bytes of the item its length is in place. -/
theorem cut_append_length (hb : 2 ≤ b) (hl : 3 + key.length + value.length < 65536) :
    (headerAt ((Layout.appendLog es key value).cut m b) (firstItemAddress + span es)).fullLength =
      3 + key.length + value.length := by
  have h0 : (Layout.appendLog es key value).cut m b (firstItemAddress + span es + 0) =
      UInt8.ofNat (3 + key.length + value.length) := by
    rw [cut_append_apply, if_pos (by omega)]
    rfl
  have h1 : (Layout.appendLog es key value).cut m b (firstItemAddress + span es + 1) =
      UInt8.ofNat ((3 + key.length + value.length) / 256) := by
    rw [cut_append_apply, if_pos (by omega)]
    rfl
  rw [Nat.add_zero] at h0
  unfold headerAt
  dsimp only
  rw [h0, h1]
  simp only [UInt8.toNat_ofNat']
  omega

/-- Erased bytes behind the item are an end tag, whether or not it has been written. -/
theorem cut_append_end
    (h0 : m (firstItemAddress + span es + (3 + key.length + value.length)) = 0xff)
    (h1 : m (firstItemAddress + span es + (3 + key.length + value.length + 1)) = 0xff) :
    Stored ((Layout.appendLog es key value).cut m b)
      (firstItemAddress + span es + (3 + key.length + value.length)) [0xff, 0xff] := by
  have hbytes : (Entry.item key value).bytes.length = 3 + key.length + value.length := by
    simp only [Entry.bytes, KveItemHeader.toBytes, List.length_append, List.length_cons,
      List.length_nil]
    omega
  have hend : ∀ p, p < 2 →
      ((Entry.item key value).bytes ++ [0xff, 0xff])[3 + key.length + value.length + p]? =
        some 0xff := by
    intro p hp
    rw [List.getElem?_append_right (by omega), hbytes, Nat.add_sub_cancel_left]
    obtain rfl | rfl : p = 0 ∨ p = 1 := by omega
    · rfl
    · rfl
  have e0 := hend 0 (by decide)
  have e1 := hend 1 (by decide)
  unfold Stored
  apply List.ext_getElem (by simp)
  intro i hi1 hi2
  rw [Bytes.getElem_slice, Nat.add_assoc, cut_append_apply]
  have hi : i < 2 := hi2
  simp only [List.getD_eq_getElem?_getD]
  obtain rfl | rfl : i = 0 ∨ i = 1 := by omega
  · rw [e0, Nat.add_zero, h0]
    simp
  · rw [e1, h1]
    simp

end

section
variable {σ : Type} {kve : KveMemory σ} {limit : ℕ} (A : Access kve limit limit)
include A

/-- **An interrupted append on an erased memory.**  When the bytes behind the end tag are erased,
`kveCheck` fails at the next boot after exactly one byte of the new item, unless this byte is that
of the old end tag. -/
theorem check_cut_append {m : Bytes} {es : List Entry} {key value : List UInt8} {fuel b : ℕ}
    {s : KveState σ} (h : A.At s ((Layout.appendLog es key value).cut m b))
    (T : Table m limit es) (hsize : kve.memorySize ≤ 65280) (hk : KeyOk key)
    (hb : firstItemAddress + span es + (3 + key.length + value.length) + 3 ≤ limit)
    (herased : ∀ i, firstItemAddress + span es ≤ i → i < limit → m i = 0xff)
    (hf : kve.memorySize ≤ fuel) :
    Returns (kveCheck fuel kve) s (fun r s' =>
      r = decide (b ≠ 1 ∨ overlapByte key value = 255) ∧
        A.At s' ((Layout.appendLog es key value).cut m b)) := by
  have hlim := A.limit_le
  have hfit := T.fits
  have hversion : (Layout.appendLog es key value).cut m b versionAddress = kveVersion := by
    rw [cut_append_below (by unfold versionAddress firstItemAddress; omega)]
    exact T.version
  have hchain : ChainAt ((Layout.appendLog es key value).cut m b) firstItemAddress
      (es.map Entry.header) :=
    (T.seg.congr T.valid fun i _ hi => cut_append_below hi).chain T.valid (by omega)
  -- the old end tag is still there
  have hold : (headerAt ((Layout.appendLog es key value).cut m b)
      (firstItemAddress + span es)).fullLength = kveEndTag →
      Walk ((Layout.appendLog es key value).cut m b) limit firstItemAddress
        (es.map Entry.header) := by
    intro hlen
    refine ⟨hchain, header_long T.valid, ?_, ?_⟩
    · rw [chainLength_map_header]
      exact stored_endTag hlen
    · rw [chainLength_map_header]
      exact hfit
  obtain rfl | rfl | hb2 : b = 0 ∨ b = 1 ∨ 2 ≤ b := by omega
  · have W := hold (by rw [WriteLog.cut_zero]; exact headerAt_endTag T.endTag)
    simpa using check_of_walk A h hversion W hf
  · have hlen := @cut_append_length_one m es key value (herased _ (by omega) (by omega))
    have hrange : overlapByte key value < 256 := Nat.mod_lt _ (by decide)
    by_cases hov : overlapByte key value = 255
    · have hsame : (headerAt ((Layout.appendLog es key value).cut m 1)
          (firstItemAddress + span es)).fullLength = kveEndTag := by
        rw [hlen, hov]
        unfold kveEndTag
        omega
      have W := hold hsame
      simpa [hov] using check_of_walk A h hversion W hf
    · have hbad := check_of_beyond A h T (fun i hi => cut_append_below hi)
        (by unfold kveEndTag; omega) (by omega) hf
      simpa [hov] using hbad
  -- the item is the last entry, whatever its key length says
  · have hlen := @cut_append_length m es key value b hb2 (by omega)
    have hend := @cut_append_end m es key value b (herased _ (by omega) (by omega))
      (herased _ (by omega) (by omega))
    have W : Walk ((Layout.appendLog es key value).cut m b) limit firstItemAddress
        (es.map Entry.header ++ [headerAt ((Layout.appendLog es key value).cut m b)
          (firstItemAddress + span es)]) := by
      refine ⟨chainAt_append.mpr ⟨hchain, ?_⟩, ?_, ?_, ?_⟩
      · rw [chainLength_map_header]
        exact ⟨rfl, trivial⟩
      · intro x hx
        rcases List.mem_append.mp hx with hx | hx
        · exact header_long T.valid x hx
        · rw [List.mem_singleton.mp hx, hlen]
          have := hk.1
          omega
      · simp only [chainLength_append, chainLength_map_header, chainLength_cons, chainLength_nil,
          hlen, Nat.add_zero]
        rw [← Nat.add_assoc]
        exact hend
      · simp only [chainLength_append, chainLength_map_header, chainLength_cons, chainLength_nil,
          hlen, Nat.add_zero]
        unfold sizeofHeader
        omega
    have hne : decide (b ≠ 1 ∨ overlapByte key value = 255) = true := by
      simp only [decide_eq_true_eq]
      omega
    rw [hne]
    exact check_of_walk A h hversion W hf

end

end NanoDrone
