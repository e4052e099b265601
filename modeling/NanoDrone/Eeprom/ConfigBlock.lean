import NanoDrone.Eeprom.Eeprom
import Mathlib.Algebra.Ring.Nat

/-! # The configuration block (`configblockeeprom.c`)

The block is kept as its packed bytes, 21 in version 1 and 16 in version 0; the two layouts
overlay each other up to `calibRoll`, and the checksum is the last byte of each.  Floats and
words are read from the bytes in little endian order, a float as its bit pattern.

`configblockInit` checks the magic, the version and the checksum of the block in the EEPROM,
upgrades version 0, and writes the default block over anything else.  `configblock_init` states
what it leaves, for every content, and that a second run after a reboot changes nothing.

The driver is a parameter (`EepromDriver`).  `BlockAccess` assumes of it that the accesses to the
block succeed and are faithful; the first connection test may fail, as its result is discarded. -/

namespace NanoDrone.Configblock

/-! ### The packed block -/

/-- `MAGIC`. -/
def magic : ℕ := 0x43427830

/-- `VERSION`. -/
def version : ℕ := 1

/-- `HEADER_SIZE_BYTES`, magic and version. -/
def headerSizeBytes : ℕ := 5

/-- `OVERHEAD_SIZE_BYTES`, the header and the checksum. -/
def overheadSizeBytes : ℕ := headerSizeBytes + 1

/-- `RADIO_CHANNEL`. -/
def radioChannel : ℕ := 80

/-- `RADIO_ADDRESS`. -/
def radioAddress : ℕ := 0xE7E7E7E7E7

/-- `configblockSizes`. -/
def configblockSizes (version : ℕ) : ℕ := [16, 21].getD version 0

/-- `sizeof(configblock_t)`. -/
def sizeofConfigblock : ℕ := 21

/-- A byte of a packed structure. -/
def byteAt (b : List UInt8) (i : ℕ) : UInt8 := b.getD i 0

/-- A 32-bit word of a packed structure. -/
def wordAt (b : List UInt8) (i : ℕ) : ℕ :=
  (byteAt b i).toNat + 256 * ((byteAt b (i + 1)).toNat + 256 * ((byteAt b (i + 2)).toNat +
    256 * (byteAt b (i + 3)).toNat))

/-- The bytes of a 32-bit word. -/
def wordBytes (n : ℕ) : List UInt8 :=
  [UInt8.ofNat n, UInt8.ofNat (n / 2 ^ 8), UInt8.ofNat (n / 2 ^ 16), UInt8.ofNat (n / 2 ^ 24)]

/-- `memcpy(dst + off, src + off, n)`. -/
def copyBytes (dst src : List UInt8) (off n : ℕ) : List UInt8 :=
  dst.take off ++ (src.drop off).take n ++ dst.drop (off + n)

/-- The content of a block. -/
structure ConfigFields where
  radioChannel : UInt8
  radioSpeed : UInt8
  calibPitch : ℕ
  calibRoll : ℕ
  radioAddressUpper : UInt8
  radioAddressLower : ℕ
deriving DecidableEq

namespace ConfigFields

/-- The fields of the version 1 layout. -/
def ofBlock (b : List UInt8) : ConfigFields :=
  ⟨byteAt b 5, byteAt b 6, wordAt b 7, wordAt b 11, byteAt b 15, wordAt b 16⟩

def radioAddress (f : ConfigFields) : ℕ := f.radioAddressUpper.toNat * 2 ^ 32 + f.radioAddressLower

end ConfigFields

/-- The initial `configblockDefault`, with a checksum of zero; `datarate` is `RADIO_DATARATE`. -/
def configblockDefault (datarate : UInt8) : List UInt8 :=
  wordBytes magic ++ [UInt8.ofNat version, UInt8.ofNat radioChannel, datarate] ++ wordBytes 0 ++
    wordBytes 0 ++ [UInt8.ofNat (radioAddress / 2 ^ 32)] ++ wordBytes (radioAddress % 2 ^ 32) ++ [0]

def calculateCksum (data : List UInt8) (len : ℕ) : UInt8 := (data.take len).foldl (· + ·) 0

def configblockCheckMagic (b : List UInt8) : Bool := decide (wordAt b 0 = magic)

def configblockCheckVersion (b : List UInt8) : Bool := decide ((byteAt b 4).toNat = version)

def configblockCheckChecksum (b : List UInt8) : Bool :=
  decide (byteAt b (sizeofConfigblock - 1) = calculateCksum b (sizeofConfigblock - 1))

def configblockCheckDataIntegrity (b : List UInt8) (version : ℕ) : Bool :=
  if version = 0 then decide (byteAt b 15 = calculateCksum b (16 - 1))
  else if version = 1 then decide (byteAt b 20 = calculateCksum b (21 - 1))
  else false

/-- The new block, or `none` where `configblockCopyToNewVersion` returns false. -/
def configblockCopyToNewVersion (saved new : List UInt8) : Option (List UInt8) :=
  let savedVersion := (byteAt saved 4).toNat
  if savedVersion ≤ version ∧ configblockSizes savedVersion ≤ sizeofConfigblock then
    some (copyBytes new saved headerSizeBytes (configblockSizes savedVersion - overheadSizeBytes))
  else none

/-- The checksum put in its place, as `configblockWrite` does first. -/
def setCksum (b : List UInt8) : List UInt8 :=
  b.take (sizeofConfigblock - 1) ++ [calculateCksum b (sizeofConfigblock - 1)]

/-! ### `configblockInit` -/

/-- The functions of `eeprom.c` that `configblockInit` calls. -/
structure EepromDriver (σ : Type) where
  init : σ → σ
  testConnection : σ → Bool × σ
  readBuffer : ℕ → ℕ → σ → Option (List UInt8) × σ
  writeBuffer : List UInt8 → ℕ → σ → Bool × σ

/-- The static variables of `configblockeeprom.c` and the driver's state. -/
structure ConfigState (σ : Type) where
  configblock : List UInt8
  configblockDefault : List UInt8
  isInit : Bool
  cbOk : Bool
  eeprom : σ

section
variable {σ : Type} (drv : EepromDriver σ)

/-- Whether the write succeeded and the block with its checksum. -/
def configblockWrite (block : List UInt8) (e : σ) : Bool × List UInt8 × σ :=
  let r := drv.writeBuffer (setCksum block) 0 e
  (r.1, setCksum block, r.2)

/-- The checks of a block that could be read. -/
def configblockVerify (s : ConfigState σ) : ConfigState σ :=
  if configblockCheckMagic s.configblock then
    if configblockCheckVersion s.configblock then
      { s with cbOk := configblockCheckChecksum s.configblock }
    else if (byteAt s.configblock 4).toNat ≤ version ∧
        configblockCheckDataIntegrity s.configblock (byteAt s.configblock 4).toNat then
      -- Not the same version, try to upgrade
      match configblockCopyToNewVersion s.configblock s.configblockDefault with
      | some new =>
          let w := configblockWrite drv new s.eeprom
          { s with configblock := w.2.1, eeprom := w.2.2, cbOk := if w.1 then true else s.cbOk }
      | none => s
    else { s with cbOk := false }
  else s

/-- The end of `configblockInit`: without a good block the default one is used and written. -/
def configblockUseDefault (s : ConfigState σ) : Int × ConfigState σ :=
  if s.cbOk = false then
    let w := configblockWrite drv s.configblockDefault s.eeprom
    let s := { s with configblock := s.configblockDefault, configblockDefault := w.2.1,
                      eeprom := w.2.2 }
    if w.1 then (0, { s with cbOk := true, isInit := true }) else (-1, s)
  else (0, { s with isInit := true })

def configblockInit (s : ConfigState σ) : Int × ConfigState σ :=
  if s.isInit then (0, s)
  else
    let e := drv.init s.eeprom
    -- the first read needs to be discarded
    let e := (drv.testConnection e).2
    let t := drv.testConnection e
    let s := { s with eeprom := t.2 }
    if t.1 then
      let r := drv.readBuffer 0 sizeofConfigblock s.eeprom
      match r.1 with
      | some block =>
          configblockUseDefault drv
            (configblockVerify drv { s with configblock := block, eeprom := r.2 })
      | none => configblockUseDefault drv { s with eeprom := r.2 }
    else configblockUseDefault drv s

end

section
variable {σ : Type} (datarate : UInt8) (s : ConfigState σ)

def configblockGetRadioChannel : ℕ :=
  if s.cbOk then (ConfigFields.ofBlock s.configblock).radioChannel.toNat else radioChannel

def configblockGetRadioSpeed : ℕ :=
  if s.cbOk then (ConfigFields.ofBlock s.configblock).radioSpeed.toNat else datarate.toNat

def configblockGetRadioAddress : ℕ :=
  if s.cbOk then (ConfigFields.ofBlock s.configblock).radioAddress else radioAddress

def configblockGetCalibPitch : ℕ :=
  if s.cbOk then (ConfigFields.ofBlock s.configblock).calibPitch else 0

def configblockGetCalibRoll : ℕ :=
  if s.cbOk then (ConfigFields.ofBlock s.configblock).calibRoll else 0

end

/-- The static variables at boot. -/
def ConfigState.boot {σ : Type} (datarate : UInt8) (e : σ) : ConfigState σ :=
  ⟨List.replicate 21 0, Configblock.configblockDefault datarate, false, false, e⟩

/-- The getters return these fields. -/
def GettersReturn {σ : Type} (datarate : UInt8) (s : ConfigState σ) (f : ConfigFields) : Prop :=
  configblockGetRadioChannel s = f.radioChannel.toNat ∧
  configblockGetRadioSpeed datarate s = f.radioSpeed.toNat ∧
  configblockGetRadioAddress s = f.radioAddress ∧
  configblockGetCalibPitch s = f.calibPitch ∧
  configblockGetCalibRoll s = f.calibRoll

/-- A block with the magic, version 1 and a valid checksum. -/
def GoodBlock (b : List UInt8) : Prop :=
  configblockCheckMagic b = true ∧ configblockCheckVersion b = true ∧
    configblockCheckChecksum b = true

/-- A version 0 block with a valid version 0 checksum. -/
def GoodOldBlock (b : List UInt8) : Prop :=
  configblockCheckMagic b = true ∧ (byteAt b 4).toNat = 0 ∧
    configblockCheckDataIntegrity b 0 = true

/-- The driver accesses the block in the EEPROM. -/
structure BlockAccess {σ : Type} (drv : EepromDriver σ) where
  mem : σ → Bytes
  init_mem : ∀ e, mem (drv.init e) = mem e
  test_mem : ∀ e, mem (drv.testConnection e).2 = mem e
  connected : ∀ e, (drv.testConnection (drv.testConnection (drv.init e)).2).1 = true
  read_block : ∀ e, (drv.readBuffer 0 sizeofConfigblock e).1 =
    some ((mem e).slice 0 sizeofConfigblock)
  read_mem : ∀ e, mem (drv.readBuffer 0 sizeofConfigblock e).2 = mem e
  write_ok : ∀ e (b : List UInt8), b.length = sizeofConfigblock → (drv.writeBuffer b 0 e).1 = true
  write_mem : ∀ e (b : List UInt8), b.length = sizeofConfigblock →
    mem (drv.writeBuffer b 0 e).2 = (mem e).write 0 b

/-! ### Bytes of the blocks -/

theorem byteAt_copyBytes {dst src : List UInt8} {off n : ℕ} (hd : off + n ≤ dst.length)
    (hs : off + n ≤ src.length) (i : ℕ) : byteAt (copyBytes dst src off n) i =
      if off ≤ i ∧ i < off + n then byteAt src i else byteAt dst i := by
  have h1 : (dst.take off).length = off := by simp; omega
  have h2 : ((src.drop off).take n).length = n := by simp; omega
  unfold byteAt copyBytes
  simp only [List.getD_eq_getElem?_getD]
  by_cases hi : i < off
  · rw [if_neg (by omega), List.getElem?_append_left (by simp; omega),
      List.getElem?_append_left (by omega), List.getElem?_take_of_lt hi]
  · by_cases hin : i < off + n
    · rw [if_pos ⟨by omega, hin⟩, List.getElem?_append_left (by simp; omega),
        List.getElem?_append_right (by omega), h1, List.getElem?_take_of_lt (by omega),
        List.getElem?_drop]
      congr 2
      omega
    · rw [if_neg (by omega), List.getElem?_append_right (by simp; omega), List.length_append, h1,
        h2, List.getElem?_drop]
      congr 2
      omega

theorem length_copyBytes {dst src : List UInt8} {off n : ℕ} (hd : off + n ≤ dst.length)
    (hs : off + n ≤ src.length) : (copyBytes dst src off n).length = dst.length := by
  simp only [copyBytes, List.length_append, List.length_take, List.length_drop]
  omega

theorem length_setCksum {b : List UInt8} (hb : b.length = 21) : (setCksum b).length = 21 := by
  simp [setCksum, sizeofConfigblock, hb]

/-- Setting the checksum changes the last byte only. -/
theorem byteAt_setCksum {b : List UInt8} (hb : b.length = 21) {i : ℕ} (hi : i < 20) :
    byteAt (setCksum b) i = byteAt b i := by
  unfold byteAt setCksum sizeofConfigblock
  rw [List.getD_eq_getElem?_getD, List.getD_eq_getElem?_getD,
    List.getElem?_append_left (by simp; omega), List.getElem?_take_of_lt hi]

theorem wordAt_setCksum {b : List UInt8} (hb : b.length = 21) {i : ℕ} (hi : i < 17) :
    wordAt (setCksum b) i = wordAt b i := by
  unfold wordAt
  rw [byteAt_setCksum hb (by omega), byteAt_setCksum hb (by omega), byteAt_setCksum hb (by omega),
    byteAt_setCksum hb (by omega)]

theorem ofBlock_setCksum {b : List UInt8} (hb : b.length = 21) :
    ConfigFields.ofBlock (setCksum b) = ConfigFields.ofBlock b := by
  simp only [ConfigFields.ofBlock, byteAt_setCksum hb (show 5 < 20 by decide),
    byteAt_setCksum hb (show 6 < 20 by decide), byteAt_setCksum hb (show 15 < 20 by decide),
    wordAt_setCksum hb (show 7 < 17 by decide), wordAt_setCksum hb (show 11 < 17 by decide),
    wordAt_setCksum hb (show 16 < 17 by decide)]

/-- The two versions have different version bytes. -/
theorem not_goodBlock_of_old {b : List UInt8} (h : GoodOldBlock b) : ¬ GoodBlock b := by
  intro hgood
  have hv := of_decide_eq_true hgood.2.1
  rw [h.2.1] at hv
  cases hv

/-- A block with the right header is good once its checksum is set. -/
theorem goodBlock_setCksum {b : List UInt8} (hb : b.length = 21)
    (hm : configblockCheckMagic b = true) (hv : configblockCheckVersion b = true) :
    GoodBlock (setCksum b) := by
  refine ⟨?_, ?_, ?_⟩
  · unfold configblockCheckMagic at hm ⊢
    rw [wordAt_setCksum hb (by decide)]
    exact hm
  · unfold configblockCheckVersion at hv ⊢
    rw [byteAt_setCksum hb (by decide)]
    exact hv
  · have hlen : (b.take (21 - 1)).length = 20 := by simp [hb]
    unfold configblockCheckChecksum calculateCksum
    rw [decide_eq_true_iff]
    unfold setCksum byteAt sizeofConfigblock calculateCksum
    rw [List.getD_eq_getElem?_getD, List.getElem?_append_right (by omega), hlen,
      List.take_append_of_le_length (by omega), List.take_take]
    rfl

theorem length_default (datarate : UInt8) : (configblockDefault datarate).length = 21 := by
  simp [configblockDefault, wordBytes]

theorem checkMagic_default (datarate : UInt8) :
    configblockCheckMagic (configblockDefault datarate) = true := by
  simp [configblockCheckMagic, wordAt, byteAt, configblockDefault, wordBytes, magic]

theorem checkVersion_default (datarate : UInt8) :
    configblockCheckVersion (configblockDefault datarate) = true := by
  simp [configblockCheckVersion, byteAt, configblockDefault, wordBytes, version]

theorem goodBlock_default (datarate : UInt8) :
    GoodBlock (setCksum (configblockDefault datarate)) :=
  goodBlock_setCksum (length_default datarate) (checkMagic_default datarate)
    (checkVersion_default datarate)

/-- The block that a version 0 block is upgraded to, before its checksum is set. -/
theorem copyToNewVersion_old {b : List UInt8} (hv : (byteAt b 4).toNat = 0) (datarate : UInt8) :
    configblockCopyToNewVersion b (configblockDefault datarate) =
      some (copyBytes (configblockDefault datarate) b 5 10) := by
  unfold configblockCopyToNewVersion
  rw [hv]
  rfl

section
variable {b : List UInt8} (hb : b.length = 21) (datarate : UInt8)
include hb

theorem byteAt_upgrade (i : ℕ) : byteAt (copyBytes (configblockDefault datarate) b 5 10) i =
    if 5 ≤ i ∧ i < 15 then byteAt b i else byteAt (configblockDefault datarate) i :=
  byteAt_copyBytes (by rw [length_default]; decide) (by omega) i

theorem length_upgrade : (copyBytes (configblockDefault datarate) b 5 10).length = 21 := by
  rw [length_copyBytes (by rw [length_default]; decide) (by omega), length_default]

/-- **The upgrade.**  Channel, speed and calibration are those of the old block, the address is
the default one. -/
theorem ofBlock_upgrade : ConfigFields.ofBlock (copyBytes (configblockDefault datarate) b 5 10) =
    { ConfigFields.ofBlock b with
      radioAddressUpper := (ConfigFields.ofBlock (configblockDefault datarate)).radioAddressUpper
      radioAddressLower := (ConfigFields.ofBlock (configblockDefault datarate)).radioAddressLower
    } := by
  simp only [ConfigFields.ofBlock, wordAt, byteAt_upgrade hb]
  rfl

theorem radioAddress_upgrade :
    (ConfigFields.ofBlock (copyBytes (configblockDefault datarate) b 5 10)).radioAddress =
      radioAddress := by
  rw [ofBlock_upgrade hb]
  simp [ConfigFields.radioAddress, ConfigFields.ofBlock, configblockDefault, byteAt, wordAt,
    wordBytes, radioAddress]

theorem goodBlock_upgrade :
    GoodBlock (setCksum (copyBytes (configblockDefault datarate) b 5 10)) := by
  refine goodBlock_setCksum (length_upgrade hb datarate) ?_ ?_
  · have h := checkMagic_default datarate
    simp only [configblockCheckMagic, wordAt, byteAt_upgrade hb] at h ⊢
    exact h
  · have h := checkVersion_default datarate
    simp only [configblockCheckVersion, byteAt_upgrade hb] at h ⊢
    exact h

end

/-! ### What `configblockInit` leaves -/

section
variable {σ : Type} {drv : EepromDriver σ} (A : BlockAccess drv) (datarate : UInt8)

/-- From boot, `configblockInit` succeeds and leaves the memory `m'`; the block it uses has the
fields of the one in `m'`. -/
def InitLeaves (e : σ) (m' : Bytes) : Prop :=
  ∃ s', configblockInit drv (ConfigState.boot datarate e) = (0, s') ∧ s'.cbOk = true ∧
    A.mem s'.eeprom = m' ∧
    ConfigFields.ofBlock s'.configblock = ConfigFields.ofBlock (m'.slice 0 sizeofConfigblock)

/-- The block in the EEPROM is read and checked. -/
theorem configblockInit_boot (e : σ) : ∃ e', A.mem e' = A.mem e ∧
    configblockInit drv (ConfigState.boot datarate e) = configblockUseDefault drv
      (configblockVerify drv ⟨(A.mem e).slice 0 sizeofConfigblock, configblockDefault datarate,
        false, false, e'⟩) := by
  let e1 := (drv.testConnection (drv.testConnection (drv.init e)).2).2
  have hm1 : A.mem e1 = A.mem e := by
    rw [A.test_mem, A.test_mem, A.init_mem]
  refine ⟨(drv.readBuffer 0 sizeofConfigblock e1).2, by rw [A.read_mem, hm1], ?_⟩
  have hread := A.read_block e1
  rw [hm1] at hread
  unfold configblockInit
  rw [if_neg (by simp [ConfigState.boot])]
  simp only [ConfigState.boot, A.connected e, ↓reduceIte]
  split
  · rename_i block hb
    rw [hread] at hb
    cases hb
    rfl
  · rename_i hb
    rw [hread] at hb
    cases hb

/-- A good block is used as it is. -/
theorem initLeaves_good {e : σ} (h : GoodBlock ((A.mem e).slice 0 sizeofConfigblock)) :
    InitLeaves A datarate e (A.mem e) := by
  obtain ⟨e', he', hrun⟩ := configblockInit_boot A datarate e
  refine ⟨⟨(A.mem e).slice 0 sizeofConfigblock, configblockDefault datarate, true, true, e'⟩,
    hrun.trans ?_, rfl, he', rfl⟩
  simp only [configblockVerify, h.1, h.2.1, h.2.2, ↓reduceIte, configblockUseDefault,
    Bool.true_eq_false]

/-- The memory after the block `b` has been written. -/
theorem written_block {e e' : σ} {b : List UInt8} (he : A.mem e' = A.mem e) (hb : b.length = 21) :
    A.mem (drv.writeBuffer b 0 e').2 = (A.mem e).write 0 b ∧
      ((A.mem e).write 0 b).slice 0 sizeofConfigblock = b := by
  constructor
  · rw [A.write_mem e' b hb, he]
  · have := Bytes.slice_write_self (A.mem e) 0 b
    rwa [hb] at this

/-- A version 0 block is replaced by its upgrade. -/
theorem initLeaves_old {e : σ} (h : GoodOldBlock ((A.mem e).slice 0 sizeofConfigblock)) :
    InitLeaves A datarate e ((A.mem e).write 0 (setCksum (copyBytes (configblockDefault datarate)
      ((A.mem e).slice 0 sizeofConfigblock) 5 10))) := by
  obtain ⟨e', he', hrun⟩ := configblockInit_boot A datarate e
  obtain ⟨hmagic, hversion, hsum⟩ := h
  have hlen := length_setCksum
    (length_upgrade (Bytes.slice_length (A.mem e) 0 sizeofConfigblock) datarate)
  obtain ⟨hmem, hblock⟩ := written_block A he' hlen
  have hold : configblockCheckVersion ((A.mem e).slice 0 sizeofConfigblock) = false := by
    unfold configblockCheckVersion
    rw [hversion]
    rfl
  have hcopy := copyToNewVersion_old hversion datarate
  generalize copyBytes (configblockDefault datarate) ((A.mem e).slice 0 sizeofConfigblock) 5 10
    = new at *
  refine ⟨⟨setCksum new, configblockDefault datarate, true, true,
    (drv.writeBuffer (setCksum new) 0 e').2⟩, hrun.trans ?_, rfl, hmem, by rw [hblock]⟩
  have hok := A.write_ok e' (setCksum new) hlen
  simp only [configblockVerify, hmagic, hold, hversion, hsum, hcopy, configblockWrite, hok,
    Bool.false_eq_true, ↓reduceIte, Nat.zero_le, and_self, configblockUseDefault,
    Bool.true_eq_false]

/-- Every other block fails one of the checks. -/
theorem verify_bad {s : ConfigState σ} (hs : s.cbOk = false) (h1 : ¬ GoodBlock s.configblock)
    (h2 : ¬ GoodOldBlock s.configblock) : configblockVerify drv s = s := by
  have hfalse : { s with cbOk := false } = s := by rw [← hs]
  unfold configblockVerify
  split
  · rename_i hmagic
    split
    · rename_i hversion
      have hsum : configblockCheckChecksum s.configblock = false := by
        by_contra hne
        exact h1 ⟨hmagic, hversion, by simpa using hne⟩
      rw [hsum, hfalse]
    · rename_i hversion
      rw [if_neg, hfalse]
      intro hup
      have hne : (byteAt s.configblock 4).toNat ≠ 1 := by
        intro he
        exact hversion (by unfold configblockCheckVersion; rw [he]; rfl)
      have hzero : (byteAt s.configblock 4).toNat = 0 := by
        have := hup.1
        unfold version at this
        omega
      rw [hzero] at hup
      exact h2 ⟨hmagic, hzero, hup.2⟩
  · rfl

/-- Anything else is replaced by the default block. -/
theorem initLeaves_default {e : σ} (h1 : ¬ GoodBlock ((A.mem e).slice 0 sizeofConfigblock))
    (h2 : ¬ GoodOldBlock ((A.mem e).slice 0 sizeofConfigblock)) :
    InitLeaves A datarate e
      ((A.mem e).write 0 (setCksum (configblockDefault datarate))) := by
  obtain ⟨e', he', hrun⟩ := configblockInit_boot A datarate e
  have hlen := length_setCksum (length_default datarate)
  obtain ⟨hmem, hblock⟩ := written_block A he' hlen
  refine ⟨⟨configblockDefault datarate, setCksum (configblockDefault datarate), true, true,
    (drv.writeBuffer (setCksum (configblockDefault datarate)) 0 e').2⟩, hrun.trans ?_, rfl, hmem,
    by rw [hblock]; exact (ofBlock_setCksum (length_default datarate)).symm⟩
  have hbad : configblockVerify drv ⟨(A.mem e).slice 0 sizeofConfigblock,
    configblockDefault datarate, false, false, e'⟩ = _ := verify_bad rfl h1 h2
  have hok := A.write_ok e' _ hlen
  simp only [hbad, configblockUseDefault, configblockWrite, hok, ↓reduceIte]

omit A in
theorem gettersReturn_of_cbOk {s : ConfigState σ} (h : s.cbOk = true) :
    GettersReturn datarate s (ConfigFields.ofBlock s.configblock) := by
  simp only [GettersReturn, configblockGetRadioChannel, configblockGetRadioSpeed,
    configblockGetRadioAddress, configblockGetCalibPitch, configblockGetCalibRoll, h, ↓reduceIte,
    and_self]

theorem InitLeaves.getters {e : σ} {m' : Bytes} (h : InitLeaves A datarate e m') :
    (configblockInit drv (ConfigState.boot datarate e)).1 = 0 ∧
    A.mem (configblockInit drv (ConfigState.boot datarate e)).2.eeprom = m' ∧
    GettersReturn datarate (configblockInit drv (ConfigState.boot datarate e)).2
      (ConfigFields.ofBlock (m'.slice 0 sizeofConfigblock)) := by
  obtain ⟨s', hrun, hok, hmem, hfields⟩ := h
  rw [hrun, ← hfields]
  exact ⟨rfl, hmem, gettersReturn_of_cbOk datarate hok⟩

/-- The block in the EEPROM after `configblockInit`, by the one found there. -/
def UpgradeOf (datarate : UInt8) (old new : List UInt8) : Prop :=
  (GoodBlock old → new = old) ∧
  (GoodOldBlock old →
    (ConfigFields.ofBlock new).radioChannel = (ConfigFields.ofBlock old).radioChannel ∧
    (ConfigFields.ofBlock new).radioSpeed = (ConfigFields.ofBlock old).radioSpeed ∧
    (ConfigFields.ofBlock new).calibPitch = (ConfigFields.ofBlock old).calibPitch ∧
    (ConfigFields.ofBlock new).calibRoll = (ConfigFields.ofBlock old).calibRoll ∧
    (ConfigFields.ofBlock new).radioAddress = radioAddress) ∧
  (¬ GoodBlock old → ¬ GoodOldBlock old → new = setCksum (configblockDefault datarate))

/-- **The configuration block.**  For every content of the EEPROM `configblockInit` succeeds and
leaves a good block: the one it found, its upgrade, or the default one.  The getters return the
fields of the block in the EEPROM, and after a reboot `configblockInit` changes neither the
EEPROM nor the getters. -/
theorem configblock_init (e : σ) : ∃ m' : Bytes,
    (configblockInit drv (ConfigState.boot datarate e)).1 = 0 ∧
    A.mem (configblockInit drv (ConfigState.boot datarate e)).2.eeprom = m' ∧
    GoodBlock (m'.slice 0 sizeofConfigblock) ∧
    UpgradeOf datarate ((A.mem e).slice 0 sizeofConfigblock) (m'.slice 0 sizeofConfigblock) ∧
    (∀ i, sizeofConfigblock ≤ i → m' i = A.mem e i) ∧
    GettersReturn datarate (configblockInit drv (ConfigState.boot datarate e)).2
      (ConfigFields.ofBlock (m'.slice 0 sizeofConfigblock)) ∧
    ∀ e2, A.mem e2 = m' →
      (configblockInit drv (ConfigState.boot datarate e2)).1 = 0 ∧
      A.mem (configblockInit drv (ConfigState.boot datarate e2)).2.eeprom = m' ∧
      GettersReturn datarate (configblockInit drv (ConfigState.boot datarate e2)).2
        (ConfigFields.ofBlock (m'.slice 0 sizeofConfigblock)) := by
  -- whatever block is left, it is enough that it is a good one
  suffices h : ∃ m', InitLeaves A datarate e m' ∧ GoodBlock (m'.slice 0 sizeofConfigblock) ∧
      UpgradeOf datarate ((A.mem e).slice 0 sizeofConfigblock) (m'.slice 0 sizeofConfigblock) ∧
      ∀ i, sizeofConfigblock ≤ i → m' i = A.mem e i by
    obtain ⟨m', hinit, hgood, hup, hout⟩ := h
    obtain ⟨hret, hmem, hget⟩ := hinit.getters
    refine ⟨m', hret, hmem, hgood, hup, hout, hget, fun e2 he2 => ?_⟩
    rw [← he2] at hgood ⊢
    exact (initLeaves_good A datarate hgood).getters
  have hout : ∀ b : List UInt8, b.length = 21 → ∀ i, sizeofConfigblock ≤ i →
      (A.mem e).write 0 b i = A.mem e i := by
    intro b hb i hi
    unfold sizeofConfigblock at hi
    exact Bytes.write_outside _ (by omega)
  by_cases hgood : GoodBlock ((A.mem e).slice 0 sizeofConfigblock)
  · exact ⟨_, initLeaves_good A datarate hgood, hgood, ⟨fun _ => rfl,
      fun hold => absurd hgood (not_goodBlock_of_old hold), fun h => absurd hgood h⟩,
      fun _ _ => rfl⟩
  by_cases hold : GoodOldBlock ((A.mem e).slice 0 sizeofConfigblock)
  · have hb := Bytes.slice_length (A.mem e) 0 sizeofConfigblock
    have hlen := length_setCksum (length_upgrade hb datarate)
    refine ⟨_, initLeaves_old A datarate hold, ?_, ⟨fun h => absurd h hgood, fun _ => ?_,
      fun _ h => absurd hold h⟩, hout _ hlen⟩
    · rw [(written_block A rfl hlen).2]
      exact goodBlock_upgrade hb datarate
    · rw [(written_block A rfl hlen).2, ofBlock_setCksum (length_upgrade hb datarate)]
      refine ⟨?_, ?_, ?_, ?_, radioAddress_upgrade hb datarate⟩ <;> rw [ofBlock_upgrade hb]
  · have hlen := length_setCksum (length_default datarate)
    refine ⟨_, initLeaves_default A datarate hgood hold, ?_, ⟨fun h => absurd h hgood,
      fun h => absurd h hold, fun _ _ => ?_⟩, hout _ hlen⟩
    · rw [(written_block A rfl hlen).2]
      exact goodBlock_default datarate
    · exact (written_block A rfl hlen).2

end

/-! ### The driver of `eeprom.c`

The block lies below address 256 and inside one page, so the driver is faithful for it. -/

def eepromDriver {β : Type} (bus : I2cBus β) : EepromDriver (EepromState β) where
  init s := (eepromInit s).2
  testConnection := eepromTestConnection bus
  readBuffer := eepromReadBuffer bus
  writeBuffer := eepromWriteBuffer bus

theorem fillPage_all {left : List UInt8} {a : ℕ} (ha : a + left.length < 65536)
    (hl : 0 < left.length) (hp : InPage a left.length) :
    fillPage left a = (left, [], a + left.length) := by
  unfold InPage at hp
  induction left generalizing a with
  | nil => simp at hl
  | cons x left ih =>
      simp only [List.length_cons] at ha hp ⊢
      have hnext : (a + 1) % 65536 = a + 1 := Nat.mod_eq_of_lt (by omega)
      unfold fillPage
      rw [hnext]
      dsimp only
      by_cases hmore : 0 < left.length
      · rw [if_pos ⟨hmore, by omega⟩, ih (by omega) hmore (by omega)]
        simp only [Prod.mk.injEq, true_and]
        omega
      · have hnil : left = [] := List.length_eq_zero_iff.mp (by omega)
        rw [if_neg (fun h => hmore h.1), hnil]
        rfl

theorem write_block_reliable (s : EepromState Bytes) (b : List UInt8) (hb : b.length = 21) :
    eepromWriteBuffer reliableBus b 0 s = (true, { s with bus := s.bus.write 0 b }) := by
  unfold eepromWriteBuffer
  rw [if_neg (by rw [hb]; decide), hb]
  unfold writePages
  rw [if_pos (by omega), fillPage_all (by omega) (by omega) (by unfold InPage; omega)]
  rfl

/-- Over a reliable bus the driver gives access to the block. -/
def reliableAccess : BlockAccess (eepromDriver reliableBus) where
  mem s := s.bus
  init_mem := by
    intro e
    unfold eepromDriver eepromInit
    dsimp only
    split <;> rfl
  test_mem := by
    intro e
    unfold eepromDriver eepromTestConnection
    dsimp only
    split <;> rfl
  connected := by
    intro e
    unfold eepromDriver eepromInit
    cases h : e.isInit <;> simp [eepromTestConnection, h, reliableBus, i2cdevReadReg16]
  read_block _ := rfl
  read_mem _ := rfl
  write_ok e b hb := congrArg Prod.fst (write_block_reliable e b hb)
  write_mem e b hb := congrArg (fun r => r.2.bus) (write_block_reliable e b hb)

/-- A block of version 0 with channel 81, datarate 1 and a pitch of 2.625. -/
def oldBlock : Bytes := fun i =>
  (wordBytes magic ++ [0, 81, 1] ++ wordBytes 0x40280000 ++ wordBytes 0 ++ [0xE7]).getD i 0

/-- The old block is upgraded: it keeps its channel and gets the default address. -/
theorem configblock_init_old : ∃ m' : Bytes,
    let booted := configblockInit (eepromDriver reliableBus)
      (ConfigState.boot 2 ⟨false, 0, oldBlock, false, 0⟩)
    booted.1 = 0 ∧ booted.2.eeprom.bus = m' ∧ GoodBlock (m'.slice 0 sizeofConfigblock) ∧
    (ConfigFields.ofBlock (m'.slice 0 sizeofConfigblock)).radioChannel = 81 ∧
    (ConfigFields.ofBlock (m'.slice 0 sizeofConfigblock)).calibPitch = 0x40280000 ∧
    (ConfigFields.ofBlock (m'.slice 0 sizeofConfigblock)).radioAddress = radioAddress ∧
    GettersReturn 2 booted.2 (ConfigFields.ofBlock (m'.slice 0 sizeofConfigblock)) := by
  obtain ⟨m', hret, hmem, hgood, hup, -, hgetters, -⟩ :=
    configblock_init reliableAccess 2 ⟨false, 0, oldBlock, false, 0⟩
  have hold : GoodOldBlock (oldBlock.slice 0 sizeofConfigblock) :=
    ⟨by decide, by decide, by decide⟩
  obtain ⟨hchannel, -, hpitch, -, haddress⟩ := hup.2.1 hold
  refine ⟨m', hret, hmem, hgood, hchannel.trans ?_, hpitch.trans ?_, haddress, hgetters⟩
  · decide
  · decide

end NanoDrone.Configblock
