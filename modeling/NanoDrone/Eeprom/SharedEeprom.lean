import NanoDrone.Eeprom.ConfigBlock
import NanoDrone.Eeprom.TwimBus
import NanoDrone.Kve.Storage

/-! # Two users of the EEPROM

`configblockeeprom.c` and `storage.c` stand on the same `eeprom.c`, and that on a bus.  Where the bus
answers (`I2cBus.Answers`; the driver does, `twimBus_answers`), each of them has the access it was
verified on: the configuration block has `readyAccess`, and the key-value memory is faithful below
its address 256 (`busFaithful`).

But the partition starts at 1024, a multiple of 256, and only the low byte of an address reaches the
device.  Both views are the same memory: address `a` of the store is byte `a` of the block. -/

namespace NanoDrone

/-- What is asked for inside the address space of the device succeeds. -/
structure I2cBus.Answers {β : Type} (bus : I2cBus β) : Prop where
  read : ∀ {start len : ℕ}, start < 256 → len < 2 ^ 16 → ∀ s : β,
    (bus.burstRead eepromI2cAddr start len s).1.isSome = true
  write : ∀ {start : ℕ} {data : List UInt8}, start < 256 → InPage start data.length → ∀ s : β,
    (bus.burstWrite eepromI2cAddr start data s).1 = true
  poll : ∀ (b : UInt8) (s : β), (bus.write eepromI2cAddr [b] s).1 = true

open Twim in
/-- The driver answers when no transfer fails and its buffer has room for a page. -/
theorem twimBus_answers {β : Type} {c : Config} {t : Peripheral β} (hc : c.Sound)
    (ht : t.Complete) (hdone : t.Reliable) (hroom : 32 < c.concatBufSize) :
    (twimBus c t).Answers where
  read := by
    intro start len hstart hlen s
    obtain ⟨memory, heq⟩ := burstRead_eq eepromI2cAddr hc ht hstart
      (Nat.lt_trans hlen (by decide)) s
    rw [heq, if_pos (hdone _ _), if_pos (hdone _ _)]
    rfl
  write := by
    intro start data hstart hpage s
    unfold InPage at hpage
    obtain ⟨memory, heq⟩ := burstWrite_eq eepromI2cAddr hc ht hstart
      (show data.length < 2 ^ 31 by omega) s
    rw [heq, if_neg (by omega)]
    exact decide_eq_true (hdone _ _)
  poll := by
    intro b s
    obtain ⟨memory, heq⟩ := write_eq eepromI2cAddr hc ht
      (show [b].length < 2 ^ 31 from Nat.one_lt_two_pow (by decide)) s
    rw [heq]
    exact decide_eq_true (hdone _ _)

/-! ### The driver on a bus that answers -/

/-- Inside one block of 256 addresses a write is a plain one. -/
theorem Aliased.eq_write {m m' : Bytes} {a : ℕ} {data : List UInt8} (h : Aliased m m' a data)
    (hblock : a % 256 + data.length ≤ 256) : m' = m.write (a % 256) data := by
  have hadr : ∀ j, j < data.length → (a + j) % 256 = a % 256 + j := by
    intro j hj
    omega
  funext y
  by_cases hy : y < a % 256 ∨ a % 256 + data.length ≤ y
  · rw [Bytes.write_outside _ hy]
    apply h.kept
    intro j hj he
    rw [hadr j hj] at he
    omega
  · obtain ⟨j, rfl⟩ : ∃ j, y = a % 256 + j := ⟨y - a % 256, by omega⟩
    have hj : j < data.length := by omega
    rw [Bytes.write_inside _ hj, ← hadr j hj]
    apply h.last j hj
    intro j' hlt hj'
    rw [hadr j' hj', hadr j hj]
    omega

section
variable {β : Type} {bus : I2cBus β} (hA : bus.Answers) (E : EepromOnBus bus)
include hA

theorem writePages_answers (dummy : UInt8) {fuel : ℕ} {left : List UInt8} {a : ℕ}
    (ha : a + left.length < 65536) (hf : left.length ≤ fuel) {status : Bool} (s : β)
    (hl : 0 < left.length ∨ status = true) :
    (writePages bus eepromI2cAddr dummy fuel left a status s).1 = true := by
  induction fuel generalizing left a status s with
  | zero =>
      rcases hl with hl | hl
      · omega
      · exact hl
  | succ fuel ih =>
      by_cases hpos : 0 < left.length
      · obtain ⟨page, rest, rfl, hp, hpage, hround⟩ := @writePages_round _ bus eepromI2cAddr dummy
          _ _ ha hpos
        rw [List.length_append] at ha hf
        have hpage' : InPage (a % 256) page.length := by
          unfold InPage at hpage ⊢
          omega
        have hw := Twim.retryLoop_const (fun s => hA.write (Nat.mod_lt a (by decide)) hpage' s) 9
          status s
        rw [hround]
        unfold i2cdevWrite16 i2cdevWriteReg16 i2cdevWrite
        simp only [hw, Twim.retryLoop_const (hA.poll dummy) 29, Bool.not_true, Bool.false_eq_true,
          ↓reduceIte]
        exact ih (by omega) (by omega) _ (Or.inr rfl)
      · obtain rfl : left = [] := List.length_eq_zero_iff.mp (by omega)
        rw [writePages_nil]
        simpa using hl

/-- A write of some bytes inside the EEPROM succeeds. -/
theorem writeBuffer_answers {buffer : List UInt8} {a : ℕ} {s : EepromState β}
    (hs : s.devAddr = eepromI2cAddr) (hl : 0 < buffer.length)
    (hle : a + buffer.length ≤ eepromSize) :
    (eepromWriteBuffer bus buffer a s).1 = true := by
  unfold eepromWriteBuffer
  rw [if_neg (Nat.not_lt.mpr hle), hs]
  unfold eepromSize at hle
  exact writePages_answers hA s.dummy (by omega) (Nat.le_refl _) s.bus (Or.inl hl)

include E in
theorem writeBuffer_mem {buffer : List UInt8} {a : ℕ} {s : EepromState β}
    (hs : s.devAddr = eepromI2cAddr) (hl : 0 < buffer.length)
    (hle : a + buffer.length ≤ eepromSize) (hblock : a % 256 + buffer.length ≤ 256) :
    E.mem (eepromWriteBuffer bus buffer a s).2.bus = (E.mem s.bus).write (a % 256) buffer :=
  (eepromWriteBuffer_spec E hs
    (Prod.ext (writeBuffer_answers hA hs hl hle) rfl)).2.2.eq_write hblock

omit hA in
theorem readBuffer_mem (a len : ℕ) {s : EepromState β} (hs : s.devAddr = eepromI2cAddr) :
    E.mem (eepromReadBuffer bus a len s).2.bus = E.mem s.bus := by
  unfold eepromReadBuffer
  split
  · rfl
  · rw [hs]
    exact E.read_mem _ _ _

include E in
theorem readBuffer_answers {a len : ℕ} {s : EepromState β} (hs : s.devAddr = eepromI2cAddr)
    (hle : a + len ≤ eepromSize) :
    (eepromReadBuffer bus a len s).1 = some ((E.mem s.bus).slice (a % 256) len) := by
  have hlen : len < 2 ^ 16 := by
    unfold eepromSize at hle
    omega
  have hsome : (eepromReadBuffer bus a len s).1.isSome = true := by
    unfold eepromReadBuffer
    rw [if_neg (Nat.not_lt.mpr hle), hs]
    exact hA.read (Nat.mod_lt a (by decide)) hlen s.bus
  obtain ⟨d, hd⟩ := Option.isSome_iff_exists.mp hsome
  rw [hd, eepromReadBuffer_spec E hs (Prod.ext hd rfl)]

theorem testConnection_answers {s : EepromState β} (hi : s.isInit = true)
    (hs : s.devAddr = eepromI2cAddr) : (eepromTestConnection bus s).1 = true := by
  unfold eepromTestConnection
  rw [hi, hs]
  exact hA.read (by decide) (by decide) s.bus

omit hA in
theorem testConnection_mem {s : EepromState β} (hs : s.devAddr = eepromI2cAddr) :
    E.mem (eepromTestConnection bus s).2.bus = E.mem s.bus := by
  unfold eepromTestConnection
  split
  · rfl
  · rw [hs]
    exact E.read_mem _ _ _

end

/-! ### The memory of the store -/

/-- `storage.c` on the bus: `readEeprom`, `writeEeprom` and `flushEeprom` in the structure `kve`. -/
def busKve {β : Type} (bus : I2cBus β) : KveMemory (EepromState β) where
  memorySize := kvePartitionLength
  read address length s :=
    if length = 0 then ([], s)
    else
      let r := eepromReadBuffer bus ((kvePartitionStart + address) % 65536) (length % 65536) s
      (r.1.getD [], r.2)
  write address data s :=
    if data.length = 0 then s
    else (eepromWriteBuffer bus (data.take (data.length % 65536))
      ((kvePartitionStart + address) % 65536) s).2
  flush s := s
  size_ge := Nat.le_of_ble_eq_true rfl
  size_le := Nat.le_of_ble_eq_true rfl

section
variable {β : Type} {bus : I2cBus β}

/-- Reads and writes leave the static variables of `eeprom.c`. -/
theorem readBuffer_static (a len : ℕ) (s : EepromState β) :
    (eepromReadBuffer bus a len s).2.isInit = s.isInit ∧
      (eepromReadBuffer bus a len s).2.devAddr = s.devAddr := by
  unfold eepromReadBuffer
  split <;> exact ⟨rfl, rfl⟩

theorem writeBuffer_static (buffer : List UInt8) (a : ℕ) (s : EepromState β) :
    (eepromWriteBuffer bus buffer a s).2.isInit = s.isInit ∧
      (eepromWriteBuffer bus buffer a s).2.devAddr = s.devAddr := by
  unfold eepromWriteBuffer
  split <;> exact ⟨rfl, rfl⟩

theorem testConnection_static (s : EepromState β) :
    (eepromTestConnection bus s).2.isInit = s.isInit ∧
      (eepromTestConnection bus s).2.devAddr = s.devAddr := by
  unfold eepromTestConnection
  split <;> exact ⟨rfl, rfl⟩

/-- `eepromInit` has been called. -/
def EepromState.Ready (s : EepromState β) : Prop := s.isInit = true ∧ s.devAddr = eepromI2cAddr

theorem busKve_read_eq {a n : ℕ} (hpos : n ≠ 0) (hb : a + n ≤ 256) (s : EepromState β) :
    (busKve bus).read a n s =
      ((eepromReadBuffer bus (kvePartitionStart + a) n s).1.getD [],
        (eepromReadBuffer bus (kvePartitionStart + a) n s).2) := by
  unfold busKve kvePartitionStart
  dsimp only
  rw [if_neg hpos, Nat.mod_eq_of_lt (by omega), Nat.mod_eq_of_lt (by omega)]

theorem busKve_write_eq {a : ℕ} {data : List UInt8} (hpos : data.length ≠ 0)
    (hb : a + data.length ≤ 256) (s : EepromState β) :
    (busKve bus).write a data s =
      (eepromWriteBuffer bus data (kvePartitionStart + a) s).2 := by
  unfold busKve kvePartitionStart
  dsimp only
  rw [if_neg hpos, Nat.mod_eq_of_lt (show data.length < 65536 by omega), List.take_length,
    Nat.mod_eq_of_lt (by omega)]

theorem partitionStart_mod {a : ℕ} (ha : a < 256) : (kvePartitionStart + a) % 256 = a := by
  unfold kvePartitionStart
  omega

variable (hA : bus.Answers) (E : EepromOnBus bus)

/-- **The store on the bus.**  Below 256 its addresses are those of the device. -/
def busFaithful : Faithful (busKve bus) 256 where
  view s := E.mem s.bus
  Ok s := s.Ready
  limit_le := show 256 ≤ kvePartitionLength by decide
  read_bytes := by
    intro s a n hs hb
    by_cases hn : n = 0
    · rw [hn]
      rfl
    · rw [busKve_read_eq hn hb, readBuffer_answers hA E hs.2
        (by unfold kvePartitionStart eepromSize; omega), partitionStart_mod (by omega)]
      rfl
  read_ok := by
    intro s a n hs hb
    by_cases hn : n = 0
    · rw [hn]
      exact hs
    · rw [busKve_read_eq hn hb]
      obtain ⟨hi, hd⟩ := @readBuffer_static _ bus (kvePartitionStart + a) n s
      exact ⟨hi.trans hs.1, hd.trans hs.2⟩
  read_view := by
    intro s a n hs hb
    by_cases hn : n = 0
    · rw [hn]
      rfl
    · rw [busKve_read_eq hn hb]
      exact readBuffer_mem E _ _ hs.2
  write_ok := by
    intro s a data hs hb
    by_cases hn : data.length = 0
    · rw [List.length_eq_zero_iff.mp hn]
      exact hs
    · rw [busKve_write_eq hn hb]
      obtain ⟨hi, hd⟩ := @writeBuffer_static _ bus data (kvePartitionStart + a) s
      exact ⟨hi.trans hs.1, hd.trans hs.2⟩
  write_view := by
    intro s a data hs hb
    by_cases hn : data.length = 0
    · rw [List.length_eq_zero_iff.mp hn, Bytes.write_nil]
      rfl
    · have hlow := @partitionStart_mod a (by omega)
      rw [busKve_write_eq hn hb, writeBuffer_mem hA E hs.2 (Nat.pos_of_ne_zero hn)
        (by unfold kvePartitionStart eepromSize; omega) (by rw [hlow]; exact hb), hlow]
  flush_ok h := h
  flush_view _ := rfl

end

/-! ### The configuration block -/

namespace Configblock

section
variable {σ τ : Type}

/-- The state with another driver state. -/
def ConfigState.map (f : σ → τ) (s : ConfigState σ) : ConfigState τ :=
  ⟨s.configblock, s.configblockDefault, s.isInit, s.cbOk, f s.eeprom⟩

/-- The second driver does what the first one does, over an image of its states. -/
structure EepromDriver.Maps (f : σ → τ) (drv : EepromDriver σ) (drv' : EepromDriver τ) : Prop where
  init : ∀ e, drv'.init (f e) = f (drv.init e)
  testConnection : ∀ e, drv'.testConnection (f e) = (drv.testConnection e).map id f
  readBuffer : ∀ a len e, drv'.readBuffer a len (f e) = (drv.readBuffer a len e).map id f
  writeBuffer : ∀ b a e, drv'.writeBuffer b a (f e) = (drv.writeBuffer b a e).map id f

variable {f : σ → τ} {drv : EepromDriver σ} {drv' : EepromDriver τ}
  (H : EepromDriver.Maps f drv drv')
include H

theorem configblockVerify_map (s : ConfigState σ) :
    configblockVerify drv' (s.map f) = (configblockVerify drv s).map f := by
  unfold configblockVerify ConfigState.map
  dsimp only
  by_cases hmagic : configblockCheckMagic s.configblock = true
  · by_cases hversion : configblockCheckVersion s.configblock = true
    · simp only [hmagic, hversion, ↓reduceIte]
    · by_cases hup : (byteAt s.configblock 4).toNat ≤ version ∧
        configblockCheckDataIntegrity s.configblock (byteAt s.configblock 4).toNat = true
      · simp only [hmagic, hversion, hup, Bool.false_eq_true, ↓reduceIte, and_self]
        cases configblockCopyToNewVersion s.configblock s.configblockDefault with
        | none => rfl
        | some new =>
            simp only [configblockWrite, H.writeBuffer]
            rfl
      · simp only [hmagic, hversion, hup, Bool.false_eq_true, ↓reduceIte]
  · simp only [hmagic, Bool.false_eq_true, ↓reduceIte]

theorem configblockUseDefault_map (s : ConfigState σ) :
    configblockUseDefault drv' (s.map f) = (configblockUseDefault drv s).map id (.map f) := by
  unfold configblockUseDefault ConfigState.map configblockWrite
  simp only [H.writeBuffer]
  by_cases hok : s.cbOk = false
  · by_cases hw : (drv.writeBuffer (setCksum s.configblockDefault) 0 s.eeprom).1 = true
    · simp [hok, hw]
    · simp [hok, hw]
  · simp [hok]

/-- `configblockInit` depends on what the driver does only. -/
theorem configblockInit_map (s : ConfigState σ) :
    configblockInit drv' (s.map f) = (configblockInit drv s).map id (.map f) := by
  have hverify := configblockVerify_map H
  have huse := configblockUseDefault_map H
  unfold configblockInit
  by_cases hi : s.isInit = true
  · simp [hi, ConfigState.map]
  · have hi' : ¬ (s.map f).isInit = true := hi
    rw [if_neg hi, if_neg hi']
    dsimp only [ConfigState.map]
    simp only [H.init, H.testConnection, H.readBuffer, Prod.map_fst, Prod.map_snd, id_eq]
    split
    · split
      · rw [← huse, ← hverify]
        rfl
      · rw [← huse]
        rfl
    · rw [← huse]
      rfl

end

section
variable {β : Type} {bus : I2cBus β}

theorem ready_testConnection {e : EepromState β} (h : e.Ready) :
    (eepromTestConnection bus e).2.Ready :=
  ⟨(testConnection_static e).1.trans h.1, (testConnection_static e).2.trans h.2⟩

theorem ready_readBuffer {e : EepromState β} (h : e.Ready) (a len : ℕ) :
    (eepromReadBuffer bus a len e).2.Ready :=
  ⟨(readBuffer_static a len e).1.trans h.1, (readBuffer_static a len e).2.trans h.2⟩

theorem ready_writeBuffer {e : EepromState β} (h : e.Ready) (buffer : List UInt8) (a : ℕ) :
    (eepromWriteBuffer bus buffer a e).2.Ready :=
  ⟨(writeBuffer_static buffer a e).1.trans h.1, (writeBuffer_static buffer a e).2.trans h.2⟩

/-- The driver from `eepromInit` on. -/
def readyDriver (bus : I2cBus β) : EepromDriver {e : EepromState β // e.Ready} where
  init e := e
  testConnection e :=
    ((eepromTestConnection bus e.1).1, ⟨(eepromTestConnection bus e.1).2, ready_testConnection e.2⟩)
  readBuffer a len e :=
    ((eepromReadBuffer bus a len e.1).1,
      ⟨(eepromReadBuffer bus a len e.1).2, ready_readBuffer e.2 a len⟩)
  writeBuffer b a e :=
    ((eepromWriteBuffer bus b a e.1).1,
      ⟨(eepromWriteBuffer bus b a e.1).2, ready_writeBuffer e.2 b a⟩)

theorem readyDriver_maps : EepromDriver.Maps Subtype.val (readyDriver bus) (eepromDriver bus) where
  init e := by
    change (eepromInit e.1).2 = e.1
    unfold eepromInit
    rw [if_pos e.2.1]
  testConnection _ := rfl
  readBuffer _ _ _ := rfl
  writeBuffer _ _ _ := rfl

/-- **The block on the bus.** -/
def readyAccess (hA : bus.Answers) (E : EepromOnBus bus) : BlockAccess (readyDriver bus) where
  mem e := E.mem e.1.bus
  init_mem _ := rfl
  test_mem e := testConnection_mem E e.2.2
  connected e := testConnection_answers hA (ready_testConnection e.2).1 (ready_testConnection e.2).2
  read_block e := readBuffer_answers hA E e.2.2 (by decide)
  read_mem e := readBuffer_mem E _ _ e.2.2
  write_ok e b hb := writeBuffer_answers hA e.2.2 (by simp [hb, sizeofConfigblock])
    (by simp [hb, sizeofConfigblock, eepromSize])
  write_mem e b hb := writeBuffer_mem hA E e.2.2 (by simp [hb, sizeofConfigblock])
    (by simp [hb, sizeofConfigblock, eepromSize]) (by simp [hb, sizeofConfigblock])

instance (b : List UInt8) : Decidable (GoodBlock b) :=
  inferInstanceAs (Decidable (_ ∧ _ ∧ _))

instance (b : List UInt8) : Decidable (GoodOldBlock b) :=
  inferInstanceAs (Decidable (_ ∧ _ ∧ _))

/-- The block in the EEPROM after `configblockInit`: the one found there, its upgrade, or the
default one. -/
def blockLeft (datarate : UInt8) (found : List UInt8) : List UInt8 :=
  if GoodBlock found then found
  else if GoodOldBlock found then
    setCksum (copyBytes (configblockDefault datarate) found 5 10)
  else setCksum (configblockDefault datarate)

variable (datarate : UInt8)

theorem length_blockLeft {found : List UInt8} (h : found.length = 21) :
    (blockLeft datarate found).length = 21 := by
  unfold blockLeft
  split
  · exact h
  · split
    · exact length_setCksum (length_upgrade h datarate)
    · exact length_setCksum (length_default datarate)

theorem goodBlock_blockLeft {found : List UInt8} (h : found.length = 21) :
    GoodBlock (blockLeft datarate found) := by
  unfold blockLeft
  split
  · rename_i hgood
    exact hgood
  · split
    · exact goodBlock_upgrade h datarate
    · exact goodBlock_default datarate

/-- The block that is in the memory then. -/
theorem slice_blockLeft (m : Bytes) :
    (m.write 0 (blockLeft datarate (m.slice 0 sizeofConfigblock))).slice 0 sizeofConfigblock =
      blockLeft datarate (m.slice 0 sizeofConfigblock) := by
  have hself := Bytes.slice_write_self m 0 (blockLeft datarate (m.slice 0 sizeofConfigblock))
  rwa [show (blockLeft datarate (m.slice 0 sizeofConfigblock)).length = sizeofConfigblock from
    length_blockLeft datarate (Bytes.slice_length m 0 21)] at hself

theorem initLeaves_blockLeft {σ : Type} {drv : EepromDriver σ} (A : BlockAccess drv) (e : σ) :
    InitLeaves A datarate e ((A.mem e).write 0
      (blockLeft datarate ((A.mem e).slice 0 sizeofConfigblock))) := by
  unfold blockLeft
  split
  · rename_i hgood
    rw [Bytes.write_slice_self]
    exact initLeaves_good A datarate hgood
  · rename_i hgood
    split
    · rename_i hold
      exact initLeaves_old A datarate hold
    · rename_i hold
      exact initLeaves_default A datarate hgood hold

/-- At boot `configblockInit` sets the driver up, whatever its variables hold. -/
theorem configblockInit_ready {e : EepromState β} (he : e.isInit = false) :
    configblockInit (eepromDriver bus) (ConfigState.boot datarate e) =
      configblockInit (eepromDriver bus) (ConfigState.boot datarate
        { e with isInit := true, devAddr := eepromI2cAddr }) := by
  have hinit : (eepromDriver bus).init e = (eepromDriver bus).init
      { e with isInit := true, devAddr := eepromI2cAddr } := by
    simp [eepromDriver, eepromInit, he]
  unfold configblockInit ConfigState.boot
  rw [if_neg Bool.false_ne_true, if_neg Bool.false_ne_true]
  dsimp only
  rw [hinit]

/-- **The configuration block at boot.** -/
theorem configblockInit_bus (hA : bus.Answers) (E : EepromOnBus bus) {e : EepromState β}
    (he : e.isInit = false) :
    ∃ s', configblockInit (eepromDriver bus) (ConfigState.boot datarate e) = (0, s') ∧
      s'.eeprom.Ready ∧
      E.mem s'.eeprom.bus = (E.mem e.bus).write 0
        (blockLeft datarate ((E.mem e.bus).slice 0 sizeofConfigblock)) ∧
      GettersReturn datarate s' (ConfigFields.ofBlock
        (blockLeft datarate ((E.mem e.bus).slice 0 sizeofConfigblock))) := by
  let ready : {e : EepromState β // e.Ready} :=
    ⟨{ e with isInit := true, devAddr := eepromI2cAddr }, rfl, rfl⟩
  obtain ⟨s', hrun, hok, hmem, hfields⟩ := initLeaves_blockLeft datarate (readyAccess hA E) ready
  refine ⟨s'.map Subtype.val, ?_, s'.eeprom.2, hmem, ?_⟩
  · have hmap := configblockInit_map (@readyDriver_maps _ bus) (ConfigState.boot datarate ready)
    rw [hrun] at hmap
    exact (configblockInit_ready datarate he).trans hmap
  · have hget := @gettersReturn_of_cbOk _ datarate (s'.map Subtype.val) hok
    rw [← slice_blockLeft]
    exact hfields ▸ hget

end

end Configblock

end NanoDrone
