import NanoDrone.Eeprom.Eeprom
import NanoDrone.Eeprom.TwimTransfer

/-! # The EEPROM behind the I2C driver

`i2cdevInit.c` and `eeprom.c` stand on a bus (`I2cBus`), of which `EepromOnBus` says what they may
rely on.  `twimBus` makes this bus of the driver: a burst write hands it the register address and
the data, which belong together, and a burst read the address and then, after a restart, what is
read.  `twimEeprom` shows that it is as it should be when the EEPROM is on the wire.

A burst write needs the concatenation buffer, and the default size of that is zero.
`eepromWriteBuffer_twim_iff` says which writes of `eeprom.c` a buffer is large enough for. -/

namespace NanoDrone.Twim

/-- Where callers have a register address; their data is behind it. -/
def Config.caller (c : Config) : ℕ := c.msgBuf + c.msgBufSize + 1

def addressMsg (c : Config) : I2cMsg := ⟨c.caller, 1, false, false, false, false⟩

def dataMsg (c : Config) (len : ℕ) : I2cMsg := ⟨c.caller + 1, len, false, true, false, false⟩

def readMsg (c : Config) (len : ℕ) : I2cMsg := ⟨c.caller + 1, len, true, true, true, false⟩

section
variable {β : Type} (c : Config) (t : Peripheral β)

def call (dev : ℕ) (msgs : List I2cMsg) (s : TwimState β) : Ret × TwimState β :=
  (transfer c t dev msgs s).getD (.eio, s)

/-- Zephyr's calls on the driver.  A register address is a `uint8_t`, and a buffer has less than
`2 ^ 31` bytes. -/
def twimBus : I2cBus (TwimState β) where
  burstRead dev start len s :=
    if start < 256 ∧ len < 2 ^ 31 then
      let r := call c t dev [addressMsg c, readMsg c len]
        ⟨s.memory.write c.caller [UInt8.ofNat start], s.bus⟩
      (if r.1 = .ok then some (r.2.memory.slice (c.caller + 1) len) else none, r.2)
    else (none, s)
  burstWrite dev start data s :=
    if start < 256 ∧ data.length < 2 ^ 31 then
      let r := call c t dev [addressMsg c, dataMsg c data.length]
        ⟨s.memory.write c.caller (UInt8.ofNat start :: data), s.bus⟩
      (r.1 = .ok, r.2)
    else (false, s)
  write dev data s :=
    if data.length < 2 ^ 31 then
      let r := call c t dev [dataMsg c data.length] ⟨s.memory.write (c.caller + 1) data, s.bus⟩
      (r.1 = .ok, r.2)
    else (false, s)

end

/-- The sizes are those of a device, and what lies behind the buffer is RAM. -/
structure Config.Sound (c : Config) : Prop where
  concat : c.concatBufSize < 2 ^ 16
  flash : c.flashBufMaxSize < 2 ^ 16
  ram : ∀ i, c.msgBuf + c.msgBufSize ≤ i → c.nrfxIsInRam i = true

/-- The EEPROM answers on the wire: a write begins with an internal address, where the next read
begins, and then has the data of one page. -/
structure EepromOnWire {β : Type} (t : Peripheral β) where
  mem : β → Bytes
  pointer : β → ℕ
  complete : t.Complete
  write_done : ∀ {s : β} {b : UInt8} {data : List UInt8} {stop : Bool},
    InPage b.toNat data.length →
    (t.xfer ⟨eepromI2cAddr, false, b :: data, data.length + 1, stop⟩ s).1.1 = .done →
    mem (t.xfer ⟨eepromI2cAddr, false, b :: data, data.length + 1, stop⟩ s).2 =
      (mem s).write b.toNat data
  write_failed : ∀ {s : β} {b : UInt8} {data : List UInt8} {stop : Bool},
    InPage b.toNat data.length →
    (t.xfer ⟨eepromI2cAddr, false, b :: data, data.length + 1, stop⟩ s).1.1 ≠ .done →
    ∀ i, i < b.toNat ∨ b.toNat + data.length ≤ i →
      mem (t.xfer ⟨eepromI2cAddr, false, b :: data, data.length + 1, stop⟩ s).2 i = mem s i
  address_done : ∀ {s : β} {b : UInt8},
    (t.xfer ⟨eepromI2cAddr, false, [b], 1, false⟩ s).1.1 = .done →
    pointer (t.xfer ⟨eepromI2cAddr, false, [b], 1, false⟩ s).2 = b.toNat
  read_done : ∀ {s : β} {len : ℕ} {stop : Bool},
    (t.xfer ⟨eepromI2cAddr, true, [], len, stop⟩ s).1.1 = .done →
    (t.xfer ⟨eepromI2cAddr, true, [], len, stop⟩ s).1.2 = (mem s).slice (pointer s) len
  read_mem : ∀ (s : β) (len : ℕ) (stop : Bool),
    mem (t.xfer ⟨eepromI2cAddr, true, [], len, stop⟩ s).2 = mem s

/-! ### The calls on the wire -/

section
variable {β : Type} {c : Config} {t : Peripheral β} {dev : ℕ}

theorem Status.ret_ok_iff (s : Status) : s.ret = .ok ↔ s = .done := by
  cases s <;> simp [Status.ret]

theorem carryAll_singleton {g : List I2cMsg} {last : I2cMsg} (hlast : g.getLast? = some last)
    (s : TwimState β) : carryAll c t dev [g] s = carry c t dev g last s := by
  rw [carryAll_cons hlast]
  split
  · rename_i hok
    exact Prod.ext hok.symm rfl
  · rfl

theorem call_eq (hc : c.Sound) (ht : t.Complete) {msgs : List I2cMsg}
    (hmsgs : ∀ m ∈ msgs, m.Valid c) (hguard : Guarded 0 (groups msgs)) (s : TwimState β) :
    ∃ memory, Same c (carryAll c t dev (groups msgs) s).2.memory memory ∧
      call c t dev msgs s = ((carryAll c t dev (groups msgs) s).1,
        ⟨memory, (carryAll c t dev (groups msgs) s).2.bus⟩) := by
  obtain ⟨memory, hsame, heq⟩ := @transferLoop_groups _ c t dev _ ht hc.concat hc.flash
    (valid_groups hmsgs) (grouped_groups msgs) [] hguard _ _ (Same.refl s.memory) s.bus
  rw [flatten_groups] at heq
  refine ⟨memory, hsame, ?_⟩
  unfold call transfer
  rw [heq]
  rfl

/-- What a caller has is behind the buffer. -/
theorem valid_behind {m : I2cMsg} (hbuf : c.caller ≤ m.buf) (hlen : m.len < 2 ^ 31)
    (haddr : m.addr10Bits = false) : m.Valid c := by
  unfold Config.caller at hbuf
  exact ⟨hlen, .inr (by omega), by omega, haddr⟩

theorem addressMsg_valid (c : Config) : (addressMsg c).Valid c :=
  valid_behind (Nat.le_refl _) (Nat.one_lt_two_pow (by decide)) rfl

theorem dataMsg_valid {len : ℕ} (hlen : len < 2 ^ 31) : (dataMsg c len).Valid c :=
  valid_behind (Nat.le_succ _) hlen rfl

theorem readMsg_valid {len : ℕ} (hlen : len < 2 ^ 31) : (readMsg c len).Valid c :=
  valid_behind (Nat.le_succ _) hlen rfl

theorem caller_ram (hc : c.Sound) (i : ℕ) : c.nrfxIsInRam (c.caller + i) = true := by
  apply hc.ram
  unfold Config.caller
  omega

/-- A message in RAM that is sent alone. -/
theorem carry_sent {m : I2cMsg} (hread : m.read = false) (hram : c.nrfxIsInRam m.buf = true)
    (s : TwimState β) :
    carry c t dev ([] ++ [m]) m s =
      let r := t.xfer ⟨dev, false, m.data s.memory, m.len, m.stop⟩ s.bus
      (r.1.1.ret, ⟨s.memory, r.2⟩) := by
  have hflash : ¬ (m.read = false ∧ c.nrfxIsInRam m.buf = false ∧ m.len > c.flashBufMaxSize) :=
    fun h => absurd (hram.symm.trans h.2.1) (by decide)
  rw [carry_unbuffered total_nil, if_neg hflash]
  simp only [hread, Bool.false_eq_true, ↓reduceIte]

/-- A message that is received alone. -/
theorem carry_received {m : I2cMsg} (hread : m.read = true) (s : TwimState β) :
    carry c t dev ([] ++ [m]) m s =
      let r := t.xfer ⟨dev, true, [], m.len, m.stop⟩ s.bus
      (r.1.1.ret, ⟨s.memory.write m.buf (r.1.2.take m.len), r.2⟩) := by
  have hflash : ¬ (m.read = false ∧ c.nrfxIsInRam m.buf = false ∧ m.len > c.flashBufMaxSize) :=
    fun h => absurd (hread.symm.trans h.1) (by decide)
  rw [carry_unbuffered total_nil, if_neg hflash]
  simp only [hread, ↓reduceIte]

/-- A burst write is one transfer of the address and the data, if there is room for them. -/
theorem burstWrite_eq (dev : ℕ) (hc : c.Sound) (ht : t.Complete) {start : ℕ} {data : List UInt8}
    (hstart : start < 256) (hlen : data.length < 2 ^ 31) (s : TwimState β) :
    ∃ memory, (twimBus c t).burstWrite dev start data s =
      if data.length + 1 > c.concatBufSize then (false, ⟨memory, s.bus⟩)
      else
        let r := t.xfer ⟨dev, false, UInt8.ofNat start :: data, data.length + 1, true⟩ s.bus
        (r.1.1 = .done, ⟨memory, r.2⟩) := by
  have hvalid : ∀ m ∈ [addressMsg c, dataMsg c data.length], m.Valid c :=
    List.forall_mem_cons.mpr ⟨addressMsg_valid c, List.forall_mem_singleton.mpr (dataMsg_valid hlen)⟩
  have hgroups : groups [addressMsg c, dataMsg c data.length] =
      [[addressMsg c] ++ [dataMsg c data.length]] := rfl
  have hguard : Guarded 0 (groups [addressMsg c, dataMsg c data.length]) := by
    rw [hgroups]
    refine ⟨?_, trivial⟩
    rintro ⟨m, hm, hread⟩
    rw [List.mem_append, List.mem_singleton, List.mem_singleton] at hm
    rcases hm with rfl | rfl <;> cases hread
  obtain ⟨memory, -, heq⟩ := @call_eq _ c t dev hc ht _ hvalid hguard
    ⟨s.memory.write c.caller (UInt8.ofNat start :: data), s.bus⟩
  have hpos : total [addressMsg c] ≠ 0 := Nat.one_ne_zero
  have htotal : total ([addressMsg c] ++ [dataMsg c data.length]) = data.length + 1 :=
    Nat.add_comm 1 data.length
  have hgather : gather ([addressMsg c] ++ [dataMsg c data.length])
      (s.memory.write c.caller (UInt8.ofNat start :: data)) = UInt8.ofNat start :: data := by
    rw [gather_append, gather_singleton, gather_singleton]
    have hself := Bytes.slice_write_self s.memory c.caller (UInt8.ofNat start :: data)
    rw [List.length_cons, Nat.add_comm, Bytes.slice_append] at hself
    exact hself
  refine ⟨memory, ?_⟩
  unfold twimBus
  dsimp only
  rw [if_pos ⟨hstart, hlen⟩, heq, hgroups, carryAll_singleton List.getLast?_concat,
    carry_buffered hpos, htotal, hgather]
  by_cases hroom : data.length + 1 > c.concatBufSize
  · simp only [if_pos hroom]
    rfl
  · simp only [if_neg hroom, Status.ret_ok_iff]
    rfl

/-- A bare write is one transfer. -/
theorem write_eq (dev : ℕ) (hc : c.Sound) (ht : t.Complete) {data : List UInt8}
    (hlen : data.length < 2 ^ 31) (s : TwimState β) :
    ∃ memory, (twimBus c t).write dev data s =
      (decide ((t.xfer ⟨dev, false, data, data.length, true⟩ s.bus).1.1 = .done),
        ⟨memory, (t.xfer ⟨dev, false, data, data.length, true⟩ s.bus).2⟩) := by
  have hvalid : ∀ m ∈ [dataMsg c data.length], m.Valid c :=
    List.forall_mem_singleton.mpr (dataMsg_valid hlen)
  have hguard : Guarded 0 (groups [dataMsg c data.length]) :=
    ⟨fun _ hbuf => absurd rfl hbuf, trivial⟩
  obtain ⟨memory, -, heq⟩ := @call_eq _ c t dev hc ht _ hvalid hguard
    ⟨s.memory.write (c.caller + 1) data, s.bus⟩
  have hgroups : groups [dataMsg c data.length] = [[] ++ [dataMsg c data.length]] := rfl
  have hdata : (dataMsg c data.length).data (s.memory.write (c.caller + 1) data) = data :=
    Bytes.slice_write_self _ _ _
  refine ⟨memory, ?_⟩
  unfold twimBus
  dsimp only
  rw [if_pos hlen, heq, hgroups, carryAll_singleton List.getLast?_concat,
    carry_sent rfl (caller_ram hc 1)]
  simp only [hdata, Status.ret_ok_iff]
  rfl

/-- A burst read is a transfer of the address, and then one of what is read. -/
theorem burstRead_eq (dev : ℕ) (hc : c.Sound) (ht : t.Complete) {start len : ℕ}
    (hstart : start < 256) (hlen : len < 2 ^ 31) (s : TwimState β) :
    let r := t.xfer ⟨dev, false, [UInt8.ofNat start], 1, false⟩ s.bus
    let q := t.xfer ⟨dev, true, [], len, true⟩ r.2
    ∃ memory, (twimBus c t).burstRead dev start len s =
      if r.1.1 = .done then (if q.1.1 = .done then some q.1.2 else none, ⟨memory, q.2⟩)
      else (none, ⟨memory, r.2⟩) := by
  intro r q
  have hvalid : ∀ m ∈ [addressMsg c, readMsg c len], m.Valid c :=
    List.forall_mem_cons.mpr ⟨addressMsg_valid c, List.forall_mem_singleton.mpr (readMsg_valid hlen)⟩
  have hgroups : groups [addressMsg c, readMsg c len] =
      [[] ++ [addressMsg c], [] ++ [readMsg c len]] := rfl
  have hguard : Guarded 0 (groups [addressMsg c, readMsg c len]) :=
    ⟨fun _ hbuf => absurd rfl hbuf, fun _ hbuf => absurd rfl hbuf, trivial⟩
  have haddress : (addressMsg c).data (s.memory.write c.caller [UInt8.ofNat start]) =
      [UInt8.ofNat start] := Bytes.slice_write_self _ _ _
  have hfirst : carry c t dev ([] ++ [addressMsg c]) (addressMsg c)
      ⟨s.memory.write c.caller [UInt8.ofNat start], s.bus⟩ =
        (r.1.1.ret, ⟨s.memory.write c.caller [UInt8.ofNat start], r.2⟩) := by
    rw [carry_sent rfl (caller_ram hc 0), haddress]
    rfl
  have hsecond : carry c t dev ([] ++ [readMsg c len]) (readMsg c len)
      ⟨s.memory.write c.caller [UInt8.ofNat start], r.2⟩ =
        (q.1.1.ret, ⟨(s.memory.write c.caller [UInt8.ofNat start]).write (c.caller + 1)
          (q.1.2.take len), q.2⟩) := carry_received rfl _
  obtain ⟨memory, hsame, heq⟩ := @call_eq _ c t dev hc ht _ hvalid hguard
    ⟨s.memory.write c.caller [UInt8.ofNat start], s.bus⟩
  rw [hgroups, carryAll_cons List.getLast?_concat, carryAll_singleton List.getLast?_concat,
    hfirst] at heq hsame
  refine ⟨memory, ?_⟩
  unfold twimBus
  dsimp only
  rw [if_pos ⟨hstart, hlen⟩, heq]
  by_cases hr : r.1.1 = .done
  · have hok : r.1.1.ret = .ok := (Status.ret_ok_iff _).mpr hr
    rw [if_pos hr]
    rw [if_pos hok, hsecond] at hsame ⊢
    simp only [Status.ret_ok_iff]
    by_cases hq : q.1.1 = .done
    · have hlength : q.1.2.length = len := ht _ _ rfl hq
      have hread : memory.slice (c.caller + 1) len = q.1.2 := by
        have hdata := hsame.data (@readMsg_valid c _ hlen)
        have hself := Bytes.slice_write_self (s.memory.write c.caller [UInt8.ofNat start])
          (c.caller + 1) q.1.2
        rw [hlength] at hself
        rw [List.take_of_length_le hlength.le] at hdata
        exact hdata.symm.trans hself
      rw [if_pos hq, if_pos hq, hread]
    · rw [if_neg hq, if_neg hq]
  · have hok : r.1.1.ret ≠ .ok := fun h => hr ((Status.ret_ok_iff _).mp h)
    rw [if_neg hr, if_neg hok, if_neg hok]

/-! ### The EEPROM on the bus -/

theorem toNat_ofNat_start {start : ℕ} (hstart : start < 256) : (UInt8.ofNat start).toNat = start :=
  UInt8.toNat_ofNat_of_lt' hstart

/-- An internal address alone writes nothing. -/
theorem EepromOnWire.address_mem (W : EepromOnWire t) (s : β) (b : UInt8) (stop : Bool) :
    W.mem (t.xfer ⟨eepromI2cAddr, false, [b], 1, stop⟩ s).2 = W.mem s := by
  have hpage : InPage b.toNat ([] : List UInt8).length := by
    unfold InPage
    rw [List.length_nil]
    omega
  by_cases hdone : (t.xfer ⟨eepromI2cAddr, false, [b], 1, stop⟩ s).1.1 = .done
  · exact (W.write_done hpage hdone).trans (Bytes.write_nil _ _)
  · funext i
    exact W.write_failed hpage hdone i (Nat.lt_or_ge i b.toNat)

/-- **The driver is the bus that the EEPROM needs.** -/
def twimEeprom (hc : c.Sound) (W : EepromOnWire t) : EepromOnBus (twimBus c t) where
  mem s := W.mem s.bus
  read_data := by
    intro s s' start len d h
    by_cases hin : start < 256 ∧ len < 2 ^ 31
    · obtain ⟨memory, heq⟩ := burstRead_eq eepromI2cAddr hc W.complete hin.1 hin.2 s
      rw [heq] at h
      split at h
      · rename_i hr
        split at h
        · rename_i hq
          obtain ⟨hd, -⟩ := Prod.mk.inj h
          rw [← Option.some.inj hd, W.read_done hq, W.address_done hr, W.address_mem,
            toNat_ofNat_start hin.1]
        · cases h
      · cases h
    · simp only [twimBus, if_neg hin] at h
      cases h
  read_mem := by
    intro s start len
    by_cases hin : start < 256 ∧ len < 2 ^ 31
    · obtain ⟨memory, heq⟩ := burstRead_eq eepromI2cAddr hc W.complete hin.1 hin.2 s
      rw [heq]
      split
      · exact (W.read_mem _ _ _).trans (W.address_mem _ _ _)
      · exact W.address_mem _ _ _
    · simp only [twimBus, if_neg hin]
  write_data := by
    intro s s' start data hpage h
    by_cases hin : start < 256 ∧ data.length < 2 ^ 31
    · obtain ⟨memory, heq⟩ := burstWrite_eq eepromI2cAddr hc W.complete hin.1 hin.2 s
      rw [heq] at h
      have hstart := toNat_ofNat_start hin.1
      rw [← hstart] at hpage
      split at h
      · cases h
      · obtain ⟨hdone, rfl⟩ := Prod.mk.inj h
        have hwritten := W.write_done hpage (of_decide_eq_true hdone)
        rwa [hstart] at hwritten
    · simp only [twimBus, if_neg hin] at h
      cases h
  write_fail := by
    intro s s' start data hpage h i hi
    by_cases hin : start < 256 ∧ data.length < 2 ^ 31
    · obtain ⟨memory, heq⟩ := burstWrite_eq eepromI2cAddr hc W.complete hin.1 hin.2 s
      rw [heq] at h
      have hstart := toNat_ofNat_start hin.1
      rw [← hstart] at hpage hi
      split at h
      · cases h
        rfl
      · obtain ⟨hdone, rfl⟩ := Prod.mk.inj h
        exact W.write_failed hpage (of_decide_eq_false hdone) i hi
    · simp only [twimBus, if_neg hin] at h
      cases h
      rfl
  poll_mem := by
    intro s b
    have hlen : [b].length < 2 ^ 31 := Nat.one_lt_two_pow (by decide)
    obtain ⟨memory, heq⟩ := write_eq eepromI2cAddr hc W.complete hlen s
    rw [heq]
    exact W.address_mem _ _ _

/-! ### Writes of `eeprom.c` -/

/-- Number of bytes that a write of `len` bytes at `a` has for page `p`. -/
def pageBytes (a len p : ℕ) : ℕ := min (a + len) (32 * p + 32) - max a (32 * p)

/-- A page ends at a page border, or all bytes are in it. -/
theorem fillPage_full {left : List UInt8} {a : ℕ} (ha : a + left.length < 65536)
    (hl : 0 < left.length) :
    (fillPage left a).2.1 = [] ∨ (a + (fillPage left a).1.length) % 32 = 0 := by
  induction left generalizing a with
  | nil => exact absurd hl (Nat.lt_irrefl 0)
  | cons x left ih =>
      rw [List.length_cons] at ha
      have hnext : (a + 1) % 65536 = a + 1 := Nat.mod_eq_of_lt (by omega)
      unfold fillPage
      simp only [hnext]
      split
      · rename_i hmore
        rcases ih (a := a + 1) (by omega) hmore.1 with hrest | hborder
        · exact .inl hrest
        · refine .inr ?_
          rw [List.length_cons]
          omega
      · rename_i hend
        by_cases hleft : left.length = 0
        · exact .inl (List.length_eq_zero_iff.mp hleft)
        · refine .inr ?_
          rw [List.length_singleton]
          omega

/-- A loop of tries that all end alike. -/
theorem retryLoop_const {σ : Type} {access : σ → Bool × σ} {ok : Bool}
    (h : ∀ s, (access s).1 = ok) (tries : ℕ) (status : Bool) (s : σ) :
    (retryLoop access (tries + 1) status s).1 = ok := by
  induction tries generalizing status s with
  | zero =>
      unfold retryLoop
      dsimp only
      split
      · exact h s
      · exact h s
  | succ tries ih =>
      unfold retryLoop
      dsimp only
      split
      · exact h s
      · exact ih _ _

/-- A page is written, however often it is tried, if the buffer has room for it. -/
theorem writePage_twim (hc : c.Sound) (ht : t.Complete) (hdone : t.Reliable) {a : ℕ}
    {page : List UInt8} (hpage : InPage a page.length) (status : Bool) (s : TwimState β) :
    (retryLoop (i2cdevWrite16 (twimBus c t) eepromI2cAddr a page) 10 status s).1 =
      decide (page.length < c.concatBufSize) := by
  apply retryLoop_const
  intro s
  have hlen : page.length < 2 ^ 31 := by
    unfold InPage at hpage
    omega
  obtain ⟨memory, heq⟩ := burstWrite_eq eepromI2cAddr hc ht
    (Nat.mod_lt a (by decide : 0 < 256)) hlen s
  unfold i2cdevWrite16 i2cdevWriteReg16
  rw [heq]
  by_cases hroom : page.length < c.concatBufSize
  · rw [if_neg (by omega), decide_eq_true hroom]
    exact decide_eq_true (hdone _ _)
  · rw [if_pos (by omega), decide_eq_false hroom]

theorem pollPage_twim (hc : c.Sound) (ht : t.Complete) (hdone : t.Reliable) (dummy : UInt8)
    (status : Bool) (s : TwimState β) :
    (retryLoop (i2cdevWrite (twimBus c t) eepromI2cAddr [dummy]) 30 status s).1 = true := by
  apply retryLoop_const
  intro s
  have hlen : [dummy].length < 2 ^ 31 := Nat.one_lt_two_pow (by decide)
  obtain ⟨memory, heq⟩ := write_eq eepromI2cAddr hc ht hlen s
  unfold i2cdevWrite
  rw [heq]
  exact decide_eq_true (hdone _ _)

/-- The pages after the first one are those of the rest. -/
theorem pageBytes_split {a n m : ℕ} (hpos : 0 < n) (hpage : InPage a n)
    (hfull : m = 0 ∨ (a + n) % 32 = 0) (room : ℕ) :
    (∀ p, pageBytes a (n + m) p ≤ room) ↔
      n ≤ room ∧ ∀ p, pageBytes (a + n) m p ≤ room := by
  unfold InPage at hpage
  unfold pageBytes
  constructor
  · intro h
    refine ⟨?_, fun p => ?_⟩
    · have := h (a / 32)
      omega
    · have := h p
      omega
  · rintro ⟨hn, hrest⟩ p
    have := hrest p
    omega

theorem writePages_twim_iff (hc : c.Sound) (ht : t.Complete) (hdone : t.Reliable) (dummy : UInt8)
    {fuel : ℕ} {left : List UInt8} {a : ℕ} (ha : a + left.length < 65536)
    (hf : left.length ≤ fuel) (hl : 0 < left.length) (status : Bool) (s : TwimState β) :
    (writePages (twimBus c t) eepromI2cAddr dummy fuel left a status s).1 = true ↔
      ∀ p, pageBytes a left.length p ≤ c.concatBufSize - 1 := by
  induction fuel generalizing left a status s with
  | zero => exact absurd hl (Nat.not_lt.mpr hf)
  | succ fuel ih =>
      obtain ⟨hsplit, hpos, hnext, hpage⟩ := fillPage_spec ha hl
      have hfull := fillPage_full ha hl
      have hw := writePage_twim hc ht hdone hpage
      have hround : writePages (twimBus c t) eepromI2cAddr dummy (fuel + 1) left a status s = _ :=
        if_pos hl
      rw [hround]
      dsimp only
      rw [hnext, hw]
      generalize (fillPage left a).1 = page at *
      generalize (fillPage left a).2.1 = rest at *
      have hlen : left.length = page.length + rest.length := by
        rw [← hsplit, List.length_append]
      rw [hlen, pageBytes_split hpos hpage (hfull.imp_left List.length_eq_zero_iff.mpr)]
      by_cases hroom : page.length < c.concatBufSize
      · have hfits : page.length ≤ c.concatBufSize - 1 := by omega
        rw [decide_eq_true hroom, if_neg (by decide), pollPage_twim hc ht hdone,
          if_neg (by decide), and_iff_right hfits]
        by_cases hrest : 0 < rest.length
        · exact ih (by omega) (by omega) hrest _ _
        · obtain rfl : rest = [] := List.length_eq_zero_iff.mp (by omega)
          rw [writePages_nil]
          refine iff_of_true rfl (fun p => ?_)
          unfold pageBytes
          rw [List.length_nil]
          omega
      · have hfits : ¬ page.length ≤ c.concatBufSize - 1 := by omega
        rw [decide_eq_false hroom, if_pos (by decide)]
        exact iff_of_false Bool.false_ne_true (fun h => hfits h.1)

/-- **What the concatenation buffer is large enough for.**  When no transfer fails, a write of some
bytes through `eeprom.c`, `i2cdevInit.c` and the driver returns true if and only if it is inside the
EEPROM and its bytes for each page, with their address, fit in the buffer; and then they are in the
memory where `eeprom.c` puts them. -/
theorem eepromWriteBuffer_twim_iff (c : Config) (t : Peripheral β) (hc : c.Sound)
    (W : EepromOnWire t) (hdone : t.Reliable) (buffer : List UInt8) (a : ℕ)
    (s : EepromState (TwimState β)) (hs : s.devAddr = eepromI2cAddr) (hl : 0 < buffer.length) :
    ((eepromWriteBuffer (twimBus c t) buffer a s).1 = true ↔
      a + buffer.length ≤ eepromSize ∧
        ∀ p, pageBytes a buffer.length p ≤ c.concatBufSize - 1) ∧
    ((eepromWriteBuffer (twimBus c t) buffer a s).1 = true →
      Aliased (W.mem s.bus.bus) (W.mem (eepromWriteBuffer (twimBus c t) buffer a s).2.bus.bus) a
        buffer) := by
  constructor
  · unfold eepromWriteBuffer
    by_cases hrange : a + buffer.length > eepromSize
    · rw [if_pos hrange]
      exact iff_of_false Bool.false_ne_true (fun h => Nat.not_lt.mpr h.1 hrange)
    · rw [if_neg hrange, and_iff_right (Nat.not_lt.mp hrange), hs]
      have ha : a + buffer.length < 65536 := by
        unfold eepromSize at hrange
        omega
      exact writePages_twim_iff hc W.complete hdone s.dummy ha (Nat.le_refl _) hl s.status s.bus
  · intro htrue
    exact (eepromWriteBuffer_spec (twimEeprom hc W) hs (Prod.ext htrue rfl)).2.2

end

/-- An EEPROM alone on the wire, with its memory and the address of the next read. -/
def eepromWire : Peripheral (Bytes × ℕ) where
  xfer x s :=
    if x.read then ((.done, s.1.slice s.2 x.length), s)
    else match x.sent with
      | [] => ((.done, []), s)
      | b :: data => ((.done, []), (s.1.write b.toNat data, b.toNat))

def eepromOnEepromWire : EepromOnWire eepromWire where
  mem s := s.1
  pointer s := s.2
  complete := by
    intro x s hread _
    simp only [eepromWire, hread, ↓reduceIte]
    exact Bytes.slice_length _ _ _
  write_done _ _ := rfl
  write_failed _ h := absurd rfl h
  address_done _ := rfl
  read_done _ := rfl
  read_mem _ _ _ := rfl

theorem eepromWire_reliable : eepromWire.Reliable := by
  intro x s
  unfold eepromWire
  dsimp only
  split
  · rfl
  · split <;> rfl

/-- Six bytes across a page border, with a buffer of four. -/
theorem eepromWriteBuffer_twim_small :
    ((eepromWriteBuffer (twimBus fourBytes eepromWire) [1, 2, 3, 4, 5, 6] 29
        ⟨true, eepromI2cAddr, ⟨fun _ => 0, (fun _ => 0xff, 0)⟩, false, 0⟩).1 = true ↔
      29 + [1, 2, 3, 4, 5, 6].length ≤ eepromSize ∧
        ∀ p, pageBytes 29 [1, 2, 3, 4, 5, 6].length p ≤ fourBytes.concatBufSize - 1) ∧
    ((eepromWriteBuffer (twimBus fourBytes eepromWire) [1, 2, 3, 4, 5, 6] 29
        ⟨true, eepromI2cAddr, ⟨fun _ => 0, (fun _ => 0xff, 0)⟩, false, 0⟩).1 = true →
      Aliased (fun _ => 0xff) (eepromOnEepromWire.mem
        (eepromWriteBuffer (twimBus fourBytes eepromWire) [1, 2, 3, 4, 5, 6] 29
          ⟨true, eepromI2cAddr, ⟨fun _ => 0, (fun _ => 0xff, 0)⟩, false, 0⟩).2.bus.bus) 29
        [1, 2, 3, 4, 5, 6]) :=
  eepromWriteBuffer_twim_iff fourBytes eepromWire ⟨by decide, by decide, fun _ _ => rfl⟩
    eepromOnEepromWire eepromWire_reliable [1, 2, 3, 4, 5, 6] 29 _ rfl (by decide)

end NanoDrone.Twim
