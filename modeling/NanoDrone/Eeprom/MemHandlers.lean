import NanoDrone.Eeprom.Eeprom
import Mathlib.Algebra.Ring.Nat

/-! # The EEPROM memory handlers (`eeprom.c`)

A client of the memory module sends a 32-bit address and an 8-bit length.  The handlers check their
sum in 32 bits, where it may wrap, and pass the low 16 bits of the address on to `eepromReadBuffer`
or `eepromWriteBuffer`, which check the sum again.  What one check lets through the other stops
(`handleMemRead_eq`, `handleMemWrite_eq`).

The register functions of `i2cdevInit.c` then keep the low byte of the address only, so a request
for a far address is still carried out at a low one.  `memHandlers_exact_iff` says for which
requests this cannot happen. -/

namespace NanoDrone

/-- A transfer on the bus, with the internal address that it sends; a bare write sends none. -/
inductive Transfer where
  | burstRead (devAddress memAddress len : ℕ)
  | burstWrite (devAddress memAddress : ℕ) (data : List UInt8)
  | write (devAddress : ℕ) (data : List UInt8)
deriving DecidableEq, Repr

section
variable {β : Type} (bus : I2cBus β)

/-- The result is true where it is not `none`, and then `buffer` holds the bytes. -/
def handleMemRead (memAddr : UInt32) (readLen : UInt8) (s : EepromState β) :
    Option (List UInt8) × EepromState β :=
  if memAddr + readLen.toUInt32 ≤ UInt32.ofNat eepromSize then
    eepromReadBuffer bus memAddr.toUInt16.toNat readLen.toNat s
  else (none, s)

def handleMemWrite (memAddr : UInt32) (writeLen : UInt8) (buffer : Bytes) (s : EepromState β) :
    Bool × EepromState β :=
  if memAddr + writeLen.toUInt32 ≤ UInt32.ofNat eepromSize then
    eepromWriteBuffer bus (buffer.slice 0 writeLen.toNat) memAddr.toUInt16.toNat s
  else (false, s)

/-! ### The two range checks -/

/-- The check of the handlers passes for what lies in the EEPROM.  A sum that wraps passes it too,
but then the low half of the address lies behind the EEPROM. -/
theorem memCheck_iff (memAddr : UInt32) (len : UInt8) :
    memAddr + len.toUInt32 ≤ UInt32.ofNat eepromSize ↔
      memAddr.toNat + len.toNat ≤ eepromSize ∨
      2 ^ 32 ≤ memAddr.toNat + len.toNat ∧ eepromSize < memAddr.toUInt16.toNat := by
  have ha := memAddr.toNat_lt
  have hl := len.toNat_lt
  have hsize : (UInt32.ofNat eepromSize).toNat = eepromSize := rfl
  rw [UInt32.le_iff_toNat_le, UInt32.toNat_add, UInt8.toNat_toUInt32, UInt32.toNat_toUInt16, hsize]
  unfold eepromSize
  omega

/-- In range the address has no high half. -/
theorem toUInt16_of_le {memAddr : UInt32} {len : UInt8}
    (h : memAddr.toNat + len.toNat ≤ eepromSize) : memAddr.toUInt16.toNat = memAddr.toNat := by
  unfold eepromSize at h
  rw [UInt32.toNat_toUInt16]
  omega

/-- Where the second check refuses by itself what is out of range, nothing wraps or is cut off. -/
theorem memCheck_ite {γ : Type} {f : ℕ → γ} {refused : γ} {len : UInt8}
    (hf : ∀ a, eepromSize < a + len.toNat → f a = refused) (memAddr : UInt32) :
    (if memAddr + len.toUInt32 ≤ UInt32.ofNat eepromSize then f memAddr.toUInt16.toNat
      else refused) = f memAddr.toNat := by
  by_cases hle : memAddr.toNat + len.toNat ≤ eepromSize
  · rw [if_pos ((memCheck_iff memAddr len).mpr (Or.inl hle)), toUInt16_of_le hle]
  · rw [hf memAddr.toNat (Nat.lt_of_not_le hle)]
    split
    · rename_i hcheck
      obtain ⟨-, hfar⟩ := ((memCheck_iff memAddr len).mp hcheck).resolve_left hle
      exact hf _ (by omega)
    · rfl

theorem handleMemRead_eq (memAddr : UInt32) (readLen : UInt8) (s : EepromState β) :
    handleMemRead bus memAddr readLen s =
      eepromReadBuffer bus memAddr.toNat readLen.toNat s := by
  refine memCheck_ite (f := fun a => eepromReadBuffer bus a readLen.toNat s) ?_ memAddr
  intro a ha
  exact if_pos ha

theorem handleMemWrite_eq (memAddr : UInt32) (writeLen : UInt8) (buffer : Bytes)
    (s : EepromState β) :
    handleMemWrite bus memAddr writeLen buffer s =
      eepromWriteBuffer bus (buffer.slice 0 writeLen.toNat) memAddr.toNat s := by
  refine memCheck_ite
    (f := fun a => eepromWriteBuffer bus (buffer.slice 0 writeLen.toNat) a s) ?_ memAddr
  intro a ha
  unfold eepromWriteBuffer
  rw [Bytes.slice_length]
  exact if_pos ha

/-! ### The transfers of a request -/

/-- The bus, with a record of the transfers made over it. -/
def I2cBus.recording : I2cBus (List Transfer × β) where
  burstRead dev start len s :=
    let r := bus.burstRead dev start len s.2
    (r.1, s.1 ++ [.burstRead dev start len], r.2)
  burstWrite dev start data s :=
    let r := bus.burstWrite dev start data s.2
    (r.1, s.1 ++ [.burstWrite dev start data], r.2)
  write dev data s :=
    let r := bus.write dev data s.2
    (r.1, s.1 ++ [.write dev data], r.2)

/-- The state with a record that is empty as yet. -/
def EepromState.recording (s : EepromState β) : EepromState (List Transfer × β) :=
  ⟨s.isInit, s.devAddr, ([], s.bus), s.status, s.dummy⟩

def readTransfers (memAddr : UInt32) (readLen : UInt8) (s : EepromState β) : List Transfer :=
  (handleMemRead bus.recording memAddr readLen s.recording).2.bus.1

def writeTransfers (memAddr : UInt32) (writeLen : UInt8) (buffer : Bytes) (s : EepromState β) :
    List Transfer :=
  (handleMemWrite bus.recording memAddr writeLen buffer s.recording).2.bus.1

end

/-- A read request makes a transfer only if its range lies in the EEPROM, and then the one it asks
for. -/
def ReadsExactly (memAddr : UInt32) (readLen : UInt8) : Prop :=
  ∀ (β : Type) (bus : I2cBus β) (s : EepromState β), ∀ t ∈ readTransfers bus memAddr readLen s,
    memAddr.toNat + readLen.toNat ≤ eepromSize ∧
      t = .burstRead s.devAddr memAddr.toNat readLen.toNat

/-- The transfer of a write of `data` to `a` brings an address the bytes that belong there.  A bare
write, with which the device is polled, has no address. -/
def Transfer.Writes (devAddress a : ℕ) (data : List UInt8) : Transfer → Prop
  | .burstRead .. => False
  | .burstWrite dev start bytes =>
      dev = devAddress ∧ a ≤ start ∧ bytes ≠ [] ∧ bytes <+: data.drop (start - a)
  | .write dev _ => dev = devAddress

/-- A write request makes transfers only if its range lies in the EEPROM; the first one goes to its
address, and each one brings bytes where they belong. -/
def WritesExactly (memAddr : UInt32) (writeLen : UInt8) : Prop :=
  ∀ (β : Type) (bus : I2cBus β) (s : EepromState β) (buffer : Bytes),
    (∀ t ∈ writeTransfers bus memAddr writeLen buffer s,
      memAddr.toNat + writeLen.toNat ≤ eepromSize ∧
        t.Writes s.devAddr memAddr.toNat (buffer.slice 0 writeLen.toNat)) ∧
    ∀ t ∈ (writeTransfers bus memAddr writeLen buffer s).head?,
      ∃ bytes, t = .burstWrite s.devAddr memAddr.toNat bytes

/-! ### What the loops record -/

section
variable {β : Type}

/-- Trying an access records it once for every try. -/
theorem retryLoop_recording {access : List Transfer × β → Bool × (List Transfer × β)}
    {t : Transfer} (h : ∀ s, (access s).2.1 = s.1 ++ [t]) (tries : ℕ) (status : Bool)
    (s : List Transfer × β) :
    ∃ k, (retryLoop access (tries + 1) status s).2.1 = s.1 ++ List.replicate (k + 1) t := by
  induction tries generalizing status s with
  | zero =>
      refine ⟨0, ?_⟩
      unfold retryLoop
      dsimp only
      split
      · exact h s
      · exact h s
  | succ tries ih =>
      unfold retryLoop
      dsimp only
      split
      · exact ⟨0, h s⟩
      · obtain ⟨k, hk⟩ := ih (access s).1 (access s).2
        refine ⟨k + 1, ?_⟩
        rw [hk, h s, List.append_assoc, List.replicate_succ (n := k + 1)]
        rfl

/-- The tries are the same without the record. -/
theorem retryLoop_val {access : β → Bool × β}
    {access' : List Transfer × β → Bool × (List Transfer × β)}
    (h : ∀ s, access s.2 = ((access' s).1, (access' s).2.2)) (tries : ℕ) (status : Bool)
    (s : List Transfer × β) :
    retryLoop access tries status s.2 =
      ((retryLoop access' tries status s).1, (retryLoop access' tries status s).2.2) := by
  induction tries generalizing status s with
  | zero => rfl
  | succ tries ih =>
      unfold retryLoop
      dsimp only
      rw [h s]
      dsimp only
      split
      · rfl
      · exact ih (access' s).1 (access' s).2

theorem writePages_val (bus : I2cBus β) (devAddr : ℕ) (dummy : UInt8) (fuel : ℕ)
    (left : List UInt8) (a : ℕ) (status : Bool) (s : List Transfer × β) :
    writePages bus devAddr dummy fuel left a status s.2 =
      ((writePages bus.recording devAddr dummy fuel left a status s).1,
        (writePages bus.recording devAddr dummy fuel left a status s).2.2) := by
  induction fuel generalizing left a status s with
  | zero => rfl
  | succ fuel ih =>
      unfold writePages
      dsimp only
      split
      · rw [@retryLoop_val β _ (i2cdevWrite16 bus.recording devAddr a (fillPage left a).1)
          (fun _ => rfl) 10 status s]
        dsimp only
        split
        · rfl
        · rw [@retryLoop_val β _ (i2cdevWrite bus.recording devAddr [dummy]) (fun _ => rfl) 30]
          dsimp only
          split
          · rfl
          · exact ih ..
      · rfl

/-- A request is answered as it is without the record. -/
theorem handleMemWrite_recording (bus : I2cBus β) (memAddr : UInt32) (writeLen : UInt8)
    (buffer : Bytes) (s : EepromState β) :
    (handleMemWrite bus.recording memAddr writeLen buffer s.recording).1 =
      (handleMemWrite bus memAddr writeLen buffer s).1 := by
  rw [handleMemWrite_eq, handleMemWrite_eq]
  unfold eepromWriteBuffer
  split
  · rfl
  · exact (congrArg Prod.fst (writePages_val bus s.devAddr s.dummy _ _ _ s.status
      ([], s.bus))).symm

end

/-- A transfer of a write of `data` to `a`: bytes of it, for the low byte of their address, or a
poll. -/
inductive Transfer.OfPage (devAddress a : ℕ) (data : List UInt8) : Transfer → Prop where
  | page {i : ℕ} {bytes : List UInt8} (hne : bytes ≠ []) (hpre : bytes <+: data.drop i) :
      Transfer.OfPage devAddress a data (.burstWrite devAddress ((a + i) % 256) bytes)
  | poll (bytes : List UInt8) : Transfer.OfPage devAddress a data (.write devAddress bytes)

/-- The transfers of a write with its answer.  If this is true, every byte is among those of a
page. -/
structure SendsPages (devAddress a : ℕ) (data : List UInt8) (answer : Bool) (ts : List Transfer) :
    Prop where
  each : ∀ t ∈ ts, t.OfPage devAddress a data
  first : ∀ t ∈ ts.head?, ∃ bytes, t = .burstWrite devAddress (a % 256) bytes
  sent : answer = true → ∀ j < data.length, ∃ i bytes,
    .burstWrite devAddress ((a + i) % 256) bytes ∈ ts ∧ i ≤ j ∧ j < i + bytes.length ∧
      InPage (a + i) bytes.length

namespace SendsPages

variable {devAddress a : ℕ} {data rest bytes : List UInt8} {answer : Bool} {ts : List Transfer}

theorem nil : SendsPages devAddress a [] answer [] := ⟨nofun, nofun, fun _ => nofun⟩

/-- A write that ends before its next page. -/
theorem failed : SendsPages devAddress a data false [] := ⟨nofun, nofun, nofun⟩

/-- A page, the polls for it, and the rest. -/
theorem cons (h : SendsPages devAddress (a + bytes.length) rest answer ts) (hne : bytes ≠ [])
    (hpage : InPage a bytes.length) (k n : ℕ) (dummy : List UInt8) :
    SendsPages devAddress a (bytes ++ rest) answer
      (List.replicate (k + 1) (.burstWrite devAddress (a % 256) bytes) ++
        (List.replicate n (.write devAddress dummy) ++ ts)) where
  each := by
    intro t ht
    rcases List.mem_append.mp ht with ht | ht
    · rw [List.eq_of_mem_replicate ht]
      exact .page (i := 0) hne (List.prefix_append _ _)
    · rcases List.mem_append.mp ht with ht | ht
      · rw [List.eq_of_mem_replicate ht]
        exact .poll dummy
      · cases h.each t ht with
        | page hne' hpre =>
            rw [Nat.add_assoc]
            refine .page hne' ?_
            rwa [List.drop_length_add_append]
        | poll b => exact .poll b
  first := by
    intro t ht
    rw [List.replicate_succ] at ht
    exact ⟨bytes, (Option.some.inj ht).symm⟩
  sent := by
    intro hans j hj
    rw [List.length_append] at hj
    by_cases hlt : j < bytes.length
    · refine ⟨0, bytes, ?_, Nat.zero_le j, by omega, hpage⟩
      exact List.mem_append_left _ (by simp [List.replicate_succ])
    · obtain ⟨i, bytes', hmem, h1, h2, h3⟩ := h.sent hans (j - bytes.length) (by omega)
      refine ⟨bytes.length + i, bytes', ?_, by omega, by omega, ?_⟩
      · rw [← Nat.add_assoc]
        exact List.mem_append_right _ (List.mem_append_right _ hmem)
      · rwa [← Nat.add_assoc]

end SendsPages

section
variable {β : Type} {bus : I2cBus β}

/-- The loop over the pages, for every pattern of failing accesses. -/
theorem writePages_recording {devAddr : ℕ} {dummy : UInt8} {fuel : ℕ} {left : List UInt8} {a : ℕ}
    {status : Bool} {s : List Transfer × β} (ha : a + left.length < 65536)
    (hf : left.length ≤ fuel) :
    ∃ ts, (writePages bus.recording devAddr dummy fuel left a status s).2.1 = s.1 ++ ts ∧
      SendsPages devAddr a left
        (writePages bus.recording devAddr dummy fuel left a status s).1 ts := by
  induction fuel generalizing left a status s with
  | zero =>
      obtain rfl := List.length_eq_zero_iff.mp (Nat.le_zero.mp hf)
      exact ⟨[], (List.append_nil _).symm, .nil⟩
  | succ fuel ih =>
      by_cases hl : 0 < left.length
      · obtain ⟨page, rest, rfl, hpos, hpage, hround⟩ :=
          @writePages_round _ bus.recording devAddr dummy _ _ ha hl
        rw [List.length_append] at ha hf
        have hne : page ≠ [] := List.length_pos_iff.mp hpos
        rw [hround]
        dsimp only
        obtain ⟨k, hk⟩ := retryLoop_recording
          (fun _ => rfl : ∀ t, (i2cdevWrite16 bus.recording devAddr a page t).2.1 = _) 9 status s
        generalize retryLoop (i2cdevWrite16 bus.recording devAddr a page) 10 status s = w at *
        split
        · refine ⟨_, ?_, SendsPages.failed.cons hne hpage k 0 [dummy]⟩
          rw [hk]
          simp
        · obtain ⟨n, hn⟩ := retryLoop_recording
            (fun _ => rfl : ∀ t, (i2cdevWrite bus.recording devAddr [dummy] t).2.1 = _) 29 w.1 w.2
          generalize retryLoop (i2cdevWrite bus.recording devAddr [dummy]) 30 w.1 w.2 = p at *
          split
          · refine ⟨_, ?_, SendsPages.failed.cons hne hpage k (n + 1) [dummy]⟩
            rw [hn, hk]
            simp
          · obtain ⟨ts, hts, hsends⟩ := @ih rest (a + page.length) p.1 p.2 (by omega) (by omega)
            refine ⟨_, ?_, hsends.cons hne hpage k (n + 1) [dummy]⟩
            rw [hts, hn, hk]
            simp
      · obtain rfl : left = [] := List.length_eq_zero_iff.mp (by omega)
        rw [writePages_nil]
        exact ⟨[], (List.append_nil _).symm, .nil⟩

theorem readTransfers_eq (memAddr : UInt32) (readLen : UInt8) (s : EepromState β) :
    readTransfers bus memAddr readLen s =
      if memAddr.toNat + readLen.toNat > eepromSize then []
      else [.burstRead s.devAddr (memAddr.toNat % 256) readLen.toNat] := by
  unfold readTransfers
  rw [handleMemRead_eq]
  unfold eepromReadBuffer
  split
  · rfl
  · rfl

/-- Out of range a write makes no transfer, and else those of its pages. -/
theorem writeTransfers_spec (memAddr : UInt32) (writeLen : UInt8) (buffer : Bytes)
    (s : EepromState β) :
    if memAddr.toNat + writeLen.toNat > eepromSize then
      writeTransfers bus memAddr writeLen buffer s = []
    else SendsPages s.devAddr memAddr.toNat (buffer.slice 0 writeLen.toNat)
      (handleMemWrite bus.recording memAddr writeLen buffer s.recording).1
      (writeTransfers bus memAddr writeLen buffer s) := by
  unfold writeTransfers
  rw [handleMemWrite_eq]
  unfold eepromWriteBuffer
  rw [Bytes.slice_length]
  split
  · rfl
  · rename_i hsize
    unfold eepromSize at hsize
    have hlen := Bytes.slice_length buffer 0 writeLen.toNat
    obtain ⟨ts, hts, hsends⟩ := @writePages_recording β bus s.devAddr s.dummy writeLen.toNat
      (buffer.slice 0 writeLen.toNat) memAddr.toNat s.status ([], s.bus) (by omega) (by omega)
    rw [List.nil_append] at hts
    dsimp only
    show SendsPages _ _ _ _ (writePages bus.recording s.devAddr s.dummy _ _ _ s.status _).2.1
    exact hts ▸ hsends

/-- A page that ends within the first 256 bytes is sent to its own address. -/
theorem Transfer.OfPage.writes {devAddress a : ℕ} {data : List UInt8} {t : Transfer}
    (h : t.OfPage devAddress a data) (hlow : data.length = 0 ∨ a + data.length ≤ 256) :
    t.Writes devAddress a data := by
  cases h with
  | @page i bytes hne hpre =>
      have hlen := hpre.length_le
      have hpos := List.length_pos_iff.mpr hne
      rw [List.length_drop] at hlen
      have hi : (a + i) % 256 = a + i := Nat.mod_eq_of_lt (by omega)
      refine ⟨rfl, by omega, hne, ?_⟩
      rwa [hi, Nat.add_sub_cancel_left]
  | poll bytes => exact rfl

end

theorem readsExactly_iff (memAddr : UInt32) (readLen : UInt8) : ReadsExactly memAddr readLen ↔
    eepromSize < memAddr.toNat + readLen.toNat ∨ memAddr.toNat < 256 := by
  constructor
  · intro h
    by_contra hnot
    obtain ⟨hsize, hfar⟩ := not_or.mp hnot
    have hread := h Bytes reliableBus ⟨true, eepromI2cAddr, fun _ => 0, false, 0⟩
      (.burstRead eepromI2cAddr (memAddr.toNat % 256) readLen.toNat)
    rw [readTransfers_eq, if_neg hsize] at hread
    obtain ⟨-, heq⟩ := hread (List.mem_singleton.mpr rfl)
    have haddr := (Transfer.burstRead.inj heq).2.1
    omega
  · intro h β bus s t ht
    rw [readTransfers_eq] at ht
    split at ht
    · cases ht
    · rename_i hsize
      have hlow := h.resolve_left hsize
      rw [Nat.mod_eq_of_lt hlow] at ht
      exact ⟨Nat.le_of_not_lt hsize, List.mem_singleton.mp ht⟩

theorem writesExactly_iff (memAddr : UInt32) (writeLen : UInt8) :
    WritesExactly memAddr writeLen ↔ eepromSize < memAddr.toNat + writeLen.toNat ∨
      writeLen = 0 ∨ memAddr.toNat + writeLen.toNat ≤ 256 := by
  constructor
  · intro h
    by_contra hnot
    obtain ⟨hsize, hnot⟩ := not_or.mp hnot
    obtain ⟨hlen, hfar⟩ := not_or.mp hnot
    have hpos : 0 < writeLen.toNat :=
      Nat.pos_of_ne_zero (fun h0 => hlen (UInt8.toNat_inj.mp h0))
    have hlt := writeLen.toNat_lt
    let s : EepromState Bytes := ⟨true, eepromI2cAddr, fun _ => 0, true, 0⟩
    have hwrite := h Bytes reliableBus s (fun _ => 0)
    have hsends := @writeTransfers_spec Bytes reliableBus memAddr writeLen (fun _ => 0) s
    rw [if_neg hsize, handleMemWrite_recording, handleMemWrite_eq] at hsends
    have hans : (eepromWriteBuffer reliableBus (Bytes.slice (fun _ => 0) 0 writeLen.toNat)
        memAddr.toNat s).1 = true := by
      unfold eepromWriteBuffer
      rw [Bytes.slice_length, if_neg hsize]
      exact writePages_reliable _ _ _ _ _ _
    -- the byte for address 256, or the first one if that lies behind it already
    obtain ⟨i, bytes, hmem, h1, h2, hpage⟩ := hsends.sent hans (256 - memAddr.toNat)
      (by rw [Bytes.slice_length]; omega)
    obtain ⟨-, -, haddr, -⟩ := hwrite.1 _ hmem
    unfold InPage at hpage
    omega
  · intro h β bus s buffer
    have hsends := @writeTransfers_spec β bus memAddr writeLen buffer s
    by_cases hsize : memAddr.toNat + writeLen.toNat > eepromSize
    · rw [if_pos hsize] at hsends
      rw [hsends]
      exact ⟨nofun, nofun⟩
    · rw [if_neg hsize] at hsends
      have hlow : (buffer.slice 0 writeLen.toNat).length = 0 ∨
          memAddr.toNat + (buffer.slice 0 writeLen.toNat).length ≤ 256 := by
        rw [Bytes.slice_length]
        exact (h.resolve_left hsize).imp_left (congrArg UInt8.toNat)
      refine ⟨fun t ht => ⟨Nat.le_of_not_lt hsize, (hsends.each t ht).writes hlow⟩, ?_⟩
      intro t ht
      obtain ⟨bytes, rfl⟩ := hsends.first t ht
      obtain ⟨-, hle, -⟩ := (hsends.each _ (List.mem_of_mem_head? ht)).writes hlow
      have hmod : memAddr.toNat % 256 = memAddr.toNat := Nat.le_antisymm (Nat.mod_le _ _) hle
      exact ⟨bytes, by rw [hmod]⟩

/-- **Requests from memory clients.** -/
theorem memHandlers_exact_iff (memAddr : UInt32) (len : UInt8) :
    (ReadsExactly memAddr len ↔
      eepromSize < memAddr.toNat + len.toNat ∨ memAddr.toNat < 256) ∧
    (WritesExactly memAddr len ↔ eepromSize < memAddr.toNat + len.toNat ∨
      len = 0 ∨ memAddr.toNat + len.toNat ≤ 256) :=
  ⟨readsExactly_iff memAddr len, writesExactly_iff memAddr len⟩

/-- A read request for the byte at address 256, which lies in the EEPROM, reads the one at 0. -/
theorem memHandlers_low_byte : ¬ ∀ (memAddr : UInt32) (len : UInt8),
    ReadsExactly memAddr len ∧ WritesExactly memAddr len := by
  intro h
  have hread := (h 256 1).1 Bytes reliableBus ⟨true, eepromI2cAddr, fun _ => 0, false, 0⟩
    (.burstRead eepromI2cAddr 0 1) (List.mem_singleton.mpr rfl)
  exact absurd hread.2 (by decide)

end NanoDrone
