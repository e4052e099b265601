import NanoDrone.Eeprom.Eeprom

/-! # The pages of an EEPROM write

`eepromWriteBuffer` answers with the status of its last access.  `writePagesT` is the loop with the
pages that it comes to, and `eepromWriteBuffer_pages_iff` says that these are consecutive parts of
the data, each inside a page of the device, and that the answer is right for every pattern of
failing accesses, except that a write of no bytes makes no access: its answer is not
initialised. -/

namespace NanoDrone

/-- A content of `pageBuffer`, whether the bus has accepted it for its address, and whether the
device has acknowledged that it is written. -/
structure Page where
  address : ℕ
  bytes : List UInt8
  written : Bool
  acknowledged : Bool
deriving DecidableEq, Repr

section
variable {β : Type} (bus : I2cBus β)

/-- `writePages` with its pages. -/
def writePagesT (devAddr : ℕ) (dummy : UInt8) :
    ℕ → List UInt8 → ℕ → Bool → β → List Page × Bool × β
  | 0, _, _, status, s => ([], status, s)
  | fuel + 1, left, currentAddress, status, s =>
      if 0 < left.length then
        let page := fillPage left currentAddress
        let w := retryLoop (i2cdevWrite16 bus devAddr currentAddress page.1) 10 status s
        if !w.1 then ([⟨currentAddress, page.1, false, false⟩], false, w.2)
        else
          let p := retryLoop (i2cdevWrite bus devAddr [dummy]) 30 w.1 w.2
          if !p.1 then ([⟨currentAddress, page.1, true, false⟩], false, p.2)
          else
            let r := writePagesT devAddr dummy fuel page.2.1 page.2.2 p.1 p.2
            (⟨currentAddress, page.1, true, true⟩ :: r.1, r.2)
      else ([], status, s)

theorem writePagesT_val (devAddr : ℕ) (dummy : UInt8) (fuel : ℕ) (left : List UInt8)
    (currentAddress : ℕ) (status : Bool) (s : β) :
    (writePagesT bus devAddr dummy fuel left currentAddress status s).2 =
      writePages bus devAddr dummy fuel left currentAddress status s := by
  induction fuel generalizing left currentAddress status s with
  | zero => rfl
  | succ fuel ih =>
      unfold writePagesT writePages
      dsimp only
      split
      · split
        · rfl
        · split
          · rfl
          · exact ih ..
      · rfl

/-- The pages of `eepromWriteBuffer`. -/
def eepromWritePages (buffer : List UInt8) (writeAddr : ℕ) (s : EepromState β) : List Page :=
  if writeAddr + buffer.length > eepromSize then []
  else (writePagesT bus s.devAddr s.dummy buffer.length buffer writeAddr s.status s.bus).1

end

/-- Each page begins where the one before ends. -/
def Consecutive : ℕ → List Page → Prop
  | _, [] => True
  | a, page :: pages => page.address = a ∧ Consecutive (a + page.bytes.length) pages

/-- The pages that the bus has accepted. -/
def writtenPages (pages : List Page) : List Page := pages.filter (·.written)

/-- What the pages of a write to `a` and its answer are to be.  No page is longer than `pageBuffer`
or crosses a page border of the device; those that are written are consecutive and make up a front
part of the data; and the answer is whether they are all of it and all acknowledged. -/
structure WritesPages (a : ℕ) (data : List UInt8) (pages : List Page) (answer : Bool) : Prop where
  filled : ∀ page ∈ pages, 0 < page.bytes.length ∧ page.bytes.length ≤ 32 ∧
    InPage page.address page.bytes.length
  consecutive : Consecutive a (writtenPages pages)
  front : (writtenPages pages).flatMap Page.bytes <+: data
  answer_iff : answer = true ↔ (writtenPages pages).flatMap Page.bytes = data ∧
    ∀ page ∈ pages, page.acknowledged = true

namespace WritesPages

variable {a : ℕ} {data rest : List UInt8} {pages : List Page} {answer : Bool} {bytes : List UInt8}

theorem nil : WritesPages a [] [] true :=
  ⟨nofun, trivial, List.nil_prefix, iff_of_true rfl ⟨rfl, nofun⟩⟩

/-- A page that could not be written is the last one. -/
theorem unwritten (hpos : 0 < bytes.length) (hpage : InPage a bytes.length) :
    WritesPages a (bytes ++ rest) [⟨a, bytes, false, false⟩] false where
  filled := by
    intro page hp
    rw [List.mem_singleton.mp hp]
    unfold InPage at hpage
    exact ⟨hpos, by dsimp only; omega, hpage⟩
  consecutive := trivial
  front := List.nil_prefix
  answer_iff := by simp

/-- A page that was not acknowledged is the last one. -/
theorem unacknowledged (hpos : 0 < bytes.length) (hpage : InPage a bytes.length) :
    WritesPages a (bytes ++ rest) [⟨a, bytes, true, false⟩] false where
  filled := by
    intro page hp
    rw [List.mem_singleton.mp hp]
    unfold InPage at hpage
    exact ⟨hpos, by dsimp only; omega, hpage⟩
  consecutive := ⟨rfl, trivial⟩
  front := by simp [writtenPages]
  answer_iff := by simp

/-- After a page, the rest. -/
theorem cons (h : WritesPages (a + bytes.length) rest pages answer) (hpos : 0 < bytes.length)
    (hpage : InPage a bytes.length) :
    WritesPages a (bytes ++ rest) (⟨a, bytes, true, true⟩ :: pages) answer where
  filled := by
    intro page hp
    rcases List.mem_cons.mp hp with rfl | hp
    · unfold InPage at hpage
      exact ⟨hpos, by dsimp only; omega, hpage⟩
    · exact h.filled page hp
  consecutive := ⟨rfl, h.consecutive⟩
  front := (List.prefix_append_right_inj bytes).mpr h.front
  answer_iff := by
    rw [h.answer_iff]
    simp [writtenPages]

end WritesPages

section
variable {β : Type} {bus : I2cBus β}

/-- The loop, from bytes that are left or a page that was acknowledged. -/
theorem writePagesT_spec {devAddr : ℕ} {dummy : UInt8} {fuel : ℕ} {left : List UInt8} {a : ℕ}
    {status : Bool} {s : β} (ha : a + left.length < 65536) (hf : left.length ≤ fuel)
    (hstatus : left ≠ [] ∨ status = true) :
    WritesPages a left (writePagesT bus devAddr dummy fuel left a status s).1
      (writePagesT bus devAddr dummy fuel left a status s).2.1 := by
  induction fuel generalizing left a status s with
  | zero =>
      obtain rfl := List.length_eq_zero_iff.mp (Nat.le_zero.mp hf)
      rw [hstatus.resolve_left (fun hne => hne rfl)]
      exact .nil
  | succ fuel ih =>
      unfold writePagesT
      dsimp only
      split
      · rename_i hl
        obtain ⟨hsplit, hpos, hnext, hpage⟩ := fillPage_spec ha hl
        have hlen := congrArg List.length hsplit
        rw [List.length_append] at hlen
        generalize fillPage left a = page at *
        rw [← hsplit]
        split
        · exact .unwritten hpos hpage
        · split
          · exact .unacknowledged hpos hpage
          · rename_i hp
            rw [hnext]
            exact (ih (by omega) (by omega) (Or.inr (by simpa using hp))).cons hpos hpage
      · rename_i hl
        obtain rfl : left = [] := List.length_eq_zero_iff.mp (by omega)
        rw [hstatus.resolve_left (fun hne => hne rfl)]
        exact .nil

/-- **The pages of a write.**  For every pattern of failing accesses, the pages and the answer of a
write are right exactly if it has data, or `status` happens to hold `true` before it is set. -/
theorem eepromWriteBuffer_pages_iff {buffer : List UInt8} {a : ℕ}
    (ha : a + buffer.length ≤ eepromSize) (s : EepromState β) :
    WritesPages a buffer (eepromWritePages bus buffer a s)
        (eepromWriteBuffer bus buffer a s).1 ↔ buffer ≠ [] ∨ s.status = true := by
  have hsize : ¬ a + buffer.length > eepromSize := Nat.not_lt.mpr ha
  unfold eepromSize at ha
  unfold eepromWritePages eepromWriteBuffer
  rw [if_neg hsize, if_neg hsize]
  dsimp only
  rw [← writePagesT_val]
  constructor
  · intro h
    by_contra hnot
    obtain ⟨hnil, hstatus⟩ := not_or.mp hnot
    obtain rfl := not_not.mp hnil
    exact hstatus (h.answer_iff.mpr ⟨rfl, nofun⟩)
  · exact writePagesT_spec (by omega) (Nat.le_refl _)

end

/-- Forty bytes from address 30 on, over a bus that accepts everything. -/
theorem eepromWriteBuffer_pages_small :
    WritesPages 30 (List.replicate 40 7)
      (eepromWritePages reliableBus (List.replicate 40 7) 30
        ⟨true, eepromI2cAddr, fun _ => 0, false, 0⟩)
      (eepromWriteBuffer reliableBus (List.replicate 40 7) 30
        ⟨true, eepromI2cAddr, fun _ => 0, false, 0⟩).1 ↔
    List.replicate 40 (7 : UInt8) ≠ [] ∨ false = true :=
  eepromWriteBuffer_pages_iff (by decide) ⟨true, eepromI2cAddr, fun _ => 0, false, 0⟩

/-- A write of no bytes answers what `status` happens to hold. -/
theorem eepromWriteBuffer_empty : ¬ WritesPages 0 []
    (eepromWritePages reliableBus [] 0 ⟨true, eepromI2cAddr, fun _ => 0, false, 0⟩)
    (eepromWriteBuffer reliableBus [] 0 ⟨true, eepromI2cAddr, fun _ => 0, false, 0⟩).1 := by
  intro h
  exact absurd (h.answer_iff.mpr ⟨rfl, nofun⟩) (by decide)

end NanoDrone
