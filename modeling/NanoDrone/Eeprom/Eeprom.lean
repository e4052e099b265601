import NanoDrone.Eeprom.Device
import NanoDrone.Eeprom.I2cdev

/-! # The EEPROM driver (`eeprom.c`)

`eepromWriteBuffer` cuts the data at the page borders, writes each page up to ten times until
the bus acknowledges it, and then polls the device.  The address of a page is a `uint16_t`, but
the register functions of `i2cdevInit.c` keep its low byte only: the byte for address `x` goes to
internal address `x % 256`.  `Aliased` describes the memory after such a write, and
`eeprom_write_read_iff` the addresses for which a read still finds what the caller wrote. -/

namespace NanoDrone

/-- The static variables, the bus, and what the uninitialised locals `status` and `dummy` of
`eepromWriteBuffer` hold. -/
structure EepromState (β : Type) where
  isInit : Bool
  devAddr : ℕ
  bus : β
  status : Bool
  dummy : UInt8

section
variable {β : Type} (bus : I2cBus β)

def eepromInit (s : EepromState β) : Bool × EepromState β :=
  if s.isInit then (true, s)
  else (true, { s with devAddr := eepromI2cAddr, isInit := true })

def eepromReadBuffer (readAddr len : ℕ) (s : EepromState β) :
    Option (List UInt8) × EepromState β :=
  if readAddr + len > eepromSize then (none, s)
  else
    let r := i2cdevRead16 bus s.devAddr readAddr len s.bus
    (r.1, { s with bus := r.2 })

def eepromTestConnection (s : EepromState β) : Bool × EepromState β :=
  if !s.isInit then (false, s)
  else
    let r := i2cdevRead16 bus s.devAddr 0 1 s.bus
    (r.1.isSome, { s with bus := r.2 })

/-- The do-while loop that fills `pageBuffer`: the page, the bytes left and the next address. -/
def fillPage : List UInt8 → ℕ → List UInt8 × List UInt8 × ℕ
  | [], currentAddress => ([], [], currentAddress)
  | x :: left, currentAddress =>
      let next := (currentAddress + 1) % 65536
      if 0 < left.length ∧ next % 32 ≠ 0 then
        let r := fillPage left next
        (x :: r.1, r.2)
      else ([x], left, next)

/-- A loop that tries an access until it succeeds. -/
def retryLoop (access : β → Bool × β) : ℕ → Bool → β → Bool × β
  | 0, status, s => (status, s)
  | tries + 1, _, s =>
      let r := access s
      if r.1 then r else retryLoop access tries r.1 r.2

/-- The loop over the pages; a page has at least one byte, so the length is fuel enough. -/
def writePages (devAddr : ℕ) (dummy : UInt8) :
    ℕ → List UInt8 → ℕ → Bool → β → Bool × β
  | 0, _, _, status, s => (status, s)
  | fuel + 1, left, currentAddress, status, s =>
      if 0 < left.length then
        let page := fillPage left currentAddress
        let w := retryLoop (i2cdevWrite16 bus devAddr currentAddress page.1) 10 status s
        if !w.1 then (false, w.2)
        else
          let p := retryLoop (i2cdevWrite bus devAddr [dummy]) 30 w.1 w.2
          if !p.1 then (false, p.2)
          else writePages devAddr dummy fuel page.2.1 page.2.2 p.1 p.2
      else (status, s)

def eepromWriteBuffer (buffer : List UInt8) (writeAddr : ℕ) (s : EepromState β) :
    Bool × EepromState β :=
  if writeAddr + buffer.length > eepromSize then (false, s)
  else
    let r := writePages bus s.devAddr s.dummy buffer.length buffer writeAddr s.status s.bus
    (r.1, { s with bus := r.2 })

end

/-! ### Pages -/

/-- A page takes bytes from the front and does not cross a page border. -/
theorem fillPage_spec {left : List UInt8} {a : ℕ} (ha : a + left.length < 65536)
    (hl : 0 < left.length) :
    (fillPage left a).1 ++ (fillPage left a).2.1 = left ∧ 0 < (fillPage left a).1.length ∧
      (fillPage left a).2.2 = a + (fillPage left a).1.length ∧
      InPage a (fillPage left a).1.length := by
  unfold InPage
  induction left generalizing a with
  | nil => simp at hl
  | cons x left ih =>
      simp only [List.length_cons] at ha
      have hnext : (a + 1) % 65536 = a + 1 := Nat.mod_eq_of_lt (by omega)
      unfold fillPage
      simp only [hnext]
      split
      · rename_i hmore
        obtain ⟨h1, h2, h3, h4⟩ := ih (a := a + 1) (by omega) hmore.1
        refine ⟨by rw [List.cons_append, h1], by simp, ?_, ?_⟩
        · rw [h3, List.length_cons]
          omega
        · rw [List.length_cons]
          omega
      · simp only [List.cons_append, List.nil_append, List.length_cons, List.length_nil,
          Nat.zero_add, true_and]
        omega

section
variable {β : Type} (bus : I2cBus β) {devAddr : ℕ} {dummy : UInt8}

theorem writePages_nil (fuel a : ℕ) (status : Bool) (s : β) :
    writePages bus devAddr dummy fuel [] a status s = (status, s) := by
  cases fuel with
  | zero => rfl
  | succ fuel => rfl

/-- A round of the loop takes a page from the front of the bytes left. -/
theorem writePages_round {left : List UInt8} {a : ℕ} (ha : a + left.length < 65536)
    (hl : 0 < left.length) :
    ∃ page rest, left = page ++ rest ∧ 0 < page.length ∧ InPage a page.length ∧
      ∀ fuel status s, writePages bus devAddr dummy (fuel + 1) left a status s =
        let w := retryLoop (i2cdevWrite16 bus devAddr a page) 10 status s
        if !w.1 then (false, w.2)
        else
          let p := retryLoop (i2cdevWrite bus devAddr [dummy]) 30 w.1 w.2
          if !p.1 then (false, p.2)
          else writePages bus devAddr dummy fuel rest (a + page.length) p.1 p.2 := by
  obtain ⟨hsplit, hpos, hnext, hpage⟩ := fillPage_spec ha hl
  refine ⟨(fillPage left a).1, (fillPage left a).2.1, hsplit.symm, hpos, hpage, ?_⟩
  intro fuel status s
  rw [← hnext]
  exact if_pos hl

end

/-- What holds after a loop of tries that succeeds, when every access keeps `P` and a successful
one gives `Q`. -/
theorem retryLoop_spec {β : Type} {access : β → Bool × β} {P Q : β → Prop}
    (hfail : ∀ s s', P s → access s = (false, s') → P s')
    (hok : ∀ s s', P s → access s = (true, s') → Q s') {tries : ℕ} {status : Bool} {s s' : β}
    (hP : P s) (hr : retryLoop access (tries + 1) status s = (true, s')) : Q s' := by
  induction tries generalizing status s with
  | zero =>
      unfold retryLoop at hr
      cases ha : access s with
      | mk b t =>
          cases b with
          | true =>
              simp only [ha, ↓reduceIte, Prod.mk.injEq, true_and] at hr
              exact hr ▸ hok s t hP ha
          | false => simp [ha, retryLoop] at hr
  | succ tries ih =>
      unfold retryLoop at hr
      cases ha : access s with
      | mk b t =>
          cases b with
          | true =>
              simp only [ha, ↓reduceIte, Prod.mk.injEq, true_and] at hr
              exact hr ▸ hok s t hP ha
          | false =>
              simp only [ha, Bool.false_eq_true, ↓reduceIte] at hr
              exact ih (hfail s t hP ha) hr

/-! ### The memory after a write -/

/-- Byte `j` of the data has gone to internal address `(a + j) % 256`; of several bytes for one
address the last one stays. -/
structure Aliased (m m' : Bytes) (a : ℕ) (data : List UInt8) : Prop where
  kept : ∀ y, (∀ j, j < data.length → (a + j) % 256 ≠ y) → m' y = m y
  last : ∀ j (hj : j < data.length),
    (∀ j', j < j' → j' < data.length → (a + j') % 256 ≠ (a + j) % 256) →
    m' ((a + j) % 256) = data[j]

theorem Aliased.nil (m : Bytes) (a : ℕ) : Aliased m m a [] :=
  ⟨fun _ _ => rfl, fun _ hj => absurd hj (Nat.not_lt_zero _)⟩

theorem aliased_page (m : Bytes) {a : ℕ} {data : List UInt8} (hp : InPage a data.length) :
    Aliased m (m.write (a % 256) data) a data := by
  unfold InPage at hp
  have hadr : ∀ j, j < data.length → (a + j) % 256 = a % 256 + j := by
    intro j hj
    omega
  constructor
  · intro y hy
    apply Bytes.write_outside
    by_cases h : y < a % 256
    · exact Or.inl h
    · refine Or.inr (Nat.le_of_not_lt fun hlt => ?_)
      have hj : y - a % 256 < data.length := by omega
      exact hy _ hj (by rw [hadr _ hj]; omega)
  · intro j hj _
    rw [hadr j hj, Bytes.write_inside _ hj]

theorem Aliased.append {m m1 m2 : Bytes} {a : ℕ} {xs ys : List UInt8} (h1 : Aliased m m1 a xs)
    (h2 : Aliased m1 m2 (a + xs.length) ys) : Aliased m m2 a (xs ++ ys) := by
  constructor
  · intro y hy
    rw [List.length_append] at hy
    rw [h2.kept y, h1.kept y]
    · exact fun j hj => hy j (by omega)
    · intro j hj
      rw [Nat.add_assoc]
      exact hy _ (by omega)
  · intro j hj hlast
    rw [List.length_append] at hj hlast
    by_cases hx : j < xs.length
    -- a byte of the first part that the second part does not overwrite
    · rw [h2.kept, h1.last j hx (fun j' h h' => hlast j' h (by omega)), List.getElem_append_left hx]
      intro j' hj'
      rw [Nat.add_assoc]
      exact hlast _ (by omega) (by omega)
    · obtain ⟨i, rfl⟩ : ∃ i, j = xs.length + i := ⟨j - xs.length, by omega⟩
      have hl := h2.last i (by omega) (fun j' h h' => by
        have := hlast (xs.length + j') (by omega) (by omega)
        rwa [← Nat.add_assoc, ← Nat.add_assoc] at this)
      rw [List.getElem_append_right (by omega)]
      simpa only [Nat.add_assoc, Nat.add_sub_cancel_left] using hl

/-- Every internal address either keeps its byte or holds the last one written to it. -/
theorem Aliased.cases {m m' : Bytes} {a : ℕ} {data : List UInt8} (h : Aliased m m' a data)
    (y : ℕ) : m' y = m y ∨ ∃ j, ∃ hj : j < data.length, (a + j) % 256 = y ∧
      data.length ≤ j + 256 ∧ m' y = data[j] := by
  by_cases hy : ∃ j, j < data.length ∧ (a + j) % 256 = y
  · obtain ⟨j, hj, rfl⟩ := hy
    have hk : j + 256 * ((data.length - 1 - j) / 256) < data.length := by omega
    refine Or.inr ⟨j + 256 * ((data.length - 1 - j) / 256), hk, by omega, by omega, ?_⟩
    rw [← h.last _ hk (fun j' h1 h2 => by omega)]
    congr 1
    omega
  · exact Or.inl (h.kept y (fun j hj he => hy ⟨j, hj, he⟩))

section
variable {β : Type} {bus : I2cBus β} (E : EepromOnBus bus)
include E

/-- One page: however often it is tried, the memory ends with the page written. -/
theorem writePage_spec {m : Bytes} {a : ℕ} {page : List UInt8} {status : Bool} {s s' : β}
    (hp : InPage a page.length) (hs : E.mem s = m)
    (hr : retryLoop (i2cdevWrite16 bus eepromI2cAddr a page) 10 status s = (true, s')) :
    E.mem s' = m.write (a % 256) page := by
  have hp' : InPage (a % 256) page.length := by
    unfold InPage at hp ⊢
    omega
  refine retryLoop_spec (P := fun t => ∀ i, i < a % 256 ∨ a % 256 + page.length ≤ i →
    E.mem t i = m i) (Q := fun t => E.mem t = m.write (a % 256) page) ?_ ?_
    (fun i _ => congrFun hs i) hr
  · intro t t' ht ha i hi
    rw [E.write_fail hp' ha i hi, ht i hi]
  · intro t t' ht ha
    rw [E.write_data hp' ha]
    funext i
    by_cases hi : i < a % 256 ∨ a % 256 + page.length ≤ i
    · rw [Bytes.write_outside _ hi, Bytes.write_outside _ hi, ht i hi]
    · obtain ⟨j, rfl⟩ : ∃ j, i = a % 256 + j := ⟨i - a % 256, by omega⟩
      rw [Bytes.write_inside _ (by omega), Bytes.write_inside _ (by omega)]

/-- Waiting for the page to be written changes nothing. -/
theorem pollPage_spec {m : Bytes} {dummy : UInt8} {status : Bool} {s s' : β} (hs : E.mem s = m)
    (hr : retryLoop (i2cdevWrite bus eepromI2cAddr [dummy]) 30 status s = (true, s')) :
    E.mem s' = m := by
  have hkeep : ∀ b t t', E.mem t = m → i2cdevWrite bus eepromI2cAddr [dummy] t = (b, t') →
      E.mem t' = m := by
    intro b t t' ht ha
    have := E.poll_mem t dummy
    rw [show bus.write eepromI2cAddr [dummy] t = (b, t') from ha] at this
    exact this.trans ht
  exact retryLoop_spec (P := fun t => E.mem t = m) (hkeep false) (hkeep true) hs hr

theorem writePages_spec {fuel : ℕ} {left : List UInt8} {a : ℕ} {dummy : UInt8} {status : Bool}
    {s s' : β} (ha : a + left.length < 65536) (hf : left.length ≤ fuel)
    (hr : writePages bus eepromI2cAddr dummy fuel left a status s = (true, s')) :
    Aliased (E.mem s) (E.mem s') a left := by
  induction fuel generalizing left a status s with
  | zero =>
      obtain rfl := List.length_eq_zero_iff.mp (Nat.le_zero.mp hf)
      cases hr
      exact Aliased.nil _ _
  | succ fuel ih =>
      by_cases hl : 0 < left.length
      · obtain ⟨page, rest, rfl, hpos, hpage, hround⟩ := writePages_round bus ha hl
        rw [List.length_append] at ha hf
        rw [hround] at hr
        dsimp only at hr
        cases hw : retryLoop (i2cdevWrite16 bus eepromI2cAddr a page) 10 status s with
        | mk b1 s1 =>
            rw [hw] at hr
            cases b1 with
            | false => cases hr
            | true =>
                cases hq : retryLoop (i2cdevWrite bus eepromI2cAddr [dummy]) 30 true s1 with
                | mk b2 s2 =>
                    dsimp only at hr
                    rw [hq] at hr
                    cases b2 with
                    | false => cases hr
                    | true =>
                        have h1 := writePage_spec E hpage rfl hw
                        have h2 := pollPage_spec E h1 hq
                        have h3 := ih (by omega) (by omega) hr
                        rw [h2] at h3
                        exact (aliased_page (E.mem s) hpage).append h3
      · obtain rfl : left = [] := List.length_eq_zero_iff.mp (by omega)
        rw [writePages_nil] at hr
        cases hr
        exact Aliased.nil _ _

/-- **The memory after a write that returned true.** -/
theorem eepromWriteBuffer_spec {buffer : List UInt8} {a : ℕ} {s s' : EepromState β}
    (hd : s.devAddr = eepromI2cAddr) (hr : eepromWriteBuffer bus buffer a s = (true, s')) :
    a + buffer.length ≤ eepromSize ∧ s'.devAddr = s.devAddr ∧
      Aliased (E.mem s.bus) (E.mem s'.bus) a buffer := by
  unfold eepromWriteBuffer at hr
  split at hr
  · cases hr
  · rename_i hle
    unfold eepromSize at hle
    rw [hd] at hr
    obtain ⟨hok, rfl⟩ := Prod.mk.inj hr
    refine ⟨by unfold eepromSize; omega, hd.symm, ?_⟩
    exact writePages_spec E (by omega) (Nat.le_refl _) (Prod.ext hok rfl)

theorem eepromReadBuffer_spec {b n : ℕ} {d : List UInt8} {s s' : EepromState β}
    (hd : s.devAddr = eepromI2cAddr) (hr : eepromReadBuffer bus b n s = (some d, s')) :
    d = (E.mem s.bus).slice (b % 256) n := by
  unfold eepromReadBuffer at hr
  split at hr
  · cases hr
  · rw [hd] at hr
    obtain ⟨hok, rfl⟩ := Prod.mk.inj hr
    exact E.read_data (Prod.ext hok rfl)

end

/-! ### Addresses for which a read finds what was written -/

/-- The addresses and lengths of a write (`a`, `m`) and a later read (`b`, `n`) that the low bytes
keep apart: below 256 no written address may fall on a byte that is read for another one; from
256 on the bytes read must be among the written ones, in one block of 256, and the last ones
written there. -/
def AddressesMatch (a m b n : ℕ) : Prop :=
  n = 0 ∨
  (b < 256 ∧ ∀ j < m, ∀ i < n, (a + j) % 256 = b + i ↔ a + j = b + i) ∨
  (256 ≤ b ∧ a ≤ b ∧ b + n ≤ a + m ∧ b % 256 + n ≤ 256 ∧ a + m ≤ b + 256)

theorem Aliased.read_eq {m m' : Bytes} {a b n : ℕ} {data : List UInt8}
    (h : Aliased m m' a data) (hm : AddressesMatch a data.length b n) {i : ℕ} (hi : i < n) :
    m' (b % 256 + i) = m.write a data (b + i) := by
  rcases hm with hn | ⟨hb, hmatch⟩ | ⟨hb, hab, hle, hblock, hlast⟩
  · omega
  · rw [Nat.mod_eq_of_lt hb]
    by_cases hin : b + i < a ∨ a + data.length ≤ b + i
    · rw [Bytes.write_outside _ hin]
      refine h.kept _ (fun j hj he => ?_)
      have := (hmatch j hj i hi).mp he
      omega
    · obtain ⟨j, hj⟩ : ∃ j, b + i = a + j := ⟨b + i - a, by omega⟩
      have hjl : j < data.length := by omega
      have hlow := (hmatch j hjl i hi).mpr hj.symm
      rw [hj, Bytes.write_inside _ hjl, ← h.last j hjl]
      · rw [hlow, hj]
      · intro j' h1 h2 he
        have := (hmatch j' h2 i hi).mp (he.trans hlow)
        omega
  · obtain ⟨j, hj⟩ : ∃ j, b + i = a + j := ⟨b + i - a, by omega⟩
    have hjl : j < data.length := by omega
    have hlow : b % 256 + i = (a + j) % 256 := by omega
    rw [hlow, hj, Bytes.write_inside _ hjl, h.last j hjl (fun j' h1 h2 => by omega)]

section
variable {a m b n : ℕ} (hread : ∀ (content : Bytes) (data : List UInt8), data.length = m →
  ∃ m', Aliased content m' a data ∧ ∀ i < n, m' (b % 256 + i) = content.write a data (b + i))
include hread

/-- A byte read at an address that was written is the last one that went there. -/
theorem written_of_read {j i : ℕ} (hj : j < m) (hi : i < n) (he : a + j = b + i) :
    ∃ k, k < m ∧ (a + k) % 256 = b % 256 + i ∧ m ≤ k + 256 ∧ k = j := by
  obtain ⟨m', hal, hr⟩ := hread (fun _ => 0) ((List.replicate m 0).set j 1) (by simp)
  have hri := hr i hi
  rw [← he, Bytes.write_inside _ (by simpa using hj)] at hri
  simp only [List.getElem_set_self] at hri
  rcases hal.cases (b % 256 + i) with hk | ⟨k, hk, hka, hkl, hkv⟩
  · rw [hri] at hk
    cases hk
  · simp only [List.length_set, List.length_replicate] at hk hkl
    rw [hri, List.getElem_set] at hkv
    refine ⟨k, hk, hka, hkl, ?_⟩
    by_cases hjk : j = k
    · exact hjk.symm
    · simp [hjk] at hkv

/-- A byte read at an address that was not written lies at that address and was not reached. -/
theorem kept_of_read {i : ℕ} (hi : i < n) (hout : b + i < a ∨ a + m ≤ b + i) :
    b < 256 ∧ ∀ j < m, (a + j) % 256 ≠ b + i := by
  obtain ⟨m', hal, hr⟩ := hread (fun y => if y = b + i then 1 else 0) (List.replicate m 0)
    (by simp)
  have hri := hr i hi
  rw [Bytes.write_outside _ (by simpa using hout), if_pos rfl] at hri
  rcases hal.cases (b % 256 + i) with hk | ⟨k, hk, hka, hkl, hkv⟩
  · have hb : b % 256 + i = b + i := by
      rw [hri] at hk
      by_contra hne
      rw [if_neg hne] at hk
      cases hk
    refine ⟨by omega, fun j hj he => ?_⟩
    rw [hb] at hri
    -- the last byte written there is a zero
    have hlast := hal.last (j + 256 * ((m - 1 - j) / 256)) (by simp; omega)
      (fun j' h1 h2 => by simp at h2; omega)
    rw [show (a + (j + 256 * ((m - 1 - j) / 256))) % 256 = b + i by omega, hri] at hlast
    simp at hlast
  · rw [hri] at hkv
    simp at hkv

theorem addressesMatch_of_read : AddressesMatch a m b n := by
  unfold AddressesMatch
  by_cases hn : n = 0
  · exact Or.inl hn
  refine Or.inr ?_
  by_cases hb : b < 256
  · refine Or.inl ⟨hb, fun j hj i hi => ⟨fun he => ?_, fun he => ?_⟩⟩
    · by_contra hne
      by_cases hout : b + i < a ∨ a + m ≤ b + i
      · exact (kept_of_read hread hi hout).2 j hj he
      · obtain ⟨k, hk, hka, hkl, hkj⟩ :=
          written_of_read hread (j := b + i - a) (by omega) hi (by omega)
        omega
    · obtain ⟨k, hk, hka, hkl, hkj⟩ := written_of_read hread hj hi he
      omega
  · have hin : ∀ i, i < n → a ≤ b + i ∧ b + i < a + m := by
      intro i hi
      by_contra hout
      exact hb (kept_of_read hread hi (by omega)).1
    obtain ⟨h1, h2⟩ := hin 0 (by omega)
    obtain ⟨h3, h4⟩ := hin (n - 1) (by omega)
    obtain ⟨k, hk, hka, hkl, hkj⟩ := written_of_read hread (j := b + 0 - a) (i := 0) (by omega)
      (by omega) (by omega)
    obtain ⟨k', hk', hka', hkl', hkj'⟩ := written_of_read hread (j := b + (n - 1) - a)
      (i := n - 1) (by omega) (by omega) (by omega)
    exact Or.inr ⟨by omega, by omega, by omega, by omega, by omega⟩

end

theorem writePages_reliable (devAddr : ℕ) (dummy : UInt8) (fuel : ℕ) (left : List UInt8) (a : ℕ)
    (s : Bytes) : (writePages reliableBus devAddr dummy fuel left a true s).1 = true := by
  induction fuel generalizing left a s with
  | zero => rfl
  | succ fuel ih =>
      unfold writePages
      split
      · exact ih _ _ (s.write (a % 256) (fillPage left a).1)
      · rfl

/-- `eepromReadBuffer` after an `eepromWriteBuffer` that returned true gives the bytes written
and, elsewhere, the bytes stored before: on every bus with the EEPROM, for every content. -/
def ReadsBack (a m b n : ℕ) : Prop :=
  ∀ (β : Type) (bus : I2cBus β) (E : EepromOnBus bus) (s s1 s2 : EepromState β)
    (buffer d : List UInt8), s.devAddr = eepromI2cAddr → buffer.length = m →
    eepromWriteBuffer bus buffer a s = (true, s1) →
    eepromReadBuffer bus b n s1 = (some d, s2) →
    d = ((E.mem s.bus).write a buffer).slice b n

/-- **Where the driver is faithful.**  A read after a write is right for every content exactly
when the low bytes of the addresses keep the two apart. -/
theorem eeprom_write_read_iff {a m b n : ℕ} (ha : a + m ≤ eepromSize) (hb : b + n ≤ eepromSize) :
    ReadsBack a m b n ↔ AddressesMatch a m b n := by
  constructor
  · intro hback
    apply addressesMatch_of_read
    intro content data hlen
    let s : EepromState Bytes := ⟨true, eepromI2cAddr, content, true, 0⟩
    have hw : eepromWriteBuffer reliableBus data a s =
        (true, (eepromWriteBuffer reliableBus data a s).2) := by
      refine Prod.ext ?_ rfl
      unfold eepromWriteBuffer
      rw [if_neg (by omega)]
      exact writePages_reliable _ _ _ _ _ _
    obtain ⟨_, hdev, hal⟩ := eepromWriteBuffer_spec reliableEeprom rfl hw
    generalize (eepromWriteBuffer reliableBus data a s).2 = s1 at hw hdev hal
    refine ⟨s1.bus, hal, fun i hi => ?_⟩
    have hr : eepromReadBuffer reliableBus b n s1 = (some (s1.bus.slice (b % 256) n), s1) := by
      unfold eepromReadBuffer
      rw [if_neg (by omega)]
      rfl
    have := hback Bytes reliableBus reliableEeprom s s1 s1 data _ rfl hlen hw hr
    have hget := congrArg (fun l => l[i]?) this
    rw [List.getElem?_eq_getElem (by simpa using hi), List.getElem?_eq_getElem (by simpa using hi),
      Bytes.getElem_slice, Bytes.getElem_slice] at hget
    exact Option.some.inj hget
  · intro hm β bus E s s1 s2 buffer d hd hlen hw hr
    obtain ⟨_, hdev, hal⟩ := eepromWriteBuffer_spec E hd hw
    rw [eepromReadBuffer_spec E (hdev.trans hd) hr]
    subst hlen
    apply List.ext_getElem (by simp)
    intro i h1 h2
    rw [Bytes.getElem_slice, Bytes.getElem_slice]
    exact hal.read_eq hm (by simpa using h1)

/-- A byte written to the start of the key-value partition is read back at address 0, where the
configuration block lies. -/
theorem eeprom_write_read_fails : ¬ ReadsBack 1024 1 0 1 := by
  intro hback
  have := hback Bytes reliableBus reliableEeprom ⟨true, eepromI2cAddr, fun _ => 0, true, 0⟩ _ _
    [1] _ rfl rfl rfl rfl
  exact absurd this (by decide)

/-- Below address 256 the driver is faithful. -/
theorem eeprom_write_read_low : ReadsBack 0 40 16 100 :=
  (eeprom_write_read_iff (by decide) (by decide)).mpr
    (Or.inr (Or.inl ⟨by decide, fun _ _ _ _ => by omega⟩))

end NanoDrone
