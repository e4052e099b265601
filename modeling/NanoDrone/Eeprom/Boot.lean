import NanoDrone.Eeprom.SharedEeprom
import NanoDrone.Kve.MirrorDevice

/-! # Boots on the shared EEPROM (`system.c`)

`systemInit` reads the configuration block and sets the store up, and `systemTaskFunction` tests
them later: `storageTest` formats a partition without a table.  Both use the same bytes of the device
(`SharedEeprom.lean`), so each destroys what the other one left.  `configblockInit` leaves a block
with its magic, which is no version byte for `kveCheck`; and the version byte and the end tag that
`kveFormat` writes then are no magic for the next `configblockInit`.

`forgets_at_boot` follows this through any number of lives of a drone.  Each is what a reset leaves of
the state, a boot, and calls that change the store, on tables that stay below address 256. -/

namespace NanoDrone.Boot

open Configblock

/-! ### The firmware -/

/-- The static variables of `configblockeeprom.c`, `eeprom.c` and `storage.c`, the bus, and the stack
of `kve.c`. -/
structure Firmware (β : Type) where
  config : ConfigState (EepromState β)
  isInit : Bool
  ram : KveState Unit

abbrev FirmwareM (β : Type) := StateT (Firmware β) Option

namespace Firmware
variable {β : Type}

/-- What the device holds. -/
def content {bus : I2cBus β} (E : EepromOnBus bus) (s : Firmware β) : Bytes :=
  E.mem s.config.eeprom.bus

/-- `kve.c` with its device. -/
def kve (s : Firmware β) : KveState (EepromState β) := s.ram.map fun _ => s.config.eeprom

def setKve (k : KveState (EepromState β)) (s : Firmware β) : Firmware β :=
  { s with config := { s.config with eeprom := k.dev }, ram := k.map fun _ => () }

end Firmware

/-- A call into `kve.c` while the mutex is held. -/
def locked {α β : Type} (x : KveM (EepromState β) α) : FirmwareM β α := fun s =>
  (x s.kve).map (fun p => (p.1, s.setKve p.2))

section
variable {β : Type} (bus : I2cBus β) (fuel : ℕ)

def storageInit : FirmwareM β Unit := modify (fun s => { s with isInit := true })

def storageReformat : FirmwareM β Bool := do
  locked (kveFormat (busKve bus))
  locked (kveCheck fuel (busKve bus))

def storageTest : FirmwareM β Bool := do
  let pass ← locked (kveCheck fuel (busKve bus))
  if pass then pure pass else storageReformat bus fuel

def storageStore (key buffer : List UInt8) : FirmwareM β Bool := do
  let s ← get
  if !s.isInit then pure false else locked (kveStore fuel (busKve bus) key buffer)

def storageFetch (key : List UInt8) (buffer : Bytes) (length : ℕ) : FirmwareM β (ℕ × Bytes) := do
  let s ← get
  if !s.isInit then pure (0, buffer) else locked (kveFetch fuel (busKve bus) key buffer length)

def storageDelete (key : List UInt8) : FirmwareM β Bool := do
  let s ← get
  if !s.isInit then pure false else locked (kveDelete fuel (busKve bus) key)

def configblockInit : FirmwareM β Int := fun s =>
  let r := Configblock.configblockInit (eepromDriver bus) s.config
  some (r.1, { s with config := r.2 })

/-- `eepromTest`, without the write and read test that is not compiled. -/
def configblockTest : FirmwareM β Bool := fun s =>
  let r := eepromTestConnection bus s.config.eeprom
  some (r.1, { s with config := { s.config with eeprom := r.2 } })

/-- The boot, as far as the EEPROM takes part in it. -/
def systemTaskFunction : FirmwareM β (Int × Bool × Bool) := do
  let ret ← configblockInit bus
  storageInit
  let configblockPass ← configblockTest bus
  let storagePass ← storageTest bus fuel
  pure (ret, configblockPass, storagePass)

def call : StorageOp → FirmwareM β Bool
  | .store key value => storageStore bus fuel key value
  | .delete key => storageDelete bus fuel key

def callAll : List StorageOp → FirmwareM β Unit
  | [] => pure ()
  | op :: ops => do
      let _ ← call bus fuel op
      callAll ops

end

/-! ### Lives -/

/-- What a reset may change: the bus, the uninitialised locals of `eeprom.c` and the stack. -/
structure Reset (β : Type) where
  bus : β → β
  status : Bool
  dummy : UInt8
  ram : KveState Unit

/-- The static variables have their initial values again. -/
def Firmware.reset {β : Type} (datarate : UInt8) (r : Reset β) (s : Firmware β) : Firmware β :=
  ⟨ConfigState.boot datarate ⟨false, 0, r.bus s.config.eeprom.bus, r.status, r.dummy⟩, false, r.ram⟩

/-- From a reset to the next one. -/
structure Life (β : Type) where
  reset : Reset β
  ops : List StorageOp

section
variable {β : Type} (bus : I2cBus β) (datarate : UInt8) (fuel : ℕ)

/-- What the boot of a life reports. -/
def Life.run (l : Life β) : FirmwareM β (Int × Bool × Bool) := do
  modify (Firmware.reset datarate l.reset)
  let r ← systemTaskFunction bus fuel
  callAll bus fuel l.ops
  pure r

def runAll : List (Life β) → FirmwareM β Unit
  | [] => pure ()
  | l :: lives => do
      let _ ← l.run bus datarate fuel
      runAll lives

end

/-- The table stays below address 256 of the device. -/
def StaysLow : List Entry → List StorageOp → Prop
  | _, [] => True
  | es, op :: ops => 1 + span (op.layout es) + 3 ≤ 256 ∧ StaysLow (op.layout es) ops

/-- A reset leaves the EEPROM as it is, and the calls are allowed. -/
structure Life.Ok {β : Type} {bus : I2cBus β} (E : EepromOnBus bus) (l : Life β) : Prop where
  keeps : ∀ b, E.mem (l.reset.bus b) = E.mem b
  valid : ∀ op ∈ l.ops, op.Valid
  low : StaysLow [] l.ops

/-- The entries after calls on an empty table. -/
def entries (ops : List StorageOp) : List Entry := ops.foldl StorageOp.layout []

/-! ### The store within a life -/

/-- The version byte of a store is no magic, and the other way round. -/
theorem not_goodBlock_of_version {b : List UInt8} (h : byteAt b 0 = kveVersion) :
    configblockCheckMagic b = false := by
  unfold configblockCheckMagic
  rw [decide_eq_false_iff_not]
  unfold wordAt
  rw [h]
  unfold magic kveVersion
  rw [show (1 : UInt8).toNat = 1 from rfl]
  omega

theorem blockLeft_of_version (datarate : UInt8) {found : List UInt8}
    (h : byteAt found 0 = kveVersion) :
    blockLeft datarate found = setCksum (configblockDefault datarate) := by
  have hmagic := not_goodBlock_of_version h
  unfold blockLeft
  rw [if_neg (fun hgood => absurd (hmagic.symm.trans hgood.1) Bool.false_ne_true),
    if_neg (fun hold => absurd (hmagic.symm.trans hold.1) Bool.false_ne_true)]

/-- A memory that does not begin with the version fails the check. -/
theorem check_version {σ : Type} {kve : KveMemory σ} {limit top fuel : ℕ} (A : Access kve limit top)
    {m : Bytes} {s : KveState σ} (h : A.At s m) (hl : 1 ≤ limit)
    (hv : m versionAddress ≠ kveVersion) :
    Returns (kveCheck fuel kve) s (fun r s' => r = false ∧ A.At s' m) := by
  have hver : ∀ b : Bytes, (b.write 0 (m.slice versionAddress 1)) 0 ≠ kveVersion := fun _ => hv
  simp only [kveCheck, uninitialised, returns_bind, returns_get, returns_pure]
  apply returns_kveRead A h hl
  intro s1 h1
  rw [if_pos (hver _), returns_pure]
  exact ⟨rfl, h1⟩

section
variable {β : Type} {bus : I2cBus β} (hA : bus.Answers) (E : EepromOnBus bus) {fuel : ℕ}

theorem returns_locked {α : Type} {x : KveM (EepromState β) α} {s : Firmware β}
    {Q : α → Firmware β → Prop} :
    Returns (locked x) s Q ↔ Returns x s.kve (fun a k => Q a (s.setKve k)) :=
  @returns_zoom _ _ _ x Firmware.kve (fun k t => t.setKve k) s Q

/-- A call does nothing before `storageInit`. -/
theorem returns_call {α : Type} {a : α} {x : KveM (EepromState β) α} {s : Firmware β}
    {Q : α → Firmware β → Prop} (hi : s.isInit = true) :
    Returns (do let s ← get; if !s.isInit then pure a else locked x) s Q ↔
      Returns x s.kve (fun b k => Q b (s.setKve k)) := by
  simp [hi, returns_locked]

/-- The store is set up, with a table of these entries. -/
structure InUse (s : Firmware β) (es : List Entry) : Prop where
  init : s.isInit = true
  ready : s.config.eeprom.Ready
  table : Table (s.content E) 256 es

/-- The configuration in use is the same. -/
def SameConfig (s s' : Firmware β) : Prop :=
  s'.config.configblock = s.config.configblock ∧ s'.config.cbOk = s.config.cbOk

theorem SameConfig.getters {datarate : UInt8} {s s' : Firmware β} {f : ConfigFields}
    (h : SameConfig s s') (hget : GettersReturn datarate s.config f) :
    GettersReturn datarate s'.config f := by
  unfold GettersReturn configblockGetRadioChannel configblockGetRadioSpeed
    configblockGetRadioAddress configblockGetCalibPitch configblockGetCalibRoll at hget ⊢
  rw [h.1, h.2]
  exact hget

variable {E}

/-- What a call has left. -/
theorem inUse_setKve {s : Firmware β} {k : KveState (EepromState β)} {m : Bytes} {es : List Entry}
    (hi : s.isInit = true) (h : (busFaithful hA E).access.At k m) (T : Table m 256 es) :
    InUse E (s.setKve k) es := by
  obtain ⟨hready, rfl⟩ := h
  exact ⟨hi, hready, T⟩

variable (hf : kvePartitionLength ≤ fuel)
include hA hf

/-- **One call.** -/
theorem call_step {s : Firmware β} {es : List Entry} {op : StorageOp} (h : InUse E s es)
    (hv : op.Valid) (hlow : 1 + span (op.layout es) + 3 ≤ 256) :
    Returns (call bus fuel op) s (fun _ s' => InUse E s' (op.layout es) ∧ SameConfig s s') := by
  obtain ⟨hi, hready, T⟩ := h
  cases op with
  | store key value =>
      apply (returns_call hi).mpr
      refine (store_spec (busFaithful hA E).access (s := s.kve) ⟨hready, rfl⟩ T T.endTag_le hv.1.1
        hv.1.2 hf).mono ?_
      intro _ k hk
      have hlow' : 1 + span (Layout.store kvePartitionLength es key value).1 + 3 ≤ 256 := hlow
      obtain ⟨m', hat', L'⟩ := hk.2
        (show 1 + span (Layout.store kvePartitionLength es key value).1 + 2 ≤ 256 by omega)
      exact ⟨inUse_setKve hA hi hat' ⟨L', hlow'⟩, rfl, rfl⟩
  | delete key =>
      apply (returns_call hi).mpr
      refine (delete_spec (busFaithful hA E).access (s := s.kve) ⟨hready, rfl⟩ T T.endTag_le hv.1
        hv.2 hf).mono ?_
      intro _ k hk
      obtain ⟨m', hat', T'⟩ := hk.2
      exact ⟨inUse_setKve hA hi hat' T', rfl, rfl⟩

theorem callAll_run {s : Firmware β} {es : List Entry} {ops : List StorageOp}
    (h : InUse E s es) (hv : ∀ op ∈ ops, op.Valid) (hlow : StaysLow es ops) :
    Returns (callAll bus fuel ops) s (fun _ s' =>
      InUse E s' (ops.foldl StorageOp.layout es) ∧ SameConfig s s') := by
  induction ops generalizing es s with
  | nil => exact returns_pure.mpr ⟨h, rfl, rfl⟩
  | cons op ops ih =>
      refine (call_step hA hf h (hv op List.mem_cons_self) hlow.1).bind ?_
      intro _ s1 h1
      refine (ih h1.1 (fun x hx => hv x (List.mem_cons_of_mem _ hx)) hlow.2).mono ?_
      intro _ s2 h2
      exact ⟨h2.1, h2.2.1.trans h1.2.1, h2.2.2.trans h1.2.2⟩

/-- A fetch from the table. -/
theorem storageFetch_inUse {s : Firmware β} {es : List Entry} (h : InUse E s es)
    {key : List UInt8} (hk : KeyOk key) (buffer : Bytes) (n : ℕ) :
    Returns (storageFetch bus fuel key buffer n) s
      (fun r _ => r = KeyMap.fetch (Layout.lookup es) key buffer n) := by
  obtain ⟨hi, hready, T⟩ := h
  apply (returns_call hi).mpr
  exact (fetch_spec (s := s.kve) (busFaithful hA E).access ⟨hready, rfl⟩ T hk.1 hk.2 hf).mono
    fun _ _ hr => hr.2

/-! ### Boots -/

/-- Without the version byte `storageTest` formats. -/
theorem storageTest_formats {s : Firmware β} (hi : s.isInit = true) (hr : s.config.eeprom.Ready)
    (hv : s.content E versionAddress ≠ kveVersion) :
    Returns (storageTest bus fuel) s (fun r s' =>
      r = true ∧ InUse E s' [] ∧ SameConfig s s') := by
  unfold storageTest
  rw [returns_bind, returns_locked]
  refine (check_version (s := s.kve) (busFaithful hA E).access ⟨hr, rfl⟩ (by decide) hv).mono ?_
  rintro _ k1 ⟨rfl, h1⟩
  rw [if_neg Bool.false_ne_true]
  unfold storageReformat
  rw [returns_bind, returns_locked]
  refine (format_spec (busFaithful hA E).access ⟨h1.1, rfl⟩ (by decide) (by decide)).mono ?_
  rintro _ k2 ⟨m, h2, T⟩
  rw [returns_locked]
  refine (check_spec (busFaithful hA E).access h2 T hf).mono ?_
  rintro _ k3 ⟨rfl, h3⟩
  exact ⟨rfl, inUse_setKve hA hi h3 T, rfl, rfl⟩

/-- **A boot.**  Whatever the EEPROM holds, the store is empty after it, and the configuration is
that of the block found, or else the default one. -/
theorem life_run {datarate : UInt8} {s : Firmware β} {l : Life β} (h : l.Ok E) :
    Returns (l.run bus datarate fuel) s (fun r s' => r = (0, true, true) ∧
      InUse E s' (entries l.ops) ∧
      GettersReturn datarate s'.config (ConfigFields.ofBlock
        (blockLeft datarate ((s.content E).slice 0 sizeofConfigblock)))) := by
  obtain ⟨c, hrun, hready, hmem, hget⟩ := @configblockInit_bus _ bus datarate hA E
    ⟨false, 0, l.reset.bus s.config.eeprom.bus, l.reset.status, l.reset.dummy⟩ rfl
  have hkeep : E.mem (l.reset.bus s.config.eeprom.bus) = s.content E := h.keeps _
  dsimp only at hmem hget
  rw [hkeep] at hmem hget
  have hgood := goodBlock_blockLeft datarate
    (Bytes.slice_length (s.content E) 0 sizeofConfigblock)
  have hlength := length_blockLeft datarate
    (Bytes.slice_length (s.content E) 0 sizeofConfigblock)
  generalize blockLeft datarate ((s.content E).slice 0 sizeofConfigblock) = block at *
  -- the magic is no version byte
  have hversion : E.mem c.eeprom.bus versionAddress ≠ kveVersion := by
    intro hv
    have hpos : 0 < block.length := by simp [hlength]
    have hbyte : byteAt block 0 = block[0] := by simp [byteAt, hpos]
    have hfirst : (s.content E).write 0 block (0 + 0) = block[0] := Bytes.write_inside _ hpos
    rw [hmem] at hv
    exact absurd (not_goodBlock_of_version (hbyte.trans (hfirst.symm.trans hv))) (by simp [hgood.1])
  have htest := @ready_testConnection _ bus _ hready
  have htmem := @testConnection_mem _ bus E _ hready.2
  unfold Life.run systemTaskFunction
  simp only [returns_bind, returns_modify]
  refine (@returns_iff_of_eq _ _ _ _ ⟨c, false, l.reset.ram⟩ 0 _ ?_).mpr ?_
  · unfold configblockInit Firmware.reset
    dsimp only
    rw [hrun]
  unfold storageInit
  rw [returns_modify]
  refine (@returns_iff_of_eq _ _ _ _
    ⟨{ c with eeprom := (eepromTestConnection bus c.eeprom).2 }, true, l.reset.ram⟩ true _
    ?_).mpr ?_
  · unfold configblockTest
    dsimp only
    rw [testConnection_answers hA hready.1 hready.2]
  refine (storageTest_formats hA hf rfl htest (by rw [Firmware.content, htmem]; exact hversion)).mono ?_
  rintro _ s1 ⟨rfl, huse, hsame⟩
  rw [returns_pure]
  refine (callAll_run hA hf huse h.valid h.low).mono ?_
  rintro _ s2 ⟨huse2, hsame2⟩
  rw [returns_pure]
  refine ⟨rfl, huse2, hsame2.getters (hsame.getters ?_)⟩
  exact hget

/-- The lives before: if there was one, its store is in the EEPROM. -/
theorem runAll_version {datarate : UInt8} {s : Firmware β} {lives : List (Life β)}
    (h : ∀ l ∈ lives, l.Ok E) :
    Returns (runAll bus datarate fuel lives) s (fun _ s' =>
      if lives = [] then s' = s else s'.content E versionAddress = kveVersion) := by
  induction lives generalizing s with
  | nil => exact returns_pure.mpr rfl
  | cons l lives ih =>
      refine (life_run hA hf (h l List.mem_cons_self)).bind ?_
      rintro _ s1 ⟨-, huse, -⟩
      refine (ih fun x hx => h x (List.mem_cons_of_mem _ hx)).mono ?_
      intro _ s2 h2
      rw [if_neg (List.cons_ne_nil _ _)]
      split at h2
      · rw [h2]
        exact huse.table.version
      · exact h2

end

end NanoDrone.Boot
