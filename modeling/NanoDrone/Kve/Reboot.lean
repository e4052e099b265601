import NanoDrone.Kve.Interrupted
import NanoDrone.Kve.MirrorDevice
import NanoDrone.Kve.Storage

/-! # Power failures between two boots (`storage.c`)

A call of `storageStore` or `storageDelete` whose power fails after some bytes, and the boot that
comes next: what the EEPROM then holds, and RAM with anything in it, on which `storageInit` and
`storageTest` run.  `storageTest` formats the partition when `kveCheck` fails, so a table is not
only what can be read but what survives this test.

`survives_power_losses` follows the store through any number of such failures, as long as they hit
deletes and values that take the place of one of the same length. -/

namespace NanoDrone

/-- The EEPROM with power for `b` more bytes. -/
def StorageState.powered (b : ℕ) (s : StorageState) : KveState (Powered EepromDevice) :=
  s.kve.map fun d => ⟨d, d, b⟩

/-- The call of `kve.c` while power lasts. -/
def StorageOp.callPowered (fuel : ℕ) : StorageOp → KveM (Powered EepromDevice) Bool
  | store key value => kveStore fuel storageKve.powered key value
  | delete key => kveDelete fuel storageKve.powered key

/-- The next boot: RAM holds anything, the EEPROM `d`. -/
def storageBoot (fuel : ℕ) (ram : KveState Unit) (d : EepromDevice) :
    Option (Bool × StorageState) :=
  (do
    storageInit
    storageTest fuel : StorageM Bool) ⟨false, ram.map fun _ => d⟩

/-- A call whose power fails after `b` bytes, and the next boot. -/
def powerLoss (fuel : ℕ) (op : StorageOp) (b : ℕ) (ram : KveState Unit) : StorageM Bool := fun s =>
  if !s.isInit then storageBoot fuel ram s.kve.dev
  else (op.callPowered fuel (s.powered b)).bind fun p => storageBoot fuel ram p.2.dev.stored

/-- The boot on `d` passes its test and leaves the partition as it is. -/
def BootKeeps (fuel : ℕ) (ram : KveState Unit) (d : EepromDevice) : Prop :=
  ∃ s, storageBoot fuel ram d = some (true, s) ∧ partition s.kve.dev = partition d

/-- What happens to the store: a call, or one whose power fails. -/
inductive StorageEvent where
  | call (op : StorageOp)
  | powerLoss (op : StorageOp) (b : ℕ) (ram : KveState Unit)

namespace StorageEvent

def exec (fuel : ℕ) : StorageEvent → StorageM Bool
  | call op => op.exec fuel
  | powerLoss op b ram => NanoDrone.powerLoss fuel op b ram

def execAll (fuel : ℕ) : List StorageEvent → StorageM Unit
  | [] => pure ()
  | e :: events => do
      let _ ← exec fuel e
      execAll fuel events

def op : StorageEvent → StorageOp
  | call op => op
  | powerLoss op _ _ => op

/-- The entries after an event; of an interrupted store, when it replaces a value in place. -/
def layout (es : List Entry) : StorageEvent → List Entry
  | call op => op.layout es
  | powerLoss (.delete key) b _ => if 3 ≤ b then (Layout.delete es key).1 else es
  | powerLoss (.store key value) b _ =>
      match Layout.lookup es key with
      | none => es
      | some old => Layout.overwrite es key (torn old value (b - (3 + key.length)))

/-- A call spares the last three bytes of the partition; a store whose power fails replaces a value
in place. -/
def Spares (es : List Entry) : StorageEvent → Prop
  | call op => StoresSpare es [op]
  | powerLoss (.delete _) _ _ => True
  | powerLoss (.store key value) _ _ => Layout.InPlace es key value

/-- Each event of a run as above. -/
def AllSpare : List Entry → List StorageEvent → Prop
  | _, [] => True
  | es, e :: events => e.Spares es ∧ AllSpare (e.layout es) events

/-- The entries after a run. -/
def entries (events : List StorageEvent) : List Entry := events.foldl layout []

end StorageEvent

/-- The store is formatted, and then events happen to it. -/
def eventRun (fuel : ℕ) (events : List StorageEvent) : StorageM Unit := do
  storageInit
  let _ ← storageReformat fuel
  StorageEvent.execAll fuel events

/-! ### Calls under power -/

/-- The call on the EEPROM that `s` holds, with power for `b` bytes. -/
theorem powers_of_at {m : Bytes} {s : StorageState} (h : storageFaithful.access.At s.kve m)
    (b : ℕ) : storageFaithful.access.Powers (s.powered b) m m b :=
  ⟨h.1, h.2, h.1, h.2, rfl⟩

/-- A boot on what a call has left, with the log of its writes. -/
theorem returns_powerLoss {fuel b : ℕ} {op : StorageOp} {ram : KveState Unit} {s : StorageState}
    {d : Bytes} {Q : Bool → StorageState → Prop} (hi : s.isInit = true)
    (hcall : Returns (op.callPowered fuel) (s.powered b) (fun _ p => ∃ m' b',
      storageFaithful.access.Powers p m' d b'))
    (hQ : ∀ boot : StorageState, boot.isInit = true → storageFaithful.access.At boot.kve d →
      Returns (storageTest fuel) boot Q) : Returns (powerLoss fuel op b ram) s Q := by
  obtain ⟨r, p, hp, m', b', hpow⟩ := hcall
  have hrun : powerLoss fuel op b ram s = storageBoot fuel ram p.dev.stored := by
    simp [powerLoss, hi, hp]
  obtain ⟨passed, s', hboot, hq⟩ := hQ ⟨true, ram.map fun _ => p.dev.stored⟩ rfl
    ⟨hpow.stored_ok, hpow.stored_view⟩
  refine ⟨passed, s', ?_, hq⟩
  rw [hrun]
  exact hboot

section
variable {fuel : ℕ} (hf : kvePartitionLength ≤ fuel)
include hf

/-- A boot on a table leaves it as it is. -/
theorem storageTest_table {d : Bytes} {es : List Entry} {boot : StorageState}
    (hi : boot.isInit = true) (h : storageFaithful.access.At boot.kve d)
    (T : Table d partitionLimit es) :
    Returns (storageTest fuel) boot (fun r s' => r = true ∧ s'.isInit = true ∧
      storageFaithful.access.At s'.kve d) := by
  unfold storageTest
  rw [returns_bind, returns_locked]
  refine (check_spec storageFaithful.access h T hf).mono ?_
  intro r k hk
  obtain ⟨rfl, hk⟩ := hk
  rw [if_pos rfl, returns_pure]
  exact ⟨rfl, hi, hk⟩

/-- A fetch from a table. -/
theorem storageFetch_table {d buffer : Bytes} {es : List Entry} {key : List UInt8} {n : ℕ}
    {s : StorageState} (hi : s.isInit = true) (h : storageFaithful.access.At s.kve d)
    (T : Table d partitionLimit es) (hk : KeyOk key) :
    Returns (storageFetch fuel key buffer n) s
      (fun r _ => r = KeyMap.fetch (Layout.lookup es) key buffer n) := by
  apply returns_call.mpr
  rw [if_pos hi]
  exact (fetch_spec storageFaithful.access h T hk.1 hk.2 hf).mono fun _ _ hr => hr.2

/-! ### Runs with power failures -/

/-- A call whose power fails leaves a table. -/
theorem interrupted_table {m : Bytes} {es : List Entry} {s : StorageState} {op : StorageOp} {b : ℕ}
    {ram : KveState Unit} (h : storageFaithful.access.At s.kve m) (T : Table m partitionLimit es)
    (hv : op.Valid) (hsp : (StorageEvent.powerLoss op b ram).Spares es) :
    ∃ d, Returns (op.callPowered fuel) (s.powered b)
        (fun _ p => ∃ m' b', storageFaithful.access.Powers p m' d b') ∧
      Table d partitionLimit ((StorageEvent.powerLoss op b ram).layout es) := by
  cases op with
  | delete key =>
      exact ⟨_, (delete_log storageFaithful.access (powers_of_at h b) T hv hf).mono
        fun _ _ hp => hp.imp fun _ hp => ⟨_, hp⟩, table_cut_deleteLog T key b⟩
  | store key value =>
      obtain ⟨old, hl, hlen⟩ := hsp
      have hin : Layout.InPlace es key value := ⟨old, hl, hlen⟩
      have hvl : value.length < partitionLimit := by
        have hold := Layout.length_le_of_lookup hl
        have hfit := T.fits
        unfold firstItemAddress at hfit
        omega
      refine ⟨_, (store_log storageFaithful.access (powers_of_at h b) T hv.1 hvl (Or.inl hin)
        (Or.inl hin) hf).mono fun _ _ hp => hp.imp fun _ hp => ⟨_, hp⟩, ?_⟩
      simp only [StorageEvent.layout, hl]
      exact table_cut_inPlace T hl hlen b

/-- **One event.** -/
theorem storageEvent_step {m : Bytes} {es : List Entry} {s : StorageState} {e : StorageEvent}
    (h : storageFaithful.access.At s.kve m) (T : Table m partitionLimit es)
    (hi : s.isInit = true) (hv : e.op.Valid) (hsp : e.Spares es) :
    Returns (e.exec fuel) s (fun _ s' => s'.isInit = true ∧
      ∃ m', storageFaithful.access.At s'.kve m' ∧ Table m' partitionLimit (e.layout es)) := by
  cases e with
  | call op =>
      refine (storageOp_step hf h T hi hv hsp).mono ?_
      intro _ s' hs
      exact ⟨hs.1, hs.2.2⟩
  | powerLoss op b ram =>
      obtain ⟨d, hcall, T'⟩ := interrupted_table hf h T hv hsp
      refine returns_powerLoss hi hcall ?_
      intro boot hb hat
      refine (storageTest_table hf hb hat T').mono ?_
      intro _ s' hs
      exact ⟨hs.2.1, d, hs.2.2, T'⟩

theorem storageEvent_run {m : Bytes} {es : List Entry} {s : StorageState}
    {events : List StorageEvent} (h : storageFaithful.access.At s.kve m)
    (T : Table m partitionLimit es) (hi : s.isInit = true) (hv : ∀ e ∈ events, e.op.Valid)
    (hsp : StorageEvent.AllSpare es events) :
    Returns (StorageEvent.execAll fuel events) s (fun _ s' => s'.isInit = true ∧
      ∃ m', storageFaithful.access.At s'.kve m' ∧
        Table m' partitionLimit (events.foldl StorageEvent.layout es)) := by
  induction events generalizing m es s with
  | nil => exact returns_pure.mpr ⟨hi, m, h, T⟩
  | cons e events ih =>
      refine (storageEvent_step hf h T hi (hv e List.mem_cons_self) hsp.1).bind ?_
      intro _ s1 h1
      obtain ⟨hi1, m1, h1, T1⟩ := h1
      exact ih h1 T1 hi1 (fun x hx => hv x (List.mem_cons_of_mem _ hx)) hsp.2

/-- After every run there is a table with the entries of the run. -/
theorem eventRun_spec {s : StorageState} {events : List StorageEvent}
    (h : s.kve.dev.refused = 0) (hv : ∀ e ∈ events, e.op.Valid)
    (hsp : StorageEvent.AllSpare [] events) :
    Returns (eventRun fuel events) s (fun _ s' => s'.isInit = true ∧
      ∃ m, storageFaithful.access.At s'.kve m ∧
        Table m partitionLimit (StorageEvent.entries events)) := by
  simp only [eventRun, storageInit, returns_bind, returns_modify]
  refine (storageReformat_spec (s := ⟨true, s.kve⟩) hf h).mono ?_
  intro _ s1 h1
  obtain ⟨_, hi, m1, h1, T1⟩ := h1
  exact storageEvent_run hf h1 T1 hi hv hsp

/-- The boot after an interrupted call passes its test and leaves the partition as the failure has
left it. -/
theorem boot_keeps {m : Bytes} {es : List Entry} {s : StorageState} {op : StorageOp} {b : ℕ}
    (h : storageFaithful.access.At s.kve m) (T : Table m partitionLimit es) (hv : op.Valid)
    (ram : KveState Unit) (hsp : (StorageEvent.powerLoss op b ram).Spares es) :
    Returns (op.callPowered fuel) (s.powered b) (fun _ p => BootKeeps fuel ram p.dev.stored) := by
  obtain ⟨d, hcall, T'⟩ := interrupted_table hf h T hv hsp
  refine hcall.mono ?_
  intro _ p hp
  obtain ⟨_, _, hpow⟩ := hp
  let boot : StorageState := ⟨true, ram.map fun _ => p.dev.stored⟩
  have hstored : storageFaithful.access.At boot.kve d := ⟨hpow.stored_ok, hpow.stored_view⟩
  obtain ⟨passed, s', hboot, hpassed, _, hat⟩ := storageTest_table hf rfl hstored T'
  refine ⟨s', ?_, hat.2.trans hpow.stored_view.symm⟩
  rw [← hpassed]
  exact hboot

end

end NanoDrone
