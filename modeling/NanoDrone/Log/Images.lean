import NanoDrone.Lib.Wire
import NanoDrone.Log.LogPacket
import NanoDrone.Log.Toc

/-! # Variables that are logged as they are

A client that asks for a variable in the type that it has gets its bytes: the conversion to an
`int`, or to a float, and back again loses nothing, whatever the type (`field_eq_image`).  When
they all fit, `logRunBlock` sends the bytes of the variables of the block one behind the other
(`runOps_flatten`). -/

namespace NanoDrone.Log

/-! ### Little-endian numbers -/

theorem leBytes_ofLeBytes (bytes : List UInt8) : leBytes bytes.length (ofLeBytes bytes) = bytes := by
  induction bytes with
  | nil => rfl
  | cons b bytes ih =>
      have hlow : UInt8.ofNat (b.toNat + 256 * ofLeBytes bytes) = b := by
        have hb := b.toNat_lt
        apply UInt8.toNat_inj.mp
        rw [UInt8.toNat_ofNat']
        omega
      have hdiv : ∀ k, (b.toNat + 256 * ofLeBytes bytes) / 256 ^ (k + 1) =
          ofLeBytes bytes / 256 ^ k := by
        intro k
        have hb := b.toNat_lt
        rw [pow_succ', ← Nat.div_div_eq_div_mul]
        congr 1
        omega
      change leBytes (bytes.length + 1) (b.toNat + 256 * ofLeBytes bytes) = b :: bytes
      simp only [leBytes, List.range_succ_eq_map, List.map_cons, List.map_map, Function.comp_def,
        Nat.succ_eq_add_one, hdiv, pow_zero, Nat.div_one, hlow]
      exact congrArg (b :: ·) ih

theorem leBytes_mod (n v : ℕ) : leBytes n (v % 256 ^ n) = leBytes n v := by
  have h := leBytes_ofLeBytes (leBytes n v)
  rwa [leBytes_length, ofLeBytes_leBytes] at h

/-- The low bytes depend on the low bits only. -/
theorem leBytes_congr {n v w : ℕ} (h : v % 256 ^ n = w % 256 ^ n) : leBytes n v = leBytes n w := by
  rw [← leBytes_mod n v, h, leBytes_mod]

/-! ### The bytes of a variable -/

/-- What the memory holds at the address of a variable, or what its function returns. -/
def LogAdd.image (env : Surroundings) (timestamp : ℕ) (v : LogAdd) : Option (List UInt8) :=
  (typeLength (v.type &&& logTypeMask)).bind fun n =>
    v.address.bind fun address =>
      match acquisitionTypeFromLogType v.type with
      | .memory => some (env.memory.slice address n)
      | .function => (env.acquire address (v.type &&& logTypeMask) timestamp).map (leBytes n)

/-- The op of a variable that is logged in its own type. -/
def LogAdd.op (v : LogAdd) : LogOps where
  next := none
  storageType := v.type &&& logTypeMask
  logType := v.type &&& logTypeMask
  variablePtr := v.address
  acquisitionType := acquisitionTypeFromLogType v.type

/-- A type that clients and variables use. -/
def LogAdd.Loggable (v : LogAdd) : Prop :=
  logUint8 ≤ v.type &&& logTypeMask ∧ v.type &&& logTypeMask ≤ logFloat

section
variable {env : Surroundings} {timestamp : ℕ} {v : LogAdd} {image : List UInt8}

/-- The image is made of the bits that `logRunBlock` acquires. -/
theorem LogAdd.bits_of_image (h : v.image env timestamp = some image) : ∃ n bits,
    typeLength (v.type &&& logTypeMask) = some n ∧
      acquireBits env timestamp v.op n = some bits ∧ image = leBytes n bits := by
  obtain ⟨n, hn, himage⟩ := Option.bind_eq_some_iff.mp h
  obtain ⟨address, haddress, hbytes⟩ := Option.bind_eq_some_iff.mp himage
  refine ⟨n, ?_⟩
  simp only [acquireBits, LogAdd.op, haddress, Option.bind_some]
  cases hacquisition : acquisitionTypeFromLogType v.type with
  | memory =>
      rw [hacquisition] at hbytes
      refine ⟨_, hn, rfl, ?_⟩
      have hround := leBytes_ofLeBytes (env.memory.slice address n)
      rw [Bytes.slice_length] at hround
      rw [hround]
      exact (Option.some.inj hbytes).symm
  | function =>
      rw [hacquisition] at hbytes
      obtain ⟨bits, hbits, hmap⟩ := Option.map_eq_some_iff.mp hbytes
      exact ⟨bits, hn, hbits, hmap.symm⟩

theorem LogAdd.image_length (h : v.image env timestamp = some image) :
    typeLength (v.type &&& logTypeMask) = some image.length := by
  obtain ⟨n, bits, hn, -, rfl⟩ := v.bits_of_image h
  rw [leBytes_length]
  exact hn

/-- The value of an integer type has the low bits that it is read from. -/
theorem interpret_emod {t n bits : ℕ} {x : Int} (hn : typeLength t = some n)
    (hx : interpret t bits = some x) : x % 256 ^ n = bits % 256 ^ n := by
  unfold interpret at hx
  split at hx
  case h_7 => cases hx
  all_goals
    obtain rfl := Option.some.inj hn
    obtain rfl := Option.some.inj hx
  case h_4 => simpa using (Int.bmod_emod : Int.bmod bits (2 ^ 8) % (2 ^ 8 : ℕ) = _)
  case h_5 => simpa using (Int.bmod_emod : Int.bmod bits (2 ^ 16) % (2 ^ 16 : ℕ) = _)
  case h_6 => simpa using (Int.bmod_emod : Int.bmod bits (2 ^ 32) % (2 ^ 32 : ℕ) = _)
  all_goals rfl

theorem interpret_some {t : ℕ} (ht : IsInteger t) (bits : ℕ) : ∃ x, interpret t bits = some x := by
  obtain ⟨hlo, hhi⟩ := ht
  interval_cases t <;> exact ⟨_, rfl⟩

/-- **No conversion is lossy** when a variable is logged in its own type. -/
theorem field_eq_image (hv : v.Loggable) (h : v.image env timestamp = some image) :
    (acquireValue env timestamp v.op).bind (fieldBytes env v.op) = some image := by
  obtain ⟨n, bits, hn, hbits, rfl⟩ := v.bits_of_image h
  by_cases hfloat : v.type &&& logTypeMask = logFloat
  · rw [hfloat] at hn
    obtain rfl : 4 = n := Option.some.inj hn
    have hstorage : v.op.storageType = logFloat := hfloat
    have hvalue : acquireValue env timestamp v.op =
        some { valuei := env.floatToInt (UInt32.ofNat bits), valuef := UInt32.ofNat bits } := by
      unfold acquireValue
      rw [hstorage]
      change (acquireBits env timestamp v.op 4).map _ = _
      rw [hbits]
      rfl
    have hlog : v.op.logType = logFloat := hfloat
    have hsame : leBytes 4 (UInt32.ofNat bits).toNat = leBytes 4 bits := by
      rw [UInt32.toNat_ofNat']
      exact leBytes_mod 4 bits
    rw [hvalue, Option.bind_some, fieldBytes, if_pos (Or.inl hlog), if_neg (not_not.mpr hstorage),
      if_pos hlog, hsame]
  · have hint : IsInteger (v.type &&& logTypeMask) :=
      ⟨hv.1, Nat.le_of_lt_succ (Nat.lt_of_le_of_ne hv.2 hfloat)⟩
    obtain ⟨x, hx⟩ := interpret_some hint bits
    obtain ⟨w, hw, hlow⟩ := acquireValue_integer (o := v.op) hn hbits hx
    have hdvd : (256 : Int) ^ n ∣ 2 ^ 32 := pow_dvd_pow (256 : Int) (typeLength_le hn)
    have hsame : (w.valuei % 2 ^ 32).toNat % 256 ^ n = bits % 256 ^ n := by
      have hemod : w.valuei % 2 ^ 32 % 256 ^ n = bits % 256 ^ n := by
        rw [hlow, Int.emod_emod_of_dvd x hdvd]
        exact interpret_emod hn hx
      apply Int.natCast_inj.mp
      rw [Int.natCast_mod, Int.toNat_of_nonneg (Int.emod_nonneg _ (by decide)), Nat.cast_pow,
        Int.natCast_mod, Nat.cast_pow]
      exact hemod
    rw [hw, Option.bind_some, fieldBytes_integer env hint hn, leBytes_congr hsame]

end

/-! ### The packet -/

/-- When the fields of a list fit in the packet, they are all appended. -/
theorem runOps_flatten {env : Surroundings} {timestamp : ℕ} {s : LogState} {l : List OpsPtr}
    {fields : List (List UInt8)} (hops : List.Forall₂ (fun o field =>
      (acquireValue env timestamp (s.logOps o)).bind (fieldBytes env (s.logOps o)) = some field)
      l fields)
    {fuel : ℕ} {p : Option OpsPtr} (pk : List UInt8) (h : Linked s.next p l)
    (hfuel : l.length ≤ fuel) (hlen : pk.length + fields.flatten.length ≤ crtpMaxDataSize) :
    runOps env timestamp s fuel p pk = (l, some (pk ++ fields.flatten)) := by
  induction hops generalizing p fuel pk with
  | nil => rw [Linked.nil_iff.mp h]; simp [runOps]
  | @cons x field xs fields hfield _ ih =>
      obtain ⟨rfl, hxs⟩ := h
      rw [List.flatten_cons, List.length_append] at hlen
      cases fuel with
      | zero => simp at hfuel
      | succ fuel =>
          have hrest := ih (pk ++ field) hxs (by simpa using hfuel)
            (by rw [List.length_append]; omega)
          unfold runOps
          rw [hfield]
          dsimp only
          rw [appendToPacket_of_le (by omega)]
          dsimp only
          rw [hrest, List.flatten_cons, List.append_assoc]

/-- An op that reads the variable, wherever it is in the pool. -/
theorem field_of_item {env : Surroundings} {timestamp : ℕ} {o : LogOps} {v : LogAdd}
    (h : o.item = v.op) : (acquireValue env timestamp o).bind (fieldBytes env o) =
      (acquireValue env timestamp v.op).bind (fieldBytes env v.op) := by
  rw [← h]
  rfl

/-- A block whose ops read the variables sends their bytes. -/
theorem Pool.runBlock_images {s : LogState} {lists : BlockPtr → List OpsPtr} (h : Pool s lists)
    {b : BlockPtr} (hb : s.Allocated b) {vs : List LogAdd} (hvs : ∀ v ∈ vs, v.Loggable)
    (hitems : s.items (lists b) = vs.map LogAdd.op) {env : Surroundings} {timestamp : ℕ}
    {images : List (List UInt8)}
    (himages : List.Forall₂ (fun v image => v.image env timestamp = some image) vs images)
    (hfits : images.flatten.length ≤ logMaxLen) :
    logRunBlockLocked env timestamp b (s.logBlocks b).ops s =
      (lists b, some (UInt8.ofInt (s.logBlocks b).id :: leBytes 3 timestamp ++ images.flatten)) := by
  have hops : ∀ {l : List OpsPtr} {vs : List LogAdd} {images : List (List UInt8)},
      (∀ v ∈ vs, v.Loggable) → s.items l = vs.map LogAdd.op →
      List.Forall₂ (fun v image => v.image env timestamp = some image) vs images →
      List.Forall₂ (fun o field => (acquireValue env timestamp (s.logOps o)).bind
        (fieldBytes env (s.logOps o)) = some field) l images := by
    intro l vs images hvs hl himages
    induction himages generalizing l with
    | nil =>
        obtain rfl : l = [] := by simpa [LogState.items] using hl
        exact .nil
    | @cons v image vs images hv _ ih =>
        obtain ⟨o, l, rfl, ho, hl⟩ := List.map_eq_cons_iff.mp hl
        refine .cons ?_ (ih (fun w hw => hvs w (List.mem_cons_of_mem v hw)) hl)
        rw [field_of_item ho]
        exact field_eq_image (hvs v List.mem_cons_self) hv
  refine runOps_flatten (hops hvs hitems himages) _ (h.linked b hb) (h.length_le hb) ?_
  rw [List.length_cons, leBytes_length, crtpMaxDataSize]
  unfold logMaxLen at hfits
  omega

end NanoDrone.Log
