import NanoDrone.Log.Control
import NanoDrone.Log.RunBlock
import Mathlib.Tactic.IntervalCases

/-! # Log packets

A client that knows the ops of its blocks reads a log packet field by field.  `HasType` and
`interpret` say what the integer types mean: the values that a type has, and the value that some
bits stand for, which `interpret_eq` and `hasType_of_interpret` show to go together.

The code converts a variable to a signed 32-bit `int` and copies the low bytes of that.  A field
is enough for its log type all the same (`FieldOf`), because it is right modulo `256 ^ n` and only
one value of the type is.  `runOps_fields` puts the fields together: when they fit in a packet the
loop reaches the end of the list.  That they do fit is kept by the commands (`Config.Run.fits`). -/

namespace NanoDrone.Log

/-! ### Integer types -/

/-- The integer types. -/
def IsInteger (t : ℕ) : Prop := logUint8 ≤ t ∧ t ≤ logInt32

instance (t : ℕ) : Decidable (IsInteger t) := inferInstanceAs (Decidable (_ ∧ _))

/-- The values of an integer type. -/
def HasType (t : ℕ) (x : Int) : Prop :=
  match t with
  | logUint8 => 0 ≤ x ∧ x < 2 ^ 8
  | logUint16 => 0 ≤ x ∧ x < 2 ^ 16
  | logUint32 => 0 ≤ x ∧ x < 2 ^ 32
  | logInt8 => -2 ^ 7 ≤ x ∧ x < 2 ^ 7
  | logInt16 => -2 ^ 15 ≤ x ∧ x < 2 ^ 15
  | logInt32 => -2 ^ 31 ≤ x ∧ x < 2 ^ 31
  | _ => False

/-- The value that bits have as an integer type. -/
def interpret (t bits : ℕ) : Option Int :=
  match t with
  | logUint8 => some bits
  | logUint16 => some bits
  | logUint32 => some bits
  | logInt8 => some (Int.bmod bits (2 ^ 8))
  | logInt16 => some (Int.bmod bits (2 ^ 16))
  | logInt32 => some (Int.bmod bits (2 ^ 32))
  | _ => none

/-- The only signed value with given low bits. -/
theorem bmod_eq {bits m : ℕ} {x : Int} (hbits : (bits : Int) = x % m) (hm : 2 ∣ m)
    (hlo : -(m / 2 : ℕ) ≤ x) (hhi : x < (m / 2 : ℕ)) : Int.bmod bits m = x := by
  rw [hbits, Int.emod_bmod]
  exact Int.bmod_eq_of_le (by omega) (by omega)

/-- A value is determined by its low bits. -/
theorem interpret_eq {t n bits : ℕ} {x : Int} (hx : HasType t x) (hn : typeLength t = some n)
    (hbits : (bits : Int) = x % 256 ^ n) : interpret t bits = some x := by
  unfold HasType at hx
  split at hx
  case h_7 => exact hx.elim
  all_goals cases hn
  · exact congrArg some (by omega)
  · exact congrArg some (by omega)
  · exact congrArg some (by omega)
  · exact congrArg some (bmod_eq hbits (by omega) hx.1 hx.2)
  · exact congrArg some (bmod_eq hbits (by omega) hx.1 hx.2)
  · exact congrArg some (bmod_eq hbits (by omega) hx.1 hx.2)

/-- Bits that fit in the type stand for a value of it. -/
theorem hasType_of_interpret {t n bits : ℕ} (ht : IsInteger t) (hn : typeLength t = some n)
    (hbits : bits < 256 ^ n) : ∃ x, interpret t bits = some x ∧ HasType t x := by
  have hsigned : ∀ m : ℕ, 0 < m → -(m / 2 : Int) ≤ Int.bmod bits m ∧
      Int.bmod bits m < (m + 1) / 2 := fun m hm => ⟨Int.le_bmod hm, Int.bmod_lt hm⟩
  obtain ⟨hlo, hhi⟩ := ht
  interval_cases t <;> cases hn
  · exact ⟨_, rfl, Int.natCast_nonneg _, by omega⟩
  · exact ⟨_, rfl, Int.natCast_nonneg _, by omega⟩
  · exact ⟨_, rfl, Int.natCast_nonneg _, by omega⟩
  · exact ⟨_, rfl, hsigned (2 ^ 8) (by omega)⟩
  · exact ⟨_, rfl, hsigned (2 ^ 16) (by omega)⟩
  · exact ⟨_, rfl, hsigned (2 ^ 32) (by omega)⟩

/-! ### Fields -/

/-- A variable that is acquired by a function has one, and it returns a value of its type. -/
def Surroundings.Acquires (env : Surroundings) (timestamp : ℕ) (o : LogOps) : Prop :=
  o.acquisitionType = .function → logUint8 ≤ o.storageType → o.storageType ≤ logFloat →
    ∀ address ∈ o.variablePtr, ∀ n ∈ typeLength o.storageType,
      ∃ bits < 256 ^ n, env.acquire address o.storageType timestamp = some bits

/-- The value of the variable of an op, if that is an integer. -/
def variableValue (env : Surroundings) (timestamp : ℕ) (o : LogOps) : Option Int :=
  (typeLength o.storageType).bind fun n =>
    (acquireBits env timestamp o n).bind (interpret o.storageType)

/-- What a client reads in a field. -/
def decodeField (logType : ℕ) (field : List UInt8) : Option Int :=
  interpret logType (ofLeBytes field)

/-- The field of an op in a packet: it has the width of the log type, and, if that includes the
storage type, it is read as the value of the variable. -/
structure FieldOf (env : Surroundings) (timestamp : ℕ) (o : LogOps) (field : List UInt8) :
    Prop where
  width : typeLength o.logType = some field.length
  value : IsInteger o.storageType → IsInteger o.logType →
    (∀ x, HasType o.storageType x → HasType o.logType x) →
    ∃ x, variableValue env timestamp o = some x ∧ decodeField o.logType field = some x

section
variable {env : Surroundings} {timestamp : ℕ} {o : LogOps}

theorem acquireBits_lt {n : ℕ} (hvar : o.variablePtr ≠ none) (hacq : env.Acquires timestamp o)
    (hlo : logUint8 ≤ o.storageType) (hhi : o.storageType ≤ logFloat)
    (hn : typeLength o.storageType = some n) :
    ∃ bits, acquireBits env timestamp o n = some bits ∧ bits < 256 ^ n := by
  obtain ⟨address, haddress⟩ := Option.ne_none_iff_exists'.mp hvar
  simp only [acquireBits, haddress, Option.bind_some]
  cases hacquire : o.acquisitionType with
  | function =>
      obtain ⟨bits, hlt, hbits⟩ := hacq hacquire hlo hhi address haddress n hn
      exact ⟨bits, hbits, hlt⟩
  | memory =>
      refine ⟨_, rfl, ?_⟩
      have hlt := ofLeBytes_lt (env.memory.slice address n)
      rwa [Bytes.slice_length] at hlt

/-- The `int` of an integer variable is its value modulo `2 ^ 32`. -/
theorem acquireValue_integer {n bits : ℕ} {x : Int} (hn : typeLength o.storageType = some n)
    (hbits : acquireBits env timestamp o n = some bits)
    (hx : interpret o.storageType bits = some x) :
    ∃ v, acquireValue env timestamp o = some v ∧ v.valuei % 2 ^ 32 = x % 2 ^ 32 := by
  unfold acquireValue
  unfold interpret at hx
  split at hx
  case h_7 => cases hx
  all_goals
    rename_i ht
    rw [ht] at hn ⊢
    obtain rfl := Option.some.inj hn
    obtain rfl := Option.some.inj hx
    dsimp only
    rw [hbits]
    refine ⟨_, rfl, ?_⟩
  -- an unsigned 32-bit number may become negative
  case h_3 => simpa using (Int.bmod_emod : Int.bmod bits (2 ^ 32) % (2 ^ 32 : ℕ) = _)
  all_goals simp

theorem acquireValue_some (hvar : o.variablePtr ≠ none) (hacq : env.Acquires timestamp o) :
    ∃ v, acquireValue env timestamp o = some v := by
  have hbits := fun n => acquireBits_lt (n := n) hvar hacq
  unfold acquireValue
  split
  case h_8 => exact ⟨_, rfl⟩
  all_goals
    rename_i ht
    rw [ht] at hbits
    obtain ⟨bits, hsome, -⟩ := hbits _ (by decide) (by decide) rfl
    dsimp only
    rw [hsome]
    exact ⟨_, rfl⟩

theorem typeLength_le {t n : ℕ} (h : typeLength t = some n) : n ≤ 4 := by
  have hmem := List.mem_of_getElem? h
  simp only [List.mem_cons, List.not_mem_nil, or_false] at hmem
  omega

theorem fieldBytes_width (env : Surroundings) (htype : o.logType ≤ logFp16) (v : Value) :
    ∃ field, fieldBytes env o v = some field ∧ typeLength o.logType = some field.length := by
  unfold fieldBytes
  dsimp only
  by_cases hfloat : o.logType = logFloat
  · rw [if_pos (Or.inl hfloat), if_pos hfloat, hfloat]
    exact ⟨_, rfl, by rw [leBytes_length]; rfl⟩
  by_cases hfp16 : o.logType = logFp16
  · rw [if_pos (Or.inr hfp16), if_neg hfloat, hfp16]
    exact ⟨_, rfl, by rw [leBytes_length]; rfl⟩
  obtain ⟨n, hn⟩ := typeLength_of_le htype
  rw [if_neg (not_or.mpr ⟨hfloat, hfp16⟩), hn]
  exact ⟨_, rfl, by rw [leBytes_length]⟩

theorem fieldBytes_integer (env : Surroundings) (ht : IsInteger o.logType) {n : ℕ}
    (hn : typeLength o.logType = some n) (v : Value) :
    fieldBytes env o v = some (leBytes n (v.valuei % 2 ^ 32).toNat) := by
  have hne : ∀ t, logInt32 < t → o.logType ≠ t := fun t hlt e => absurd ht.2 (by omega)
  unfold fieldBytes
  rw [if_neg (not_or.mpr ⟨hne _ (by decide), hne _ (by decide)⟩), hn, Option.map_some]

/-- Copying `n` bytes of the `int` is enough for a value of a type of that length. -/
theorem decodeField_leBytes {t n : ℕ} {x y : Int} (hx : HasType t x)
    (hn : typeLength t = some n) (hy : y % 2 ^ 32 = x % 2 ^ 32) :
    decodeField t (leBytes n (y % 2 ^ 32).toNat) = some x := by
  refine interpret_eq hx hn ?_
  have hdvd : (256 : Int) ^ n ∣ 256 ^ 4 := pow_dvd_pow _ (typeLength_le hn)
  rw [ofLeBytes_leBytes, Int.natCast_mod, Int.toNat_of_nonneg (Int.emod_nonneg _ (by decide)), hy,
    Nat.cast_pow]
  exact Int.emod_emod_of_dvd x hdvd

/-- What the code appends for an op is its field. -/
theorem exists_field (hvar : o.variablePtr ≠ none) (hacq : env.Acquires timestamp o)
    (htype : o.logType ≤ logFp16) : ∃ field,
      (acquireValue env timestamp o).bind (fieldBytes env o) = some field ∧
        FieldOf env timestamp o field := by
  obtain ⟨v, hv⟩ := acquireValue_some hvar hacq
  obtain ⟨field, hfield, hwidth⟩ := fieldBytes_width env htype v
  refine ⟨field, by rw [hv, Option.bind_some, hfield], hwidth, ?_⟩
  intro hstorage hlog hincludes
  obtain ⟨n, hn⟩ := typeLength_of_le (hstorage.2.trans (by decide : logInt32 ≤ logFp16))
  obtain ⟨bits, hbits, hlt⟩ := acquireBits_lt hvar hacq hstorage.1
    (hstorage.2.trans (by decide : logInt32 ≤ logFloat)) hn
  obtain ⟨x, hx, hxt⟩ := hasType_of_interpret hstorage hn hlt
  obtain ⟨w, hw, hlow⟩ := acquireValue_integer hn hbits hx
  obtain rfl := Option.some.inj (hv.symm.trans hw)
  rw [fieldBytes_integer env hlog hwidth] at hfield
  refine ⟨x, ?_, ?_⟩
  · rw [variableValue, hn, Option.bind_some, hbits, Option.bind_some, hx]
  · rw [← Option.some.inj hfield]
    exact decodeField_leBytes (hincludes x hxt) hwidth hlow

theorem FieldOf.item {field : List UInt8} (h : FieldOf env timestamp o field) :
    FieldOf env timestamp o.item field := ⟨h.width, h.value⟩

theorem length_fields {items : List LogOps} {fields : List (List UInt8)}
    (h : List.Forall₂ (FieldOf env timestamp) items fields) :
    fields.flatten.length = itemsLength items := by
  induction h with
  | nil => rfl
  | @cons o field items fields ho _ ih =>
      rw [List.flatten_cons, List.length_append, ih, itemsLength_cons, ho.width, Option.getD_some]

end

/-! ### Packets -/

/-- Data that fits in the packet is appended. -/
theorem appendToPacket_of_le {pk data : List UInt8}
    (h : pk.length + data.length ≤ crtpMaxDataSize) : appendToPacket pk data = some (pk ++ data) :=
  if_pos (Nat.le_sub_of_add_le h)

/-- When the fields of a list fit in the packet, the loop gets to its end and drops none. -/
theorem runOps_fields {env : Surroundings} {timestamp : ℕ} {s : LogState} {l : List OpsPtr}
    (hops : ∀ o ∈ l, ∃ field, (acquireValue env timestamp (s.logOps o)).bind
      (fieldBytes env (s.logOps o)) = some field ∧ FieldOf env timestamp (s.logOps o) field)
    {fuel : ℕ} {p : Option OpsPtr} (pk : List UInt8) (h : Linked s.next p l)
    (hfuel : l.length ≤ fuel) (hlen : pk.length + itemsLength (s.items l) ≤ crtpMaxDataSize) :
    ∃ fields, runOps env timestamp s fuel p pk = (l, some (pk ++ fields.flatten)) ∧
      List.Forall₂ (FieldOf env timestamp) (s.items l) fields := by
  induction l generalizing p fuel pk with
  | nil =>
      rw [Linked.nil_iff.mp h]
      exact ⟨[], by simp [runOps], .nil⟩
  | cons x xs ih =>
      obtain ⟨rfl, hxs⟩ := h
      obtain ⟨field, hfield, hx⟩ := hops x (List.mem_cons_self ..)
      have hitems : itemsLength (s.items (x :: xs)) = field.length + itemsLength (s.items xs) := by
        rw [LogState.items, List.map_cons, itemsLength_cons, hx.item.width, Option.getD_some]
        rfl
      rw [hitems] at hlen
      cases fuel with
      | zero => simp at hfuel
      | succ fuel =>
          obtain ⟨fields, hrun, hfields⟩ := ih (fun o ho => hops o (List.mem_cons_of_mem _ ho))
            (pk ++ field) hxs (by simpa using hfuel) (by rw [List.length_append]; omega)
          refine ⟨field :: fields, ?_, .cons hx.item hfields⟩
          unfold runOps
          rw [hfield]
          dsimp only
          rw [appendToPacket_of_le (by omega)]
          dsimp only
          rw [hrun, List.flatten_cons, List.append_assoc]

/-- What `logRunBlock` builds for a block whose list of ops is `l`: the id, the low bytes of the
timestamp, and a field for each op. -/
structure IsLogPacket (env : Surroundings) (timestamp : ℕ) (s : LogState) (b : BlockPtr)
    (l : List OpsPtr) (pk : List UInt8) : Prop where
  built : logRunBlockLocked env timestamp b (s.logBlocks b).ops s = (l, some pk)
  size : Returns (blockCalcLength b) s (fun len s' => pk.length = 4 + len ∧ s' = s)
  size_le : pk.length ≤ crtpMaxDataSize
  content : ∃ id time fields, pk = id :: time ++ fields.flatten ∧
    (id.toNat : Int) = (s.logBlocks b).id ∧
    time.length = 3 ∧ ofLeBytes time = timestamp % 2 ^ 24 ∧
    List.Forall₂ (FieldOf env timestamp) (s.items l) fields

theorem toNat_ofInt {x : Int} (hlo : 0 ≤ x) (hhi : x < 256) :
    ((UInt8.ofInt x).toNat : Int) = x := by
  rw [UInt8.ofInt, UInt8.toNat_ofNat']
  omega

/-- Every block of a configuration whose fields fit gives a packet. -/
theorem Pool.logRunBlock {s : LogState} {lists : BlockPtr → List OpsPtr} (h : Pool s lists)
    (hfits : (s.config lists).Fits) {b : BlockPtr} (hb : s.Allocated b) (env : Surroundings)
    (timestamp : ℕ) (henv : ∀ o ∈ lists b, env.Acquires timestamp (s.logOps o)) :
    ∃ pk, IsLogPacket env timestamp s b (lists b) pk := by
  obtain ⟨hitems, hlo, hhi⟩ := hfits b _ (LogState.config_allocated hb)
  dsimp only at hitems hlo hhi
  have hhead : (UInt8.ofInt (s.logBlocks b).id :: leBytes 3 timestamp).length = 4 := by
    rw [List.length_cons, leBytes_length]
  have hops : ∀ o ∈ lists b, ∃ field, (acquireValue env timestamp (s.logOps o)).bind
      (fieldBytes env (s.logOps o)) = some field ∧ FieldOf env timestamp (s.logOps o) field :=
    fun o ho => exists_field (h.used b o ho) (henv o ho) (h.types b o ho)
  obtain ⟨fields, hrun, hfields⟩ := runOps_fields hops
    (UInt8.ofInt (s.logBlocks b).id :: leBytes 3 timestamp) (h.linked b hb) (h.length_le hb)
    (by rw [hhead, crtpMaxDataSize]; unfold logMaxLen at hitems; omega)
  have hlen : (UInt8.ofInt (s.logBlocks b).id :: leBytes 3 timestamp ++ fields.flatten).length =
      4 + itemsLength (s.items (lists b)) := by
    rw [List.length_append, hhead, length_fields hfields]
  refine ⟨_, hrun, ?_, ?_, _, _, fields, rfl, toNat_ofInt hlo hhi, leBytes_length .., ?_, hfields⟩
  · refine (h.calcLength_items hb).mono ?_
    rintro len s' ⟨rfl, rfl⟩
    exact ⟨hlen, rfl⟩
  · rw [hlen, crtpMaxDataSize]
    unfold logMaxLen at hitems
    omega
  · exact ofLeBytes_leBytes 3 timestamp

/-- **Log packets.**  After `logInit` and any control packets whose settings have types of
`typeLength`, on a table without a variable at `NULL`, in the configuration that the commands have
led to, `logRunBlock` visits all the ops of an allocated block and builds the packet of its id, the
timestamp and their fields, which has the length that `blockCalcLength` gives, for any memory and
timestamp. -/
theorem logRunBlock_packet {s0 : LogState} (hboot : s0.isInit = false) (linker : Linker)
    {packets : List (Bool × ControlPacket)} (htypes : ∀ c ∈ packets, ¬ c.2.BadType) :
    Returns (controlRun linker packets) s0 (fun _ s => ∃ lists, Pool s lists ∧
      Config.Run linker (packets.map Prod.snd) (s.config lists) ∧
      ∀ b, s.Allocated b → ∀ env timestamp,
        (∀ o ∈ lists b, Surroundings.Acquires env timestamp (s.logOps o)) →
        ∃ pk, IsLogPacket env timestamp s b (lists b) pk) := by
  refine (controlRun_config hboot linker htypes).mono ?_
  rintro _ s ⟨lists, hpool, hrun⟩
  exact ⟨lists, hpool, hrun, fun b hb env timestamp henv =>
    hpool.logRunBlock hrun.fits hb env timestamp henv⟩

/-- A negative 8-bit variable as a 32-bit one, and a variable that is acquired by a function. -/
theorem logRunBlock_packet_small : ∃ (s : LogState) (lists : BlockPtr → List OpsPtr), controlRun
    ⟨[⟨4, some 0x20000100⟩, ⟨0x41, some 0x20000200⟩], 0x20000000, by decide⟩
    [(true, .ofBytes [0, 7, 6, 0]), (true, .ofBytes [1, 7, 2, 1])] .zero = some ((), s) ∧
    IsLogPacket ⟨fun _ => 0xFE, fun _ _ _ => some 0, fun _ => 0, fun _ => 0, fun _ => 0⟩ 1000 s 0
      (lists 0) [7, 0xE8, 3, 0, 0xFE, 0xFF, 0xFF, 0xFF, 0, 0] := by
  have hrun : (controlRun
      ⟨[⟨4, some 0x20000100⟩, ⟨0x41, some 0x20000200⟩], 0x20000000, by decide⟩
      [(true, .ofBytes [0, 7, 6, 0]), (true, .ofBytes [1, 7, 2, 1])] .zero).any (fun r => decide
        (r.2.Allocated 0 ∧ (logRunBlockLocked
          ⟨fun _ => 0xFE, fun _ _ _ => some 0, fun _ => 0, fun _ => 0, fun _ => 0⟩ 1000 0
          (r.2.logBlocks 0).ops r.2).2 = some [7, 0xE8, 3, 0, 0xFE, 0xFF, 0xFF, 0xFF, 0, 0])) =
      true := by
    decide +kernel
  obtain ⟨⟨_, s⟩, hs, hdecide⟩ := (Option.any_eq_true ..).mp hrun
  obtain ⟨hb, hpk⟩ := of_decide_eq_true hdecide
  have htypes : ∀ c ∈ [(true, ControlPacket.ofBytes [0, 7, 6, 0]),
      (true, .ofBytes [1, 7, 2, 1])], ¬ c.2.BadType := by
    simp only [List.forall_mem_cons]
    exact ⟨ControlPacket.not_badType (by decide +kernel),
      ControlPacket.not_badType (by decide +kernel), by simp⟩
  obtain ⟨lists, -, -, hpackets⟩ := (logRunBlock_packet rfl _ htypes).of_eq hs
  obtain ⟨pk, h⟩ := hpackets 0 hb
    ⟨fun _ => 0xFE, fun _ _ _ => some 0, fun _ => 0, fun _ => 0, fun _ => 0⟩ 1000
    (fun _ _ _ _ _ _ _ n _ => ⟨0, Nat.pow_pos (by decide), rfl⟩)
  have hbuilt := congrArg Prod.snd h.built
  rw [hpk, Option.some.injEq] at hbuilt
  exact ⟨s, lists, hs, hbuilt ▸ h⟩

end NanoDrone.Log
