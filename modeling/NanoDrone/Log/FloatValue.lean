import NanoDrone.Log.LogPacket
import NanoDrone.Log.VarId

/-! # Integer variables as floats (`logGetFloat`, `logRunBlock`)

`logGetFloat` and `logRunBlock` turn a variable of an integer type into a float by way of a signed
32-bit `int`.  A conversion to floats is a parameter of the model, so the number that is converted
is the one whose float comes out for every conversion.  `converted_iff` says that it is the value of
the variable except for the upper half of `LOG_UINT32`. -/

namespace NanoDrone.Log

/-! ### The code -/

/-- `logGetInt`; none if the assertion fails or the address is `NULL`. -/
def logGetInt (env : Surroundings) (logs : List LogVar) (varid : ℕ) : Option Int :=
  if varid = invalidVarId then none
  else
    let bits := fun n =>
      (logsAt logs varid).address.map fun address => ofLeBytes (env.memory.slice address n)
    match logGetType logs varid with
    | logUint8 => (bits 1).map fun v => v
    | logInt8 => (bits 1).map fun v => Int.bmod v (2 ^ 8)
    | logUint16 => (bits 2).map fun v => v
    | logInt16 => (bits 2).map fun v => Int.bmod v (2 ^ 16)
    | logUint32 => (bits 4).map fun v => Int.bmod v (2 ^ 32)
    | logInt32 => (bits 4).map fun v => Int.bmod v (2 ^ 32)
    | logFloat => (bits 4).map fun v => env.floatToInt (UInt32.ofNat v)
    | _ => some 0

/-- `logGetFloat`, the bits of the float. -/
def logGetFloat (env : Surroundings) (logs : List LogVar) (varid : ℕ) : Option UInt32 :=
  if varid = invalidVarId then none
  else if logGetType logs varid = logFloat then
    (logsAt logs varid).address.map fun address =>
      UInt32.ofNat (ofLeBytes (env.memory.slice address 4))
  else (logGetInt env logs varid).map env.intToFloat

def logGetUint (env : Surroundings) (logs : List LogVar) (varid : ℕ) : Option ℕ :=
  (logGetInt env logs varid).map fun v => (v % 2 ^ 32).toNat

/-! ### The number that is converted -/

/-- The value that the memory at the address of a variable holds, if its type is an integer type. -/
def heldValue (env : Surroundings) (logs : List LogVar) (varid : ℕ) : Option Int :=
  (typeLength (logGetType logs varid)).bind fun n =>
    (logsAt logs varid).address.bind fun address =>
      interpret (logGetType logs varid) (ofLeBytes (env.memory.slice address n))

/-- `logGetFloat` converts `x`: whatever the conversion is, it returns the float of `x`. -/
def ConvertedByGet (env : Surroundings) (logs : List LogVar) (varid : ℕ) (x : Int) : Prop :=
  ∀ intToFloat, logGetFloat { env with intToFloat := intToFloat } logs varid = some (intToFloat x)

/-- What a float is appended to the packet as. -/
def floatField (single2half : UInt32 → UInt16) (logType : ℕ) (valuef : UInt32) : List UInt8 :=
  if logType = logFloat then leBytes 4 valuef.toNat else leBytes 2 (single2half valuef).toNat

/-- `logRunBlock` converts `x`: whatever the conversions are, the field of the op is that of the
float of `x`. -/
def ConvertedByRun (env : Surroundings) (timestamp : ℕ) (o : LogOps) (x : Int) : Prop :=
  ∀ intToFloat single2half,
    let env' := { env with intToFloat := intToFloat, single2half := single2half }
    (acquireValue env' timestamp o).bind (fieldBytes env' o) =
      some (floatField single2half o.logType (intToFloat x))

/-- A value of an integer type as an `int`. -/
def asInt (t : ℕ) (x : Int) : Int := if t = logUint32 then Int.bmod x (2 ^ 32) else x

theorem asInt_eq_iff {t bits : ℕ} {x : Int} (hx : interpret t bits = some x) :
    asInt t x = x ↔ ¬ (t = logUint32 ∧ 2 ^ 31 ≤ x) := by
  unfold asInt
  split
  · rename_i ht
    subst ht
    cases hx
    rw [Int.bmod_eq_iff (by decide)]
    omega
  · rename_i ht
    exact iff_of_true rfl fun h => ht h.1

theorem asInt_of_ne {t : ℕ} (ht : t ≠ logUint32) (x : Int) : asInt t x = x := if_neg ht

theorem asInt_uint32 (x : Int) : asInt logUint32 x = Int.bmod x (2 ^ 32) := if_pos rfl

/-- The `int` of `logGetInt`. -/
theorem logGetInt_eq {env : Surroundings} {logs : List LogVar} {varid : ℕ} {x : Int}
    (hvarid : varid ≠ invalidVarId) (hx : heldValue env logs varid = some x) :
    logGetInt env logs varid = some (asInt (logGetType logs varid) x) := by
  unfold heldValue at hx
  obtain ⟨n, hn, hread⟩ := Option.bind_eq_some_iff.mp hx
  obtain ⟨address, haddress, hvalue⟩ := Option.bind_eq_some_iff.mp hread
  unfold logGetInt
  rw [if_neg hvarid, haddress]
  unfold interpret at hvalue
  split at hvalue
  case h_7 => cases hvalue
  all_goals
    rename_i ht
    rw [ht] at hn ⊢
    obtain rfl := Option.some.inj hn
    obtain rfl := Option.some.inj hvalue
  case h_3 => rw [asInt_uint32]; rfl
  all_goals rw [asInt_of_ne (by decide)]; rfl

/-- `logGetUint` takes the `int` back modulo `2 ^ 32`, so that no unsigned value is lost. -/
theorem logGetUint_eq {env : Surroundings} {logs : List LogVar} {varid : ℕ} {x : Int}
    (hvarid : varid ≠ invalidVarId) (hx : heldValue env logs varid = some x) :
    logGetUint env logs varid = some (x % 2 ^ 32).toNat := by
  have hmod : asInt (logGetType logs varid) x % 2 ^ 32 = x % 2 ^ 32 := by
    unfold asInt
    split
    · exact Int.bmod_emod
    · rfl
  unfold logGetUint
  rw [logGetInt_eq hvarid hx, Option.map_some, hmod]

/-- The `int` of `logRunBlock`. -/
theorem acquireValue_asInt {env : Surroundings} {timestamp : ℕ} {o : LogOps} {x : Int}
    (hx : variableValue env timestamp o = some x) :
    ∃ v, acquireValue env timestamp o = some v ∧ v.valuei = asInt o.storageType x := by
  unfold variableValue at hx
  obtain ⟨n, hn, hread⟩ := Option.bind_eq_some_iff.mp hx
  obtain ⟨bits, hbits, hvalue⟩ := Option.bind_eq_some_iff.mp hread
  unfold acquireValue
  unfold interpret at hvalue
  split at hvalue
  case h_7 => cases hvalue
  all_goals
    rename_i ht
    rw [ht] at hn ⊢
    obtain rfl := Option.some.inj hn
    obtain rfl := Option.some.inj hvalue
    dsimp only
    rw [hbits]
    refine ⟨_, rfl, ?_⟩
  case h_3 => rw [asInt_uint32]
  all_goals rw [asInt_of_ne (by decide)]

/-- Bits that stand for an integer are no float. -/
theorem ne_logFloat_of_interpret {t bits : ℕ} {x : Int} (hx : interpret t bits = some x) :
    t ≠ logFloat := by
  rintro rfl
  cases hx

/-- Numbers with the same float under every conversion are the same. -/
theorem forall_intToFloat_iff {a b : Int} :
    (∀ intToFloat : Int → UInt32, intToFloat a = intToFloat b) ↔ a = b := by
  refine ⟨fun h => ?_, fun h _ => congrArg _ h⟩
  by_contra hne
  have heq := h fun i => if i = b then 1 else 0
  rw [if_neg hne, if_pos rfl] at heq
  exact absurd heq (by decide)

/-- The same for the fields of a packet. -/
theorem forall_floatField_iff {a b : Int} (t : ℕ) :
    (∀ (intToFloat : Int → UInt32) (single2half : UInt32 → UInt16),
      floatField single2half t (intToFloat a) = floatField single2half t (intToFloat b)) ↔
    a = b := by
  refine ⟨fun h => ?_, fun h _ _ => by rw [h]⟩
  by_contra hne
  have heq := h (fun i => if i = b then 1 else 0) (fun valuef => if valuef = 1 then 1 else 0)
  rw [if_neg hne, if_pos rfl] at heq
  unfold floatField at heq
  split at heq
  · exact absurd heq (by decide)
  · exact absurd heq (by decide)

section
variable {env : Surroundings}

theorem convertedByGet_iff {logs : List LogVar} {varid : ℕ} {x : Int}
    (hvarid : varid ≠ invalidVarId) (hx : heldValue env logs varid = some x) :
    ConvertedByGet env logs varid x ↔ ¬ (logGetType logs varid = logUint32 ∧ 2 ^ 31 ≤ x) := by
  have hread := hx
  unfold heldValue at hread
  obtain ⟨n, -, hread⟩ := Option.bind_eq_some_iff.mp hread
  obtain ⟨address, -, hvalue⟩ := Option.bind_eq_some_iff.mp hread
  have hget : ∀ intToFloat, logGetFloat { env with intToFloat := intToFloat } logs varid =
      some (intToFloat (asInt (logGetType logs varid) x)) := by
    intro intToFloat
    have hx' : heldValue { env with intToFloat := intToFloat } logs varid = some x := hx
    unfold logGetFloat
    rw [if_neg hvarid, if_neg (ne_logFloat_of_interpret hvalue), logGetInt_eq hvarid hx']
    rfl
  unfold ConvertedByGet
  simp only [hget, Option.some.injEq]
  rw [forall_intToFloat_iff, asInt_eq_iff hvalue]

theorem fieldBytes_eq {o : LogOps} (v : Value) (hlog : o.logType = logFloat ∨ o.logType = logFp16)
    (hstorage : o.storageType ≠ logFloat) : fieldBytes env o v =
      some (floatField env.single2half o.logType (env.intToFloat v.valuei)) := by
  unfold fieldBytes floatField
  rw [if_pos hlog]
  dsimp only
  rw [if_pos hstorage]
  split <;> rfl

theorem convertedByRun_iff {timestamp : ℕ} {o : LogOps} {x : Int}
    (hlog : o.logType = logFloat ∨ o.logType = logFp16)
    (hx : variableValue env timestamp o = some x) :
    ConvertedByRun env timestamp o x ↔ ¬ (o.storageType = logUint32 ∧ 2 ^ 31 ≤ x) := by
  have hread := hx
  unfold variableValue at hread
  obtain ⟨n, -, hread⟩ := Option.bind_eq_some_iff.mp hread
  obtain ⟨bits, -, hvalue⟩ := Option.bind_eq_some_iff.mp hread
  have hfield : ∀ intToFloat single2half,
      let env' := { env with intToFloat := intToFloat, single2half := single2half }
      (acquireValue env' timestamp o).bind (fieldBytes env' o) =
        some (floatField single2half o.logType (intToFloat (asInt o.storageType x))) := by
    intro intToFloat single2half env'
    have hx' : variableValue env' timestamp o = some x := hx
    obtain ⟨v, hv, hint⟩ := acquireValue_asInt hx'
    rw [hv, Option.bind_some, fieldBytes_eq v hlog (ne_logFloat_of_interpret hvalue), hint]
  unfold ConvertedByRun
  simp only [hfield, Option.some.injEq]
  rw [forall_floatField_iff, asInt_eq_iff hvalue]

end

/-- **Integer variables as floats.**  For every variable of an integer type and every value, the
number that `logGetFloat` converts is the value, and so is the number that `logRunBlock` converts
for a log type that is a float, if and only if the type is not `LOG_UINT32` or the value is below
`2 ^ 31`. -/
theorem converted_iff {env : Surroundings} {timestamp : ℕ} {logs : List LogVar} {varid : ℕ}
    {o : LogOps} {x y : Int} (hvarid : varid ≠ invalidVarId)
    (hx : heldValue env logs varid = some x)
    (hlog : o.logType = logFloat ∨ o.logType = logFp16)
    (hy : variableValue env timestamp o = some y) :
    (ConvertedByGet env logs varid x ↔ ¬ (logGetType logs varid = logUint32 ∧ 2 ^ 31 ≤ x)) ∧
    (ConvertedByRun env timestamp o y ↔ ¬ (o.storageType = logUint32 ∧ 2 ^ 31 ≤ y)) :=
  ⟨convertedByGet_iff hvarid hx, convertedByRun_iff hlog hy⟩

/-- The highest bit of a `LOG_UINT32` makes its number negative. -/
theorem converted_high_bit :
    let env : Surroundings := ⟨fun i => if i = 3 then 0x80 else 0, fun _ _ _ => none, fun _ => 0,
      fun _ => 0, fun _ => 0⟩
    let logs : List LogVar := [⟨3, some 0⟩]
    let o : LogOps := ⟨none, logUint32, logFloat, some 0, .memory⟩
    heldValue env logs 0 = some (2 ^ 31) ∧ variableValue env 0 o = some (2 ^ 31) ∧
    logGetInt env logs 0 = some (-2 ^ 31) ∧
    ¬ ConvertedByGet env logs 0 (2 ^ 31) ∧ ¬ ConvertedByRun env 0 o (2 ^ 31) := by
  intro env logs o
  have hheld : heldValue env logs 0 = some (2 ^ 31) := by decide
  have hvalue : variableValue env 0 o = some (2 ^ 31) := by decide
  refine ⟨hheld, hvalue, by decide, ?_, ?_⟩
  · rw [convertedByGet_iff (by decide) hheld]
    decide
  · rw [convertedByRun_iff (.inl rfl) hvalue]
    decide

/-- A variable of one byte, and an op for half floats. -/
theorem converted_iff_byte :
    let env : Surroundings := ⟨fun _ => 0xff, fun _ _ _ => none, fun _ => 0, fun _ => 0, fun _ => 0⟩
    let logs : List LogVar := [⟨4, some 0⟩]
    let o : LogOps := ⟨none, logInt8, logFp16, some 0, .memory⟩
    (ConvertedByGet env logs 0 (-1) ↔ ¬ (logGetType logs 0 = logUint32 ∧ 2 ^ 31 ≤ (-1 : Int))) ∧
    (ConvertedByRun env 0 o (-1) ↔ ¬ (o.storageType = logUint32 ∧ 2 ^ 31 ≤ (-1 : Int))) :=
  converted_iff (by decide) (by decide) (.inr rfl) (by decide)

end NanoDrone.Log
