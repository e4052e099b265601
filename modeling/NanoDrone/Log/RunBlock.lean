import NanoDrone.Log.Log
import Mathlib.Algebra.Ring.Int.Defs
import Mathlib.Data.List.Infix

/-! # Running a log block

`logRunBlock` reads the head of the list of ops of its block and then, under the lock, follows the
list and puts a field for each op in a packet, until the packet is full.  `runOps` is the loop; it
gives the ops that it has visited, whether or not it ends.

Floats are bit patterns; conversions between them and integers are parameters. -/

namespace NanoDrone.Log

/-- `CRTP_MAX_DATA_SIZE`. -/
def crtpMaxDataSize : ℕ := 30

/-- What `logRunBlock` gets from outside of `log.c`: the memory, the values of variables that are
acquired by a function (`none` when the function is not initialized), by address, storage type
and timestamp, and conversions. -/
structure Surroundings where
  memory : Bytes
  acquire : Address → ℕ → ℕ → Option ℕ
  intToFloat : Int → UInt32
  floatToInt : UInt32 → Int
  single2half : UInt32 → UInt16

/-- The `n` low bytes of a number, the lowest first. -/
def leBytes (n v : ℕ) : List UInt8 := (List.range n).map fun k => UInt8.ofNat (v / 256 ^ k)

def ofLeBytes (bytes : List UInt8) : ℕ := bytes.foldr (fun b v => b.toNat + 256 * v) 0

theorem leBytes_length (n v : ℕ) : (leBytes n v).length = n := by simp [leBytes]

theorem ofLeBytes_leBytes (n v : ℕ) : ofLeBytes (leBytes n v) = v % 256 ^ n := by
  induction n generalizing v with
  | zero => simp [leBytes, ofLeBytes, Nat.mod_one]
  | succ n ih =>
      have hcons : leBytes (n + 1) v = UInt8.ofNat v :: leBytes n (v / 256) := by
        simp [leBytes, List.range_succ_eq_map, Nat.div_div_eq_div_mul, pow_succ']
      have hfold : ofLeBytes (leBytes (n + 1) v) =
          v % 256 + 256 * ofLeBytes (leBytes n (v / 256)) := by
        rw [hcons]
        simp [ofLeBytes]
      rw [hfold, ih, pow_succ', Nat.mod_mul]

theorem ofLeBytes_lt (bytes : List UInt8) : ofLeBytes bytes < 256 ^ bytes.length := by
  induction bytes with
  | nil => exact Nat.one_pos
  | cons b rest ih =>
      have hb := b.toNat_lt
      rw [List.length_cons, pow_succ']
      simp only [ofLeBytes, List.foldr_cons] at ih ⊢
      omega

/-- The local variables `valuei` and `valuef` of `logRunBlock`. -/
structure Value where
  valuei : Int := 0
  valuef : UInt32 := 0
deriving DecidableEq, Repr

/-- The bits of the variable `v` of a case, which has `size` bytes. -/
def acquireBits (env : Surroundings) (timestamp : ℕ) (o : LogOps) (size : ℕ) : Option ℕ :=
  o.variablePtr.bind fun address =>
    match o.acquisitionType with
    | .function => env.acquire address o.storageType timestamp
    | .memory => some (ofLeBytes (env.memory.slice address size))

/-- `switch(ops->storageType)`. -/
def acquireValue (env : Surroundings) (timestamp : ℕ) (o : LogOps) : Option Value :=
  let bits := acquireBits env timestamp o
  match o.storageType with
  | logUint8 => (bits 1).map fun v => { valuei := v }
  | logInt8 => (bits 1).map fun v => { valuei := Int.bmod v (2 ^ 8) }
  | logUint16 => (bits 2).map fun v => { valuei := v }
  | logInt16 => (bits 2).map fun v => { valuei := Int.bmod v (2 ^ 16) }
  | logUint32 => (bits 4).map fun v => { valuei := Int.bmod v (2 ^ 32) }
  | logInt32 => (bits 4).map fun v => { valuei := Int.bmod v (2 ^ 32) }
  | logFloat => (bits 4).map fun v =>
      { valuei := env.floatToInt (UInt32.ofNat v), valuef := UInt32.ofNat v }
  | _ => some {}

/-- What is appended to the packet for an op. -/
def fieldBytes (env : Surroundings) (o : LogOps) (v : Value) : Option (List UInt8) :=
  if o.logType = logFloat ∨ o.logType = logFp16 then
    let valuef := if o.storageType ≠ logFloat then env.intToFloat v.valuei else v.valuef
    if o.logType = logFloat then some (leBytes 4 valuef.toNat)
    else some (leBytes 2 (env.single2half valuef).toNat)
  else (typeLength o.logType).map fun n => leBytes n (v.valuei % 2 ^ 32).toNat

/-- Appends data to a packet if space is available. -/
def appendToPacket (pk data : List UInt8) : Option (List UInt8) :=
  if pk.length ≤ crtpMaxDataSize - data.length then some (pk ++ data) else none

/-- `while (ops)`: the ops visited, and the packet unless the loop does not end or something is
undefined. -/
def runOps (env : Surroundings) (timestamp : ℕ) (s : LogState) :
    ℕ → Option OpsPtr → List UInt8 → List OpsPtr × Option (List UInt8)
  | _, none, pk => ([], some pk)
  | 0, some _, _ => ([], none)
  | fuel + 1, some ops, pk =>
      match (acquireValue env timestamp (s.logOps ops)).bind (fieldBytes env (s.logOps ops)) with
      | none => ([ops], none)
      | some data =>
          match appendToPacket pk data with
          | none => ([ops], some pk)
          | some pk =>
              let r := runOps env timestamp s fuel (s.next ops) pk
              (ops :: r.1, r.2)

/-- The part of `logRunBlock` under the lock; `ops` was read before. -/
def logRunBlockLocked (env : Surroundings) (timestamp : ℕ) (blk : BlockPtr) (ops : Option OpsPtr)
    (s : LogState) : List OpsPtr × Option (List UInt8) :=
  runOps env timestamp s logMaxOps ops
    (UInt8.ofInt (s.logBlocks blk).id :: leBytes 3 timestamp)

/-- The loop visits a part of the list, in order. -/
theorem runOps_visits (env : Surroundings) (timestamp : ℕ) {s : LogState} {fuel : ℕ}
    {p : Option OpsPtr} {l : List OpsPtr} {pk : List UInt8} (h : Linked s.next p l) :
    (runOps env timestamp s fuel p pk).1 <+: l := by
  induction l generalizing p fuel pk with
  | nil =>
      rw [Linked.nil_iff.mp h]
      simp [runOps]
  | cons x xs ih =>
      obtain ⟨rfl, hxs⟩ := h
      cases fuel with
      | zero => exact List.nil_prefix
      | succ fuel =>
          have hx : [x] <+: x :: xs := List.cons_prefix_cons.mpr ⟨rfl, List.nil_prefix⟩
          unfold runOps
          split
          · exact hx
          · split
            · exact hx
            · exact List.cons_prefix_cons.mpr ⟨rfl, ih hxs⟩

end NanoDrone.Log
