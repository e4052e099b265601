import NanoDrone.Lib.Bytes
import Mathlib.Algebra.Ring.Nat
import Mathlib.Data.List.SplitBy

/-! # The I2C driver (`i2c_twim.c`)

The TWIM peripheral sends or receives one buffer at a time, and `i2c_nrfx_twim_transfer` gets a list
of messages.  Messages that belong to one bus transaction go through the concatenation buffer
`msg_buf`: what is written is collected there, and what is read is copied back from there.  A message
that stands alone is transferred from where it lies, unless it lies in flash.

`carryAll` says what the driver is for: every group of messages that belong together is one transfer
of all their bytes, and there is no buffer.  `transfer_refines` shows that the driver does this for
every list of messages, with the errors of the groups that the buffer is too small for.

The loop that copies back has no bound: it goes on through empty messages, and without a message
that is not empty before the group it goes on to `msgs[-1]`. -/

namespace NanoDrone.Twim

/-- `struct i2c_msg`, its flags one by one; `buf` is an address. -/
structure I2cMsg where
  buf : ℕ
  len : ℕ
  read : Bool
  stop : Bool
  restart : Bool
  addr10Bits : Bool
deriving DecidableEq, Repr

/-- What `i2c_nrfx_twim_transfer` returns. -/
inductive Ret where
  | ok
  | enotsup
  | enospc
  | einval
  | ebusy
  | eio
deriving DecidableEq, Repr

/-- `nrfx_twim_xfer_desc_t` with the bytes that are sent, and the flag about the stop. -/
structure Xfer where
  address : ℕ
  read : Bool
  sent : List UInt8
  length : ℕ
  stop : Bool
deriving DecidableEq, Repr

/-- How a transfer ends. -/
inductive Status where
  /-- `nrfx_twim_xfer` returns `NRFX_ERROR_BUSY` -/
  | busy
  /-- another error of `nrfx_twim_xfer` -/
  | refused
  /-- no event within `I2C_TRANSFER_TIMEOUT_MSEC` -/
  | timeout
  /-- an event that is not `NRFX_TWIM_EVT_DONE` -/
  | failed
  | done
deriving DecidableEq, Repr

/-- The return value for a status. -/
def Status.ret : Status → Ret
  | busy => .ebusy
  | refused | timeout | failed => .eio
  | done => .ok

/-- The peripheral with what is behind it: the bytes received go to the primary buffer. -/
structure Peripheral (β : Type) where
  xfer : Xfer → β → (Status × List UInt8) × β

/-- A transfer that is done has received what it should. -/
def Peripheral.Complete {β : Type} (t : Peripheral β) : Prop :=
  ∀ x s, x.read = true → (t.xfer x s).1.1 = .done → (t.xfer x s).1.2.length = x.length

/-- The configuration of a device, with the address of `msg_buf`. -/
structure Config where
  concatBufSize : ℕ
  flashBufMaxSize : ℕ
  msgBuf : ℕ
  nrfxIsInRam : ℕ → Bool

/-- `MSG_BUF_SIZE`. -/
def Config.msgBufSize (c : Config) : ℕ := max c.concatBufSize c.flashBufMaxSize

structure TwimState (β : Type) where
  memory : Bytes
  bus : β

namespace I2cMsg

/-- The next fragment belongs to the same transfer. -/
def joins (m n : I2cMsg) : Bool := !m.stop && !n.restart && m.read == n.read

def data (m : I2cMsg) (memory : Bytes) : List UInt8 := memory.slice m.buf m.len

end I2cMsg

/-- What the loop does to the buffer before a transfer: the bytes of it that are used, and the
memory. -/
def collect (c : Config) (m : I2cMsg) (concatNext : Bool) (used : ℕ) (memory : Bytes) :
    Except Ret (ℕ × Bytes) :=
  if concatNext ∨ used ≠ 0 then
    if (used + m.len) % 2 ^ 32 > c.concatBufSize then .error .enospc
    else .ok ((used + m.len) % 2 ^ 16,
      if m.read then memory else memory.write (c.msgBuf + used) (m.data memory))
  else if !m.read ∧ !c.nrfxIsInRam m.buf then
    if m.len > c.flashBufMaxSize then .error .einval
    else .ok (m.len % 2 ^ 16, memory.write c.msgBuf (m.data memory))
  else .ok (used, memory)

/-- The loop that copies the buffer back, from a message down; it reads `msgs[-1]` where it is
`none`. -/
def copyBack (msgBuf : ℕ) : List I2cMsg → ℕ → Bytes → Option Bytes
  | [], _, _ => none
  | m :: before, used, memory =>
      if used ≥ m.len then
        copyBack msgBuf before (used - m.len)
          (memory.write m.buf (memory.slice (msgBuf + (used - m.len)) m.len))
      else some memory

section
variable {β : Type} (c : Config) (t : Peripheral β) (addr : ℕ)

/-- The transfer of the buffer or, where it is not used, of a message from where it lies, and the
copying back. -/
def exchange (before : List I2cMsg) (m : I2cMsg) (used : ℕ) (s : TwimState β) :
    Option (Ret × TwimState β) :=
  let buf := if used = 0 then m.buf else c.msgBuf
  let length := if used = 0 then m.len else used
  let sent := if m.read then [] else s.memory.slice buf length
  let r := t.xfer ⟨addr, m.read, sent, length, m.stop⟩ s.bus
  let memory := if m.read then s.memory.write buf (r.1.2.take length) else s.memory
  if r.1.1 ≠ .done then some (r.1.1.ret, ⟨memory, r.2⟩)
  else if m.read ∧ buf = c.msgBuf then
    match copyBack c.msgBuf (m :: before) used memory with
    | none => none
    | some memory => some (.ok, ⟨memory, r.2⟩)
  else some (.ok, ⟨memory, r.2⟩)

/-- The loop over the messages, with those before, the last one first. -/
def transferLoop : List I2cMsg → List I2cMsg → ℕ → TwimState β → Option (Ret × TwimState β)
  | _, [], _, s => some (.ok, s)
  | before, m :: rest, used, s =>
      if m.addr10Bits then some (.enotsup, s)
      else
        let concatNext := rest.head?.any m.joins
        match collect c m concatNext used s.memory with
        | .error e => some (e, s)
        | .ok (used, memory) =>
            if concatNext then transferLoop (m :: before) rest used { s with memory := memory }
            else
              match exchange c t addr before m used { s with memory := memory } with
              | none => none
              | some r => if r.1 = .ok then transferLoop (m :: before) rest 0 r.2 else some r

/-- `i2c_nrfx_twim_transfer`, under `transfer_sync`; `none` when it reads outside of `msgs`. -/
def transfer (msgs : List I2cMsg) (s : TwimState β) : Option (Ret × TwimState β) :=
  transferLoop c t addr [] msgs 0 s

end

/-! ### Groups of messages -/

/-- Number of bytes of a group. -/
def total (g : List I2cMsg) : ℕ := (g.map I2cMsg.len).sum

/-- The bytes of a group, one message after the other. -/
def gather (g : List I2cMsg) (memory : Bytes) : List UInt8 := g.flatMap (·.data memory)

/-- The bytes received for a group, each message its own. -/
def scatter : List I2cMsg → List UInt8 → Bytes → Bytes
  | [], _, memory => memory
  | m :: g, received, memory =>
      (scatter g (received.drop m.len) memory).write m.buf (received.take m.len)

/-- A group goes through the buffer: there is something before its last message. -/
def Buffered (g : List I2cMsg) : Prop := total g.dropLast ≠ 0

instance (g : List I2cMsg) : Decidable (Buffered g) := inferInstanceAs (Decidable (_ ≠ _))

/-- What a group with this last message is not transferred for. -/
def refusal (c : Config) (g : List I2cMsg) (last : I2cMsg) : Option Ret :=
  if Buffered g then
    if total g > c.concatBufSize then some .enospc else none
  else if last.read = false ∧ c.nrfxIsInRam last.buf = false ∧ last.len > c.flashBufMaxSize then
    some .einval
  else none

section
variable {β : Type} (c : Config) (t : Peripheral β) (addr : ℕ)

/-- A group with this last message is one transfer.  A buffered read that fails leaves the messages
alone. -/
def carry (g : List I2cMsg) (last : I2cMsg) (s : TwimState β) : Ret × TwimState β :=
  match refusal c g last with
  | some e => (e, s)
  | none =>
      let sent := if last.read then [] else gather g s.memory
      let r := t.xfer ⟨addr, last.read, sent, total g, last.stop⟩ s.bus
      let kept := last.read = false ∨ (Buffered g ∧ r.1.1 ≠ .done)
      (r.1.1.ret, ⟨if kept then s.memory else scatter g r.1.2 s.memory, r.2⟩)

/-- The groups one after the other, up to the first that is not carried. -/
def carryAll : List (List I2cMsg) → TwimState β → Ret × TwimState β
  | [], s => (.ok, s)
  | g :: gs, s =>
      match g.getLast? with
      | none => carryAll gs s
      | some last =>
          let r := carry c t addr g last s
          if r.1 = .ok then carryAll gs r.2 else r

end

/-- The groups of a list of messages. -/
def groups (msgs : List I2cMsg) : List (List I2cMsg) := msgs.splitBy I2cMsg.joins

/-- A group that is read through the buffer has bytes before it, here after `n` bytes. -/
def Guarded : ℕ → List (List I2cMsg) → Prop
  | _, [] => True
  | n, g :: gs =>
      ((∃ m ∈ g, m.read = true) → Buffered g → 0 < n) ∧ Guarded (n + total g) gs

instance instDecidableGuarded : (n : ℕ) → (gs : List (List I2cMsg)) → Decidable (Guarded n gs)
  | _, [] => inferInstanceAs (Decidable True)
  | n, g :: gs =>
      have := instDecidableGuarded (n + total g) gs
      inferInstanceAs (Decidable (_ ∧ _))

/-- A message that the driver can transfer: of a length that an object can have, apart from the
buffer of the driver, and for a 7-bit address. -/
structure I2cMsg.Valid (c : Config) (m : I2cMsg) : Prop where
  len : m.len < 2 ^ 31
  apart : m.buf + m.len ≤ c.msgBuf ∨ c.msgBuf + c.msgBufSize ≤ m.buf
  ne : m.buf ≠ c.msgBuf
  addr : m.addr10Bits = false

/-- Two memories are the same but for the buffer of the driver. -/
def Same (c : Config) (x y : Bytes) : Prop :=
  ∀ i, i < c.msgBuf ∨ c.msgBuf + c.msgBufSize ≤ i → x i = y i

namespace Same

variable {c : Config} {x y z : Bytes}

theorem refl (x : Bytes) : Same c x x := fun _ _ => rfl

theorem trans (h : Same c x y) (h' : Same c y z) : Same c x z :=
  fun i hi => (h i hi).trans (h' i hi)

/-- A write into the buffer. -/
theorem write_buffer (x : Bytes) {a : ℕ} {data : List UInt8} (ha : c.msgBuf ≤ a)
    (hsize : a + data.length ≤ c.msgBuf + c.msgBufSize) : Same c x (x.write a data) := by
  intro i hi
  rw [Bytes.write_outside _ (by omega)]

/-- The same write to both. -/
theorem write (h : Same c x y) (a : ℕ) (data : List UInt8) :
    Same c (x.write a data) (y.write a data) := by
  intro i hi
  unfold Bytes.write
  rw [h i hi]

theorem data {m : I2cMsg} (h : Same c x y) (hm : m.Valid c) : m.data x = m.data y := by
  apply Bytes.slice_congr
  intro i h1 h2
  have hapart := hm.apart
  exact h i (by omega)

theorem gather {g : List I2cMsg} (h : Same c x y) (hg : ∀ m ∈ g, m.Valid c) :
    gather g x = gather g y := by
  unfold Twim.gather
  apply List.flatMap_congr
  exact fun m hm => h.data (hg m hm)

theorem scatter {g : List I2cMsg} (h : Same c x y) (received : List UInt8) :
    Same c (scatter g received x) (scatter g received y) := by
  induction g generalizing received with
  | nil => exact h
  | cons m g ih => exact (ih _).write _ _

end Same

/-! ### Bytes of a group -/

section
variable {c : Config} {m : I2cMsg} {g : List I2cMsg}

@[simp] theorem total_nil : total [] = 0 := rfl

@[simp] theorem total_cons (m : I2cMsg) (g : List I2cMsg) : total (m :: g) = m.len + total g := by
  simp [total]

@[simp] theorem total_append (g g' : List I2cMsg) : total (g ++ g') = total g + total g' := by
  simp [total]

@[simp] theorem total_reverse (g : List I2cMsg) : total g.reverse = total g := by
  induction g with
  | nil => rfl
  | cons m g ih => rw [List.reverse_cons, total_append, ih, total_cons, total_cons, total_nil]; omega

@[simp] theorem data_length (m : I2cMsg) (memory : Bytes) : (m.data memory).length = m.len :=
  Bytes.slice_length _ _ _

theorem gather_append (g g' : List I2cMsg) (memory : Bytes) :
    gather (g ++ g') memory = gather g memory ++ gather g' memory := List.flatMap_append

theorem gather_singleton (m : I2cMsg) (memory : Bytes) : gather [m] memory = m.data memory :=
  List.flatMap_singleton _ _

@[simp] theorem gather_length (g : List I2cMsg) (memory : Bytes) :
    (gather g memory).length = total g := by
  induction g with
  | nil => rfl
  | cons m g ih =>
      have hcons : gather (m :: g) memory = m.data memory ++ gather g memory := List.flatMap_cons
      rw [hcons, List.length_append, data_length, ih, total_cons]

/-- Empty messages get nothing. -/
theorem scatter_empty (hg : total g = 0) (received : List UInt8) (memory : Bytes) :
    scatter g received memory = memory := by
  induction g generalizing received with
  | nil => rfl
  | cons m g ih =>
      rw [total_cons] at hg
      obtain ⟨hm, hg⟩ := Nat.add_eq_zero_iff.mp hg
      rw [scatter, hm, List.take_zero, Bytes.write_nil, ih hg]

/-- The last message gets the rest. -/
theorem scatter_append (g : List I2cMsg) (m : I2cMsg) (received : List UInt8) (memory : Bytes) :
    scatter (g ++ [m]) received memory =
      scatter g (received.take (total g))
        (memory.write m.buf ((received.drop (total g)).take m.len)) := by
  induction g generalizing received with
  | nil => rfl
  | cons n g ih =>
      rw [List.cons_append, scatter, ih, scatter, total_cons, List.drop_drop, List.drop_take,
        List.take_take]
      congr 2
      · congr 1
        omega
      · omega

end

/-! ### Copying back -/

/-- With nothing left the loop goes down to a message that is not empty. -/
theorem copyBack_zero (msgBuf : ℕ) (before : List I2cMsg) (memory : Bytes) :
    copyBack msgBuf before 0 memory = if 0 < total before then some memory else none := by
  induction before with
  | nil => rfl
  | cons m before ih =>
      unfold copyBack
      by_cases hm : m.len = 0
      · rw [if_pos (by omega), hm, Bytes.slice_zero, Bytes.write_nil, Nat.zero_sub, ih, total_cons,
          hm, Nat.zero_add]
      · have hpos : 0 < total (m :: before) := by
          rw [total_cons]
          omega
        rw [if_neg (by omega), if_pos hpos]

/-- The messages of a group get the bytes of the buffer, each its own. -/
theorem copyBack_group {c : Config} {g : List I2cMsg} (hg : ∀ m ∈ g, m.Valid c)
    (hsize : total g ≤ c.msgBufSize) (before : List I2cMsg) (memory : Bytes) :
    copyBack c.msgBuf (g.reverse ++ before) (total g) memory =
      copyBack c.msgBuf before 0 (scatter g (memory.slice c.msgBuf (total g)) memory) := by
  induction g using List.reverseRecOn generalizing memory with
  | nil => rfl
  | append_singleton g m ih =>
      rw [List.forall_mem_append, List.forall_mem_singleton] at hg
      have hapart := hg.2.apart
      rw [total_append, total_cons, total_nil, Nat.add_zero] at hsize ⊢
      have hsplit := Bytes.slice_append memory c.msgBuf (total g) m.len
      have htake : (memory.slice c.msgBuf (total g + m.len)).take (total g) =
          memory.slice c.msgBuf (total g) := by
        rw [hsplit, List.take_left' (Bytes.slice_length _ _ _)]
      have hdrop : ((memory.slice c.msgBuf (total g + m.len)).drop (total g)).take m.len =
          memory.slice (c.msgBuf + total g) m.len := by
        rw [hsplit, List.drop_left' (Bytes.slice_length _ _ _),
          List.take_of_length_le (Bytes.slice_length _ _ _).le]
      have hkeep : (memory.write m.buf (memory.slice (c.msgBuf + total g) m.len)).slice c.msgBuf
          (total g) = memory.slice c.msgBuf (total g) := by
        apply Bytes.slice_write_of_disjoint
        rw [Bytes.slice_length]
        omega
      rw [List.reverse_append, List.reverse_singleton, List.append_assoc, List.singleton_append,
        copyBack, if_pos (by omega), Nat.add_sub_cancel, ih hg.1 (by omega), hkeep, scatter_append,
        htake, hdrop]

end NanoDrone.Twim
