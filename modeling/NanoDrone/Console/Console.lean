import NanoDrone.Crtp.Crtp
import NanoDrone.Lib.Bytes
import Mathlib.Algebra.Ring.Nat

/-! # The console (`console.c`)

Characters are gathered in one packet, which is sent when a line ends, when it is full or on a
flush.  A packet that is refused stays pending and is tried again with the next character of a task;
an interrupt only appends.

Every call is taken to obtain the semaphore, so calls come one after the other.  `printed_eq` says
which characters reach the client: all but those that came while a message was pending or the
buffer was full. -/

namespace NanoDrone.Console

open Crtp (crtpMaxDataSize)

/-- The packet `messageToPrint`. -/
structure Message where
  size : UInt8
  header : UInt8
  data : Bytes

namespace Message

/-- The characters in the packet. -/
def payload (m : Message) : List UInt8 := m.data.slice 0 m.size.toNat

def push (m : Message) (c : UInt8) : Message :=
  { m with data := m.data.write m.size.toNat [c], size := m.size + 1 }

end Message

structure State where
  isInit : Bool
  messageToPrint : Message
  messageSendingIsPending : Bool
  /-- the payloads of the packets that `crtpSendPacket` has accepted -/
  sent : List (List UInt8)

/-- `bufferFullMsg`, with its zero. -/
def bufferFullMsg : List UInt8 := [0x3C, 0x46, 0x3E, 0x0A, 0x00]

def newline : UInt8 := 0x0A

/-- `consoleSendMessage`; `accepts` is whether `crtpSendPacket` returns zero. -/
def consoleSendMessage (accepts : Bool) (s : State) : Bool × State :=
  if accepts then
    (true, { s with
      messageToPrint := { s.messageToPrint with size := 0 }
      messageSendingIsPending := false
      sent := s.sent ++ [s.messageToPrint.payload] })
  else (false, s)

/-- `consoleInit`; the header is that of `CRTP_PORT_CONSOLE` and channel 0. -/
def consoleInit (s : State) : State :=
  if s.isInit then s
  else { s with
    messageToPrint := { s.messageToPrint with size := 0, header := 0x00 }
    messageSendingIsPending := false
    isInit := true }

def findMarkerStart (m : Message) : ℕ :=
  let start := m.size.toNat
  if start > 0 ∧ m.data (start - 1) = newline then start - 1 else start

def addBufferFullMarker (m : Message) : Message :=
  let endMarker := findMarkerStart m + bufferFullMsg.length
  let endMarker := if endMarker ≥ crtpMaxDataSize then crtpMaxDataSize else endMarker
  let startMarker := endMarker - bufferFullMsg.length
  { m with
    data := m.data.write startMarker bufferFullMsg
    size := UInt8.ofNat (startMarker + bufferFullMsg.length) }

/-- A character is appended if there is room. -/
def append (ch : Int) (s : State) : State :=
  if s.messageToPrint.size.toNat < crtpMaxDataSize then
    { s with messageToPrint := s.messageToPrint.push (UInt8.ofInt ch) }
  else s

def consolePutcharFromISR (ch : Int) (s : State) : Int × State := (ch, append ch s)

/-- The end of `consolePutchar`: a line that is complete or a full packet is sent.  `free` is what
`crtpGetFreeTxQueuePackets` returns. -/
def sendLine (ch : Int) (free : ℕ) (accepts : Bool) (s : State) : State :=
  if ch = newline.toNat ∨ s.messageToPrint.size.toNat ≥ crtpMaxDataSize then
    let s :=
      if free = 1 then { s with messageToPrint := addBufferFullMarker s.messageToPrint } else s
    (consoleSendMessage accepts { s with messageSendingIsPending := true }).2
  else s

/-- `consolePutchar`; `retried` and `accepted` are the answers to a pending message and to a new
one. -/
def consolePutchar (ch : Int) (isInInterrupt : Bool) (free : ℕ) (retried accepted : Bool)
    (s : State) : Int × State :=
  if ¬ s.isInit then (0, s)
  else if isInInterrupt then consolePutcharFromISR ch s
  else
    let s := if s.messageSendingIsPending then (consoleSendMessage retried s).2 else s
    let s := if ¬ s.messageSendingIsPending then sendLine ch free accepted (append ch s) else s
    ((UInt8.ofInt ch).toNat, s)

def consoleFlush (accepts : Bool) (s : State) : State := (consoleSendMessage accepts s).2

/-! ### Runs -/

inductive Call where
  | putchar (ch : Int) (isInInterrupt : Bool) (free : ℕ) (retried accepted : Bool)
  | putcharFromISR (ch : Int)
  | flush (accepts : Bool)
deriving DecidableEq, Repr

/-- No buffer-full marker is added: the queue has not exactly one place left. -/
def Call.NoMarker : Call → Prop
  | putchar _ _ free _ _ => free ≠ 1
  | putcharFromISR _ | flush _ => True

instance : DecidablePred Call.NoMarker
  | .putchar _ _ free _ _ => inferInstanceAs (Decidable (free ≠ 1))
  | .putcharFromISR _ | .flush _ => isTrue trivial

/-- The character that a call passes in. -/
def Call.chars : Call → List UInt8
  | putchar ch _ _ _ _ | putcharFromISR ch => [UInt8.ofInt ch]
  | flush _ => []

namespace State

def next (s : State) : Call → State
  | .putchar ch isInInterrupt free retried accepted =>
      (consolePutchar ch isInInterrupt free retried accepted s).2
  | .putcharFromISR ch => (consolePutcharFromISR ch s).2
  | .flush accepts => consoleFlush accepts s

/-- The accepted payloads, and then the buffer. -/
def printed (s : State) : List UInt8 := s.sent.flatten ++ s.messageToPrint.payload

/-- The buffer is full. -/
def Full (s : State) : Prop := crtpMaxDataSize ≤ s.messageToPrint.size.toNat

instance (s : State) : Decidable s.Full := inferInstanceAs (Decidable (_ ≤ _))

/-- A character of a task is lost while a message waits after its retry, and one of an interrupt
while the buffer is full. -/
def LostWaiting (s : State) : Call → Prop
  | .putchar _ false _ retried _ => s.messageSendingIsPending = true ∧ retried = false
  | .putchar _ true _ _ _ | .putcharFromISR _ => s.Full
  | .flush _ => False

instance (s : State) : DecidablePred s.LostWaiting
  | .putchar _ false _ _ _ => inferInstanceAs (Decidable (_ ∧ _))
  | .putchar _ true _ _ _ | .putcharFromISR _ => inferInstanceAs (Decidable s.Full)
  | .flush _ => isFalse id

/-- A character of a task is also lost when no message waits but the buffer is full. -/
def Lost (s : State) : Call → Prop
  | .putchar _ false _ retried _ =>
      if s.messageSendingIsPending then retried = false else s.Full
  | .putchar _ true _ _ _ | .putcharFromISR _ => s.Full
  | .flush _ => False

instance (s : State) : DecidablePred s.Lost
  | .putchar _ false _ retried _ =>
      inferInstanceAs (Decidable (if s.messageSendingIsPending then retried = false else s.Full))
  | .putchar _ true _ _ _ | .putcharFromISR _ => inferInstanceAs (Decidable s.Full)
  | .flush _ => isFalse id

end State

/-- The characters passed in along a run, without those that `lost` says. -/
def charsExcept (lost : State → Call → Prop) [∀ s c, Decidable (lost s c)] :
    List Call → State → List UInt8
  | [], _ => []
  | c :: rest, s => (if lost s c then [] else c.chars) ++ charsExcept lost rest (s.next c)

/-- The state after `consoleInit`. -/
def init : State := consoleInit ⟨false, ⟨0, 0, fun _ => 0⟩, false, []⟩

def run (calls : List Call) (s : State) : State := calls.foldl State.next s

/-! ### What one call does -/

namespace State

variable {s : State}

/-- The packet is no longer than it may be. -/
def Fits (s : State) : Prop := s.messageToPrint.size.toNat ≤ crtpMaxDataSize

theorem size_push {m : Message} (c : UInt8) (h : m.size.toNat < crtpMaxDataSize) :
    (m.push c).size.toNat = m.size.toNat + 1 := by
  have hone : (1 : UInt8).toNat = 1 := rfl
  unfold crtpMaxDataSize at h
  change (m.size + 1).toNat = _
  rw [UInt8.toNat_add, hone]
  omega

theorem payload_push {m : Message} (c : UInt8) (h : m.size.toNat < crtpMaxDataSize) :
    (m.push c).payload = m.payload ++ [c] := by
  unfold Message.payload
  rw [size_push c h]
  change (m.data.write m.size.toNat [c]).slice 0 (m.size.toNat + 1) = _
  rw [Bytes.slice_append, Bytes.slice_write_of_disjoint _ (by omega), Nat.zero_add]
  congr 1
  exact Bytes.slice_write_self m.data m.size.toNat [c]

theorem append_fits (ch : Int) (h : s.Fits) : (append ch s).Fits := by
  unfold append
  split
  · rename_i hroom
    change (s.messageToPrint.push _).size.toNat ≤ _
    rw [size_push _ hroom]
    exact hroom
  · exact h

theorem append_printed (ch : Int) :
    (append ch s).printed = s.printed ++ if s.Full then [] else [UInt8.ofInt ch] := by
  unfold append printed
  by_cases hfull : s.Full
  · rw [if_neg (Nat.not_lt.mpr hfull), if_pos hfull, List.append_nil]
  · have hroom := Nat.not_le.mp hfull
    rw [if_pos hroom, if_neg hfull]
    dsimp only
    rw [payload_push _ hroom, List.append_assoc]

theorem consoleSendMessage_fits (accepts : Bool) (h : s.Fits) :
    (consoleSendMessage accepts s).2.Fits := by
  unfold consoleSendMessage
  split
  · exact Nat.zero_le _
  · exact h

/-- A packet that is accepted is followed by an empty buffer. -/
theorem consoleSendMessage_printed (accepts : Bool) :
    (consoleSendMessage accepts s).2.printed = s.printed := by
  unfold consoleSendMessage printed
  split
  · change (s.sent ++ [s.messageToPrint.payload]).flatten ++ [] = _
    rw [List.flatten_append, List.append_nil, List.flatten_singleton]
  · rfl

theorem addBufferFullMarker_size (m : Message) :
    (addBufferFullMarker m).size.toNat ≤ crtpMaxDataSize := by
  have hlen : bufferFullMsg.length = 5 := rfl
  unfold addBufferFullMarker crtpMaxDataSize
  dsimp only
  rw [UInt8.toNat_ofNat', hlen]
  split <;> omega

theorem sendLine_fits (ch : Int) (free : ℕ) (accepts : Bool) (h : s.Fits) :
    (sendLine ch free accepts s).Fits := by
  unfold sendLine
  split
  · dsimp only
    apply consoleSendMessage_fits
    split
    · exact addBufferFullMarker_size s.messageToPrint
    · exact h
  · exact h

theorem sendLine_printed (ch : Int) {free : ℕ} (accepts : Bool) (hfree : free ≠ 1) :
    (sendLine ch free accepts s).printed = s.printed := by
  unfold sendLine
  rw [if_neg hfree]
  split
  · exact consoleSendMessage_printed accepts
  · rfl

theorem consolePutchar_fits (ch : Int) (isInInterrupt : Bool) (free : ℕ) (retried accepted : Bool)
    (h : s.Fits) : (consolePutchar ch isInInterrupt free retried accepted s).2.Fits := by
  unfold consolePutchar
  split
  · exact h
  · split
    · exact append_fits ch h
    · have hline : ∀ t : State, t.Fits → (if ¬ t.messageSendingIsPending then
          sendLine ch free accepted (append ch t) else t).Fits := by
        intro t ht
        split
        · exact sendLine_fits ch free accepted (append_fits ch ht)
        · exact ht
      apply hline
      split
      · exact consoleSendMessage_fits retried h
      · exact h

/-- A character of a task is lost if a message still waits after its retry, or if none waited and
the buffer was full. -/
theorem consolePutchar_printed (ch : Int) {free : ℕ} (retried accepted : Bool)
    (hinit : s.isInit = true) (hfree : free ≠ 1) :
    (consolePutchar ch false free retried accepted s).2.printed =
      s.printed ++ if (if s.messageSendingIsPending then retried = false else s.Full) then []
        else [UInt8.ofInt ch] := by
  unfold consolePutchar
  rw [if_neg (not_not_intro hinit), if_neg Bool.false_ne_true]
  dsimp only
  by_cases hpending : s.messageSendingIsPending = true
  · rw [if_pos hpending]
    cases retried with
    | false =>
        change (if ¬ s.messageSendingIsPending then _ else s).printed = _
        rw [if_neg (not_not_intro hpending)]
        simp [hpending]
    | true =>
        have hempty : ¬ (consoleSendMessage true s).2.Full := by
          change ¬ crtpMaxDataSize ≤ 0
          decide
        rw [if_pos (by exact Bool.false_ne_true), sendLine_printed ch accepted hfree,
          append_printed, if_neg hempty, consoleSendMessage_printed]
        simp [hpending]
  · rw [if_neg hpending, if_pos hpending, sendLine_printed ch accepted hfree, append_printed]
    simp [hpending]

/-! ### Runs -/

@[simp] theorem append_isInit (ch : Int) : (append ch s).isInit = s.isInit := by
  unfold append
  split <;> rfl

@[simp] theorem consoleSendMessage_isInit (accepts : Bool) :
    (consoleSendMessage accepts s).2.isInit = s.isInit := by
  unfold consoleSendMessage
  split <;> rfl

@[simp] theorem sendLine_isInit (ch : Int) (free : ℕ) (accepts : Bool) :
    (sendLine ch free accepts s).isInit = s.isInit := by
  unfold sendLine
  split
  · dsimp only
    rw [consoleSendMessage_isInit]
    split <;> rfl
  · rfl

theorem next_isInit (c : Call) : (s.next c).isInit = s.isInit := by
  cases c with
  | putcharFromISR ch => exact append_isInit ch
  | flush accepts => exact consoleSendMessage_isInit accepts
  | putchar ch isInInterrupt free retried accepted =>
      change (consolePutchar ch isInInterrupt free retried accepted s).2.isInit = _
      unfold consolePutchar
      split
      · rfl
      · split
        · exact append_isInit ch
        · by_cases hpending : s.messageSendingIsPending = true <;>
          · simp only [hpending, Bool.false_eq_true, ↓reduceIte]
            split <;> simp

theorem next_fits (c : Call) (h : s.Fits) : (s.next c).Fits := by
  cases c with
  | putchar ch isInInterrupt free retried accepted =>
      exact consolePutchar_fits ch isInInterrupt free retried accepted h
  | putcharFromISR ch => exact append_fits ch h
  | flush accepts => exact consoleSendMessage_fits accepts h

/-- A call adds the character that it passes in, unless that is lost. -/
theorem next_printed {c : Call} (hinit : s.isInit = true) (hc : c.NoMarker) :
    (s.next c).printed = s.printed ++ if s.Lost c then [] else c.chars := by
  cases c with
  | putcharFromISR ch => exact append_printed ch
  | flush accepts =>
      change (consoleSendMessage accepts s).2.printed = s.printed ++ []
      rw [consoleSendMessage_printed, List.append_nil]
  | putchar ch isInInterrupt free retried accepted =>
      cases isInInterrupt with
      | false => exact consolePutchar_printed ch retried accepted hinit hc
      | true =>
          change (consolePutchar ch true free retried accepted s).2.printed = _
          unfold consolePutchar
          rw [if_neg (not_not_intro hinit), if_pos rfl]
          exact append_printed ch

theorem run_printed {calls : List Call} (hinit : s.isInit = true)
    (hcalls : ∀ c ∈ calls, c.NoMarker) :
    (run calls s).printed = s.printed ++ charsExcept State.Lost calls s := by
  induction calls generalizing s with
  | nil => exact (List.append_nil _).symm
  | cons c rest ih =>
      have hc := next_printed hinit (hcalls c List.mem_cons_self)
      have hrest := ih ((next_isInit c).trans hinit)
        fun c hc => hcalls c (List.mem_cons_of_mem _ hc)
      change (run rest (s.next c)).printed =
        s.printed ++ (_ ++ charsExcept State.Lost rest (s.next c))
      rw [hrest, hc, List.append_assoc]

theorem run_fits {calls : List Call} (h : s.Fits) : (run calls s).Fits := by
  induction calls generalizing s with
  | nil => exact h
  | cons c rest ih => exact ih (next_fits c h)

end State

/-- **What the console prints.**  After every sequence of calls that adds no buffer-full marker the
packet fits, and the accepted payloads and the buffer are the characters passed in, in order,
except those of tasks that came while a message waited after its retry, or while none waited and
the buffer was full, and those of interrupts that came while the buffer was full. -/
theorem printed_eq (calls : List Call) (hcalls : ∀ c ∈ calls, c.NoMarker) :
    (run calls init).messageToPrint.size.toNat ≤ crtpMaxDataSize ∧
    (run calls init).sent.flatten ++ (run calls init).messageToPrint.payload =
      charsExcept State.Lost calls init :=
  ⟨State.run_fits (Nat.zero_le _), State.run_printed rfl hcalls⟩

/-- A task's line is sent when it ends, and what an interrupt appends then waits. -/
theorem printed_line : (run [.putchar 0x62 false 5 true true, .putchar 0x0A false 5 true true,
      .putcharFromISR 0x63] init).messageToPrint.size.toNat ≤ crtpMaxDataSize ∧
    [0x62, 0x0A] ++ [0x63] = charsExcept State.Lost [.putchar 0x62 false 5 true true,
      .putchar 0x0A false 5 true true, .putcharFromISR 0x63] init :=
  printed_eq _ (by decide)

/-- An interrupt fills the buffer; a task's character that then comes is lost, though no message
waits. -/
theorem full_buffer_loses_character : ¬ ∀ calls : List Call, (∀ c ∈ calls, c.NoMarker) →
    (run calls init).messageToPrint.size.toNat ≤ crtpMaxDataSize ∧
    (run calls init).sent.flatten ++ (run calls init).messageToPrint.payload =
      charsExcept State.LostWaiting calls init := by
  intro h
  have hbad := (h (List.replicate 30 (.putcharFromISR 0x61) ++ [.putchar 0x62 false 5 true true])
    (by decide)).2
  revert hbad
  decide +kernel

end NanoDrone.Console
