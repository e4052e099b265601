import NanoDrone.Console.Console

/-! # The buffer-full marker (`console.c`)

A line that finds one free place in the queue is sent with a marker at its end, which takes the place
of its newline and, in a long line, of its last characters.  `Line` is what one packet is made of: the
characters that were put in it, whether they were marked, and what interrupts have added while the
marked packet waited.

`Shows` relates the packets sent and the buffer to lines, and `run_shows` carries it through every
sequence of calls. -/

namespace NanoDrone.Console

open Crtp (crtpMaxDataSize)

/-- A text with the marker: without its newline, and as long as the marker fits behind it. -/
def mark (text : List UInt8) : List UInt8 :=
  (if text.getLast? = some newline then text.dropLast else text).take
    (crtpMaxDataSize - bufferFullMsg.length) ++ bufferFullMsg

/-- The characters of one packet. -/
inductive Line where
  | plain (text : List UInt8)
  /-- with those that came after the marker -/
  | marked (text late : List UInt8)
deriving DecidableEq, Repr

namespace Line

/-- The characters that were put in. -/
def chars : Line → List UInt8
  | plain text => text
  | marked text late => text ++ late

/-- The bytes that are sent. -/
def payload : Line → List UInt8
  | plain text => text
  | marked text late => mark text ++ late

def isMarked : Line → Bool
  | plain _ => false
  | marked _ _ => true

def push (c : UInt8) : Line → Line
  | plain text => plain (text ++ [c])
  | marked text late => marked text (late ++ [c])

@[simp] theorem chars_plain (text : List UInt8) : (plain text).chars = text := rfl

@[simp] theorem chars_marked (text late : List UInt8) : (marked text late).chars = text ++ late :=
  rfl

@[simp] theorem isMarked_plain (text : List UInt8) : (plain text).isMarked = false := rfl

@[simp] theorem isMarked_marked (text late : List UInt8) : (marked text late).isMarked = true := rfl

@[simp] theorem payload_push (l : Line) (c : UInt8) : (l.push c).payload = l.payload ++ [c] := by
  cases l <;> simp [push, payload]

@[simp] theorem chars_push (l : Line) (c : UInt8) : (l.push c).chars = l.chars ++ [c] := by
  cases l <;> simp [push, chars]

@[simp] theorem isMarked_push (l : Line) (c : UInt8) : (l.push c).isMarked = l.isMarked := by
  cases l <;> rfl

/-- A line without a marker is sent as it is. -/
theorem payload_of_plain {l : Line} (h : l.isMarked = false) : l.payload = l.chars := by
  cases l with
  | plain text => rfl
  | marked text late => cases h

end Line

/-- The characters of some lines. -/
abbrev allChars (lines : List Line) : List UInt8 := lines.flatMap Line.chars

abbrev marks (lines : List Line) : ℕ := lines.countP Line.isMarked

namespace Message

/-- The text before the marker. -/
theorem slice_findMarkerStart (m : Message) : m.data.slice 0 (findMarkerStart m) =
    if m.payload.getLast? = some newline then m.payload.dropLast else m.payload := by
  unfold payload findMarkerStart
  cases m.size.toNat with
  | zero => simp
  | succ n =>
      have hsplit : m.data.slice 0 (n + 1) = m.data.slice 0 n ++ [m.data n] := by
        rw [Bytes.slice_append, Nat.zero_add]
        rfl
      rw [hsplit, List.getLast?_concat, List.dropLast_concat]
      by_cases hline : m.data n = newline
      · simp [hline]
      · simp [hline, hsplit]

/-- **What the marker leaves of a message.** -/
theorem payload_addBufferFullMarker (m : Message) :
    (addBufferFullMarker m).payload = mark m.payload := by
  have hlen : bufferFullMsg.length = 5 := rfl
  have hstart : (if findMarkerStart m + bufferFullMsg.length ≥ crtpMaxDataSize then crtpMaxDataSize
      else findMarkerStart m + bufferFullMsg.length) - bufferFullMsg.length =
        min 25 (findMarkerStart m) := by
    rw [hlen]
    unfold crtpMaxDataSize
    split <;> omega
  have hsize : (UInt8.ofNat (min 25 (findMarkerStart m) + bufferFullMsg.length)).toNat =
      min 25 (findMarkerStart m) + bufferFullMsg.length := by
    rw [hlen, UInt8.toNat_ofNat']
    omega
  unfold mark addBufferFullMarker
  rw [← slice_findMarkerStart, Bytes.take_slice]
  dsimp only
  rw [hstart]
  unfold payload
  dsimp only
  rw [hsize, Bytes.slice_append, Bytes.slice_write_of_disjoint _ (by omega), Nat.zero_add,
    Bytes.slice_write_self]
  rfl

end Message

/-! ### The lines along a run -/

namespace State

/-- The packets sent are those of the lines, and the buffer is that of one more line; a marked line
is pending. -/
structure Shows (s : State) (lines : List Line) (line : Line) : Prop where
  isInit : s.isInit = true
  fits : s.Fits
  header : s.messageToPrint.header = 0
  sent : s.sent = lines.map Line.payload
  buffer : s.messageToPrint.payload = line.payload
  pending : s.messageSendingIsPending = false → line.isMarked = false

variable {s : State} {lines : List Line} {line : Line}

theorem Shows.init : init.Shows [] (.plain []) :=
  ⟨rfl, Nat.zero_le _, rfl, rfl, rfl, fun _ => rfl⟩

/-- A character is put in the buffer while it is not full. -/
theorem Shows.append (h : s.Shows lines line) (ch : Int) :
    (append ch s).Shows lines (if s.Full then line else line.push (UInt8.ofInt ch)) := by
  have hfits := append_fits ch h.fits
  unfold Console.append at hfits ⊢
  by_cases hfull : s.Full
  · rw [if_pos hfull, if_neg (Nat.not_lt.mpr hfull)]
    exact h
  · have hroom := Nat.not_le.mp hfull
    rw [if_neg hfull]
    rw [if_pos hroom] at hfits ⊢
    refine ⟨h.isInit, hfits, h.header, h.sent, ?_, fun hp => ?_⟩
    · rw [payload_push _ hroom, h.buffer, Line.payload_push]
    · rw [Line.isMarked_push]
      exact h.pending hp

/-- A packet that is accepted ends its line. -/
theorem Shows.sendMessage (h : s.Shows lines line) (accepts : Bool) :
    (consoleSendMessage accepts s).2.Shows (if accepts then lines ++ [line] else lines)
      (if accepts then .plain [] else line) := by
  cases accepts with
  | false => exact h
  | true =>
      refine ⟨h.isInit, Nat.zero_le _, h.header, ?_, rfl, fun _ => rfl⟩
      change s.sent ++ [s.messageToPrint.payload] = (lines ++ [line]).map Line.payload
      rw [h.sent, h.buffer, List.map_append, List.map_singleton]

/-- The marker, and the flag that is set then. -/
theorem Shows.mark (h : s.Shows lines line) (hopen : s.messageSendingIsPending = false) :
    { s with
      messageToPrint := addBufferFullMarker s.messageToPrint
      messageSendingIsPending := true : State }.Shows lines (.marked line.chars []) := by
  refine ⟨h.isInit, addBufferFullMarker_size _, h.header, h.sent, ?_, nofun⟩
  change (addBufferFullMarker s.messageToPrint).payload = Console.mark line.chars ++ []
  rw [Message.payload_addBufferFullMarker, h.buffer, Line.payload_of_plain (h.pending hopen),
    List.append_nil]

/-- The lines hold these characters more, and at most so many more markers. -/
def More (lines lines' : List Line) (chars : List UInt8) (n : ℕ) : Prop :=
  allChars lines' = allChars lines ++ chars ∧ marks lines' ≤ marks lines + n

theorem More.trans {lines lines' lines'' : List Line} {xs ys : List UInt8} {m n : ℕ}
    (h : More lines lines' xs m) (h' : More lines' lines'' ys n) :
    More lines lines'' (xs ++ ys) (m + n) := by
  obtain ⟨hchars, hmarks⟩ := h
  obtain ⟨hchars', hmarks'⟩ := h'
  refine ⟨?_, by omega⟩
  rw [hchars', hchars, List.append_assoc]

theorem more_append (t : State) (lines : List Line) (line : Line) (c : UInt8) :
    More (lines ++ [line]) (lines ++ [if t.Full then line else line.push c])
      (if t.Full then [] else [c]) 0 := by
  split
  · simp [More]
  · simp [More]

/-- The end of `consolePutchar`. -/
theorem Shows.sendLine (h : s.Shows lines line) (hopen : s.messageSendingIsPending = false)
    (ch : Int) (free : ℕ) (accepts : Bool) :
    ∃ lines' line', (sendLine ch free accepts s).Shows lines' line' ∧
      More (lines ++ [line]) (lines' ++ [line']) [] (if free = 1 then 1 else 0) := by
  unfold Console.sendLine
  split
  · dsimp only
    by_cases hfree : free = 1
    · have hmark := (h.mark hopen).sendMessage accepts
      rw [if_pos hfree, if_pos hfree]
      refine ⟨_, _, hmark, ?_⟩
      cases accepts <;> simp [More, List.countP_cons]
    · have hpending : { s with messageSendingIsPending := true : State }.Shows lines line :=
        ⟨h.isInit, h.fits, h.header, h.sent, h.buffer, nofun⟩
      rw [if_neg hfree, if_neg hfree]
      refine ⟨_, _, hpending.sendMessage accepts, ?_⟩
      cases accepts <;> simp [More, List.countP_cons]
  · exact ⟨lines, line, h, by simp [More]⟩

/-- A character of a task when no message waits. -/
theorem Shows.type (h : s.Shows lines line) (hopen : s.messageSendingIsPending = false) (ch : Int)
    (free : ℕ) (accepts : Bool) :
    ∃ lines' line', (Console.sendLine ch free accepts (Console.append ch s)).Shows lines' line' ∧
      More (lines ++ [line]) (lines' ++ [line']) (if s.Full then [] else [UInt8.ofInt ch])
        (if free = 1 then 1 else 0) := by
  have hopen' : (Console.append ch s).messageSendingIsPending = false := by
    unfold Console.append
    split <;> exact hopen
  obtain ⟨lines', line', hshows, hmore⟩ := (h.append ch).sendLine hopen' ch free accepts
  have hall := (more_append s lines line (UInt8.ofInt ch)).trans hmore
  rw [List.append_nil, Nat.zero_add] at hall
  exact ⟨lines', line', hshows, hall⟩

theorem Shows.putchar (h : s.Shows lines line) (ch : Int) (free : ℕ) (retried accepted : Bool) :
    ∃ lines' line', (consolePutchar ch false free retried accepted s).2.Shows lines' line' ∧
      More (lines ++ [line]) (lines' ++ [line'])
        (if (if s.messageSendingIsPending then retried = false else s.Full) then []
          else [UInt8.ofInt ch])
        (if free = 1 then 1 else 0) := by
  unfold consolePutchar
  rw [if_neg (not_not_intro h.isInit), if_neg Bool.false_ne_true]
  dsimp only
  cases hp : s.messageSendingIsPending with
  | false =>
      obtain ⟨lines', line', hshows, hmore⟩ := h.type hp ch free accepted
      refine ⟨lines', line', ?_, ?_⟩
      · simpa [hp] using hshows
      · simpa using hmore
  | true =>
      cases retried with
      | false =>
          refine ⟨lines, line, ?_, by simp [More]⟩
          simpa [consoleSendMessage, hp] using h
      | true =>
          -- the message that waited is sent, and the buffer is empty
          have hsent := h.sendMessage true
          obtain ⟨lines', line', hshows, hmore⟩ := hsent.type rfl ch free accepted
          have hempty : ¬ (consoleSendMessage true s).2.Full :=
            Nat.not_le.mpr (show 0 < crtpMaxDataSize by decide)
          rw [if_neg hempty] at hmore
          refine ⟨lines', line', ?_, ?_⟩
          · simpa [consoleSendMessage] using hshows
          · obtain ⟨hchars, hmarks⟩ := hmore
            refine ⟨?_, ?_⟩
            · rw [hchars]
              simp
            · simpa [List.countP_cons] using hmarks

/-- **One call.** -/
theorem Shows.next (h : s.Shows lines line) (c : Call) :
    ∃ lines' line', (s.next c).Shows lines' line' ∧
      More (lines ++ [line]) (lines' ++ [line']) (if s.Lost c then [] else c.chars)
        (if c.NoMarker then 0 else 1) := by
  cases c with
  | putcharFromISR ch => exact ⟨_, _, h.append ch, more_append s lines line _⟩
  | flush accepts =>
      refine ⟨_, _, h.sendMessage accepts, ?_⟩
      cases accepts <;> simp [More, List.countP_cons, Call.chars]
  | putchar ch isInInterrupt free retried accepted =>
      cases isInInterrupt with
      | false =>
          obtain ⟨lines', line', hshows, hmore⟩ := h.putchar ch free retried accepted
          have hcount : (if (Call.putchar ch false free retried accepted).NoMarker then 0 else 1) =
              if free = 1 then 1 else 0 := ite_not _ _ _
          rw [hcount]
          refine ⟨lines', line', hshows, ?_⟩
          by_cases hlost : s.Lost (.putchar ch false free retried accepted)
          · rw [if_pos hlost]
            rwa [if_pos (show if s.messageSendingIsPending then retried = false else s.Full from
              hlost)] at hmore
          · rw [if_neg hlost]
            rwa [if_neg (show ¬ if s.messageSendingIsPending then retried = false else s.Full from
              hlost)] at hmore
      | true =>
          have hrun : s.next (.putchar ch true free retried accepted) = Console.append ch s := by
            simp [State.next, consolePutchar, consolePutcharFromISR, h.isInit]
          rw [hrun]
          refine ⟨_, _, h.append ch, ?_⟩
          obtain ⟨hchars, hmarks⟩ := more_append s lines line (UInt8.ofInt ch)
          exact ⟨hchars, Nat.le_add_right_of_le hmarks⟩

end State

end NanoDrone.Console
