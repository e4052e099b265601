import NanoDrone.Console.Lines
import NanoDrone.Crtp.AppChannel

/-! # From the console to the link (`console.c` over `crtp.c`)

Here the console gets its answers from the transmit queue.  Between its test of the queue and its
puts other tasks may put packets of other ports and `crtpTxTask` may take some out: `free` and `send`
are what happens before the test and before the put of a line.

`console_delivered` says what a client can make of the packets of the console that the link has
accepted, in every such run. -/

namespace NanoDrone.Console

open Crtp (CRTPPacket TxState TxTask TxEvent crtpMaxDataSize crtpTxQueueSize)

/-- `CRTP_PORT_CONSOLE`. -/
def crtpPortConsole : Crtp.Port := ⟨0x00, Nat.zero_lt_succ _⟩

/-- What the queue copies. -/
def Message.packet (m : Message) : CRTPPacket :=
  ⟨m.size, m.header, m.data.slice 0 crtpMaxDataSize⟩

/-- The packets of the console among others, as their bytes. -/
def consolePayloads (ps : List CRTPPacket) : List (List UInt8) :=
  (ps.filter (·.port = crtpPortConsole)).map CRTPPacket.payload

/-- The console and the transmit queue with its task. -/
structure Wired where
  console : State
  tx : TxState

namespace Wired

def crtpGetFreeTxQueuePackets (s : Wired) : ℕ := crtpTxQueueSize - s.tx.txQueue.items.length

/-- The answer that `crtpSendPacket` would give to the message. -/
def accepts (s : Wired) : Bool := (s.tx.txQueue.put s.console.messageToPrint.packet).1

def consoleSendMessage (s : Wired) : Wired :=
  ⟨(Console.consoleSendMessage s.accepts s.console).2,
    s.tx.crtpSendPacket s.console.messageToPrint.packet⟩

def meanwhile (events : List TxEvent) (s : Wired) : Wired :=
  { s with tx := events.foldl TxState.next s.tx }

def append (ch : Int) (s : Wired) : Wired := { s with console := Console.append ch s.console }

/-- A message that waits is tried again. -/
def retry (s : Wired) : Wired :=
  if s.console.messageSendingIsPending then s.consoleSendMessage else s

/-- A line is complete. -/
def complete (free : List TxEvent) (s : Wired) : Wired :=
  let s := s.meanwhile free
  { s with console := { s.console with
      messageToPrint :=
        if s.crtpGetFreeTxQueuePackets = 1 then addBufferFullMarker s.console.messageToPrint
        else s.console.messageToPrint
      messageSendingIsPending := true } }

/-- The end of `consolePutchar`. -/
def sendLine (ch : Int) (free send : List TxEvent) (s : Wired) : Wired :=
  if ch = newline.toNat ∨ s.console.messageToPrint.size.toNat ≥ crtpMaxDataSize then
    ((s.complete free).meanwhile send).consoleSendMessage
  else s

def consolePutchar (ch : Int) (isInInterrupt : Bool) (free send : List TxEvent) (s : Wired) :
    Wired :=
  if ¬ s.console.isInit then s
  else if isInInterrupt then s.append ch
  else if ¬ s.retry.console.messageSendingIsPending then
    (s.retry.append ch).sendLine ch free send
  else s.retry

/-- What happens, with the steps of others that come in between. -/
inductive Event where
  | putchar (ch : Int) (isInInterrupt : Bool) (free send : List TxEvent)
  | putcharFromISR (ch : Int)
  | flush
  | tx (e : TxEvent)

def next (s : Wired) : Event → Wired
  | .putchar ch isInInterrupt free send => s.consolePutchar ch isInInterrupt free send
  | .putcharFromISR ch => s.append ch
  | .flush => s.consoleSendMessage
  | .tx e => s.meanwhile [e]

def run (events : List Event) (s : Wired) : Wired := events.foldl next s

/-- After `consoleInit`, without a link. -/
def init : Wired := ⟨Console.init, .init⟩

/-- Others do not use the port of the console, and the link is not taken away. -/
def Ordinary : TxEvent → Prop
  | .sendPacket p => p.port ≠ crtpPortConsole
  | .setLink lk => lk ≠ none
  | .txTask _ _ => True

def Event.Ordinary : Event → Prop
  | putchar _ _ free send => ∀ e ∈ free ++ send, Wired.Ordinary e
  | putcharFromISR _ | flush => True
  | tx e => Wired.Ordinary e

/-- The call of the console, with the answers that it gets. -/
def call (s : Wired) : Event → Option Call
  | .putchar ch isInInterrupt free send =>
      let t := s.retry.append ch
      some (.putchar ch isInInterrupt (t.meanwhile free).crtpGetFreeTxQueuePackets s.accepts
        ((t.complete free).meanwhile send).accepts)
  | .putcharFromISR ch => some (.putcharFromISR ch)
  | .flush => some (.flush s.accepts)
  | .tx _ => none

/-- The characters that are not lost. -/
def charsKept : List Event → Wired → List UInt8
  | [], _ => []
  | e :: rest, s =>
      (match s.call e with
        | some c => if s.console.Lost c then [] else c.chars
        | none => []) ++ charsKept rest (s.next e)

/-- The calls that find one free place. -/
def markers : List Event → Wired → ℕ
  | [], _ => 0
  | e :: rest, s =>
      (match s.call e with
        | some c => if c.NoMarker then 0 else 1
        | none => 0) + markers rest (s.next e)

/-! ### The console -/

@[simp] theorem meanwhile_console (events : List TxEvent) (s : Wired) :
    (s.meanwhile events).console = s.console := rfl

theorem sendLine_console (ch : Int) (free send : List TxEvent) (s : Wired) :
    (s.sendLine ch free send).console =
      Console.sendLine ch (s.meanwhile free).crtpGetFreeTxQueuePackets
        ((s.complete free).meanwhile send).accepts s.console := by
  unfold sendLine Console.sendLine
  by_cases hline : ch = newline.toNat ∨ s.console.messageToPrint.size.toNat ≥ crtpMaxDataSize
  · rw [if_pos hline, if_pos hline]
    by_cases hfree : (s.meanwhile free).crtpGetFreeTxQueuePackets = 1
    · simp [consoleSendMessage, complete, hfree]
    · simp [consoleSendMessage, complete, hfree]
  · rw [if_neg hline, if_neg hline]

theorem retry_console (s : Wired) : s.retry.console =
    if s.console.messageSendingIsPending then
      (Console.consoleSendMessage s.accepts s.console).2
    else s.console := by
  unfold retry
  split <;> rfl

/-- The console does what it does with these answers. -/
theorem next_console (s : Wired) (e : Event) :
    (s.next e).console = match s.call e with
      | some c => s.console.next c
      | none => s.console := by
  cases e with
  | tx e => rfl
  | flush => rfl
  | putcharFromISR ch => rfl
  | putchar ch isInInterrupt free send =>
      simp only [next, call, State.next]
      unfold consolePutchar Console.consolePutchar
      by_cases hinit : s.console.isInit = true
      · rw [if_neg (not_not_intro hinit), if_neg (not_not_intro hinit)]
        cases isInInterrupt with
        | true => rfl
        | false =>
            simp only [Bool.false_eq_true, ↓reduceIte, ← retry_console]
            by_cases hp : s.retry.console.messageSendingIsPending = true
            · simp only [hp, not_true_eq_false, ↓reduceIte]
            · simp only [hp, Bool.false_eq_true, not_false_eq_true, ↓reduceIte, sendLine_console]
              rfl
      · rw [if_pos hinit, if_pos hinit]

/-! ### The queue -/

theorem consolePayloads_append (ps qs : List CRTPPacket) :
    consolePayloads (ps ++ qs) = consolePayloads ps ++ consolePayloads qs := by
  simp [consolePayloads]

/-- The packet of a message has its characters, for the port of the console. -/
theorem consolePayloads_packet {m : Message} (hsize : m.size.toNat ≤ crtpMaxDataSize)
    (hheader : m.header = 0) : consolePayloads [m.packet] = [m.payload] := by
  have hport : m.packet.port = crtpPortConsole := by
    unfold Message.packet CRTPPacket.port crtpPortConsole
    simp [hheader]
  have hpayload : m.packet.payload = m.payload := by
    unfold Message.packet CRTPPacket.payload Message.payload
    rw [Bytes.take_slice, Nat.min_eq_left hsize]
  simp [consolePayloads, hport, hpayload]

/-- The link has been there since the task has got past its test. -/
structure Linked (t : TxState) : Prop where
  tested : t.link = .nop → t.txTask = .testing ∨ t.txTask = .idling
  called : ∀ p, t.txTask ≠ .calling p .nop

@[simp] theorem updateStats_link (now : ℕ) (t : TxState) :
    (TxState.updateStats now t).link = t.link := by
  unfold TxState.updateStats
  split <;> rfl

theorem Linked.crtpTxTask {t : TxState} (h : Linked t) (accepts : Bool) (now : ℕ) :
    Linked (t.crtpTxTask accepts now) := by
  have hreal : ∀ {task : TxTask}, t.txTask = task → task ≠ .testing → task ≠ .idling →
      t.link ≠ .nop := by
    intro task ht h1 h2 hnop
    rcases h.tested hnop with h3 | h3
    · exact h1 (ht.symm.trans h3)
    · exact h2 (ht.symm.trans h3)
  unfold TxState.crtpTxTask
  split
  · -- the task tests the link
    by_cases hlink : t.link = .nop
    · simp only [hlink, ne_eq, not_true_eq_false, ↓reduceIte]
      exact ⟨fun _ => .inr rfl, nofun⟩
    · simp only [hlink, ne_eq, not_false_eq_true, ↓reduceIte]
      exact ⟨fun hnop => absurd hnop hlink, nofun⟩
  · exact ⟨fun _ => .inl rfl, nofun⟩
  · rename_i ht
    split
    · exact h
    · exact ⟨fun hnop => absurd hnop (hreal ht nofun nofun), nofun⟩
  · rename_i p ht
    have hlink := hreal ht nofun nofun
    refine ⟨fun hnop => absurd hnop hlink, fun q hq => ?_⟩
    exact hlink (TxTask.calling.inj hq).2
  · rename_i p link ht
    have hlink := hreal ht nofun nofun
    refine ⟨fun hnop => absurd hnop hlink, fun q hq => ?_⟩
    dsimp only at hq
    split at hq <;> cases hq
  · rename_i p ht
    exact ⟨fun hnop => absurd hnop (hreal ht nofun nofun), nofun⟩
  · refine ⟨fun _ => .inl ?_, fun q hq => ?_⟩
    · simp
    · simp at hq

/-- What is queued is delivered, and the packets of the console in it are those that it has sent. -/
structure Carries (s : Wired) : Prop where
  delivers : s.tx.Delivers
  linked : Linked s.tx
  queued : consolePayloads s.tx.queued = s.console.sent

variable {s : Wired}

theorem Carries.init : init.Carries :=
  ⟨.init, ⟨fun _ => .inl rfl, nofun⟩, rfl⟩

/-- A step of others. -/
theorem Carries.other (h : s.Carries) {e : TxEvent} (he : Ordinary e) :
    (s.meanwhile [e]).Carries := by
  obtain ⟨hdelivers, hlinked, hqueued⟩ := h
  cases e with
  | sendPacket p =>
      refine ⟨hdelivers.sendPacket p, ?_, ?_⟩
      · change Linked (s.tx.crtpSendPacket p)
        unfold TxState.crtpSendPacket
        split
        · exact ⟨hlinked.tested, hlinked.called⟩
        · exact hlinked
      · change consolePayloads (s.tx.crtpSendPacket p).queued = _
        have hport : consolePayloads [p] = [] := by
          simp [consolePayloads, show p.port ≠ crtpPortConsole from he]
        unfold TxState.crtpSendPacket
        split
        · dsimp only
          split
          · rw [consolePayloads_append, hport, List.append_nil]
            exact hqueued
          · exact hqueued
        · exact hqueued
  | setLink lk =>
      cases lk with
      | none => exact absurd rfl he
      | some operations =>
          exact ⟨hdelivers.setLink (some operations), ⟨nofun, hlinked.called⟩, hqueued⟩
  | txTask accepts now =>
      refine ⟨hdelivers.txTask (fun p _ => hlinked.called p) accepts now,
        hlinked.crtpTxTask accepts now, ?_⟩
      have hq : (s.tx.crtpTxTask accepts now).queued = s.tx.queued := by
        unfold TxState.crtpTxTask
        split <;> try rfl
        · split <;> rfl
        · simp
      exact (congrArg consolePayloads hq).trans hqueued

theorem Carries.meanwhile (h : s.Carries) {events : List TxEvent}
    (hevents : ∀ e ∈ events, Ordinary e) : (s.meanwhile events).Carries := by
  induction events generalizing s with
  | nil => exact h
  | cons e rest ih =>
      exact ih (h.other (hevents e List.mem_cons_self))
        fun x hx => hevents x (List.mem_cons_of_mem _ hx)

/-- A message is put on the queue. -/
theorem Carries.sendMessage (h : s.Carries) (hfits : s.console.Fits)
    (hheader : s.console.messageToPrint.header = 0) : s.consoleSendMessage.Carries := by
  obtain ⟨hdelivers, hlinked, hqueued⟩ := h
  have hpacket := consolePayloads_packet hfits hheader
  have hsize : s.console.messageToPrint.packet.size.toNat ≤ crtpMaxDataSize := hfits
  refine ⟨hdelivers.sendPacket _, ?_, ?_⟩
  · change Linked (s.tx.crtpSendPacket _)
    unfold TxState.crtpSendPacket
    rw [if_pos hsize]
    exact ⟨hlinked.tested, hlinked.called⟩
  · change consolePayloads (s.tx.crtpSendPacket _).queued =
      (Console.consoleSendMessage s.accepts s.console).2.sent
    unfold TxState.crtpSendPacket Console.consoleSendMessage
    rw [if_pos hsize]
    dsimp only
    by_cases hok : s.accepts = true
    · rw [if_pos hok, if_pos (show (s.tx.txQueue.put _).1 = true from hok),
        consolePayloads_append, hpacket, hqueued]
    · rw [if_neg hok, if_neg (show ¬ (s.tx.txQueue.put _).1 = true from hok)]
      exact hqueued

/-- The message can be sent. -/
def Tidy (s : Wired) : Prop := s.console.Fits ∧ s.console.messageToPrint.header = 0

theorem Tidy.append (h : s.Tidy) (ch : Int) : (s.append ch).Tidy := by
  refine ⟨State.append_fits ch h.1, ?_⟩
  change (Console.append ch s.console).messageToPrint.header = 0
  unfold Console.append
  split <;> exact h.2

theorem Carries.append (h : s.Carries) (ch : Int) : (s.append ch).Carries := by
  refine ⟨h.delivers, h.linked, h.queued.trans ?_⟩
  change s.console.sent = (Console.append ch s.console).sent
  unfold Console.append
  split <;> rfl

theorem Tidy.retry (h : s.Tidy) : s.retry.Tidy := by
  unfold Wired.retry
  split
  · refine ⟨State.consoleSendMessage_fits _ h.1, ?_⟩
    change (Console.consoleSendMessage s.accepts s.console).2.messageToPrint.header = 0
    unfold Console.consoleSendMessage
    split <;> exact h.2
  · exact h

theorem Carries.retry (h : s.Carries) (ht : s.Tidy) : s.retry.Carries := by
  unfold Wired.retry
  split
  · exact h.sendMessage ht.1 ht.2
  · exact h

theorem Tidy.complete (h : s.Tidy) (free : List TxEvent) : (s.complete free).Tidy := by
  unfold Wired.complete
  constructor
  · change (if _ then addBufferFullMarker _ else _ : Message).size.toNat ≤ crtpMaxDataSize
    split
    · exact State.addBufferFullMarker_size _
    · exact h.1
  · change (if _ then addBufferFullMarker _ else _ : Message).header = 0
    split <;> exact h.2

theorem Carries.complete (h : s.Carries) {free : List TxEvent}
    (hfree : ∀ e ∈ free, Ordinary e) : (s.complete free).Carries := by
  have hmeanwhile := h.meanwhile hfree
  exact ⟨hmeanwhile.delivers, hmeanwhile.linked, hmeanwhile.queued⟩

/-- Every event leaves the packets of the console in the queue, or on their way. -/
theorem Carries.next (h : s.Carries) (ht : s.Tidy) {e : Event} (he : e.Ordinary) :
    (s.next e).Carries := by
  cases e with
  | tx e => exact h.other he
  | flush => exact h.sendMessage ht.1 ht.2
  | putcharFromISR ch => exact h.append ch
  | putchar ch isInInterrupt free send =>
      have hevents := List.forall_mem_append.mp he
      simp only [Wired.next]
      unfold consolePutchar
      split
      · exact h
      · split
        · exact h.append ch
        · have hretry := h.retry ht
          have htretry := ht.retry
          split
          · unfold sendLine
            split
            · have hcomplete := ((hretry.append ch).complete hevents.1).meanwhile hevents.2
              have htidy := (htretry.append ch).complete free
              exact hcomplete.sendMessage htidy.1 htidy.2
            · exact hretry.append ch
          · exact hretry

/-! ### Runs -/

theorem run_whole {lines : List Line} {line : Line} (hshows : s.console.Shows lines line)
    (hcarries : s.Carries) {events : List Event} (h : ∀ e ∈ events, e.Ordinary) :
    ∃ lines' line', (run events s).console.Shows lines' line' ∧ (run events s).Carries ∧
      State.More (lines ++ [line]) (lines' ++ [line']) (charsKept events s) (markers events s) := by
  induction events generalizing s lines line with
  | nil => exact ⟨lines, line, hshows, hcarries, by simp [State.More, charsKept, markers]⟩
  | cons e rest ih =>
      have hnext := hcarries.next ⟨hshows.fits, hshows.header⟩ (h e List.mem_cons_self)
      have hrest := fun x hx => h x (List.mem_cons_of_mem e hx)
      have hconsole := next_console s e
      unfold charsKept markers
      cases hc : s.call e with
      | none =>
          rw [hc] at hconsole
          have hsame : (s.next e).console.Shows lines line := by
            rw [hconsole]
            exact hshows
          obtain ⟨lines', line', h1, h2, h3⟩ := ih hsame hnext hrest
          exact ⟨lines', line', h1, h2, by simpa using h3⟩
      | some c =>
          rw [hc] at hconsole
          dsimp only at hconsole
          obtain ⟨lines1, line1, h1, hmore⟩ := hshows.next c
          rw [← hconsole] at h1
          obtain ⟨lines', line', h2, h3, h4⟩ := ih h1 hnext hrest
          exact ⟨lines', line', h2, h3, hmore.trans h4⟩

/-- **What reaches the client.**  In every run of the console, of others that send on other ports,
and of the transmit task, with a link that is not taken away: the packets of the console that the link
has accepted, that the task holds and that wait in the queue are lines, in order.  The characters of
these lines and of the buffer are all those passed in, in order, but for those lost; and no more lines
have a marker than there were calls that found one free place in the queue. -/
theorem console_delivered (events : List Event) (h : ∀ e ∈ events, e.Ordinary) :
    ∃ lines line,
      consolePayloads ((run events init).tx.accepted ++ (run events init).tx.txTask.held ++
        (run events init).tx.txQueue.items) = lines.map Line.payload ∧
      (run events init).console.messageToPrint.payload = line.payload ∧
      allChars (lines ++ [line]) = charsKept events init ∧
      marks (lines ++ [line]) ≤ markers events init := by
  obtain ⟨lines, line, hshows, hcarries, hchars, hmarks⟩ :=
    run_whole (show init.console.Shows [] (.plain []) from .init) .init h
  refine ⟨lines, line, ?_, hshows.buffer, hchars, ?_⟩
  · rw [hcarries.delivers.accepted, hcarries.queued, hshows.sent]
  · exact Nat.le_trans hmarks (Nat.le_of_eq (Nat.zero_add _))

/-- A line of two characters that the link has accepted, and one character in the buffer. -/
theorem console_delivered_small :
    let events : List Event := [.tx (.setLink (some 0)), .tx (.txTask true 0),
      .putchar 0x68 false [] [], .putchar 0x0A false [] [.sendPacket ⟨1, 0x50, [7]⟩],
      .tx (.txTask true 0), .tx (.txTask true 0), .tx (.txTask true 0), .tx (.txTask true 0),
      .tx (.txTask true 0), .tx (.txTask true 0), .putchar 0x69 false [] []]
    ∃ lines line, [[0x68, 0x0A]] = lines.map Line.payload ∧ [0x69] = line.payload ∧
      allChars (lines ++ [line]) = charsKept events init ∧
      marks (lines ++ [line]) ≤ markers events init := by
  intro events
  have hevents : ∀ e ∈ events, e.Ordinary := by
    simp [events, Event.Ordinary, Ordinary, CRTPPacket.port, crtpPortConsole]
  obtain ⟨lines, line, hsent, hbuffer, hrest⟩ := console_delivered events hevents
  refine ⟨lines, line, Eq.trans ?_ hsent, Eq.trans ?_ hbuffer, hrest⟩
  · decide +kernel
  · decide +kernel

end Wired

end NanoDrone.Console
