import Mathlib.Data.List.Basic
import Mathlib.Data.Nat.Notation
import Mathlib.Logic.Function.Basic

/-! # The queue monitor (`queuemonitor.c`)

The queue monitor counts what is sent to each queue in a slot of a table.  Registered queues get the
slots from 1 on, and a second table, which is searched from its start, says which; slot 0 is for all
the others.  But a search without a result returns -1, which is narrowed to an unsigned byte and
fails the assertion of `getQueueData`: `tracedWell_iff`. -/

namespace NanoDrone.QueueMonitor

/-- `MAX_NR_OF_QUEUES`. -/
abbrev maxNrOfQueues : ℕ := 20

/-- The address of a `struct k_msgq`. -/
abbrev Queue := ℕ

/-- `Data`; a name is none while it is `NULL`. -/
structure Data where
  fileName : Option String
  queueName : Option String
  sendCount : ℕ
  maxWaiting : ℕ
  fullCount : ℕ
deriving DecidableEq, Repr

structure QueueNumberEntry where
  queue : Queue
  queueNumber : ℕ
deriving DecidableEq, Repr

/-- The variables of `queuemonitor.c`, and what `debugPrint` has shown. -/
structure Monitor where
  data : Fin maxNrOfQueues → Data
  queueNumbers : Fin maxNrOfQueues → QueueNumberEntry
  numQueues : ℕ
  nrOfQueues : UInt8
  initialized : Bool
  printed : List Data

/-- The variables before the first call. -/
def Monitor.zero : Monitor where
  data _ := ⟨none, none, 0, 0, 0⟩
  queueNumbers _ := ⟨0, 0⟩
  numQueues := 0
  -- unregistered queues will end up at 0
  nrOfQueues := 1
  initialized := false
  printed := []

namespace Monitor

def setData (i : Fin maxNrOfQueues) (f : Data → Data) (s : Monitor) : Monitor :=
  { s with data := Function.update s.data i (f (s.data i)) }

/-- `vQueueSetQueueNumber`. -/
def vQueueSetQueueNumber (queue : Queue) (queueNumber : ℕ) (s : Monitor) : Monitor :=
  if h : s.numQueues < maxNrOfQueues then
    { s with
      queueNumbers := Function.update s.queueNumbers ⟨s.numQueues, h⟩ ⟨queue, queueNumber⟩
      numQueues := s.numQueues + 1 }
  else s

/-- The loop of `uxQueueGetQueueNumber` over the entries that are left, from `i` on. -/
def queueNumberFrom (queue : Queue) (s : Monitor) : ℕ → ℕ → Int
  | 0, _ => -1
  | n + 1, i =>
      let entry := s.queueNumbers (Fin.ofNat maxNrOfQueues i)
      if entry.queue = queue then entry.queueNumber else queueNumberFrom queue s n (i + 1)

def uxQueueGetQueueNumber (queue : Queue) (s : Monitor) : Int :=
  queueNumberFrom queue s s.numQueues 0

/-- The slot that `getQueueData` returns; none if its assertion fails. -/
def getQueueData (xQueue : Queue) (s : Monitor) : Option (Fin maxNrOfQueues) :=
  let number := UInt8.ofInt (s.uxQueueGetQueueNumber xQueue)
  if h : number.toNat < maxNrOfQueues then some ⟨number.toNat, h⟩ else none

/-- `getMaxWaiting`, when `used` messages are in the queue. -/
def getMaxWaiting (used prevPeak : ℕ) : ℕ :=
  let waiting := used + 1
  if waiting > prevPeak then waiting else prevPeak

/-- `queueMonitorInit`, without the timer. -/
def queueMonitorInit (s : Monitor) : Option Monitor :=
  if s.initialized then none
  else
    let s := s.setData 0 fun d => { d with fileName := some "Na", queueName := some "Na" }
    some { s with initialized := true }

def qmRegisterQueue (xQueue : Queue) (fileName queueName : String) (s : Monitor) :
    Option Monitor :=
  if s.initialized then
    if h : s.nrOfQueues.toNat < maxNrOfQueues then
      let s := s.setData ⟨s.nrOfQueues.toNat, h⟩ fun d =>
        { d with fileName := some fileName, queueName := some queueName }
      let s := s.vQueueSetQueueNumber xQueue s.nrOfQueues.toNat
      some { s with nrOfQueues := s.nrOfQueues + 1 }
    else none
  else none

/-- `qm_traceQUEUE_SEND`, when `used` messages are in the queue. -/
def qmTraceQueueSend (xQueue : Queue) (used : ℕ) (s : Monitor) : Option Monitor :=
  if s.initialized then
    (s.getQueueData xQueue).map fun slot => s.setData slot fun d =>
      { d with sendCount := d.sendCount + 1, maxWaiting := getMaxWaiting used d.maxWaiting }
  else some s

/-- `qm_traceQUEUE_SEND_FAILED`. -/
def qmTraceQueueSendFailed (xQueue : Queue) (s : Monitor) : Option Monitor :=
  if s.initialized then
    (s.getQueueData xQueue).map fun slot => s.setData slot fun d =>
      { d with fullCount := d.fullCount + 1 }
  else some s

/-- `filter`, with `DISPLAY_ONLY_OVERFLOW_QUEUES`. -/
def filter (queueData : Data) : Bool := queueData.fullCount ≠ 0

/-- `timerHandler`: `debugPrint`, with `RESET_COUNTERS_AFTER_DISPLAY`. -/
def timerHandler (s : Monitor) : Monitor :=
  let slots := (List.finRange maxNrOfQueues).filter fun i => i.val < s.nrOfQueues.toNat
  { s with
    printed := s.printed ++ (slots.map s.data).filter filter
    data := fun i => if i.val < s.nrOfQueues.toNat then
      { s.data i with sendCount := 0, maxWaiting := 0, fullCount := 0 } else s.data i }

end Monitor

/-! ### Runs -/

inductive QmEvent where
  | register (xQueue : Queue) (fileName queueName : String)
  | send (xQueue : Queue) (used : ℕ)
  | sendFailed (xQueue : Queue)
  | timer
deriving DecidableEq, Repr

namespace QmEvent

/-- The queue that an event registers. -/
def registers : QmEvent → Option Queue
  | register xQueue _ _ => some xQueue
  | send _ _ | sendFailed _ | timer => none

/-- The queue that is traced. -/
def traced : QmEvent → Option Queue
  | send xQueue _ | sendFailed xQueue => some xQueue
  | register _ _ _ | timer => none

end QmEvent

/-- The queues that are registered in a run, in order. -/
def registered (events : List QmEvent) : List Queue := events.filterMap QmEvent.registers

namespace Monitor

def step (s : Monitor) : QmEvent → Option Monitor
  | .register xQueue fileName queueName => s.qmRegisterQueue xQueue fileName queueName
  | .send xQueue used => s.qmTraceQueueSend xQueue used
  | .sendFailed xQueue => s.qmTraceQueueSendFailed xQueue
  | .timer => some s.timerHandler

/-- A run; it ends when an assertion fails. -/
def run : List QmEvent → Monitor → Option Monitor
  | [], s => some s
  | e :: events, s => (s.step e).bind (run events)

/-- The table of the numbers: the queue that was registered as number `k` has the slot `k + 1`. -/
structure Numbered (s : Monitor) (queues : List Queue) : Prop where
  initialized : s.initialized = true
  numQueues : s.numQueues = queues.length
  nrOfQueues : s.nrOfQueues.toNat = s.numQueues + 1
  room : s.numQueues < maxNrOfQueues
  entries : ∀ i (hi : i < queues.length),
    s.queueNumbers (Fin.ofNat maxNrOfQueues i) = ⟨queues[i], i + 1⟩

variable {s s' : Monitor} {queues : List Queue}

/-- The search finds the first entry of a queue. -/
theorem queueNumberFrom_eq {q : Queue} {rest : List Queue} {i : ℕ}
    (h : ∀ j (hj : j < rest.length),
      s.queueNumbers (Fin.ofNat maxNrOfQueues (i + j)) = ⟨rest[j], i + j + 1⟩) :
    queueNumberFrom q s rest.length i =
      if q ∈ rest then ((i + rest.idxOf q + 1 : ℕ) : Int) else -1 := by
  induction rest generalizing i with
  | nil => rfl
  | cons x rest ih =>
      have hhead : s.queueNumbers (Fin.ofNat maxNrOfQueues i) = ⟨x, i + 1⟩ := h 0 (by simp)
      have htail : ∀ j (hj : j < rest.length),
          s.queueNumbers (Fin.ofNat maxNrOfQueues (i + 1 + j)) = ⟨rest[j], i + 1 + j + 1⟩ := by
        intro j hj
        have hnext := h (j + 1) (Nat.succ_lt_succ hj)
        rw [List.getElem_cons_succ, ← Nat.add_assoc, Nat.add_right_comm i j 1] at hnext
        exact hnext
      rw [List.length_cons, queueNumberFrom, hhead]
      dsimp only
      by_cases hx : x = q
      · subst hx
        rw [if_pos rfl, if_pos List.mem_cons_self, List.idxOf_cons_self]
      · rw [if_neg hx, ih htail, List.idxOf_cons_ne _ hx]
        by_cases hq : q ∈ rest
        · rw [if_pos hq, if_pos (List.mem_cons_of_mem x hq)]
          congr 1
          omega
        · rw [if_neg hq, if_neg (List.not_mem_cons_of_ne_of_not_mem (Ne.symm hx) hq)]

namespace Numbered

theorem uxQueueGetQueueNumber (h : s.Numbered queues) (q : Queue) :
    s.uxQueueGetQueueNumber q = if q ∈ queues then ((queues.idxOf q + 1 : ℕ) : Int) else -1 := by
  unfold Monitor.uxQueueGetQueueNumber
  rw [h.numQueues, queueNumberFrom_eq]
  · rw [Nat.zero_add]
  · intro j hj
    rw [Nat.zero_add]
    exact h.entries j hj

/-- A registered queue has a slot. -/
theorem getQueueData_of_mem (h : s.Numbered queues) {q : Queue} (hq : q ∈ queues) :
    ∃ slot, s.getQueueData q = some slot ∧ slot.val = queues.idxOf q + 1 := by
  have hlt := List.idxOf_lt_length_of_mem hq
  have hroom := h.room
  rw [h.numQueues] at hroom
  unfold maxNrOfQueues at hroom
  have hnumber : (UInt8.ofInt (s.uxQueueGetQueueNumber q)).toNat = queues.idxOf q + 1 := by
    rw [h.uxQueueGetQueueNumber, if_pos hq]
    unfold UInt8.ofInt
    rw [UInt8.toNat_ofNat']
    omega
  unfold Monitor.getQueueData
  dsimp only
  rw [dif_pos (by unfold maxNrOfQueues; omega)]
  exact ⟨_, rfl, hnumber⟩

/-- Any other queue has the number 255, which fails the assertion. -/
theorem getQueueData_of_notMem (h : s.Numbered queues) {q : Queue} (hq : q ∉ queues) :
    s.getQueueData q = none := by
  unfold Monitor.getQueueData
  rw [h.uxQueueGetQueueNumber, if_neg hq]
  rfl

/-- Events other than registrations leave the table of the numbers. -/
theorem congr (h : s.Numbered queues) (hnumbers : s'.queueNumbers = s.queueNumbers)
    (hnum : s'.numQueues = s.numQueues) (hnr : s'.nrOfQueues = s.nrOfQueues)
    (hinit : s'.initialized = s.initialized) : s'.Numbered queues := by
  refine ⟨?_, ?_, ?_, ?_, ?_⟩
  · rw [hinit]; exact h.initialized
  · rw [hnum]; exact h.numQueues
  · rw [hnr, hnum]; exact h.nrOfQueues
  · rw [hnum]; exact h.room
  · rw [hnumbers]; exact h.entries

theorem setData (h : s.Numbered queues) (slot : Fin maxNrOfQueues) (f : Data → Data) :
    (s.setData slot f).Numbered queues := h.congr rfl rfl rfl rfl

/-- A new entry of the table of the numbers. -/
theorem vQueueSetQueueNumber (h : s.Numbered queues) (hroom : s.numQueues + 1 < maxNrOfQueues)
    (q : Queue) : let s' := s.vQueueSetQueueNumber q s.nrOfQueues.toNat
    Numbered { s' with nrOfQueues := s'.nrOfQueues + 1 } (queues ++ [q]) := by
  have hnr := h.nrOfQueues
  have hnum := h.numQueues
  intro s'
  have hs' : s' = { s with
      queueNumbers := Function.update s.queueNumbers ⟨s.numQueues, h.room⟩
        ⟨q, s.nrOfQueues.toNat⟩
      numQueues := s.numQueues + 1 } := dif_pos h.room
  rw [hs']
  refine ⟨h.initialized, ?_, ?_, hroom, ?_⟩
  · change s.numQueues + 1 = _
    rw [hnum, List.length_append, List.length_singleton]
  · change (s.nrOfQueues + 1).toNat = s.numQueues + 1 + 1
    unfold maxNrOfQueues at hroom
    rw [UInt8.toNat_add, UInt8.toNat_one]
    omega
  · intro i hi
    rw [List.length_append, List.length_singleton] at hi
    have hval : (Fin.ofNat maxNrOfQueues i).val = i := Nat.mod_eq_of_lt (by omega)
    change Function.update s.queueNumbers ⟨s.numQueues, h.room⟩ ⟨q, s.nrOfQueues.toNat⟩ _ = _
    rcases Nat.lt_or_ge i queues.length with hold | hnew
    · have hne : Fin.ofNat maxNrOfQueues i ≠ ⟨s.numQueues, h.room⟩ := by
        rw [Ne, Fin.ext_iff, hval]
        dsimp only
        omega
      rw [Function.update_of_ne hne, h.entries i hold, List.getElem_append_left hold]
    · obtain rfl : i = queues.length := by omega
      have heq : Fin.ofNat maxNrOfQueues queues.length = ⟨s.numQueues, h.room⟩ :=
        Fin.ext (hval.trans hnum.symm)
      rw [heq, Function.update_self, hnr, hnum, List.getElem_concat_length rfl]

/-- One more queue gets the next slot. -/
theorem qmRegisterQueue (h : s.Numbered queues) {q : Queue} {fileName queueName : String}
    (hs : s.qmRegisterQueue q fileName queueName = some s') : s'.Numbered (queues ++ [q]) := by
  unfold Monitor.qmRegisterQueue at hs
  rw [if_pos h.initialized] at hs
  split at hs
  · rename_i hlt
    rw [h.nrOfQueues] at hlt
    cases hs
    exact (h.setData _ _).vQueueSetQueueNumber hlt q
  · cases hs

/-- **One event.**  The two counters stay in step. -/
theorem step (h : s.Numbered queues) {e : QmEvent} (hs : s.step e = some s') :
    s'.Numbered (queues ++ e.registers.toList) := by
  cases e with
  | register q fileName queueName => exact h.qmRegisterQueue hs
  | send q used =>
      rw [Monitor.step, qmTraceQueueSend, if_pos h.initialized] at hs
      obtain ⟨slot, -, rfl⟩ := Option.map_eq_some_iff.mp hs
      exact (List.append_nil queues).symm ▸ h.setData slot _
  | sendFailed q =>
      rw [Monitor.step, qmTraceQueueSendFailed, if_pos h.initialized] at hs
      obtain ⟨slot, -, rfl⟩ := Option.map_eq_some_iff.mp hs
      exact (List.append_nil queues).symm ▸ h.setData slot _
  | timer =>
      cases hs
      exact (List.append_nil queues).symm ▸ h.congr rfl rfl rfl rfl

end Numbered

/-- A run keeps the two counters in step. -/
theorem run_numbered {events : List QmEvent} (h : s.Numbered queues) (hs : s.run events = some s') :
    s'.Numbered (queues ++ registered events) := by
  induction events generalizing s queues with
  | nil =>
      cases hs
      exact (List.append_nil queues).symm ▸ h
  | cons e events ih =>
      obtain ⟨t, ht, hrest⟩ := Option.bind_eq_some_iff.mp hs
      have hrun := ih (h.step ht) hrest
      have hcons : registered (e :: events) = e.registers.toList ++ registered events := by
        unfold registered
        rw [List.filterMap_cons]
        cases e.registers with
        | none => rfl
        | some q => rfl
      rw [hcons, ← List.append_assoc]
      exact hrun

/-- After `queueMonitorInit` no queue is registered. -/
theorem queueMonitorInit_numbered (h : Monitor.zero.queueMonitorInit = some s) :
    s.Numbered [] := by
  cases h
  exact ⟨rfl, rfl, rfl, by decide, fun i hi => absurd hi (Nat.not_lt_zero i)⟩

/-- Registrations do not fail while there is a slot. -/
theorem Numbered.register_isSome (h : s.Numbered queues)
    (hroom : queues.length + 1 < maxNrOfQueues) (q : Queue) (fileName queueName : String) :
    (s.qmRegisterQueue q fileName queueName).isSome := by
  unfold Monitor.qmRegisterQueue
  have hlt : s.nrOfQueues.toNat < maxNrOfQueues := by
    rw [h.nrOfQueues, h.numQueues]
    exact hroom
  rw [if_pos h.initialized, dif_pos hlt]
  rfl

/-! ### Tracing a queue -/

/-- A queue is traced as it should be: its slot is there, and is 0 if it is not registered and else
its own; and what is traced changes no other slot. -/
structure TracedWell (s : Monitor) (queues : List Queue) (q : Queue) (slot : Fin maxNrOfQueues) :
    Prop where
  found : s.getQueueData q = some slot
  registered : q ∈ queues → slot ≠ 0 ∧ ∀ q' ∈ queues, q' ≠ q → s.getQueueData q' ≠ some slot
  unregistered : q ∉ queues → slot = 0
  others : ∀ e : QmEvent, e.traced = some q → ∃ s', s.step e = some s' ∧
    ∀ i, i ≠ slot → s'.data i = s.data i

/-- Tracing a queue with a slot changes the slot. -/
theorem step_traced {e : QmEvent} {q : Queue} {slot : Fin maxNrOfQueues}
    (hinit : s.initialized = true) (he : e.traced = some q) (hq : s.getQueueData q = some slot) :
    ∃ f, s.step e = some (s.setData slot f) := by
  cases e with
  | register => cases he
  | send q' used =>
      cases he
      rw [step, qmTraceQueueSend, if_pos hinit, hq]
      exact ⟨_, rfl⟩
  | sendFailed q' =>
      cases he
      rw [step, qmTraceQueueSendFailed, if_pos hinit, hq]
      exact ⟨_, rfl⟩
  | timer => cases he

theorem Numbered.tracedWell (h : s.Numbered queues) {q : Queue} (hq : q ∈ queues) :
    ∃ slot, s.TracedWell queues q slot := by
  obtain ⟨slot, hslot, hval⟩ := h.getQueueData_of_mem hq
  refine ⟨slot, hslot, fun _ => ⟨?_, ?_⟩, fun hno => absurd hq hno, ?_⟩
  · intro hzero
    rw [hzero] at hval
    exact absurd hval (Nat.succ_ne_zero _).symm
  · intro q' hq' hne heq
    obtain ⟨slot', hslot', hval'⟩ := h.getQueueData_of_mem hq'
    rw [heq] at hslot'
    cases hslot'
    -- two queues in the same place are the same
    exact hne ((List.idxOf_inj hq').mp (by omega))
  · intro e he
    obtain ⟨f, hstep⟩ := step_traced h.initialized he hslot
    exact ⟨_, hstep, fun i hi => Function.update_of_ne hi _ _⟩

/-- **Traced queues.**  In every state that a run reaches after `queueMonitorInit`, a queue that is
traced has a slot, its own if it is registered and slot 0 if not, and leaves the other slots, if and
only if it is registered. -/
theorem tracedWell_iff {s0 : Monitor} (h0 : Monitor.zero.queueMonitorInit = some s0)
    {events : List QmEvent} (hs : s0.run events = some s) (q : Queue) :
    (∃ slot, s.TracedWell (registered events) q slot) ↔ q ∈ registered events := by
  have h := run_numbered (queueMonitorInit_numbered h0) hs
  rw [List.nil_append] at h
  constructor
  · rintro ⟨slot, htraced⟩
    by_contra hno
    have hfound := htraced.found
    rw [h.getQueueData_of_notMem hno] at hfound
    cases hfound
  · exact h.tracedWell

/-- Two queues are registered and traced. -/
theorem tracedWell_iff_two :
    let s0 := { Monitor.zero.setData 0 fun d =>
      { d with fileName := some "Na", queueName := some "Na" } with initialized := true }
    let events : List QmEvent :=
      [.register 4 "a.c" "txQueue", .register 8 "b.c" "rxQueue", .send 8 2]
    ∃ s, s0.run events = some s ∧
      ((∃ slot, s.TracedWell (registered events) 8 slot) ↔ 8 ∈ registered events) := by
  intro s0 events
  have h0 : Monitor.zero.queueMonitorInit = some s0 := rfl
  have hrun : (s0.run events).isSome := rfl
  obtain ⟨s, hs⟩ := Option.isSome_iff_exists.mp hrun
  exact ⟨s, hs, tracedWell_iff h0 hs 8⟩

/-- A queue that is not registered fails the assertion, before and after another one is. -/
theorem unregistered_fails :
    let s0 := { Monitor.zero.setData 0 fun d =>
      { d with fileName := some "Na", queueName := some "Na" } with initialized := true }
    Monitor.zero.queueMonitorInit = some s0 ∧ s0.uxQueueGetQueueNumber 4 = -1 ∧
    s0.step (.send 4 0) = none ∧
    s0.run [.register 8 "a.c" "txQueue", .sendFailed 4] = none ∧
    ¬ ∃ slot, s0.TracedWell [] 4 slot := by
  intro s0
  refine ⟨rfl, rfl, rfl, rfl, ?_⟩
  rintro ⟨slot, htraced⟩
  cases htraced.found

end Monitor

end NanoDrone.QueueMonitor
