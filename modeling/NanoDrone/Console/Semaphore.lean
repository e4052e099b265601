import NanoDrone.Console.Console
import NanoDrone.Lib.Semaphore

/-! # The semaphore of the console (`console.c`)

Every call of the console works on its packet between `k_sem_take` and `k_sem_give` of `synch`: a
task waits for the semaphore, an interrupt gives up.  Here the calls are lists of such sections, and
any number of them run interleaved; what they return does not depend on the semaphore.

While the semaphore is free, a call that runs alone is the call of the sequential model
(`alone_next`).  But `consoleInit` starts the count at zero and every call takes before it gives:
`synch_never_free` says that no run ever gets into a section. -/

namespace NanoDrone.Console

/-- What the transmit queue answers to a call of `consolePutchar`: its free places, and whether it
accepts a pending message and a new one. -/
structure Answers where
  free : ℕ
  retried : Bool
  accepted : Bool
deriving DecidableEq, Repr

namespace Synch

def consolePutcharFromISR (ch : Int) : List (Section State) :=
  [⟨false, fun s => (Console.consolePutcharFromISR ch s).2⟩]

def consolePutchar (ch : Int) (isInInterrupt : Bool) (a : Answers) (s : State) :
    List (Section State) :=
  if ¬ s.isInit then []
  else if isInInterrupt then consolePutcharFromISR ch
  else [⟨true, fun s => (Console.consolePutchar ch false a.free a.retried a.accepted s).2⟩]

/-- `consolePuts`; each character comes with the answers to its call. -/
def consolePuts (isInInterrupt : Bool) (s : State) : List (UInt8 × Answers) → List (Section State)
  | [] => []
  | (ch, a) :: str =>
      if ch = 0 then []
      else consolePutchar ch.toNat isInInterrupt a s ++ consolePuts isInInterrupt s str

def consoleFlush (accepts : Bool) : List (Section State) := [⟨true, Console.consoleFlush accepts⟩]

/-- `consoleInit`, with a semaphore of count 0 and limit 1. -/
def consoleInit (g : Guarded State) : Guarded State :=
  if g.data.isInit then g
  else { g with sem := .init 0 1 (by decide), data := Console.consoleInit g.data }

/-- Before `consoleInit` the static variables are zero. -/
def boot : Guarded State :=
  ⟨.init 0 0 (by decide), ⟨false, ⟨0, 0, fun _ => 0⟩, false, []⟩, []⟩

inductive Call where
  | putchar (ch : Int) (isInInterrupt : Bool) (a : Answers)
  | putcharFromISR (ch : Int)
  | puts (str : List (UInt8 × Answers)) (isInInterrupt : Bool)
  | flush (accepts : Bool)
deriving DecidableEq, Repr

namespace Call

def sections (s : State) : Call → List (Section State)
  | putchar ch isInInterrupt a => consolePutchar ch isInInterrupt a s
  | putcharFromISR ch => consolePutcharFromISR ch
  | puts str isInInterrupt => consolePuts isInInterrupt s str
  | flush accepts => consoleFlush accepts

/-- A call of a task; a string has characters. -/
def TaskLevel : Call → Prop
  | putchar _ isInInterrupt _ => isInInterrupt = false
  | putcharFromISR _ => False
  | puts str isInInterrupt => isInInterrupt = false ∧ ∃ ch a rest, str = (ch, a) :: rest ∧ ch ≠ 0
  | flush _ => True

/-- A call of an interrupt. -/
def InterruptLevel : Call → Prop
  | putchar _ isInInterrupt _ | puts _ isInInterrupt => isInInterrupt = true
  | putcharFromISR _ => True
  | flush _ => False

end Call

inductive Event where
  | call (c : Call)
  /-- the next step of a call in progress -/
  | step (i : ℕ)
deriving DecidableEq, Repr

/-- The calls of the sequential model; a string ends at its first zero. -/
def Call.calls : Call → List Console.Call
  | putchar ch isInInterrupt a => [.putchar ch isInInterrupt a.free a.retried a.accepted]
  | putcharFromISR ch => [.putcharFromISR ch]
  | puts str isInInterrupt => (str.takeWhile (·.1 ≠ 0)).map fun p =>
      .putchar p.1.toNat isInInterrupt p.2.free p.2.retried p.2.accepted
  | flush accepts => [.flush accepts]

def Event.guarded : Event → Guarded.Event State
  | call c => .call fun s => c.sections s
  | step i => .step i

def run (events : List Event) (g : Guarded State) : Guarded State :=
  Guarded.run (events.map Event.guarded) g

/-- The state after `consoleInit` and any calls, interleaved in any way. -/
def reached (events : List Event) : Guarded State := run events (consoleInit boot)

/-- A call made after some events is never completed. -/
def NeverCompletes (events : List Event) (c : Call) : Prop :=
  ∀ later, ∃ sec rest, (reached (events ++ .call c :: later)).callers[
    (reached events).callers.length]? = some (.outside (sec :: rest))

/-- A call made after some events comes to its end, and it has done nothing. -/
def Refused (events : List Event) (c : Call) : Prop :=
  ∃ n, reached (events ++ .call c :: List.replicate n (.step (reached events).callers.length)) =
    { reached events with callers := (reached events).callers ++ [.outside []] }

/-! ### The sections of a call -/

variable {s : State} {c : Call}

/-- A task waits for its first section. -/
theorem Call.TaskLevel.sections (h : c.TaskLevel) (hs : s.isInit = true) :
    ∃ sec rest, c.sections s = sec :: rest ∧ sec.wait = true := by
  have hputchar : ∀ ch a, ∃ sec, consolePutchar ch false a s = [sec] ∧ sec.wait = true := by
    intro ch a
    unfold consolePutchar
    rw [if_neg (not_not_intro hs), if_neg Bool.false_ne_true]
    exact ⟨_, rfl, rfl⟩
  cases c with
  | putchar ch isInInterrupt a =>
      cases h
      obtain ⟨sec, hsec, hwait⟩ := hputchar ch a
      exact ⟨sec, [], hsec, hwait⟩
  | putcharFromISR ch => exact h.elim
  | puts str isInInterrupt =>
      obtain ⟨rfl, ch, a, rest, rfl, hch⟩ := h
      obtain ⟨sec, hsec, hwait⟩ := hputchar ch.toNat a
      refine ⟨sec, consolePuts false s rest, ?_, hwait⟩
      change consolePuts false s _ = _
      rw [consolePuts, if_neg hch, hsec]
      rfl
  | flush accepts => exact ⟨_, _, rfl, rfl⟩

/-- An interrupt never waits. -/
theorem Call.InterruptLevel.sections (h : c.InterruptLevel) :
    ∀ sec ∈ c.sections s, sec.wait = false := by
  have hputcharFromISR : ∀ ch, ∀ sec ∈ consolePutcharFromISR ch, sec.wait = false := by
    intro ch sec hsec
    rw [List.mem_singleton.mp hsec]
  have hputchar : ∀ ch a, ∀ sec ∈ consolePutchar ch true a s, sec.wait = false := by
    intro ch a
    unfold consolePutchar
    split
    · exact nofun
    · exact hputcharFromISR ch
  cases c with
  | putchar ch isInInterrupt a =>
      cases h
      exact hputchar ch a
  | putcharFromISR ch => exact hputcharFromISR ch
  | flush accepts => exact h.elim
  | puts str isInInterrupt =>
      cases h
      change ∀ sec ∈ consolePuts true s str, sec.wait = false
      induction str with
      | nil => exact nofun
      | cons p str ih =>
          rw [consolePuts]
          split
          · exact nofun
          · exact List.forall_mem_append.mpr ⟨hputchar _ _, ih⟩

/-! ### A free semaphore -/

theorem bodies_consolePutchar (ch : Int) (isInInterrupt : Bool) (a : Answers) {t : State}
    (ht : t.isInit = s.isInit) :
    Guarded.bodies (consolePutchar ch isInInterrupt a s) t =
      t.next (.putchar ch isInInterrupt a.free a.retried a.accepted) := by
  unfold consolePutchar
  by_cases hs : s.isInit = true
  · rw [if_neg (not_not_intro hs)]
    cases isInInterrupt with
    | true =>
        change _ = (Console.consolePutchar ch true a.free a.retried a.accepted t).2
        unfold Console.consolePutchar
        rw [if_neg (not_not_intro (ht.trans hs)), if_pos rfl]
        rfl
    | false => rfl
  · rw [if_pos hs]
    change t = (Console.consolePutchar ch isInInterrupt a.free a.retried a.accepted t).2
    unfold Console.consolePutchar
    rw [if_pos (by rwa [ht])]

theorem bodies_sections (c : Call) {t : State} (ht : t.isInit = s.isInit) :
    Guarded.bodies (c.sections s) t = Console.run c.calls t := by
  cases c with
  | putchar ch isInInterrupt a => exact bodies_consolePutchar ch isInInterrupt a ht
  | putcharFromISR ch => rfl
  | flush accepts => rfl
  | puts str isInInterrupt =>
      change Guarded.bodies (consolePuts isInInterrupt s str) t = _
      simp only [Call.calls]
      induction str generalizing t with
      | nil => rfl
      | cons p str ih =>
          rw [consolePuts]
          by_cases hp : p.1 = 0
          · rw [if_pos hp, List.takeWhile_cons_of_neg (by simpa using hp)]
            rfl
          · rw [if_neg hp, List.takeWhile_cons_of_pos (by simpa using hp), Guarded.bodies_append,
              bodies_consolePutchar _ _ _ ht, ih ((State.next_isInit _).trans ht)]
            rfl

/-- **The calls of the sequential model.**  With a free semaphore a call that runs alone is
completed with what the sequential calls do, and the semaphore is free again. -/
theorem alone_next (g : Guarded State) (hcount : 0 < g.sem.count) (c : Call) :
    ∃ n, run (.call c :: List.replicate n (.step g.callers.length)) g =
      { g with data := Console.run c.calls g.data, callers := g.callers ++ [.outside []] } := by
  obtain ⟨n, hn⟩ := Guarded.alone (g := g.next (.call fun s => c.sections s)) hcount
    List.getElem?_concat_length
  refine ⟨n, ?_⟩
  unfold run
  rw [List.map_cons, List.map_replicate]
  have hbodies : Guarded.bodies (c.sections g.data) g.data = Console.run c.calls g.data :=
    bodies_sections c rfl
  refine hn.trans ?_
  simp [Guarded.next, hbodies]

/-- Every path of every call gives back what it took: when no call is in progress, the count is
what it was at the start. -/
theorem count_when_idle (g : Guarded State) (hnone : g.callers = []) (events : List Event)
    (hidle : (run events g).Idle) : (run events g).sem.count = g.sem.count := by
  refine Guarded.count_of_idle ?_ hidle
  unfold Guarded.holding
  rw [hnone]
  rfl

/-! ### The count -/

theorem closed_reached (events : List Event) : (reached events).Closed :=
  Guarded.Closed.run ⟨rfl, rfl⟩ _

/-- Nothing is ever printed. -/
theorem reached_data (events : List Event) : (reached events).data = init :=
  Guarded.Closed.run_data ⟨rfl, rfl⟩ _

theorem reached_append (events later : List Event) :
    reached (events ++ later) = run later (reached events) := by
  unfold reached run Guarded.run
  rw [List.map_append, List.foldl_append]

/-- A call joins those in progress. -/
theorem reached_call (events later : List Event) (c : Call) :
    reached (events ++ .call c :: later) = run later { reached events with
      callers := (reached events).callers ++ [.outside (c.sections init)] } := by
  rw [reached_append, ← reached_data events]
  rfl

theorem closed_call (events : List Event) (c : Call) :
    ({ reached events with
      callers := (reached events).callers ++ [.outside (c.sections init)] } :
        Guarded State).Closed := by
  have h := closed_reached (events ++ [.call c])
  rwa [reached_call] at h

/-- **The semaphore is never free.**  After `consoleInit` and any calls, interleaved in any way, the
count is zero; every later call of a task waits for ever and every later call of an interrupt is
refused. -/
theorem synch_never_free (events : List Event) :
    (reached events).sem.count = 0 ∧ (∀ c : Call, c.TaskLevel → NeverCompletes events c) ∧
      ∀ c : Call, c.InterruptLevel → Refused events c := by
  refine ⟨(closed_reached events).1, ?_, ?_⟩
  · intro c hc later
    obtain ⟨sec, rest, hsections, hwait⟩ := hc.sections (s := init) rfl
    refine ⟨sec, rest, ?_⟩
    rw [reached_call, hsections]
    exact (hsections ▸ closed_call events c).waits List.getElem?_concat_length hwait _
  · intro c hc
    refine ⟨(c.sections init).length, ?_⟩
    rw [reached_call]
    unfold run
    rw [List.map_replicate]
    have hrefused := (closed_call events c).refused List.getElem?_concat_length hc.sections
    refine hrefused.trans ?_
    simp

/-- Right after `consoleInit` no call is in progress, and the count is zero. -/
theorem synch_free_when_idle_fails :
    ¬ ∀ events, (reached events).Idle → (reached events).sem.count = 1 := by
  intro h
  exact absurd (h [] nofun) (by decide)

end Synch

end NanoDrone.Console
