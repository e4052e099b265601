import NanoDrone.Lib.Interleaving
import NanoDrone.Log.Freeing
import NanoDrone.Log.RunBlock

/-! # Log commands and the worker

The worker runs `logRunBlock` once for each scheduled block, in any order and at any later time,
while `logTask` handles control packets and timers expire.  What runs under `logLock` is one step;
an execution of `logRunBlock` is

* the read of the head of the list of ops, before the lock (`Action.start`),
* the loop over the ops under the lock (`Action.lock`),
* the test of the connection, and the packet is sent or a reset begins (`Action.finish`),
* the accesses of `logReset`, without the lock (`Action.reset`).

Deleting a block leaves its list head and its scheduled executions in place, so the loop can
visit ops that have been freed (`visits_freed_op`); `visits_inBlock` says when it does not.

The pool of ops is the invariant, but for a reset without the lock, when it is that at the end
nothing will be allocated (`PoolOrReset`). -/

namespace NanoDrone.Log

/-- Programs that run without the lock. -/
abbrev Unlocked := OptionT (Prog LogState Unit)

/-- Where the worker stands in an execution of `logRunBlock`. -/
inductive Worker where
  | idle
  /-- before the lock is taken; `ops` is the head of the list of `blk` as it was read -/
  | started (blk : BlockPtr) (ops : Option OpsPtr)
  /-- the lock is given back -/
  | ran (blk : BlockPtr) (pk : List UInt8)
  | resetting (rest : Unlocked Unit)

structure System where
  log : LogState
  worker : Worker

inductive Action where
  /-- `logTask` handles a control packet -/
  | control (created : Bool) (p : ControlPacket)
  /-- the timer of a block expires -/
  | timer (b : BlockPtr)
  /-- the worker takes a scheduled execution and reads the head of the list -/
  | start (k : ℕ)
  | lock (env : Surroundings) (timestamp : ℕ)
  /-- with the results of `crtpIsConnected` and `crtpSendPacket` -/
  | finish (connected : Bool) (sent : Int)
  | reset

/-- The next access of a `logReset` that runs without the lock. -/
def resetStep (rest : Prog LogState Unit (Option Unit)) (log : LogState) : Option System :=
  match rest with
  | .done none => none
  | .done (some _) => some ⟨log, .idle⟩
  | .act _ update next => some ⟨update log, .resetting (next log)⟩

/-- `none` where an action cannot happen, or is undefined or does not end. -/
def step (linker : Linker) (sys : System) : Action → Option System
  | .control created p =>
      (logControlProcess linker created p sys.log).map fun r => { sys with log := r.2 }
  | .timer b =>
      if (sys.log.logBlocks b).timer.any (·.active) then
        some { sys with log := logBlockTimed b sys.log }
      else none
  | .start k =>
      match sys.worker with
      | .idle => (sys.log.scheduled[k]?).map fun b =>
          ⟨{ sys.log with scheduled := sys.log.scheduled.eraseIdx k },
            .started b (sys.log.logBlocks b).ops⟩
      | _ => none
  | .lock env timestamp =>
      match sys.worker with
      | .started blk ops =>
          (logRunBlockLocked env timestamp blk ops sys.log).2.map fun pk => ⟨sys.log, .ran blk pk⟩
      | _ => none
  | .finish connected sent =>
      match sys.worker with
      | .ran blk _ =>
          if connected then
            if sent = 0 then
              some ⟨sys.log.setBlock blk fun b => { b with droppedPackets := b.droppedPackets + 1 },
                .idle⟩
            else some ⟨sys.log, .idle⟩
          else some ⟨sys.log, .resetting logReset⟩
      | _ => none
  | .reset =>
      match sys.worker with
      | .resetting rest => resetStep rest.run sys.log
      | _ => none

/-- The ops that an action visits, each with the block that `logRunBlock` was called for. -/
def visits (sys : System) : Action → List (BlockPtr × OpsPtr)
  | .lock env timestamp =>
      match sys.worker with
      | .started blk ops =>
          (logRunBlockLocked env timestamp blk ops sys.log).1.map fun o => (blk, o)
      | _ => []
  | _ => []

/-- The op is allocated, and linked in the block, which is allocated. -/
def LogState.InBlock (s : LogState) (b : BlockPtr) (o : OpsPtr) : Prop :=
  s.Allocated b ∧ (s.logOps o).variablePtr ≠ none ∧
    ∃ l, Linked s.next (s.logBlocks b).ops l ∧ o ∈ l

def VisitsInBlock (sys : System) (a : Action) : Prop :=
  ∀ v ∈ visits sys a, sys.log.InBlock v.1 v.2

/-- Whether a control packet creates or appends to a block. -/
def ControlPacket.Appends (p : ControlPacket) : Prop := p.format ≠ none

/-- The head that `logRunBlock` has read is `NULL`, or its block is allocated and still has it. -/
def HeadCurrent (log : LogState) : Worker → Prop
  | .started blk ops => ops = none ∨ log.Allocated blk ∧ (log.logBlocks blk).ops = ops
  | _ => True

instance (log : LogState) : (worker : Worker) → Decidable (HeadCurrent log worker)
  | .started _ _ => inferInstanceAs (Decidable (_ ∨ _ ∧ _))
  | .idle => isTrue trivial
  | .ran _ _ => isTrue trivial
  | .resetting _ => isTrue trivial

def Worker.isResetting : Worker → Bool
  | .resetting _ => true
  | _ => false

/-- When `logRunBlock` takes the lock, the head it has read is current.  And no block is created
or appended to while it resets the log subsystem without the lock. -/
def Undisturbed (sys : System) : Action → Prop
  | .lock _ _ => HeadCurrent sys.log sys.worker
  | .control _ p => sys.worker.isResetting → ¬ p.Appends
  | _ => True

instance (p : ControlPacket) : Decidable p.Appends :=
  decidable_of_iff (p.format.isSome = true) Option.isSome_iff_ne_none

instance (sys : System) : (a : Action) → Decidable (Undisturbed sys a)
  | .lock _ _ => inferInstanceAs (Decidable (HeadCurrent _ _))
  | .control _ _ => inferInstanceAs (Decidable (_ → _))
  | .timer _ => isTrue trivial
  | .start _ => isTrue trivial
  | .finish _ _ => isTrue trivial
  | .reset => isTrue trivial

/-! ### Commands that only free

While the worker resets the log subsystem without the lock there is no pool to speak of.  What
counts then is that nothing that is free is allocated again. -/

/-- Blocks and ops that are free stay free. -/
structure OnlyFrees (s s' : LogState) : Prop where
  blocks : ∀ b, ¬ s.Allocated b → ¬ s'.Allocated b
  ops : ∀ o, (s.logOps o).variablePtr = none → (s'.logOps o).variablePtr = none

theorem OnlyFrees.refl (s : LogState) : OnlyFrees s s := ⟨fun _ => id, fun _ => id⟩

theorem OnlyFrees.trans {s s' s'' : LogState} (h : OnlyFrees s s') (h' : OnlyFrees s' s'') :
    OnlyFrees s s'' :=
  ⟨fun b hb => h'.blocks b (h.blocks b hb), fun o ho => h'.ops o (h.ops o ho)⟩

/-- An update of a block that leaves its id alone or frees it. -/
theorem onlyFrees_setBlock (s : LogState) (b : BlockPtr) (f : LogBlock → LogBlock)
    (hf : ∀ c, (f c).id = c.id ∨ (f c).id = blockIdFree) : OnlyFrees s (s.setBlock b f) := by
  refine ⟨?_, fun _ => id⟩
  intro a ha
  unfold LogState.Allocated at ha ⊢
  rcases eq_or_ne a b with rfl | hab
  · rw [LogState.setBlock_self]
    rcases hf (s.logBlocks a) with h | h
    · rwa [h]
    · exact not_not_intro h
  · rwa [LogState.setBlock_of_ne s b hab]

theorem onlyFrees_opsFree (s : LogState) (o : OpsPtr) :
    OnlyFrees s (s.setOps o fun x => { x with variablePtr := none }) := by
  refine ⟨fun _ => id, ?_⟩
  intro a ha
  rcases eq_or_ne a o with rfl | hao
  · rw [LogState.setOps_self]
  · rwa [LogState.setOps_of_ne s o hao]

/-- The program only frees, from any state. -/
def FreesOnly {α : Type} (x : LogM α) : Prop :=
  ∀ s, ReturnsUnless True x s (fun _ s' => OnlyFrees s s')

theorem onlyFrees_freeing : Freeing OnlyFrees where
  refl := .refl
  trans := .trans
  setBlock := onlyFrees_setBlock
  opsFree := onlyFrees_opsFree
  schedule _ _ := ⟨fun _ => id, fun _ => id⟩

/-- Commands that do not create or append only free. -/
theorem freesOnly_logControlProcess (linker : Linker) (created : Bool) {p : ControlPacket}
    (hp : ¬ p.Appends) : FreesOnly (logControlProcess linker created p) := by
  refine within_logControlProcess onlyFrees_freeing ?_
  intro f hf
  exact absurd (fun hnone => Option.some_ne_none f (hf.symm.trans hnone)) hp

/-! ### A reset without the lock -/

theorem stable_true : Stable OnlyFrees (fun _ => True) := fun _ _ _ _ => trivial

theorem stable_freeExcept (rest : List BlockPtr) : Stable OnlyFrees (FreeExcept rest) :=
  fun _ _ h hs b hb => h.blocks b (hs b hb)

theorem stable_clearedExcept (rest : List OpsPtr) : Stable OnlyFrees (ClearedExcept rest) :=
  fun _ _ h hs => ⟨fun b => h.blocks b (hs.blocks b), fun o ho => h.ops o (hs.ops o ho)⟩

theorem ensures_freeIds (s : LogState) : EnsuresIfDone OnlyFrees (fun _ => FreeExcept [])
    ((List.finRange logMaxBlocks).forM (setId · blockIdFree)) s := by
  refine EnsuresIfDone.forM (I := FreeExcept) (stable_freeExcept []) (.all s) ?_
  intro i rest t ht
  exact .of_modify (stable_freeExcept (i :: rest)) (stable_freeExcept rest) (fun _ => .setFree) ht

theorem ensures_freeVariables {s : LogState} (h : FreeExcept [] s) :
    EnsuresIfDone OnlyFrees (fun _ => ClearedExcept []) ((List.finRange logMaxOps).forM opsFree)
      s := by
  refine EnsuresIfDone.forM (I := ClearedExcept) (stable_clearedExcept []) h.cleared ?_
  intro x rest t ht
  exact .of_modify (stable_clearedExcept (x :: rest)) (stable_clearedExcept rest)
    (fun _ => .opsFree) ht

/-- Among commands that only free, everything is free at the end of a reset. -/
theorem ensures_logReset (s : LogState) :
    EnsuresIfDone OnlyFrees (fun _ => Cleared) (logReset : Unlocked Unit) s := by
  have hend : ∀ t, EnsuresIfDone OnlyFrees (fun _ => Cleared) (do
      (List.finRange logMaxBlocks).forM (setId · blockIdFree)
      (List.finRange logMaxOps).forM opsFree : Unlocked Unit) t := fun t =>
    (ensures_freeIds t).bind fun _ _ hu =>
      (ensures_freeVariables hu).mono fun _ _ => ClearedExcept.cleared
  refine (EnsuresIfDone.of_get stable_true trivial).bind ?_
  intro t u _
  split
  · exact (EnsuresIfDone.trivial _).bind fun _ v _ => hend v
  · exact hend u

/-! ### The invariant -/

/-- The ops are a pool, or the worker is in a reset at the end of which nothing is allocated. -/
def PoolOrReset (sys : System) : Prop :=
  match sys.worker with
  | .resetting rest => EnsuresIfDone OnlyFrees (fun _ => Cleared) rest sys.log
  | _ => ∃ lists, Pool sys.log lists

theorem PoolOrReset.resetStep {rest : Prog LogState Unit (Option Unit)} {log : LogState}
    {sys' : System} (h : rest.Ensures OnlyFrees (fun r t => ∀ a, r = some a → Cleared t) log)
    (hs : resetStep rest log = some sys') : PoolOrReset sys' := by
  unfold Log.resetStep at hs
  split at hs
  · cases hs
  · cases hs
    exact ⟨_, (h.of_done _ rfl).pool⟩
  · cases hs
    exact h.of_act

/-- Changes of the log state that the pool and a reset both bear. -/
theorem PoolOrReset.set_log {log log' : LogState} {worker : Worker}
    (h : PoolOrReset ⟨log, worker⟩)
    (hpool : ∀ lists, Pool log lists → ∃ lists', Pool log' lists')
    (hfrees : ∀ rest, worker = .resetting rest → OnlyFrees log log') :
    PoolOrReset ⟨log', worker⟩ := by
  cases worker with
  | resetting rest => exact Prog.Ensures.interfere h (hfrees rest rfl)
  | idle =>
      obtain ⟨lists, hl⟩ := h
      exact hpool lists hl
  | started blk ops =>
      obtain ⟨lists, hl⟩ := h
      exact hpool lists hl
  | ran blk pk =>
      obtain ⟨lists, hl⟩ := h
      exact hpool lists hl

/-- Every step keeps the invariant. -/
theorem PoolOrReset.step {linker : Linker} {sys sys' : System} {a : Action} (h : PoolOrReset sys)
    (ha : Undisturbed sys a) (hs : step linker sys a = some sys') : PoolOrReset sys' := by
  obtain ⟨log, worker⟩ := sys
  have hschedule : ∀ l, PoolOrReset ⟨{ log with scheduled := l }, worker⟩ := by
    intro l
    refine h.set_log ?_ (fun _ _ => ⟨fun _ hb => hb, fun _ ho => ho⟩)
    intro lists hl
    exact ⟨lists, hl.congr rfl (fun _ => rfl) (fun _ _ => rfl) hl.timers⟩
  cases a with
  | control created p =>
      obtain ⟨⟨answer, log'⟩, hr, rfl⟩ := Option.map_eq_some_iff.mp hs
      refine h.set_log ?_ ?_
      · intro lists hl
        obtain ⟨lists', hl', _⟩ := (hl.controlProcess linker created p).of_eq hr
        exact ⟨lists', hl'⟩
      · intro rest hworker
        subst hworker
        exact (freesOnly_logControlProcess linker created (ha rfl) log).of_eq hr
  | timer b =>
      simp only [Log.step] at hs
      split at hs
      · cases hs
        exact hschedule _
      · cases hs
  | start k =>
      cases worker with
      | idle =>
          obtain ⟨b, _, rfl⟩ := Option.map_eq_some_iff.mp hs
          exact hschedule _
      | started blk ops => cases hs
      | ran blk pk => cases hs
      | resetting rest => cases hs
  | lock env timestamp =>
      cases worker with
      | started blk ops =>
          obtain ⟨pk, _, rfl⟩ := Option.map_eq_some_iff.mp hs
          exact h
      | idle => cases hs
      | ran blk pk => cases hs
      | resetting rest => cases hs
  | finish connected sent =>
      cases worker with
      | ran blk pk =>
          obtain ⟨lists, hl⟩ := h
          simp only [Log.step] at hs
          split at hs
          · split at hs
            · cases hs
              have hl : Pool log lists := hl
              exact ⟨lists, hl.setBlock blk (f := fun b =>
                { b with droppedPackets := b.droppedPackets + 1 }) (fun _ => rfl) (fun _ => rfl)
                (fun _ => id)⟩
            · cases hs
              exact ⟨lists, hl⟩
          · cases hs
            exact ensures_logReset log
      | idle => cases hs
      | started blk ops => cases hs
      | resetting rest => cases hs
  | reset =>
      cases worker with
      | resetting rest => exact PoolOrReset.resetStep h hs
      | idle => cases hs
      | started blk ops => cases hs
      | ran blk pk => cases hs

/-! ### Runs -/

/-- With the invariant, a loop that starts at a current head visits ops of its block. -/
theorem PoolOrReset.visitsInBlock {sys : System} {a : Action} (h : PoolOrReset sys)
    (ha : Undisturbed sys a) : VisitsInBlock sys a := by
  obtain ⟨log, worker⟩ := sys
  unfold VisitsInBlock visits
  split
  · rename_i env timestamp
    split
    · rename_i blk ops hworker
      cases hworker
      obtain ⟨lists, hl⟩ := h
      intro v hv
      obtain ⟨o, ho, rfl⟩ := List.mem_map.mp hv
      rcases ha with rfl | ⟨halloc, hhead⟩
      · cases ho
      · have hlinked := hl.linked blk halloc
        rw [hhead] at hlinked
        have hmem := (runOps_visits env timestamp hlinked).subset ho
        exact ⟨halloc, hl.used blk o hmem, lists blk, hhead ▸ hlinked, hmem⟩
    · exact fun v hv => absurd hv List.not_mem_nil
  · exact fun v hv => absurd hv List.not_mem_nil

/-- **What `logRunBlock` visits.**  In every run after `logInit`, with no variable at `NULL`, in which
a loop over ops only starts at the current head of an allocated block, or at `NULL`, and no block is
created or appended to during a reset without the lock, every op that `logRunBlock` visits is allocated and
linked in the block it was called for. -/
theorem visits_inBlock (linker : Linker) {s0 log : LogState} (hboot : s0.isInit = false)
    (hinit : logInit s0 = some ((), log)) {actions : List Action}
    (h : Along (step linker) Undisturbed actions ⟨log, .idle⟩) :
    Along (step linker) VisitsInBlock actions ⟨log, .idle⟩ := by
  have hpool : PoolOrReset ⟨log, .idle⟩ := ⟨_, ((returns_logInit hboot).of_eq hinit).1⟩
  exact h.of_invariant hpool (fun _ _ _ hs ha hstep => hs.step ha hstep)
    (fun _ _ hs ha => hs.visitsInBlock ha)

/-- A block is run while the link is down, and is deleted during the reset that follows. -/
theorem visits_inBlock_small : ∃ log, logInit .zero = some ((), log) ∧
    Along (step ⟨[⟨3, some 0x20000100⟩], 0x20000000, by decide⟩) VisitsInBlock
      [.control true (.ofBytes [0, 7, 3, 0]), .control true (.ofBytes [3, 7, 0]), .start 0,
        .lock ⟨fun _ => 5, fun _ _ _ => none, fun _ => 0, fun _ => 0, fun _ => 0⟩ 1000,
        .finish false 0, .reset, .control true (.ofBytes [2, 7])] ⟨log, .idle⟩ := by
  have hrun : (logInit .zero).any (fun r => decide
      (Along (step ⟨[⟨3, some 0x20000100⟩], 0x20000000, by decide⟩) Undisturbed
        [.control true (.ofBytes [0, 7, 3, 0]), .control true (.ofBytes [3, 7, 0]), .start 0,
          .lock ⟨fun _ => 5, fun _ _ _ => none, fun _ => 0, fun _ => 0, fun _ => 0⟩ 1000,
          .finish false 0, .reset, .control true (.ofBytes [2, 7])] ⟨r.2, .idle⟩)) = true := by
    decide +kernel
  obtain ⟨⟨_, log⟩, hlog, hlong⟩ := (Option.any_eq_true ..).mp hrun
  exact ⟨log, hlog, visits_inBlock _ rfl hlog (of_decide_eq_true hlong)⟩

/-- A block is started, deleted, and then run: its op is free. -/
theorem visits_freed_op : ∃ log, logInit .zero = some ((), log) ∧
    ¬ Along (step ⟨[⟨3, some 0x20000100⟩], 0x20000000, by decide⟩) VisitsInBlock
      [.control true (.ofBytes [0, 7, 3, 0]), .control true (.ofBytes [3, 7, 0]),
        .control true (.ofBytes [2, 7]), .start 0,
        .lock ⟨fun _ => 5, fun _ _ _ => none, fun _ => 0, fun _ => 0, fun _ => 0⟩ 1000]
      ⟨log, .idle⟩ := by
  have hrun : (logInit .zero).any (fun r => decide
      (¬ Along (step ⟨[⟨3, some 0x20000100⟩], 0x20000000, by decide⟩)
        (fun sys a => ∀ v ∈ visits sys a, (sys.log.logOps v.2).variablePtr ≠ none)
        [.control true (.ofBytes [0, 7, 3, 0]), .control true (.ofBytes [3, 7, 0]),
          .control true (.ofBytes [2, 7]), .start 0,
          .lock ⟨fun _ => 5, fun _ _ _ => none, fun _ => 0, fun _ => 0, fun _ => 0⟩ 1000]
        ⟨r.2, .idle⟩)) = true := by
    decide +kernel
  obtain ⟨⟨_, log⟩, hlog, hnot⟩ := (Option.any_eq_true ..).mp hrun
  refine ⟨log, hlog, fun h => of_decide_eq_true hnot (h.mono ?_)⟩
  exact fun _ _ hs v hv => (hs v hv).2.1

end NanoDrone.Log
