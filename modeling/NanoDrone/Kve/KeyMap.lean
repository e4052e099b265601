import NanoDrone.Kve.Operations

/-! # The store as a finite map

Runs of `kve.c` over a memory that transfers all of its bytes faithfully, beginning with
`kveFormat` on any content.  `KeyMap.step` and `KeyMap.result` say what an operation does to a
finite map and what it answers; `exec_step` shows that one operation of the code on a table does
this to the map of the table (`Layout.lookup`), and `execAll_run` carries it through a run.

A store that returns false is not an operation of the map: it has removed its key
(`Layout.lookup_store`).  It still leaves every other key alone. -/

namespace NanoDrone

/-- A call of the public interface of `kve.c`. -/
inductive KveOp where
  | store (key value : List UInt8)
  | delete (key : List UInt8)
  | defrag
  | fetch (key : List UInt8) (buffer : Bytes) (bufferLength : ℕ)

/-- What a call returns; a fetch also gives the caller's buffer. -/
inductive KveResult where
  | stored (ok : Bool)
  | deleted (ok : Bool)
  | defragged
  | fetched (count : ℕ) (buffer : Bytes)

/-- The call reported success; a defragmentation and a fetch have nothing to report. -/
def KveResult.ok : KveResult → Bool
  | stored ok => ok
  | deleted ok => ok
  | defragged => true
  | fetched _ _ => true

/-- Keys have 1 to 255 bytes. -/
def KeyOk (key : List UInt8) : Prop := 1 ≤ key.length ∧ key.length ≤ 255

namespace KveOp

/-- The arguments allowed on a memory of `memorySize` bytes. -/
def Valid (memorySize : ℕ) : KveOp → Prop
  | store key value => KeyOk key ∧ value.length < memorySize
  | delete key => KeyOk key
  | defrag => True
  | fetch key _ bufferLength => KeyOk key ∧ bufferLength < memorySize

/-- The key whose value the call may change. -/
def target : KveOp → Option (List UInt8)
  | store key _ => some key
  | delete key => some key
  | defrag => none
  | fetch _ _ _ => none

def exec {σ : Type} (fuel : ℕ) (kve : KveMemory σ) : KveOp → KveM σ KveResult
  | store key value => do
      let ok ← kveStore fuel kve key value
      pure (.stored ok)
  | delete key => do
      let ok ← kveDelete fuel kve key
      pure (.deleted ok)
  | defrag => do
      kveDefrag fuel kve
      pure .defragged
  | fetch key buffer bufferLength => do
      let r ← kveFetch fuel kve key buffer bufferLength
      pure (.fetched r.1 r.2)

/-- A sequence of calls and what they returned. -/
def execAll {σ : Type} (fuel : ℕ) (kve : KveMemory σ) : List KveOp → KveM σ (List KveResult)
  | [] => pure []
  | op :: ops => do
      let r ← exec fuel kve op
      let rs ← execAll fuel kve ops
      pure (r :: rs)

/-- A run that begins with `kveFormat`. -/
def fromFormat {σ : Type} (fuel : ℕ) (kve : KveMemory σ) (ops : List KveOp) :
    KveM σ (List KveResult) := do
  kveFormat kve
  execAll fuel kve ops

end KveOp

/-! ### The map -/

/-- A finite map from keys to values. -/
abbrev KeyMap := List UInt8 → Option (List UInt8)

namespace KeyMap

def empty : KeyMap := fun _ => none

def set (f : KeyMap) (key : List UInt8) (v : Option (List UInt8)) : KeyMap :=
  fun k => if k = key then v else f k

/-- The answer to a fetch: the first `min n len` bytes of the value, written to the start of the
buffer; 0 and an untouched buffer when the key is absent. -/
def fetch (f : KeyMap) (key : List UInt8) (buffer : Bytes) (n : ℕ) : ℕ × Bytes :=
  match f key with
  | none => (0, buffer)
  | some v => (min n v.length, buffer.write 0 (v.take n))

def step (f : KeyMap) : KveOp → KeyMap
  | .store key value => f.set key (some value)
  | .delete key => f.set key none
  | .defrag => f
  | .fetch _ _ _ => f

def result (f : KeyMap) : KveOp → KveResult
  | .store _ _ => .stored true
  | .delete key => .deleted (f key).isSome
  | .defrag => .defragged
  | .fetch key buffer n => .fetched (f.fetch key buffer n).1 (f.fetch key buffer n).2

def run (f : KeyMap) (ops : List KveOp) : KeyMap := ops.foldl step f

def results : KeyMap → List KveOp → List KveResult
  | _, [] => []
  | f, op :: ops => f.result op :: results (f.step op) ops

end KeyMap

/-! ### One operation -/

section
variable {σ : Type} {kve : KveMemory σ} (F : Faithful kve kve.memorySize) {fuel : ℕ}
include F

/-- **One operation.**  On a table every call returns and leaves a table.  Unless it is a store
that failed, it answers as the map does and changes the map as the map's step; in any case the
other keys keep their values. -/
theorem exec_step {m : Bytes} {es : List Entry} {s : KveState σ} {op : KveOp} (h : F.access.At s m)
    (T : Table m kve.memorySize es) (hv : op.Valid kve.memorySize) (hf : kve.memorySize ≤ fuel) :
    Returns (op.exec fuel kve) s (fun r s' => ∃ m' es', F.access.At s' m' ∧
      Table m' kve.memorySize es' ∧
      (r ≠ .stored false → r = KeyMap.result (Layout.lookup es) op ∧
        Layout.lookup es' = KeyMap.step (Layout.lookup es) op) ∧
      ∀ k, op.target ≠ some k → Layout.lookup es' k = Layout.lookup es k) := by
  cases op with
  | store key value =>
      obtain ⟨⟨hk1, hk2⟩, hvl⟩ := hv
      refine (store_spec F.access h T T.endTag_le hk1 hk2 hf).bind ?_
      rintro r s' ⟨rfl, htab⟩
      have hroom := Layout.store_span_le T.nodup T.fits kve.size_le hk2
        (Nat.lt_of_lt_of_le hvl (Nat.le_succ_of_le kve.size_le))
      obtain ⟨m', h', L'⟩ := htab (by unfold firstItemAddress kveEndTagLendth; omega)
      rw [returns_pure]
      refine ⟨m', _, h', ⟨L', hroom⟩, ?_, ?_⟩
      · intro hne
        have hok : (Layout.store kve.memorySize es key value).2 = true := by
          cases hb : (Layout.store kve.memorySize es key value).2 with
          | true => rfl
          | false => exact absurd (by rw [hb]) hne
        refine ⟨by rw [hok]; rfl, ?_⟩
        funext k
        rw [Layout.lookup_store, hok, if_pos rfl]
        rfl
      · intro k hk
        rw [Layout.lookup_store, if_neg (fun e => hk (by rw [e]; rfl))]
  | delete key =>
      refine (delete_spec F.access h T T.endTag_le hv.1 hv.2 hf).bind ?_
      rintro r s' ⟨rfl, m', h', T'⟩
      rw [returns_pure]
      refine ⟨m', _, h', T', fun _ => ⟨by rw [Layout.delete_snd]; rfl, ?_⟩, ?_⟩
      · funext k
        exact Layout.lookup_delete es key k
      · intro k hk
        rw [Layout.lookup_delete, if_neg (fun e => hk (by rw [e]; rfl))]
  | defrag =>
      refine (defrag_spec F.access h T T.endTag_le hf).bind ?_
      rintro _ s' ⟨m', h', T'⟩
      rw [returns_pure]
      refine ⟨m', _, h', T', fun _ => ⟨rfl, ?_⟩, fun k _ => Layout.lookup_compact es k⟩
      funext k
      exact Layout.lookup_compact es k
  | fetch key buffer n =>
      refine (fetch_spec F.access h T hv.1.1 hv.1.2 hf).bind ?_
      rintro r s' ⟨h', rfl⟩
      rw [returns_pure]
      exact ⟨m, es, h', T, fun _ => ⟨rfl, rfl⟩, fun _ _ => rfl⟩

/-! ### A run -/

theorem execAll_run {m : Bytes} {es : List Entry} {s : KveState σ} {ops : List KveOp}
    (h : F.access.At s m) (T : Table m kve.memorySize es) (hv : ∀ op ∈ ops, op.Valid kve.memorySize)
    (hf : kve.memorySize ≤ fuel) :
    Returns (KveOp.execAll fuel kve ops) s (fun rs s' => ∃ m' es', F.access.At s' m' ∧
      Table m' kve.memorySize es' ∧
      (.stored false ∉ rs → rs = KeyMap.results (Layout.lookup es) ops ∧
        Layout.lookup es' = KeyMap.run (Layout.lookup es) ops)) := by
  induction ops generalizing m es s with
  | nil =>
      simp only [KveOp.execAll, returns_pure]
      exact ⟨m, es, h, T, fun _ => ⟨rfl, rfl⟩⟩
  | cons op ops ih =>
      refine (exec_step F h T (hv op List.mem_cons_self) hf).bind ?_
      rintro r s1 ⟨m1, es1, h1, T1, hstep, _⟩
      refine (ih h1 T1 (fun x hx => hv x (List.mem_cons_of_mem _ hx))).bind ?_
      rintro rs s2 ⟨m2, es2, h2, T2, hrun⟩
      rw [returns_pure]
      refine ⟨m2, es2, h2, T2, fun hok => ?_⟩
      simp only [List.mem_cons, not_or] at hok
      obtain ⟨hr, hl⟩ := hstep (Ne.symm hok.1)
      obtain ⟨hrs, hl2⟩ := hrun hok.2
      rw [hl] at hrs hl2
      exact ⟨by rw [hr, hrs]; rfl, hl2⟩

/-- **The store is a finite map.**  After `kveFormat` on any content, every sequence of calls
returns, and when each store in it returned true the answers are those of a finite map, and so
is every further fetch.  A further call on one key, whatever it returns, changes no fetch of
another key. -/
theorem kve_finite_map {s : KveState σ} {ops : List KveOp} (hs : F.Ok s.dev)
    (hv : ∀ op ∈ ops, op.Valid kve.memorySize) (hf : kve.memorySize ≤ fuel) :
    Returns (KveOp.fromFormat fuel kve ops) s (fun rs s' => .stored false ∉ rs →
        rs = KeyMap.results .empty ops ∧
        (∀ key buffer n, KeyOk key → Returns (kveFetch fuel kve key buffer n) s'
          (fun r _ => r = (KeyMap.run .empty ops).fetch key buffer n)) ∧
        ∀ op : KveOp, op.Valid kve.memorySize → Returns (op.exec fuel kve) s' (fun _ s'' =>
          ∀ key buffer n, KeyOk key → op.target ≠ some key →
            Returns (kveFetch fuel kve key buffer n) s''
              (fun r _ => r = (KeyMap.run .empty ops).fetch key buffer n))) := by
  have hsz := kve.size_ge
  refine (format_spec F.access ⟨hs, rfl⟩ (by omega) (by omega)).bind ?_
  rintro _ s1 ⟨m1, h1, T1⟩
  refine (execAll_run F h1 T1 hv hf).mono ?_
  rintro rs s2 ⟨m2, es2, h2, T2, hrun⟩ hok
  obtain ⟨hrs, hl⟩ := hrun hok
  have hl' : Layout.lookup es2 = KeyMap.run .empty ops := hl
  refine ⟨hrs, ?_, ?_⟩
  · intro key buffer n hk
    refine (fetch_spec F.access h2 T2 hk.1 hk.2 hf).mono ?_
    rintro r _ ⟨_, rfl⟩
    rw [← hl']
    rfl
  · intro op hop
    refine (exec_step F h2 T2 hop hf).mono ?_
    rintro _ s3 ⟨m3, es3, h3, T3, _, hframe⟩ key buffer n hk hne
    refine (fetch_spec F.access h3 T3 hk.1 hk.2 hf).mono ?_
    rintro r _ ⟨_, rfl⟩
    rw [hframe key hne, hl']
    rfl

end

/-! ### The ideal memory -/

/-- An array of `n` bytes; an access that is not inside it is refused. -/
def idealMemory (n : ℕ) (h1 : 16 ≤ n) (h2 : n ≤ 65535) : KveMemory Bytes where
  memorySize := n
  read a len m := if a + len ≤ n then (m.slice a len, m) else ([], m)
  write a d m := if a + d.length ≤ n then m.write a d else m
  flush m := m
  size_ge := h1
  size_le := h2

def idealFaithful (n : ℕ) (h1 : 16 ≤ n) (h2 : n ≤ 65535) : Faithful (idealMemory n h1 h2) n where
  view m := m
  Ok _ := True
  limit_le := Nat.le_refl n
  read_bytes := by
    intro s a len _ hb
    simp [idealMemory, hb]
  read_ok _ _ := trivial
  read_view := by
    intro s a len _ hb
    simp [idealMemory, hb]
  write_ok _ _ := trivial
  write_view := by
    intro s a d _ hb
    simp [idealMemory, hb]
  flush_ok _ := trivial
  flush_view _ := rfl

/-- Access to all of an ideal memory. -/
abbrev idealAccess (n : ℕ) (h1 : 16 ≤ n) (h2 : n ≤ 65535) : Access (idealMemory n h1 h2) n n :=
  (idealFaithful n h1 h2).access

/-- A memory with zeros everywhere, before the first call. -/
def blankState : KveState Bytes :=
  ⟨fun _ => 0, fun _ => 0, fun _ => 0, fun _ => 0⟩

/-- A value is stored under one key, replaced, and another key deleted. -/
theorem kve_finite_map_small : Returns (KveOp.fromFormat 32 (idealMemory 32 (by decide) (by decide))
    [.store [97] [1, 2], .store [98] [3], .store [97] [4], .delete [98]]) blankState
    (fun rs s' => rs = [.stored true, .stored true, .stored true, .deleted true] ∧
      Returns (kveFetch 32 (idealMemory 32 (by decide) (by decide)) [97] (fun _ => 0) 8) s'
        (fun r _ => r = (1, Bytes.write (fun _ => 0) 0 [4]))) := by
  have hv : ∀ op ∈ [KveOp.store [97] [1, 2], .store [98] [3], .store [97] [4], .delete [98]],
      op.Valid 32 := by
    simp [KveOp.Valid, KeyOk]
  obtain ⟨rs, s', hrun, hmap⟩ := kve_finite_map (idealFaithful 32 (by decide) (by decide))
    (s := blankState) trivial hv (Nat.le_refl 32)
  have hrs : (KveOp.fromFormat 32 (idealMemory 32 (by decide) (by decide))
      [.store [97] [1, 2], .store [98] [3], .store [97] [4], .delete [98]] blankState).map
      (fun p => p.1.map KveResult.ok) = some [true, true, true, true] := by
    decide +kernel
  rw [hrun] at hrs
  have hrs' : rs.map KveResult.ok = [true, true, true, true] := Option.some.inj hrs
  have hok : .stored false ∉ rs := by
    intro hmem
    have := List.mem_map_of_mem (f := KveResult.ok) hmem
    rw [hrs'] at this
    simp [KveResult.ok] at this
  exact ⟨rs, s', hrun, (hmap hok).1, (hmap hok).2.1 [97] (fun _ => 0) 8 (by simp [KeyOk])⟩

end NanoDrone
