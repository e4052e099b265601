import NanoDrone.Kve.Contents

/-! # Iterating over a prefix (`kveForeach`)

`kveForeach` asks for the next item whose key starts with a prefix, reads up to eight bytes of its
value and calls a function with both, until the function answers false.  Its scan copies the key
that it finds into a buffer of 64 bytes that it is passed.

Two values of the code stand for more than they say.  The number of bytes read is also the test
whether the read has worked, so an empty value ends the iteration as a failure (`visits`); and the
length of a key, which is at most 255, is never compared with the size of the key buffer.
`foreach_spec` gives the exact behaviour on every table; `foreach_calls_iff` says when the calls are
the expected ones, and `foreach_key_buffer_iff` when the key buffer is not left. -/

namespace NanoDrone

/-- A call of `func`: the string in the key buffer, and the bytes of the value. -/
structure KveCall where
  key : List UInt8
  buffer : List UInt8
deriving DecidableEq, Repr

/-- What an iteration does outside the store: the static `keyBuffer`, the writes into it (offset
and length) and the calls of `func`. -/
structure ForeachTrace where
  keyBuffer : Bytes
  keyWrites : List (ℕ × ℕ)
  calls : List KveCall

/-- The state of `kve.c` with the static buffer of `kveStorageFindItemByPrefix`. -/
structure ForeachState (σ : Type) where
  kve : KveState σ
  searchBuffer : Bytes
  trace : ForeachTrace

abbrev ForeachM (σ : Type) := StateT (ForeachState σ) Option

/-- The string at the start of a buffer; a key has at most 255 bytes before the NUL. -/
def cString (b : Bytes) : List UInt8 := (b.slice 0 256).takeWhile (· ≠ 0)

/-- `sizeof(keyBuffer)`. -/
def keyBufferSize : ℕ := 64

/-- `bufferLength`, the bytes of a value that `func` is given. -/
def foreachBufferLength : ℕ := 8

namespace ForeachTrace

def writeKey (t : ForeachTrace) (offset : ℕ) (data : List UInt8) : ForeachTrace :=
  { t with
    keyBuffer := t.keyBuffer.write offset data
    keyWrites := t.keyWrites ++ [(offset, data.length)] }

/-- `memcpy(keyBuffer, searchBuffer, keyLength)` and `keyBuffer[keyLength] = 0`. -/
def copyKey (t : ForeachTrace) (key : List UInt8) : ForeachTrace :=
  (t.writeKey 0 key).writeKey key.length [0]

def call (t : ForeachTrace) (c : KveCall) : ForeachTrace := { t with calls := t.calls ++ [c] }

end ForeachTrace

section
variable {σ : Type} (fuel : ℕ) (kve : KveMemory σ)

/-- A function of `kve_storage.c`. -/
def onKve {α : Type} (x : KveM σ α) : ForeachM σ α := fun s =>
  (x s.kve).map (fun p => (p.1, { s with kve := p.2 }))

/-- `kve->read` into the static `searchBuffer` of `kveStorageFindItemByPrefix`. -/
def readForeachBuffer (address length : ℕ) : ForeachM σ Bytes := do
  let s ← get
  let buffer ← onKve (kveRead kve address s.searchBuffer length)
  modify (fun s => { s with searchBuffer := buffer })
  pure buffer

def findItemByPrefixLoop (start : List UInt8) : ℕ → ℕ → ForeachM σ (ℕ × ℕ)
  | 0, _ => failure
  | fuel + 1, currentAddress =>
      if currentAddress < kve.memorySize - 3 then do
        let buffer ← readForeachBuffer kve currentAddress 3
        let header := KveItemHeader.ofBuffer buffer
        let searchedKeyLength := start.length % 256
        if header.fullLength = kveEndTag then pure (sizeMax, sizeMax)
        else if searchedKeyLength ≤ header.keyLength then do
          let buffer ← readForeachBuffer kve (currentAddress + 3) header.keyLength
          if start.take searchedKeyLength = buffer.slice 0 searchedKeyLength then do
            modify (fun s => { s with trace := s.trace.copyKey (buffer.slice 0 header.keyLength) })
            pure (header.fullLength, currentAddress)
          else findItemByPrefixLoop start fuel (currentAddress + header.fullLength)
        else findItemByPrefixLoop start fuel (currentAddress + header.fullLength)
      else pure (sizeMax, sizeMax)

/-- The size and the address of the item found; its key is in the key buffer. -/
def kveStorageFindItemByPrefix (address : ℕ) (start : List UInt8) : ForeachM σ (ℕ × ℕ) :=
  findItemByPrefixLoop kve start fuel address

/-- A call of `func`, which answers as it likes on the calls before. -/
def callFunc (func : List KveCall → KveCall → Bool) (buffer : List UInt8) : ForeachM σ Bool := do
  let s ← get
  let c := KveCall.mk (cString s.trace.keyBuffer) buffer
  set { s with trace := s.trace.call c }
  pure (func s.trace.calls c)

def foreachLoop (start : List UInt8) (func : List KveCall → KveCall → Bool) :
    ℕ → ℕ × ℕ → ForeachM σ Bool
  | 0, _ => failure
  | rounds + 1, (itemSize, itemAddress) =>
      if itemAddress ≠ sizeMax then do
        let buffer ← onKve uninitialised
        let header ← onKve (kveStorageGetItemInfo kve itemAddress)
        let storeSize := sizeT (header.fullLength + 2 ^ 32 - header.keyLength - sizeofHeader)
        let readLength := min storeSize foreachBufferLength
        let r ← onKve (kveStorageGetBuffer kve itemAddress header buffer readLength)
        if r.1 ≠ 0 then do
          let ok ← callFunc func (r.2.slice 0 readLength)
          if !ok then pure false
          else do
            let next ← kveStorageFindItemByPrefix fuel kve (itemAddress + itemSize) start
            foreachLoop start func rounds next
        else pure false
      else pure true

def kveForeach (start : List UInt8) (func : List KveCall → KveCall → Bool) : ForeachM σ Bool := do
  let first ← kveStorageFindItemByPrefix fuel kve firstItemAddress start
  foreachLoop fuel kve start func fuel first

end

/-! ### What is visited -/

/-- The keys and values of the items whose key starts with `start`, in the order of their
addresses. -/
def matching (es : List Entry) (start : List UInt8) : List (List UInt8 × List UInt8) :=
  (contents es).filter (fun p => start.isPrefixOf p.1)

/-- The call that an item is for. -/
def callOf (p : List UInt8 × List UInt8) : KveCall := ⟨p.1, p.2.take foreachBufferLength⟩

/-- The calls in their order, up to the first that is answered with false. -/
def callEach (func : List KveCall → KveCall → Bool) :
    List KveCall → List KveCall → Bool × List KveCall
  | calls, [] => (true, calls)
  | calls, c :: cs =>
      if func calls c then callEach func (calls ++ [c]) cs else (false, calls ++ [c])

/-- What the code does with the items that match: each key is copied and each item called, until
a call is answered with false or a value is empty, which looks like a read that failed. -/
def visits (func : List KveCall → KveCall → Bool) :
    ForeachTrace → List (List UInt8 × List UInt8) → Bool × ForeachTrace
  | t, [] => (true, t)
  | t, p :: ps =>
      if p.2 = [] then (false, t.copyKey p.1)
      else if func t.calls (callOf p) then visits func ((t.copyKey p.1).call (callOf p)) ps
      else (false, (t.copyKey p.1).call (callOf p))

/-- The items that the iteration gets to. -/
def reached (func : List KveCall → KveCall → Bool) :
    List KveCall → List (List UInt8 × List UInt8) → List (List UInt8 × List UInt8)
  | _, [] => []
  | calls, p :: ps =>
      p :: if p.2 ≠ [] ∧ func calls (callOf p) = true then reached func (calls ++ [callOf p]) ps
        else []

theorem matching_append (xs ys : List Entry) (start : List UInt8) :
    matching (xs ++ ys) start = matching xs start ++ matching ys start := by
  unfold matching contents
  rw [List.filterMap_append, List.filter_append]

/-- An entry that the scan stops at. -/
def Entry.startsWith (start : List UInt8) : Entry → Bool
  | item key _ => start.isPrefixOf key
  | hole _ => false

theorem matching_eq_nil {es : List Entry} {start : List UInt8}
    (h : ∀ e ∈ es, e.startsWith start = false) : matching es start = [] := by
  induction es with
  | nil => rfl
  | cons e es ih =>
      have he := h e List.mem_cons_self
      have hes := ih (fun x hx => h x (List.mem_cons_of_mem _ hx))
      unfold matching at hes ⊢
      cases e with
      | item k v =>
          simp only [Entry.startsWith] at he
          rw [contents_item, List.filter_cons_of_neg (by simp [he]), hes]
      | hole n => rw [contents_hole, hes]

theorem matching_item {k v start : List UInt8} (es : List Entry)
    (h : (Entry.item k v).startsWith start = true) :
    matching (.item k v :: es) start = (k, v) :: matching es start := by
  unfold matching
  rw [contents_item, List.filter_cons_of_pos (by simpa [Entry.startsWith] using h)]

theorem length_callEach (func : List KveCall → KveCall → Bool) (calls cs : List KveCall) :
    calls.length ≤ (callEach func calls cs).2.length := by
  induction cs generalizing calls with
  | nil => exact Nat.le_refl _
  | cons c cs ih =>
      unfold callEach
      split
      · have := ih (calls ++ [c])
        simp only [List.length_append, List.length_singleton] at this
        omega
      · simp

theorem length_lt_callEach (func : List KveCall → KveCall → Bool) (calls : List KveCall)
    (c : KveCall) (cs : List KveCall) :
    calls.length < (callEach func calls (c :: cs)).2.length := by
  unfold callEach
  split
  · have := length_callEach func (calls ++ [c]) cs
    simp only [List.length_append, List.length_singleton] at this
    omega
  · simp

/-- The calls are the expected ones exactly when no empty value is reached. -/
theorem visits_calls_iff {func : List KveCall → KveCall → Bool} {t : ForeachTrace}
    {ps : List (List UInt8 × List UInt8)} :
    ((visits func t ps).1, (visits func t ps).2.calls) = callEach func t.calls (ps.map callOf) ↔
      ∀ p ∈ reached func t.calls ps, p.2 ≠ [] := by
  induction ps generalizing t with
  | nil => simp [visits, callEach, reached]
  | cons p ps ih =>
      by_cases hp : p.2 = []
      · -- the call for the empty value is missing
        have hlen := length_lt_callEach func t.calls (callOf p) (ps.map callOf)
        have hne : (false, t.calls) ≠ callEach func t.calls (callOf p :: ps.map callOf) := by
          intro he
          rw [← he] at hlen
          exact absurd hlen (Nat.lt_irrefl _)
        have hv : visits func t (p :: ps) = (false, t.copyKey p.1) := by
          simp only [visits, if_pos hp]
        rw [List.map_cons, hv]
        constructor
        · intro he
          exact absurd he hne
        · intro hall
          exact absurd hp (hall p (by simp [reached]))
      · by_cases hf : func t.calls (callOf p) = true
        · have hrest := @ih ((t.copyKey p.1).call (callOf p))
          simp only [visits, if_pos hf, List.map_cons, callEach, reached, ne_eq, hp,
            not_false_eq_true, true_and, List.forall_mem_cons]
          exact hrest
        · simp [visits, hf, callEach, reached, hp, ForeachTrace.call,
            ForeachTrace.copyKey, ForeachTrace.writeKey]

/-- The writes into the key buffer: each key that is reached, and a NUL behind it. -/
theorem visits_keyWrites (func : List KveCall → KveCall → Bool) (t : ForeachTrace)
    (ps : List (List UInt8 × List UInt8)) :
    (visits func t ps).2.keyWrites = t.keyWrites ++
      (reached func t.calls ps).flatMap (fun p => [(0, p.1.length), (p.1.length, 1)]) := by
  induction ps generalizing t with
  | nil => simp [visits, reached]
  | cons p ps ih =>
      have hcopy : (t.copyKey p.1).keyWrites =
          t.keyWrites ++ [(0, p.1.length), (p.1.length, 1)] := by
        simp [ForeachTrace.copyKey, ForeachTrace.writeKey]
      by_cases hp : p.2 = []
      · simp [visits, reached, hp, hcopy]
      · by_cases hf : func t.calls (callOf p) = true
        · have hrest := ih ((t.copyKey p.1).call (callOf p))
          have hcalls : ((t.copyKey p.1).call (callOf p)).calls = t.calls ++ [callOf p] := rfl
          have hwrites : ((t.copyKey p.1).call (callOf p)).keyWrites = (t.copyKey p.1).keyWrites :=
            rfl
          rw [hcalls, hwrites, hcopy] at hrest
          simp only [visits, if_pos hf, reached, ne_eq, hp, not_false_eq_true, true_and,
            ↓reduceIte, List.flatMap_cons, ← List.append_assoc]
          exact hrest
        · simp [visits, reached, hp, hf, hcopy, ForeachTrace.call]

/-! ### The key buffer -/

theorem cString_write {key rest : List UInt8} (b : Bytes) (h : 0 ∉ key) (hl : key.length ≤ 255) :
    cString (b.write 0 (key ++ 0 :: rest)) = key := by
  unfold cString
  rw [show 256 = key.length + (1 + (255 - key.length)) by omega, Bytes.slice_append,
    Bytes.slice_append, Bytes.slice_write_take _ _ _ _ (by simp), List.take_left]
  have hnul : Bytes.slice (b.write 0 (key ++ 0 :: rest)) (0 + key.length) 1 = [0] := by
    have hlt : key.length < (key ++ 0 :: rest).length := by simp
    simp [Bytes.slice, Bytes.write]
  rw [hnul, List.takeWhile_append_of_pos]
  · simp
  · intro x hx
    simpa using fun hx0 : x = 0 => h (hx0 ▸ hx)

/-- The string in the key buffer after a key has been copied. -/
theorem cString_copyKey (t : ForeachTrace) {key : List UInt8} (h : 0 ∉ key)
    (hl : key.length ≤ 255) : cString (t.copyKey key).keyBuffer = key := by
  have e := Bytes.write_append t.keyBuffer 0 key [0]
  rw [Nat.zero_add] at e
  change cString ((t.keyBuffer.write 0 key).write key.length [0]) = key
  rw [e]
  exact cString_write _ h hl

/-! ### On a table -/

/-- The entries from address `a` on, up to the end tag of a table. -/
structure TableFrom (m : Bytes) (limit a : ℕ) (es : List Entry) : Prop where
  seg : SegAt m a es
  endTag : Stored m (a + span es) [0xff, 0xff]
  valid : ∀ e ∈ es, e.Valid
  fits : a + span es + sizeofHeader ≤ limit

theorem Table.from {m : Bytes} {limit : ℕ} {es : List Entry} (T : Table m limit es) :
    TableFrom m limit firstItemAddress es := ⟨T.seg, T.endTag, T.valid, T.fits⟩

theorem TableFrom.drop {m : Bytes} {limit a : ℕ} {pre post : List Entry}
    (T : TableFrom m limit a (pre ++ post)) : TableFrom m limit (a + span pre) post := by
  have hend := T.endTag
  have hfit := T.fits
  rw [span_append, ← Nat.add_assoc] at hend hfit
  exact ⟨(segAt_append.mp T.seg).2, hend, fun e he => T.valid e (by simp [he]), hfit⟩

theorem TableFrom.itemAt {m : Bytes} {limit a : ℕ} {key value : List UInt8} {post : List Entry}
    (T : TableFrom m limit a (.item key value :: post)) : ItemAt m limit a key value := by
  have hfit := T.fits
  rw [span_cons, Entry.length_item] at hfit
  exact ⟨T.seg.1, T.valid _ List.mem_cons_self, by omega⟩

theorem returns_onKve {σ α : Type} {x : KveM σ α} {s : ForeachState σ}
    {Q : α → ForeachState σ → Prop} :
    Returns (onKve x) s Q ↔ Returns x s.kve (fun a k => Q a { s with kve := k }) :=
  @returns_zoom _ _ _ x ForeachState.kve (fun k t => { t with kve := k }) s Q

section
variable {σ : Type} {kve : KveMemory σ} {limit top : ℕ} (A : Access kve limit top)

/-- The store holds `m`, and the iteration has done `t`. -/
def Access.AtTrace (s : ForeachState σ) (m : Bytes) (t : ForeachTrace) : Prop :=
  A.At s.kve m ∧ s.trace = t

include A

theorem returns_readForeachBuffer {s : ForeachState σ} {m : Bytes} {t : ForeachTrace} {a n : ℕ}
    {Q : Bytes → ForeachState σ → Prop} (h : A.AtTrace s m t) (hb : a + n ≤ limit)
    (hQ : ∀ b s', A.AtTrace s' m t → Q (Bytes.write b 0 (m.slice a n)) s') :
    Returns (readForeachBuffer kve a n) s Q := by
  simp only [readForeachBuffer, returns_bind, returns_get, returns_onKve]
  apply returns_kveRead A h.1 hb
  intro k hk
  simp only [returns_modify, returns_pure]
  exact hQ _ _ ⟨hk, h.2⟩

/-- One round of the scan, at a hole or at an item with another key. -/
theorem findItemByPrefixLoop_pass {start : List UInt8} (hs : KeyOk start) {e : Entry} {m : Bytes}
    {t : ForeachTrace} {fuel a : ℕ} {s : ForeachState σ} {Q : ℕ × ℕ → ForeachState σ → Prop}
    (he : e.Valid) (hn : e.startsWith start = false) (h : A.AtTrace s m t)
    (hst : Stored m a e.bytes) (hb : a + e.length + 3 ≤ limit)
    (hQ : ∀ s', A.AtTrace s' m t →
      Returns (findItemByPrefixLoop kve start fuel (a + e.length)) s' Q) :
    Returns (findItemByPrefixLoop kve start (fuel + 1) a) s Q := by
  have hlim := A.limit_le
  have hsz := kve.size_le
  have hge := he.length_ge
  have hmod : start.length % 256 = start.length := Nat.mod_eq_of_lt (by have := hs.2; omega)
  have hne : e.length ≠ kveEndTag := by unfold kveEndTag; omega
  unfold findItemByPrefixLoop
  rw [if_pos (by omega), returns_bind]
  apply returns_readForeachBuffer A h (by omega)
  intro b s1 h1
  have hhead := headerAt_entry hst he (by omega)
  rw [ofBuffer_write_slice]
  cases e with
  | hole n =>
      have hlong : ¬ start.length ≤ 0 := by have := hs.1; omega
      rw [show headerAt m a = ⟨n, 0⟩ from hhead]
      dsimp only
      rw [if_neg (by simpa using hne), hmod, if_neg hlong]
      exact hQ s1 h1
  | item k v =>
      rw [show headerAt m a = ⟨3 + k.length + v.length, k.length⟩ from hhead]
      simp only [Entry.length_item] at hb
      dsimp only
      rw [if_neg (by simpa using hne), hmod]
      by_cases hl : start.length ≤ k.length
      · rw [if_pos hl, returns_bind]
        apply returns_readForeachBuffer A h1 (by omega)
        intro b' s2 h2
        have hkey : m.slice (a + 3) k.length = k := stored_key hst
        have hno : ¬ start = k.take start.length := by
          rw [← List.prefix_iff_eq_take, ← List.isPrefixOf_iff_prefix]
          exact ne_true_of_eq_false hn
        rw [hkey, Bytes.slice_write_take _ _ _ _ hl, List.take_length, if_neg hno]
        exact hQ s2 h2
      · rw [if_neg hl]
        exact hQ s1 h1

/-- The scan passes over holes and over items with other keys. -/
theorem findItemByPrefixLoop_skip {start : List UInt8} (hs : KeyOk start) {pre : List Entry}
    {m : Bytes} {t : ForeachTrace} {fuel : ℕ} {Q : ℕ × ℕ → ForeachState σ → Prop}
    (hv : ∀ e ∈ pre, e.Valid) (hn : ∀ e ∈ pre, e.startsWith start = false) :
    ∀ {a : ℕ} {s : ForeachState σ}, A.AtTrace s m t → SegAt m a pre → a + span pre + 3 ≤ limit →
      (∀ s', A.AtTrace s' m t → Returns (findItemByPrefixLoop kve start fuel (a + span pre)) s' Q) →
      Returns (findItemByPrefixLoop kve start (pre.length + fuel) a) s Q := by
  induction pre with
  | nil =>
      intro a s h _ _ hQ
      simpa using hQ s h
  | cons e pre ih =>
      intro a s h hseg hb hQ
      rw [span_cons] at hb hQ
      rw [List.length_cons, Nat.add_right_comm]
      refine findItemByPrefixLoop_pass A hs (hv e List.mem_cons_self) (hn e List.mem_cons_self) h
        hseg.1 (by omega) ?_
      intro s' h'
      refine ih (fun x hx => hv x (List.mem_cons_of_mem _ hx))
        (fun x hx => hn x (List.mem_cons_of_mem _ hx)) h' hseg.2 (by omega) ?_
      simpa only [Nat.add_assoc] using hQ

/-- Without a further item that matches the scan ends at the end tag. -/
theorem findItemByPrefix_none {start : List UInt8} (hs : KeyOk start) {m : Bytes}
    {t : ForeachTrace} {es : List Entry} {a fuel : ℕ} {s : ForeachState σ} (h : A.AtTrace s m t)
    (T : TableFrom m limit a es) (hn : ∀ e ∈ es, e.startsWith start = false)
    (hf : kve.memorySize ≤ fuel) :
    Returns (kveStorageFindItemByPrefix fuel kve a start) s
      (fun r s' => r = (sizeMax, sizeMax) ∧ A.AtTrace s' m t) := by
  have hlim := A.limit_le
  have hfit := T.fits
  have hlen := four_mul_length_le_span T.valid
  unfold sizeofHeader at hfit
  obtain ⟨f, rfl⟩ : ∃ f, fuel = es.length + (f + 1) := ⟨fuel - es.length - 1, by omega⟩
  unfold kveStorageFindItemByPrefix
  refine findItemByPrefixLoop_skip A hs T.valid hn h T.seg hfit ?_
  intro s' h'
  unfold findItemByPrefixLoop
  split
  · rw [returns_bind]
    apply returns_readForeachBuffer A h' hfit
    intro b s1 h1
    rw [ofBuffer_write_slice]
    dsimp only
    rw [if_pos (headerAt_endTag T.endTag), returns_pure]
    exact ⟨rfl, h1⟩
  · rw [returns_pure]
    exact ⟨rfl, h'⟩

/-- The next item that matches is found, and its key copied. -/
theorem findItemByPrefix_some {start : List UInt8} (hs : KeyOk start) {m : Bytes}
    {t : ForeachTrace} {pre post : List Entry} {k v : List UInt8} {a fuel : ℕ}
    {s : ForeachState σ} (h : A.AtTrace s m t)
    (T : TableFrom m limit a (pre ++ .item k v :: post))
    (hn : ∀ e ∈ pre, e.startsWith start = false)
    (hk : (Entry.item k v).startsWith start = true) (hf : kve.memorySize ≤ fuel) :
    Returns (kveStorageFindItemByPrefix fuel kve a start) s (fun r s' =>
      r = (3 + k.length + v.length, a + span pre) ∧ A.AtTrace s' m (t.copyKey k)) := by
  have hlim := A.limit_le
  have hsz := kve.size_le
  have hvp : ∀ e ∈ pre, e.Valid := fun e he => T.valid e (by simp [he])
  have hlen := four_mul_length_le_span hvp
  have I := T.drop.itemAt
  have hfit := I.fits
  have hall := T.fits
  simp only [span_append, span_cons, Entry.length_item, sizeofHeader] at hall
  have hstart : start <+: k := List.isPrefixOf_iff_prefix.mp hk
  have hl := hstart.length_le
  have hmod : start.length % 256 = start.length := Nat.mod_eq_of_lt (by have := hs.2; omega)
  have hkl := I.valid
  simp only [Entry.Valid] at hkl
  obtain ⟨f, rfl⟩ : ∃ f, fuel = pre.length + (f + 1) := ⟨fuel - pre.length - 1, by omega⟩
  unfold kveStorageFindItemByPrefix
  refine findItemByPrefixLoop_skip A hs hvp hn h (segAt_append.mp T.seg).1 (by omega) ?_
  intro s' h'
  have hne : 3 + k.length + v.length ≠ kveEndTag := by
    unfold kveEndTag
    omega
  unfold findItemByPrefixLoop
  rw [if_pos (by omega), returns_bind]
  apply returns_readForeachBuffer A h' (by omega)
  intro b s1 h1
  rw [ofBuffer_write_slice, I.header (by omega)]
  dsimp only
  rw [if_neg hne, hmod, if_pos hl, returns_bind]
  apply returns_readForeachBuffer A h1 (by omega)
  intro b' s2 h2
  have hkey : m.slice (a + span pre + 3) k.length = k := stored_key I.stored
  rw [hkey, Bytes.slice_write_take _ _ _ _ hl, Bytes.slice_write_self, List.take_length,
    if_pos (List.prefix_iff_eq_take.mp hstart)]
  rw [returns_bind, returns_modify, returns_pure]
  exact ⟨rfl, h2.1, by rw [h2.2]⟩

/-- One round of an iteration: the item that was found is visited, and then those after it. -/
theorem foreachLoop_visit {start k v : List UInt8} {func : List KveCall → KveCall → Bool}
    {fuel rounds a : ℕ} {m : Bytes} {s : ForeachState σ} {t : ForeachTrace}
    {ps : List (List UInt8 × List UInt8)} (h : A.AtTrace s m (t.copyKey k))
    (I : ItemAt m limit a k v) (h0 : 0 ∉ k)
    (hnext : ∀ s', A.AtTrace s' m ((t.copyKey k).call (callOf (k, v))) →
      Returns (do
        let next ← kveStorageFindItemByPrefix fuel kve (a + (3 + k.length + v.length)) start
        foreachLoop fuel kve start func rounds next) s'
        (fun r s' => (r, s'.trace) = visits func ((t.copyKey k).call (callOf (k, v))) ps)) :
    Returns (foreachLoop fuel kve start func (rounds + 1) (3 + k.length + v.length, a)) s
      (fun r s' => (r, s'.trace) = visits func t ((k, v) :: ps)) := by
  have hlim := A.limit_le
  have hsz := kve.size_le
  have hkl := I.valid
  have hfit := I.fits
  simp only [Entry.Valid] at hkl
  unfold foreachLoop
  rw [if_pos (by unfold sizeMax; omega)]
  simp only [returns_bind, returns_onKve, uninitialised, returns_get, returns_pure]
  refine (getItemInfo_item A h.1 I).mono ?_
  rintro _ k2 ⟨rfl, hk2⟩
  dsimp only
  rw [storeSize_item (by omega)]
  refine (getBuffer_item A hk2 I).mono ?_
  rintro _ k3 ⟨rfl, hk3⟩
  by_cases hv : v = []
  · -- nothing is read of an empty value
    subst hv
    rw [if_neg (by simp), returns_pure]
    simp only [visits, if_true]
    exact Prod.ext rfl h.2
  · have hpos := List.length_pos_iff.mpr hv
    have hbytes : ∀ b : Bytes, (b.write 0 (v.take foreachBufferLength)).slice 0
        (min v.length foreachBufferLength) = v.take foreachBufferLength := by
      intro b
      have hself := Bytes.slice_write_self b 0 (v.take foreachBufferLength)
      rwa [List.length_take, Nat.min_comm] at hself
    rw [if_pos (by unfold foreachBufferLength; dsimp only; omega), hbytes]
    simp only [callFunc, returns_bind, returns_get, returns_set, returns_pure, h.2,
      cString_copyKey t h0 hkl.2]
    simp only [visits, if_neg hv]
    have hcalls : (t.copyKey k).calls = t.calls := rfl
    rw [hcalls]
    change Returns (if (!func t.calls (callOf (k, v))) = true then pure false else _) _ _
    by_cases hok : func t.calls (callOf (k, v)) = true
    · rw [if_neg (by simp [hok]), if_pos hok]
      exact hnext _ ⟨hk3, rfl⟩
    · rw [if_pos (by simp [hok]), if_neg hok, returns_pure]
      rfl

/-- **The rest of an iteration.**  From address `a` on, the iteration visits the items that match.
Every round finds one of them, so the number of entries left bounds the rounds. -/
theorem foreach_from {start : List UInt8} (hs : KeyOk start)
    {func : List KveCall → KveCall → Bool} {fuel : ℕ} (hf : kve.memorySize ≤ fuel) {m : Bytes} :
    ∀ (rounds : ℕ) {es : List Entry} {a : ℕ} {s : ForeachState σ} {t : ForeachTrace},
      es.length < rounds → A.AtTrace s m t → TableFrom m limit a es →
      (∀ key ∈ keys es, 0 ∉ key) →
      Returns (do
        let next ← kveStorageFindItemByPrefix fuel kve a start
        foreachLoop fuel kve start func rounds next) s
        (fun r s' => (r, s'.trace) = visits func t (matching es start))
  | 0, _, _, _, _, hr, _, _, _ => absurd hr (Nat.not_lt_zero _)
  | rounds + 1, es, a, s, t, hr, h, T, hnul => by
      obtain ⟨pre, hpre, rfl | ⟨e, post, rfl, he⟩⟩ :=
        run_prefix (fun e => Entry.startsWith start e = false) es
      · refine (findItemByPrefix_none A hs h T hpre hf).bind ?_
        rintro _ s1 ⟨rfl, h1⟩
        unfold foreachLoop
        rw [if_neg (by simp), returns_pure, matching_eq_nil hpre, h1.2]
        rfl
      · cases e with
        | hole n => exact absurd rfl he
        | item k v =>
            have hk : (Entry.item k v).startsWith start = true := by simpa using he
            refine (findItemByPrefix_some A hs h T hpre hk hf).bind ?_
            rintro _ s1 ⟨rfl, h1⟩
            rw [matching_append, matching_eq_nil hpre, matching_item _ hk, List.nil_append]
            refine foreachLoop_visit A h1 T.drop.itemAt (hnul k (by simp)) fun s' h' => ?_
            have T2 : TableFrom m limit (a + span pre + (3 + k.length + v.length)) post := by
              have := TableFrom.drop (show TableFrom m limit _ ([.item k v] ++ post) from T.drop)
              rwa [span_cons, span_nil, Entry.length_item, Nat.add_zero] at this
            refine foreach_from hs hf rounds ?_ h' T2 (fun key hkey => hnul key (by simp [hkey]))
            simp only [List.length_append, List.length_cons] at hr
            omega

/-- **An iteration on a table.** -/
theorem foreach_spec {start : List UInt8} (hs : KeyOk start)
    {func : List KveCall → KveCall → Bool} {fuel : ℕ} (hf : kve.memorySize ≤ fuel) {m : Bytes}
    {es : List Entry} {s : ForeachState σ} {t : ForeachTrace} (h : A.AtTrace s m t)
    (T : Table m limit es) (hnul : ∀ key ∈ keys es, 0 ∉ key) :
    Returns (kveForeach fuel kve start func) s
      (fun r s' => (r, s'.trace) = visits func t (matching es start)) := by
  have hlim := A.limit_le
  have hsz := kve.size_ge
  have hfit := T.fits
  have hlen := four_mul_length_le_span T.valid
  exact foreach_from A hs hf fuel (by omega) h T.from hnul

end

/-! ### The keys of a run -/

theorem Layout.mem_keys_store {n : ℕ} {es : List Entry} {key value k : List UInt8}
    (h : k ∈ keys (Layout.store n es key value).1) : k = key ∨ k ∈ keys es := by
  by_contra hno
  rw [not_or] at hno
  refine Layout.lookup_eq_none.mp ?_ h
  rw [Layout.lookup_store, if_neg hno.1]
  exact Layout.lookup_eq_none.mpr hno.2

theorem Layout.mem_keys_delete {es : List Entry} {key k : List UInt8}
    (h : k ∈ keys (Layout.delete es key).1) : k ∈ keys es := by
  by_contra hno
  refine Layout.lookup_eq_none.mp ?_ h
  rw [Layout.lookup_delete, Layout.lookup_eq_none.mpr hno, ite_self]

/-- The key of a call is a string: the NUL is not one of its bytes. -/
def KveOp.NulFree : KveOp → Prop
  | store key _ => 0 ∉ key
  | delete key => 0 ∉ key
  | defrag => True
  | fetch key _ _ => 0 ∉ key

section
variable {P : List UInt8 → Prop} {n : ℕ}

theorem KveOp.keys_layout {op : KveOp} {es : List Entry} (h : ∀ k ∈ keys es, P k)
    (hop : ∀ key value, op = .store key value → P key) : ∀ k ∈ keys (op.layout n es), P k := by
  intro k hk
  cases op with
  | store key value =>
      change k ∈ keys (Layout.storeWithin n es key value) at hk
      unfold Layout.storeWithin at hk
      split at hk
      · rcases Layout.mem_keys_store hk with rfl | hk
        · exact hop _ value rfl
        · exact h k hk
      · exact h k hk
  | delete key => exact h k (Layout.mem_keys_delete hk)
  | defrag => exact h k ((Layout.keys_compact es) ▸ hk)
  | fetch key buffer len => exact h k hk

/-- The keys of a table are keys that were stored. -/
theorem KveOp.keys_entries {ops : List KveOp} (hops : ∀ key value, .store key value ∈ ops → P key) :
    ∀ k ∈ keys (KveOp.entries n ops), P k := by
  have hfold : ∀ (ops : List KveOp) (es : List Entry), (∀ k ∈ keys es, P k) →
      (∀ key value, .store key value ∈ ops → P key) →
      ∀ k ∈ keys (ops.foldl (KveOp.layout n) es), P k := by
    intro ops
    induction ops with
    | nil => exact fun es hes _ => hes
    | cons op ops ih =>
        intro es hes hops
        refine ih _ (KveOp.keys_layout hes ?_) ?_
        · rintro key value rfl
          exact hops key value List.mem_cons_self
        · intro key value hmem
          exact hops key value (List.mem_cons_of_mem _ hmem)
  exact hfold ops [] (by simp) hops

end

section
variable {n : ℕ} {h1 : 16 ≤ n} {h2 : n ≤ 65535} {fuel : ℕ}

/-- In every state reached from `kveFormat` an iteration does what `visits` says. -/
theorem foreach_reached {s0 : KveState Bytes} {ops : List KveOp}
    (hops : KveOp.AllKept n [] ops) (hnul : ∀ op ∈ ops, op.NulFree)
    (hf : n ≤ fuel) :
    Returns (KveOp.fromFormat fuel (idealMemory n h1 h2) ops) s0 (fun _ s =>
      Table s.dev n (KveOp.entries n ops) ∧
        ∀ (start : List UInt8) (func : List KveCall → KveCall → Bool) (t : ForeachState Bytes),
          KeyOk start → t.kve.dev = s.dev →
          Returns (kveForeach fuel (idealMemory n h1 h2) start func) t (fun r t' =>
            (r, t'.trace) = visits func t.trace (matching (KveOp.entries n ops) start))) := by
  refine (fromFormat_kept hops hf).mono ?_
  intro _ s T
  refine ⟨T, fun start func t hs ht => ?_⟩
  have h : (idealAccess n h1 h2).AtTrace t s.dev t.trace := ⟨⟨trivial, ht⟩, rfl⟩
  exact foreach_spec (idealAccess n h1 h2) hs hf h T
    (KveOp.keys_entries (fun key value hop => hnul (.store key value) hop))

/-- **The calls of an iteration.**  In every state reached from `kveFormat`, an iteration makes the
call of each item that matches, in the order of their addresses and up to the first that is
answered with false, and returns the last answer, exactly when it gets to no empty value. -/
theorem foreach_calls_iff {s0 : KveState Bytes} {ops : List KveOp}
    (hops : KveOp.AllKept n [] ops) (hnul : ∀ op ∈ ops, op.NulFree)
    (hf : n ≤ fuel) :
    Returns (KveOp.fromFormat fuel (idealMemory n h1 h2) ops) s0 (fun _ s =>
      (∃ es, Table s.dev n es) ∧ ∀ es, Table s.dev n es →
        ∀ (start : List UInt8) (func : List KveCall → KveCall → Bool) (t : ForeachState Bytes),
          KeyOk start → t.kve.dev = s.dev → t.trace.calls = [] →
          Returns (kveForeach fuel (idealMemory n h1 h2) start func) t (fun r t' =>
            (r, t'.trace.calls) = callEach func [] ((matching es start).map callOf) ↔
              ∀ p ∈ reached func [] (matching es start), p.2 ≠ [])) := by
  refine (foreach_reached hops hnul hf).mono ?_
  rintro _ s ⟨T0, hall⟩
  refine ⟨⟨_, T0⟩, fun es T start func t hs ht hc => (hall start func t hs ht).mono ?_⟩
  intro r t' hr
  simp only [Prod.ext_iff] at hr
  rw [T.unique T0 h2, hr.1, hr.2, ← hc]
  exact visits_calls_iff

/-- **The key buffer.**  In every state reached from `kveFormat`, an iteration writes only inside
its key buffer exactly when it gets to no key of 64 bytes or more. -/
theorem foreach_key_buffer_iff {s0 : KveState Bytes} {ops : List KveOp}
    (hops : KveOp.AllKept n [] ops) (hnul : ∀ op ∈ ops, op.NulFree)
    (hf : n ≤ fuel) :
    Returns (KveOp.fromFormat fuel (idealMemory n h1 h2) ops) s0 (fun _ s =>
      (∃ es, Table s.dev n es) ∧ ∀ es, Table s.dev n es →
        ∀ (start : List UInt8) (func : List KveCall → KveCall → Bool) (t : ForeachState Bytes),
          KeyOk start → t.kve.dev = s.dev → t.trace.calls = [] → t.trace.keyWrites = [] →
          Returns (kveForeach fuel (idealMemory n h1 h2) start func) t (fun _ t' =>
            (∀ w ∈ t'.trace.keyWrites, w.1 + w.2 ≤ keyBufferSize) ↔
              ∀ p ∈ reached func [] (matching es start), p.1.length < keyBufferSize)) := by
  refine (foreach_reached hops hnul hf).mono ?_
  rintro _ s ⟨T0, hall⟩
  refine ⟨⟨_, T0⟩, fun es T start func t hs ht hc hw => (hall start func t hs ht).mono ?_⟩
  intro r t' hr
  simp only [Prod.ext_iff] at hr
  rw [T.unique T0 h2, hr.2, visits_keyWrites, hc, hw, List.nil_append]
  simp only [List.forall_mem_flatMap, List.forall_mem_cons]
  refine forall₂_congr fun p _ => ?_
  simp only [List.not_mem_nil, false_implies, implies_true, and_true]
  omega

end

/-- The first iteration after the start of the program. -/
def firstForeach (s : KveState Bytes) : ForeachState Bytes :=
  ⟨s, fun _ => 0, ⟨fun _ => 0, [], []⟩⟩

/-- Of two items that match, the first with an empty value: no call is made and the answer is
false. -/
theorem foreach_empty_value :
    Returns (KveOp.fromFormat 32 (idealMemory 32 (by decide) (by decide))
      [.store [97] [], .store [97, 98] [1]]) blankState (fun _ s =>
        Table s.dev 32 [.item [97] [], .item [97, 98] [1]] ∧
        Returns (kveForeach 32 (idealMemory 32 (by decide) (by decide)) [97] (fun _ _ => true))
          (firstForeach s) (fun r t' => r = false ∧ t'.trace.calls = [])) := by
  refine (@foreach_reached 32 (by decide) (by decide) 32 blankState _
    (by simp [KveOp.AllKept, KveOp.Kept, KeyOk, ptrdiffMax]) (by simp [KveOp.NulFree])
    (Nat.le_refl 32)).mono ?_
  rintro _ s ⟨T, hall⟩
  have hes : KveOp.entries 32 [.store [97] [], .store [97, 98] [1]] =
      [.item [97] [], .item [97, 98] [1]] := by decide
  rw [hes] at T hall
  refine ⟨T, (hall [97] (fun _ _ => true) (firstForeach s) (by simp [KeyOk]) rfl).mono ?_⟩
  intro r t' hr
  simp only [Prod.ext_iff] at hr
  rw [hr.1, hr.2]
  exact ⟨rfl, rfl⟩

/-- Two items match, and the second call is answered with false. -/
theorem foreach_calls_small :
    Returns (KveOp.fromFormat 32 (idealMemory 32 (by decide) (by decide))
      [.store [97] [1], .store [98] [2], .store [97, 98] [3]]) blankState (fun _ s =>
        ∃ es, Table s.dev 32 es ∧
          Returns (kveForeach 32 (idealMemory 32 (by decide) (by decide)) [97]
            (fun calls _ => calls = [])) (firstForeach s) (fun r t' =>
              (r, t'.trace.calls) =
                callEach (fun calls _ => calls = []) [] ((matching es [97]).map callOf) ↔
                ∀ p ∈ reached (fun calls _ => calls = []) [] (matching es [97]), p.2 ≠ [])) := by
  refine (@foreach_calls_iff 32 (by decide) (by decide) 32 blankState _
    (by simp [KveOp.AllKept, KveOp.Kept, KeyOk, ptrdiffMax]) (by simp [KveOp.NulFree])
    (Nat.le_refl 32)).mono ?_
  rintro _ s ⟨⟨es, T⟩, hall⟩
  exact ⟨es, T, hall es T [97] _ (firstForeach s) (by simp [KeyOk]) rfl rfl⟩

/-- A key of 64 bytes: its NUL is written behind the buffer. -/
theorem foreach_long_key :
    Returns (KveOp.fromFormat 128 (idealMemory 128 (by decide) (by decide))
      [.store (List.replicate 64 97) [1]]) blankState (fun _ s =>
        Returns (kveForeach 128 (idealMemory 128 (by decide) (by decide)) [97] (fun _ _ => true))
          (firstForeach s) (fun _ t' => (keyBufferSize, 1) ∈ t'.trace.keyWrites)) := by
  refine (@foreach_reached 128 (by decide) (by decide) 128 blankState _
    (by simp [KveOp.AllKept, KveOp.Kept, KeyOk, ptrdiffMax]) (by simp [KveOp.NulFree])
    (Nat.le_refl 128)).mono ?_
  rintro _ s ⟨T, hall⟩
  refine (hall [97] (fun _ _ => true) (firstForeach s) (by simp [KeyOk]) rfl).mono ?_
  intro r t' hr
  simp only [Prod.ext_iff] at hr
  have htrace : (firstForeach s).trace = ⟨fun _ => 0, [], []⟩ := rfl
  rw [hr.2, visits_keyWrites, htrace]
  decide

/-- A short key stays inside the buffer. -/
theorem foreach_key_buffer_small :
    Returns (KveOp.fromFormat 32 (idealMemory 32 (by decide) (by decide)) [.store [97, 98] [1]])
      blankState (fun _ s => ∃ es, Table s.dev 32 es ∧
        Returns (kveForeach 32 (idealMemory 32 (by decide) (by decide)) [97] (fun _ _ => true))
          (firstForeach s) (fun _ t' =>
            (∀ w ∈ t'.trace.keyWrites, w.1 + w.2 ≤ keyBufferSize) ↔
              ∀ p ∈ reached (fun _ _ => true) [] (matching es [97]),
                p.1.length < keyBufferSize)) := by
  refine (@foreach_key_buffer_iff 32 (by decide) (by decide) 32 blankState _
    (by simp [KveOp.AllKept, KveOp.Kept, KeyOk, ptrdiffMax]) (by simp [KveOp.NulFree])
    (Nat.le_refl 32)).mono ?_
  rintro _ s ⟨⟨es, T⟩, hall⟩
  exact ⟨es, T, hall es T [97] (fun _ _ => true) (firstForeach s) (by simp [KeyOk]) rfl rfl rfl⟩

end NanoDrone
