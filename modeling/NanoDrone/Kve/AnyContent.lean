import NanoDrone.Kve.Foreach
import NanoDrone.Kve.Stats

/-! # Calls on any content

`kveStorageFindEnd` gives up at a length field below four, so it returns on every content of the
memory; with it return `kveCheck`, and everything that happens behind a successful search for the
end.  The search for a key, the search for a prefix and the loop of `kveGetStats` add every length
to the address, also a zero: there they stay for ever.

A `Path` is a chain of headers that leads to an end tag without a zero length.
`all_terminate_iff` says that the existence of a path from the first item decides whether all calls
return.  An uninitialised local matters here: behind the end of the memory the reads transfer
nothing, and the headers that `kveGetStats` sees are what the stack held. -/

namespace NanoDrone

/-! ### Paths -/

/-- The chain ends at an end tag, no header has length zero, and a header can be read at the end
tag. -/
structure Path (m : Bytes) (limit a : ℕ) (hs : List KveItemHeader) : Prop where
  chain : ChainAt m a hs
  pos : ∀ h ∈ hs, 0 < h.fullLength
  endTag : Stored m (a + chainLength hs) [0xff, 0xff]
  fits : a + chainLength hs + sizeofHeader ≤ limit

theorem Walk.path {m : Bytes} {limit a : ℕ} {hs : List KveItemHeader} (W : Walk m limit a hs) :
    Path m limit a hs :=
  ⟨W.chain, fun h hh => Nat.lt_of_lt_of_le (by decide) (W.long h hh), W.endTag, W.fits⟩

namespace Path

variable {m : Bytes} {limit a : ℕ} {hs : List KveItemHeader}

theorem nil (h : (headerAt m a).fullLength = kveEndTag) (hfit : a + sizeofHeader ≤ limit) :
    Path m limit a [] :=
  ⟨trivial, by simp, stored_endTag h, hfit⟩

theorem cons (P : Path m limit (a + (headerAt m a).fullLength) hs)
    (h : 0 < (headerAt m a).fullLength) : Path m limit a (headerAt m a :: hs) := by
  have hend := P.endTag
  have hfit := P.fits
  rw [Nat.add_assoc a, ← chainLength_cons] at hend hfit
  exact ⟨⟨rfl, P.chain⟩, by simpa using ⟨h, P.pos⟩, hend, hfit⟩

theorem drop {xs ys : List KveItemHeader} (P : Path m limit a (xs ++ ys)) :
    Path m limit (a + chainLength xs) ys := by
  have hend := P.endTag
  have hfit := P.fits
  rw [chainLength_append, ← Nat.add_assoc] at hend hfit
  exact ⟨(chainAt_append.mp P.chain).2, fun h hh => P.pos h (by simp [hh]), hend, hfit⟩

theorem tail {x : KveItemHeader} (P : Path m limit a (x :: hs)) :
    Path m limit (a + x.fullLength) hs := by
  have := drop (show Path m limit a ([x] ++ hs) from P)
  rwa [chainLength_cons, chainLength_nil, Nat.add_zero] at this

theorem length_le (P : Path m limit a hs) : hs.length ≤ chainLength hs := by
  have hpos := P.pos
  clear P
  induction hs with
  | nil => simp
  | cons x hs ih =>
      have h1 := hpos x List.mem_cons_self
      have h2 := ih (fun y hy => hpos y (List.mem_cons_of_mem _ hy))
      simp only [List.length_cons, chainLength_cons]
      omega

end Path

/-! ### Reads of an ideal memory -/

/-- A buffer after a read of an ideal memory of `n` bytes that holds `m`. -/
def bufferAfter (n : ℕ) (m b : Bytes) (a len : ℕ) : Bytes :=
  b.write 0 (if a + len ≤ n then m.slice a len else [])

theorem ofBuffer_bufferAfter {n a : ℕ} (m b : Bytes) (h : a + 3 ≤ n) :
    KveItemHeader.ofBuffer (bufferAfter n m b a 3) = headerAt m a := by
  unfold bufferAfter
  rw [if_pos h]
  exact ofBuffer_write_slice b m a

/-- At the end of a path the end tag is read. -/
theorem Path.read_end {n a : ℕ} {m : Bytes} (P : Path m n a []) (b : Bytes) :
    (KveItemHeader.ofBuffer (bufferAfter n m b a 3)).fullLength = kveEndTag := by
  rw [ofBuffer_bufferAfter m b (show a + 3 ≤ n from P.fits)]
  exact headerAt_endTag P.endTag

/-- The first header of a path is read where the path starts, and it is no end tag. -/
theorem Path.read_head {n a : ℕ} {m : Bytes} {x : KveItemHeader} {hs : List KveItemHeader}
    (P : Path m n a (x :: hs)) (hl : n ≤ 65535) (b : Bytes) :
    KveItemHeader.ofBuffer (bufferAfter n m b a 3) = x ∧ a < n - 3 ∧
      x.fullLength ≠ kveEndTag := by
  have hfit := P.fits
  have hpos := P.pos x List.mem_cons_self
  simp only [chainLength_cons, sizeofHeader] at hfit
  refine ⟨?_, by omega, ?_⟩
  · rw [ofBuffer_bufferAfter m b (by omega)]
    exact P.chain.1
  · unfold kveEndTag
    omega

section
variable {n : ℕ} {h1 : 16 ≤ n} {h2 : n ≤ 65535}

theorem kveRead_ideal (a : ℕ) (b : Bytes) (len : ℕ) (s : KveState Bytes) :
    kveRead (idealMemory n h1 h2) a b len s = some (bufferAfter n s.dev b a len, s) := by
  unfold bufferAfter
  by_cases h : a + len ≤ n
  · simp [kveRead, idealMemory, h]
  · simp [kveRead, idealMemory, h]

variable {s : KveState Bytes}

theorem returns_read_ideal {a len : ℕ} {b : Bytes} {Q : Bytes → KveState Bytes → Prop} :
    Returns (kveRead (idealMemory n h1 h2) a b len) s Q ↔ Q (bufferAfter n s.dev b a len) s :=
  returns_iff_of_eq (kveRead_ideal a b len s)

theorem returns_readSearchBuffer_ideal {a len : ℕ} {Q : Bytes → KveState Bytes → Prop} :
    Returns (readSearchBuffer (idealMemory n h1 h2) a len) s Q ↔
      Q (bufferAfter n s.dev s.searchBuffer a len)
        { s with searchBuffer := bufferAfter n s.dev s.searchBuffer a len } := by
  simp only [readSearchBuffer, returns_bind, returns_get, returns_read_ideal, returns_modify,
    returns_pure]

theorem getItemInfo_ideal (a : ℕ) (s : KveState Bytes) :
    kveStorageGetItemInfo (idealMemory n h1 h2) a s =
      some (KveItemHeader.ofBuffer (bufferAfter n s.dev s.stack a 3), s) := by
  change (kveRead (idealMemory n h1 h2) a s.stack 3 s).bind
    (fun p => some (KveItemHeader.ofBuffer p.1, p.2)) = _
  rw [kveRead_ideal]
  rfl

theorem returns_getItemInfo_ideal {a : ℕ} {Q : KveItemHeader → KveState Bytes → Prop} :
    Returns (kveStorageGetItemInfo (idealMemory n h1 h2) a) s Q ↔
      Q (KveItemHeader.ofBuffer (bufferAfter n s.dev s.stack a 3)) s :=
  returns_iff_of_eq (getItemInfo_ideal a s)

/-! ### The end of the table -/

/-- Wherever it starts, the search for the end gives up or ends at the end of a walk. -/
theorem findEndLoop_any : ∀ (fuel : ℕ) {a : ℕ} {b : Bytes},
    ReturnsUnless (fuel = 0 ∨ a + fuel ≤ n) (findEndLoop (idealMemory n h1 h2) fuel a b) s
      (fun r s' => s' = s ∧
        (r = sizeMax ∨ ∃ hs, Walk s.dev n a hs ∧ r = a + chainLength hs))
  | 0, _, _ => Or.inr ⟨rfl, Or.inl rfl⟩
  | fuel + 1, a, b => by
      unfold findEndLoop
      split
      · rename_i hlt
        change a < n - 2 at hlt
        refine ReturnsUnless.bind_of_eq (kveRead_ideal a b 3 s) ?_
        rw [ofBuffer_bufferAfter _ _ (by omega)]
        dsimp only
        split
        · rename_i hend
          have W : Walk s.dev n a [] := .nil hend (by unfold sizeofHeader; omega)
          exact Or.inl (returns_pure.mpr ⟨rfl, Or.inr ⟨[], W, rfl⟩⟩)
        · split
          · exact Or.inl (returns_pure.mpr ⟨rfl, Or.inl rfl⟩)
          · rename_i hlong
            unfold sizeofHeader at hlong
            refine ((findEndLoop_any fuel).imp (by omega)).mono ?_
            rintro r s' ⟨rfl, hr⟩
            refine ⟨rfl, hr.imp id ?_⟩
            rintro ⟨hs, W, rfl⟩
            exact ⟨_, W.cons (by omega), by rw [chainLength_cons, Nat.add_assoc]⟩
      · exact Or.inl (returns_pure.mpr ⟨rfl, Or.inl rfl⟩)

theorem findEnd_unless (fuel : ℕ) :
    ReturnsUnless (fuel = 0 ∨ firstItemAddress + fuel ≤ n)
      (kveStorageFindEnd (idealMemory n h1 h2) fuel firstItemAddress) s (fun r s' => s' = s ∧
        (r = sizeMax ∨
          ∃ hs, Walk s.dev n firstItemAddress hs ∧ r = firstItemAddress + chainLength hs)) :=
  ReturnsUnless.bind_of_eq rfl (findEndLoop_any fuel)

theorem findEnd_any {fuel : ℕ} (hf : n ≤ fuel) :
    Returns (kveStorageFindEnd (idealMemory n h1 h2) fuel firstItemAddress) s (fun r s' => s' = s ∧
      (r = sizeMax ∨
        ∃ hs, Walk s.dev n firstItemAddress hs ∧ r = firstItemAddress + chainLength hs)) := by
  refine (findEnd_unless fuel).returns ?_
  unfold firstItemAddress
  omega

/-! ### The search for a key -/

omit h1 h2 in
/-- The header at which a search for a key stops on a path, with its address.  The key of an
entry that reaches behind the memory is not read: what the buffer held is compared. -/
def firstMatch (n : ℕ) (m : Bytes) (key : List UInt8) :
    Bytes → ℕ → List KveItemHeader → Option (ℕ × KveItemHeader)
  | _, _, [] => none
  | b, a, x :: hs =>
      let b := bufferAfter n m b a 3
      if x.keyLength = key.length then
        let b := bufferAfter n m b (a + 3) key.length
        if key = b.slice 0 key.length then some (a, x)
        else firstMatch n m key b (a + x.fullLength) hs
      else firstMatch n m key b (a + x.fullLength) hs

theorem findItemByKeyLoop_path {key : List UInt8} (hk : KeyOk key) {m : Bytes} :
    ∀ {hs : List KveItemHeader} {fuel a : ℕ} {s : KveState Bytes}, s.dev = m → Path m n a hs →
      hs.length < fuel →
      Returns (findItemByKeyLoop (idealMemory n h1 h2) key fuel a) s (fun r s' => s'.dev = m ∧
        r = (firstMatch n m key s.searchBuffer a hs).elim sizeMax Prod.fst)
  | _, 0, _, _, _, _, hf => absurd hf (Nat.not_lt_zero _)
  | [], fuel + 1, a, s, hdev, P, _ => by
      unfold findItemByKeyLoop
      split
      · rw [returns_bind, returns_readSearchBuffer_ideal, hdev]
        dsimp only
        rw [if_pos (P.read_end _), returns_pure]
        exact ⟨rfl, rfl⟩
      · rw [returns_pure]
        exact ⟨hdev, rfl⟩
  | x :: hs, fuel + 1, a, s, hdev, P, hf => by
      obtain ⟨hx, hlt, hne⟩ := P.read_head h2 s.searchBuffer
      rw [List.length_cons] at hf
      have hmod : key.length % 256 = key.length := Nat.mod_eq_of_lt (by have := hk.2; omega)
      have hrest : ∀ t : KveState Bytes, t.dev = m → Returns
          (findItemByKeyLoop (idealMemory n h1 h2) key fuel (a + x.fullLength)) t (fun r s' =>
            s'.dev = m ∧ r = (firstMatch n m key t.searchBuffer (a + x.fullLength) hs).elim
              sizeMax Prod.fst) :=
        fun t ht => findItemByKeyLoop_path hk ht P.tail (by omega)
      unfold findItemByKeyLoop
      rw [if_pos (show a < (idealMemory n h1 h2).memorySize - 3 from hlt), returns_bind,
        returns_readSearchBuffer_ideal, hdev, hx]
      dsimp only
      rw [if_neg hne, hmod]
      unfold firstMatch
      by_cases hl : x.keyLength = key.length
      · rw [if_pos hl, if_pos hl, returns_bind, returns_readSearchBuffer_ideal]
        dsimp only
        rw [hl, List.take_length]
        split
        · rw [returns_pure]
          exact ⟨rfl, rfl⟩
        · exact hrest _ rfl
      · rw [if_neg hl, if_neg hl]
        exact hrest _ rfl

/-! ### The search for a prefix -/

theorem returns_readForeachBuffer_ideal {a len : ℕ} {s : ForeachState Bytes}
    {Q : Bytes → ForeachState Bytes → Prop} :
    Returns (readForeachBuffer (idealMemory n h1 h2) a len) s Q ↔
      Q (bufferAfter n s.kve.dev s.searchBuffer a len)
        { s with searchBuffer := bufferAfter n s.kve.dev s.searchBuffer a len } := by
  simp only [readForeachBuffer, returns_bind, returns_get, returns_onKve, returns_read_ideal,
    returns_modify, returns_pure]

/-- On a path the search for a prefix finds nothing or one of the headers. -/
theorem findItemByPrefixLoop_path {start : List UInt8} {m : Bytes} :
    ∀ {hs : List KveItemHeader} {fuel a : ℕ} {s : ForeachState Bytes}, s.kve.dev = m →
      Path m n a hs → hs.length < fuel →
      Returns (findItemByPrefixLoop (idealMemory n h1 h2) start fuel a) s (fun r s' =>
        s'.kve.dev = m ∧ (r = (sizeMax, sizeMax) ∨ ∃ pre x post, hs = pre ++ x :: post ∧
          r = (x.fullLength, a + chainLength pre)))
  | _, 0, _, _, _, _, hf => absurd hf (Nat.not_lt_zero _)
  | [], fuel + 1, a, s, hdev, P, _ => by
      unfold findItemByPrefixLoop
      split
      · rw [returns_bind, returns_readForeachBuffer_ideal, hdev]
        dsimp only
        rw [if_pos (P.read_end _), returns_pure]
        exact ⟨hdev, Or.inl rfl⟩
      · rw [returns_pure]
        exact ⟨hdev, Or.inl rfl⟩
  | x :: hs, fuel + 1, a, s, hdev, P, hf => by
      obtain ⟨hx, hlt, hne⟩ := P.read_head h2 s.searchBuffer
      rw [List.length_cons] at hf
      have hrest : ∀ t : ForeachState Bytes, t.kve.dev = m → Returns
          (findItemByPrefixLoop (idealMemory n h1 h2) start fuel (a + x.fullLength)) t (fun r s' =>
            s'.kve.dev = m ∧ (r = (sizeMax, sizeMax) ∨ ∃ pre y post, x :: hs = pre ++ y :: post ∧
              r = (y.fullLength, a + chainLength pre))) := by
        intro t ht
        refine (findItemByPrefixLoop_path ht P.tail (by omega)).mono ?_
        rintro r s' ⟨hs', hr⟩
        refine ⟨hs', hr.imp id ?_⟩
        rintro ⟨pre, y, post, rfl, rfl⟩
        exact ⟨x :: pre, y, post, rfl, by rw [chainLength_cons, Nat.add_assoc]⟩
      unfold findItemByPrefixLoop
      rw [if_pos (show a < (idealMemory n h1 h2).memorySize - 3 from hlt), returns_bind,
        returns_readForeachBuffer_ideal, hdev, hx]
      dsimp only
      rw [if_neg hne]
      split
      · rw [returns_bind, returns_readForeachBuffer_ideal]
        dsimp only
        split
        · rw [returns_bind, returns_modify, returns_pure]
          exact ⟨hdev, Or.inr ⟨[], x, hs, rfl, rfl⟩⟩
        · exact hrest _ hdev
      · exact hrest _ hdev

/-- On a path an iteration returns: every round finds a header behind the last one. -/
theorem foreachLoop_path {start : List UInt8} {func : List KveCall → KveCall → Bool} {m : Bytes}
    {fuel : ℕ} (hf : n ≤ fuel) : ∀ (rounds : ℕ) {hs : List KveItemHeader} {a : ℕ}
      {s : ForeachState Bytes}, s.kve.dev = m → Path m n a hs → hs.length < rounds →
      Returns (do
        let next ← kveStorageFindItemByPrefix fuel (idealMemory n h1 h2) a start
        foreachLoop fuel (idealMemory n h1 h2) start func rounds next) s (fun _ _ => True)
  | 0, _, _, _, _, _, hr => absurd hr (Nat.not_lt_zero _)
  | rounds + 1, hs, a, s, hdev, P, hr => by
      have hfit := P.fits
      have hlen := P.length_le
      unfold sizeofHeader at hfit
      refine (findItemByPrefixLoop_path hdev P (by omega)).bind ?_
      rintro _ s1 ⟨h1', rfl | ⟨pre, x, post, rfl, rfl⟩⟩
      · unfold foreachLoop
        rw [if_neg (by simp), returns_pure]
        trivial
      · unfold foreachLoop
        split
        · simp only [returns_bind, returns_onKve, uninitialised, returns_get, returns_pure,
            returns_getItemInfo_ideal, kveStorageGetBuffer, returns_read_ideal]
          split
          · simp only [callFunc, returns_bind, returns_get, returns_set, returns_pure]
            split
            · rw [returns_pure]
              trivial
            · have hless : post.length < rounds := by
                simp only [List.length_append, List.length_cons] at hr
                omega
              exact foreachLoop_path hf rounds h1' P.drop.tail hless
          · rw [returns_pure]
            trivial
        · rw [returns_pure]
          trivial

/-! ### Storing -/

theorem append_any {key value : List UInt8} {fuel : ℕ} (hf : n ≤ fuel) :
    Returns (appendItemToEnd fuel (idealMemory n h1 h2) firstItemAddress key value) s
      (fun _ _ => True) := by
  have hwrite : ∀ (a : ℕ) (s : KveState Bytes), Returns (do
      writeItemAndEnd (idealMemory n h1 h2) a key value
      pure true) s (fun _ _ => True) := by
    intro a s
    rw [returns_bind]
    refine (returns_writeItemAndEnd a key value s).mono ?_
    intro _ _ _
    exact returns_pure.mpr trivial
  unfold appendItemToEnd
  refine (findEnd_any hf).bind ?_
  rintro _ s1 ⟨rfl, rfl | ⟨hs, W, rfl⟩⟩
  · rw [if_pos rfl, returns_pure]
    trivial
  · split
    · rw [returns_pure]
      trivial
    · split
      · exact hwrite _ _
      · have hfit := W.fits
        have hdefrag := defrag_rule (idealAccess n h1 h2) (walk_invariant h2)
          (s := s1) ⟨trivial, rfl⟩ W (Nat.le_of_succ_le hfit) hf
        refine hdefrag.bind ?_
        intro _ s2 _
        refine (findEnd_any hf).bind ?_
        intro a s3 _
        split
        · exact hwrite _ _
        · rw [returns_pure]
          trivial

/-! ### Statistics -/

theorem statsLoop_path {endAddress : ℕ} : ∀ {hs : List KveItemHeader} {fuel a : ℕ}
    {t : StatsSums}, Path s.dev n a hs → a + chainLength hs ≤ endAddress → hs.length < fuel →
    t.itemSize + chainLength hs < n →
    Returns (statsLoop (idealMemory n h1 h2) endAddress fuel a t) s (fun t' _ => t'.itemSize < n)
  | _, 0, _, _, _, _, hf, _ => absurd hf (Nat.not_lt_zero _)
  | [], fuel + 1, a, t, P, _, _, ht => by
      unfold statsLoop
      split
      · rw [returns_bind, returns_getItemInfo_ideal, if_pos (P.read_end _), returns_pure]
        exact ht
      · rw [returns_pure]
        exact ht
  | x :: hs, fuel + 1, a, t, P, he, hf, ht => by
      obtain ⟨hx, -, hne⟩ := P.read_head h2 s.stack
      have hpos := P.pos x List.mem_cons_self
      have hend := P.fits
      have hadd := t.itemSize_add_le x
      simp only [chainLength_cons] at hend he ht
      rw [List.length_cons] at hf
      have hnext : sizeT (a + x.fullLength) = a + x.fullLength := by
        unfold sizeT
        omega
      unfold statsLoop
      rw [if_pos (by omega), returns_bind, returns_getItemInfo_ideal, hx, if_neg hne, hnext]
      exact statsLoop_path P.tail (by omega) (by omega) (by omega)

theorem getStats_path {hs : List KveItemHeader} {fuel : ℕ} (hf : n ≤ fuel)
    (P : Path s.dev n firstItemAddress hs) :
    Returns (kveGetStats fuel (idealMemory n h1 h2)) s (fun _ _ => True) := by
  have hloop : ∀ {e : ℕ} {hs : List KveItemHeader}, Path s.dev n firstItemAddress hs →
      firstItemAddress + chainLength hs ≤ e → Returns (do
        let t ← statsLoop (idealMemory n h1 h2) e fuel firstItemAddress .zero
        StateT.lift (statsOf (idealMemory n h1 h2).memorySize t)) s (fun _ _ => True) := by
    intro e hs P he
    have hfit := P.fits
    have hlen := P.length_le
    unfold sizeofHeader at hfit
    refine (statsLoop_path P he (by omega) (by change 0 + chainLength hs < n; omega)).bind ?_
    intro t _ ht
    obtain ⟨r, hr⟩ := statsOf_isSome ht (by omega)
    rw [returns_lift]
    exact ⟨r, hr, trivial⟩
  have hfit := P.fits
  unfold kveGetStats
  refine (findEnd_any hf).bind ?_
  rintro _ s1 ⟨rfl, rfl | ⟨hs', W, rfl⟩⟩
  · exact hloop P (by unfold sizeMax; omega)
  · exact hloop W.path (Nat.le_refl _)

/-- Without an end address and with zeros on the stack, the loop of `kveGetStats` stops only at the
end of a path. -/
theorem path_of_statsLoop (hstack : s.stack = fun _ => 0) : ∀ (fuel : ℕ) {a : ℕ} {t : StatsSums},
    a ≤ n + 65535 → Returns (statsLoop (idealMemory n h1 h2) sizeMax fuel a t) s (fun _ _ => True) →
    ∃ hs, Path s.dev n a hs
  | 0, _, _, _, h => by
      obtain ⟨_, _, h, _⟩ := h
      cases h
  | fuel + 1, a, t, ha, h => by
      have hlt : a < sizeMax := by
        unfold sizeMax
        omega
      unfold statsLoop at h
      rw [if_pos hlt, returns_bind, returns_getItemInfo_ideal, hstack] at h
      by_cases hfit : a + 3 ≤ n
      · rw [ofBuffer_bufferAfter _ _ hfit] at h
        have hbytes := (s.dev a).toNat_lt
        have hbytes' := (s.dev (a + 1)).toNat_lt
        have hlen : (headerAt s.dev a).fullLength ≤ 65535 := by
          change (s.dev a).toNat + 256 * (s.dev (a + 1)).toNat ≤ 65535
          omega
        have hnext : sizeT (a + (headerAt s.dev a).fullLength) =
            a + (headerAt s.dev a).fullLength := by
          unfold sizeT
          omega
        by_cases hend : (headerAt s.dev a).fullLength = kveEndTag
        · exact ⟨[], .nil hend hfit⟩
        · rw [if_neg hend, hnext] at h
          obtain ⟨hs, P⟩ := path_of_statsLoop hstack fuel (by omega) h
          by_cases hpos : 0 < (headerAt s.dev a).fullLength
          · exact ⟨_, P.cons hpos⟩
          · have hzero : (headerAt s.dev a).fullLength = 0 := by omega
            rw [hzero, Nat.add_zero] at P
            exact ⟨hs, P⟩
      · -- behind the memory the header is what the stack holds
        have hzero : KveItemHeader.ofBuffer (bufferAfter n s.dev (fun _ => 0) a 3) = ⟨0, 0⟩ := by
          unfold bufferAfter
          rw [if_neg hfit, Bytes.write_nil]
          rfl
        have hstay : sizeT (a + 0) = a := by
          unfold sizeT
          omega
        rw [hzero, if_neg (by decide), hstay] at h
        exact path_of_statsLoop hstack fuel ha h

/-! ### When all calls return -/

omit h1 h2 s in
/-- Some amount of fuel is enough for the program to return. -/
def Terminates {σ α : Type} (x : ℕ → StateT σ Option α) (s : σ) : Prop :=
  ∃ fuel, Returns (x fuel) s (fun _ _ => True)

omit h1 h2 s in
/-- Every call terminates on the content `m`, whatever the static buffers and the stack hold. -/
structure AllTerminate (kve : KveMemory Bytes) (m : Bytes) : Prop where
  fetch : ∀ s : KveState Bytes, s.dev = m → ∀ key buffer len, KeyOk key → len < kve.memorySize →
    Terminates (fun fuel => kveFetch fuel kve key buffer len) s
  delete : ∀ s : KveState Bytes, s.dev = m → ∀ key, KeyOk key →
    Terminates (fun fuel => kveDelete fuel kve key) s
  foreach : ∀ s : ForeachState Bytes, s.kve.dev = m → ∀ start func, KeyOk start →
    Terminates (fun fuel => kveForeach fuel kve start func) s
  store : ∀ s : KveState Bytes, s.dev = m → ∀ key value, KeyOk key →
    value.length < kve.memorySize → Terminates (fun fuel => kveStore fuel kve key value) s
  getStats : ∀ s : KveState Bytes, s.dev = m → Terminates (fun fuel => kveGetStats fuel kve) s
  check : ∀ s : KveState Bytes, s.dev = m → Terminates (fun fuel => kveCheck fuel kve) s

theorem check_any {fuel : ℕ} (hf : n ≤ fuel) :
    Returns (kveCheck fuel (idealMemory n h1 h2)) s (fun _ _ => True) := by
  simp only [kveCheck, uninitialised, returns_bind, returns_get, returns_pure, returns_read_ideal]
  split
  · exact returns_pure.mpr trivial
  · rw [returns_bind]
    refine (findEnd_any hf).mono ?_
    intro _ _ _
    exact returns_pure.mpr trivial

/-- What follows the search for a key in a fetch, a deletion or a store returns. -/
theorem findItem_path {hs : List KveItemHeader} {fuel : ℕ} (hf : n ≤ fuel) {key : List UInt8}
    (hk : KeyOk key) (P : Path s.dev n firstItemAddress hs) {α : Type}
    {f : ℕ → KveM Bytes α} (hnext : ∀ a t, Returns (f a) t (fun _ _ => True)) :
    Returns (do
      let itemAddress ← kveStorageFindItemByKey (idealMemory n h1 h2) fuel firstItemAddress key
      f itemAddress) s (fun _ _ => True) := by
  have hfit := P.fits
  have hlen := P.length_le
  unfold sizeofHeader at hfit
  refine (findItemByKeyLoop_path hk rfl P (by omega)).bind ?_
  intro a t _
  exact hnext a t

/-- **Termination.**  All calls terminate on a content exactly when there is a path from the first
item to an end tag. -/
theorem all_terminate_iff {m : Bytes} :
    AllTerminate (idealMemory n h1 h2) m ↔ ∃ hs, Path m n firstItemAddress hs := by
  constructor
  · intro hall
    obtain ⟨fuel, h⟩ := hall.getStats ⟨m, fun _ => 0, fun _ => 0, fun _ => 0⟩ rfl
    unfold kveGetStats at h
    rw [returns_bind] at h
    obtain ⟨e, s', hend, h⟩ := h
    obtain ⟨rfl, rfl | ⟨hs, W, _⟩⟩ := (findEnd_unless fuel).of_eq hend
    · rw [returns_bind] at h
      have hloop := h.mono (fun _ _ _ => trivial)
      exact path_of_statsLoop rfl fuel (by unfold firstItemAddress; omega) hloop
    · exact ⟨hs, W.path⟩
  · rintro ⟨hs, P⟩
    constructor
    · rintro s rfl key buffer len hk _
      refine ⟨n, findItem_path (Nat.le_refl n) hk P ?_⟩
      intro a t
      split
      · rw [returns_bind, returns_getItemInfo_ideal]
        simp only [kveStorageGetBuffer, returns_bind, returns_read_ideal, returns_pure]
      · exact returns_pure.mpr trivial
    · rintro s rfl key hk
      refine ⟨n, findItem_path (Nat.le_refl n) hk P ?_⟩
      intro a t
      split
      · simp only [kveStorageWriteHole, returns_bind, returns_getItemInfo_ideal,
          returns_kveWrite_iff, returns_kveFlush_iff, returns_pure]
      · exact returns_pure.mpr trivial
    · rintro s rfl start func _
      have hfit := P.fits
      have hlen := P.length_le
      unfold sizeofHeader at hfit
      exact ⟨n, foreachLoop_path (Nat.le_refl n) n rfl P (by omega)⟩
    · rintro s rfl key value hk _
      refine ⟨n, findItem_path (Nat.le_refl n) hk P ?_⟩
      intro a t
      split
      · exact append_any (Nat.le_refl n)
      · rw [returns_bind, returns_getItemInfo_ideal]
        dsimp only
        split
        · simp only [kveStorageWriteHole, returns_bind, returns_kveWrite_iff,
            returns_kveFlush_iff, returns_pure]
          exact append_any (Nat.le_refl n)
        · simp only [kveStorageWriteItem, returns_bind, returns_kveWrite_iff,
            returns_kveFlush_iff, returns_pure]
    · rintro s rfl
      exact ⟨n, getStats_path (Nat.le_refl n) P⟩
    · rintro s rfl
      exact ⟨n, check_any (Nat.le_refl n)⟩

/-- At a header of length zero with another key length the search for a key stays for ever. -/
theorem findItemByKeyLoop_stays {key : List UInt8} {a : ℕ} (ha : a + 3 < n)
    (hzero : (headerAt s.dev a).fullLength = 0)
    (hl : (headerAt s.dev a).keyLength ≠ key.length % 256) (fuel : ℕ)
    {Q : ℕ → KveState Bytes → Prop} :
    ¬ Returns (findItemByKeyLoop (idealMemory n h1 h2) key fuel a) s Q := by
  induction fuel generalizing s with
  | zero =>
      rintro ⟨_, _, h, _⟩
      cases h
  | succ fuel ih =>
      have hlt : a < (idealMemory n h1 h2).memorySize - 3 := by
        change a < n - 3
        omega
      unfold findItemByKeyLoop
      rw [if_pos hlt, returns_bind, returns_readSearchBuffer_ideal,
        ofBuffer_bufferAfter _ _ (by omega)]
      dsimp only
      rw [hzero, if_neg (by decide), if_neg hl, Nat.add_zero]
      exact ih hzero hl

end

/-- On a memory of zeros `kveFetch` never returns. -/
theorem fetch_zeros_never_returns :
    ¬ Terminates (fun fuel => kveFetch fuel (idealMemory 16 (by decide) (by decide)) [97]
      (fun _ => 0) 8) blankState := by
  rintro ⟨fuel, h⟩
  unfold kveFetch at h
  rw [returns_bind] at h
  exact findItemByKeyLoop_stays (by decide) (by decide) (by decide) fuel h

/-- A memory that has been erased to `0xff` has its end tag in the first place. -/
theorem all_terminate_erased :
    AllTerminate (idealMemory 16 (by decide) (by decide)) (fun _ => 0xff) :=
  all_terminate_iff.mpr ⟨[], .nil rfl (by decide)⟩

end NanoDrone
