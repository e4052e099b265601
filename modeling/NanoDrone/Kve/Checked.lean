import NanoDrone.Kve.AnyContent

/-! # Fetching from a checked table

`kveCheck` is all that stands between the content of an EEPROM and its use.  It follows the length
fields to the end tag and asks each to be at least four, but it does not compare a length with the
key length next to it.  A fetch subtracts the two: for an entry that is shorter than its own key
the difference wraps around, and the caller's whole buffer is filled from behind the entry.
`checked_fetch_iff` says for which fetches this cannot happen. -/

namespace NanoDrone

/-- The result of a fetch lies inside the value of the item at address `a`, and the item before the
end tag at `e`. -/
structure InsideItem (m : Bytes) (e a : ℕ) (buffer : Bytes) (r : ℕ × Bytes) : Prop where
  before : a + (headerAt m a).fullLength ≤ e
  inside : sizeofHeader + (headerAt m a).keyLength + r.1 ≤ (headerAt m a).fullLength
  bytes : r.2 = buffer.write 0 (m.slice (a + sizeofHeader + (headerAt m a).keyLength) r.1)

/-- The header has room for the key it announces. -/
def KveItemHeader.Holds (h : KveItemHeader) : Prop := sizeofHeader + h.keyLength ≤ h.fullLength

/-- What is searched for is one of the headers of the chain. -/
theorem firstMatch_mem {n : ℕ} {m : Bytes} {key : List UInt8} {hs : List KveItemHeader} {b : Bytes}
    {a : ℕ} {p : ℕ × KveItemHeader} (h : firstMatch n m key b a hs = some p) :
    ∃ pre post, hs = pre ++ p.2 :: post ∧ p.1 = a + chainLength pre := by
  induction hs generalizing b a with
  | nil => cases h
  | cons x hs ih =>
      have hrest : ∀ {b'}, firstMatch n m key b' (a + x.fullLength) hs = some p →
          ∃ pre post, x :: hs = pre ++ p.2 :: post ∧ p.1 = a + chainLength pre := by
        intro b' h'
        obtain ⟨pre, post, rfl, hp⟩ := ih h'
        exact ⟨x :: pre, post, rfl, by rw [hp, chainLength_cons, Nat.add_assoc]⟩
      unfold firstMatch at h
      dsimp only at h
      split at h
      · split at h
        · cases h
          exact ⟨[], hs, rfl, rfl⟩
        · exact hrest h
      · exact hrest h

section
variable {n : ℕ} {h1 : 16 ≤ n} {h2 : n ≤ 65535} {fuel : ℕ} {s : KveState Bytes}

/-- A content that passes the check is a walk from the first item to an end tag. -/
theorem walk_of_check (h : Returns (kveCheck fuel (idealMemory n h1 h2)) s (fun r _ => r = true)) :
    ∃ hs, Walk s.dev n firstItemAddress hs := by
  simp only [kveCheck, uninitialised, returns_bind, returns_get, returns_pure,
    returns_read_ideal] at h
  split at h
  · rw [returns_pure] at h
    cases h
  · rw [returns_bind] at h
    obtain ⟨e, s', hend, h⟩ := h
    obtain ⟨rfl, rfl | ⟨hs, W, _⟩⟩ := (findEnd_unless fuel).of_eq hend
    · rw [returns_pure] at h
      simp at h
    · exact ⟨hs, W⟩

/-- The number of bytes that a fetch of a found item returns. -/
def fetchedLength (h : KveItemHeader) (len : ℕ) : ℕ := min (kveStorageGetBufferLength h) len

theorem fetchedLength_of_holds {h : KveItemHeader} (hh : h.Holds) (hl : h.fullLength < 65536)
    (len : ℕ) : sizeofHeader + h.keyLength + fetchedLength h len ≤ h.fullLength := by
  unfold KveItemHeader.Holds sizeofHeader at hh
  unfold fetchedLength kveStorageGetBufferLength sizeT sizeofHeader
  omega

/-- The length of an item that is shorter than its key wraps around. -/
theorem fetchedLength_pos {h : KveItemHeader} (hh : ¬ h.Holds) (hk : h.keyLength < 256) {len : ℕ}
    (hlen : 0 < len) : 0 < fetchedLength h len := by
  unfold KveItemHeader.Holds sizeofHeader at hh
  unfold fetchedLength kveStorageGetBufferLength sizeT sizeofHeader
  omega

/-- A fetch on a path, with the item that the search stops at. -/
theorem fetch_path {hs : List KveItemHeader} {key : List UInt8} {buffer : Bytes} {len : ℕ}
    (hf : n ≤ fuel) (hk : KeyOk key) (P : Path s.dev n firstItemAddress hs) :
    Returns (kveFetch fuel (idealMemory n h1 h2) key buffer len) s (fun r _ =>
      r = (firstMatch n s.dev key s.searchBuffer firstItemAddress hs).elim (0, buffer) (fun p =>
        (fetchedLength p.2 len, bufferAfter n s.dev buffer (p.1 + sizeofHeader + p.2.keyLength)
          (fetchedLength p.2 len)))) := by
  have hfit := P.fits
  have hlen := P.length_le
  unfold sizeofHeader at hfit
  unfold kveFetch
  refine (findItemByKeyLoop_path hk rfl P (by omega)).bind ?_
  rintro _ s1 ⟨hdev, rfl⟩
  cases hm : firstMatch n s.dev key s.searchBuffer firstItemAddress hs with
  | none =>
      rw [Option.elim_none, if_neg (by simp), returns_pure]
      rfl
  | some p =>
      obtain ⟨pre, post, rfl, hp⟩ := firstMatch_mem hm
      have hpos := P.pos p.2 (by simp)
      have hx : headerAt s.dev p.1 = p.2 := by
        rw [hp]
        exact (chainAt_append.mp P.chain).2.1
      simp only [chainLength_append, chainLength_cons] at hfit
      have hsize : ∀ h : KveItemHeader, sizeT (h.fullLength + 2 ^ 32 - h.keyLength - sizeofHeader) =
          kveStorageGetBufferLength h := by
        intro h
        unfold kveStorageGetBufferLength
        rw [Nat.sub_right_comm]
      have hmin : ∀ a b : ℕ, min a (min a b) = min a b := by omega
      rw [Option.elim_some, if_pos (by unfold sizeMax; omega), returns_bind,
        returns_getItemInfo_ideal, ofBuffer_bufferAfter _ _ (by omega), hdev, hx]
      dsimp only
      simp only [kveStorageGetBuffer, returns_bind, returns_read_ideal, returns_pure, hsize, hmin,
        hdev]
      rfl

/-- **Fetching from a checked table.**  On a content that passes `kveCheck` a fetch returns, and
what it returns lies inside the value of the item it found, exactly when the buffer is empty or
the header at which the search stops has room for its key. -/
theorem checked_fetch_iff (hf : n ≤ fuel)
    (hcheck : Returns (kveCheck fuel (idealMemory n h1 h2)) s (fun r _ => r = true)) :
    ∃ hs, Walk s.dev n firstItemAddress hs ∧ ∀ (t : KveState Bytes) (key : List UInt8)
      (buffer : Bytes) (len : ℕ), t.dev = s.dev → KeyOk key →
      Returns (kveStorageFindItemByKey (idealMemory n h1 h2) fuel firstItemAddress key) t
        (fun a _ => Returns (kveFetch fuel (idealMemory n h1 h2) key buffer len) t (fun r _ =>
          (0 < r.1 → InsideItem s.dev (firstItemAddress + chainLength hs) a buffer r) ↔
            len = 0 ∨ ∀ p, firstMatch n s.dev key t.searchBuffer firstItemAddress hs = some p →
              p.2.Holds)) := by
  obtain ⟨hs, W⟩ := walk_of_check hcheck
  refine ⟨hs, W, fun t key buffer len ht hk => ?_⟩
  rw [← ht] at W ⊢
  have hfit := W.fits
  have hcount := W.path.length_le
  unfold sizeofHeader at hfit
  refine (findItemByKeyLoop_path hk rfl W.path (by omega)).mono ?_
  rintro _ _ ⟨_, rfl⟩
  refine (fetch_path hf hk W.path).mono ?_
  rintro _ _ rfl
  cases hm : firstMatch n t.dev key t.searchBuffer firstItemAddress hs with
  | none => simp
  | some p =>
      obtain ⟨pre, post, rfl, hp⟩ := firstMatch_mem hm
      have hx : headerAt t.dev p.1 = p.2 := by
        rw [hp]
        exact (chainAt_append.mp W.chain).2.1
      have hkey : p.2.keyLength < 256 := by
        rw [← hx]
        exact (t.dev (p.1 + 2)).toNat_lt
      simp only [chainLength_append, chainLength_cons] at hfit ⊢
      simp only [Option.elim_some, Option.some.injEq, forall_eq']
      by_cases hh : p.2.Holds
      · have hin := fetchedLength_of_holds hh (by omega) len
        unfold sizeofHeader at hin
        have hread : bufferAfter n t.dev buffer (p.1 + sizeofHeader + p.2.keyLength)
            (fetchedLength p.2 len) = buffer.write 0
              (t.dev.slice (p.1 + sizeofHeader + p.2.keyLength) (fetchedLength p.2 len)) := by
          unfold bufferAfter
          rw [if_pos (by unfold sizeofHeader; omega)]
        simp only [hh, or_true, iff_true]
        intro _
        refine ⟨?_, ?_, ?_⟩
        · rw [hx]
          omega
        · rw [hx]
          exact hin
        · rw [hx]
          exact hread
      · simp only [hh, or_false]
        constructor
        · intro hall
          by_contra hlen
          have hpos := fetchedLength_pos hh hkey (Nat.pos_of_ne_zero hlen)
          have hin := (hall hpos).inside
          rw [hx] at hin
          unfold KveItemHeader.Holds at hh
          omega
        · rintro rfl hpos
          simp [fetchedLength] at hpos

end

/-- A state whose memory begins with these bytes and is zero behind them. -/
def stateOf (bytes : List UInt8) : KveState Bytes :=
  { blankState with dev := fun i => bytes.getD i 0 }

/-- An item of length four that announces a key of two bytes passes the check.  It is found under
its key and the first byte of the end tag, and eight bytes are fetched of its minus one. -/
theorem checked_fetch_behind_item :
    let mem := idealMemory 16 (by decide) (by decide)
    let s := stateOf [1, 4, 0, 2, 97, 255, 255]
    (kveCheck 16 mem s).map Prod.fst = some true ∧ headerAt s.dev 1 = ⟨4, 2⟩ ∧
      (kveStorageFindItemByKey mem 16 firstItemAddress [97, 255] s).map Prod.fst = some 1 ∧
      (kveFetch 16 mem [97, 255] (fun _ => 0) 8 s).map (fun p => p.1.1) = some 8 := by
  decide +kernel

/-- An item with a value of one byte. -/
theorem checked_fetch_small :
    let mem := idealMemory 16 (by decide) (by decide)
    let s := stateOf [1, 5, 0, 1, 97, 7, 255, 255]
    ∃ hs, Walk s.dev 16 firstItemAddress hs ∧
      Returns (kveStorageFindItemByKey mem 16 firstItemAddress [97]) s (fun a _ =>
        Returns (kveFetch 16 mem [97] (fun _ => 0) 8) s (fun r _ =>
          (0 < r.1 → InsideItem s.dev (firstItemAddress + chainLength hs) a (fun _ => 0) r) ↔
            8 = 0 ∨ ∀ p, firstMatch 16 s.dev [97] s.searchBuffer firstItemAddress hs = some p →
              p.2.Holds)) := by
  intro mem s
  have hcheck : (kveCheck 16 mem s).map Prod.fst = some true := by decide +kernel
  obtain ⟨p, hp, htrue⟩ := Option.map_eq_some_iff.mp hcheck
  have hcheck : Returns (kveCheck 16 mem) s (fun r _ => r = true) := ⟨p.1, p.2, hp, htrue⟩
  obtain ⟨hs, W, hall⟩ := checked_fetch_iff (Nat.le_refl 16) hcheck
  exact ⟨hs, W, hall s [97] (fun _ => 0) 8 rfl (by simp [KeyOk])⟩

end NanoDrone
