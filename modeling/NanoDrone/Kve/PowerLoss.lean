import NanoDrone.Kve.KeyMap
import NanoDrone.Lib.WriteLog

/-! # Power that fails during a call

`KveMemory.powered` is a device whose power fails after a number of bytes have been written.  The
call goes on with the bytes it has written itself (`live`), as it would under power; `stored` is
what the memory then holds, and after a failure it changes no more.  What `stored` is depends on
the order of the writes only: for the calls that do not defragment the table, `Layout.storeLog` and
`Layout.deleteLog` give them, and `stored` is the memory before the call with the log cut off at
the failure (`store_log`, `delete_log`). -/

namespace NanoDrone

/-- A device under power for `budget` more bytes of writes. -/
structure Powered (σ : Type) where
  live : σ
  stored : σ
  budget : ℕ

section
variable {σ : Type}

def KveMemory.powered (kve : KveMemory σ) : KveMemory (Powered σ) where
  memorySize := kve.memorySize
  read a n p := ((kve.read a n p.live).1, { p with live := (kve.read a n p.live).2 })
  write a d p :=
    ⟨kve.write a d p.live, kve.write a (d.take p.budget) p.stored, p.budget - d.length⟩
  flush p := { p with live := kve.flush p.live, stored := kve.flush p.stored }
  size_ge := kve.size_ge
  size_le := kve.size_le

/-- The call sees `m`, the memory keeps `d`, and `b` bytes can still be written. -/
structure Access.Powers {kve : KveMemory σ} {limit : ℕ} (A : Access kve limit limit)
    (s : KveState (Powered σ)) (m d : Bytes) (b : ℕ) : Prop where
  live_ok : A.Ok s.dev.live
  live_view : A.view s.dev.live = m
  stored_ok : A.Ok s.dev.stored
  stored_view : A.view s.dev.stored = d
  budget : s.dev.budget = b

/-- Access that writes nothing, or whose writes come after the failure, keeps what is stored. -/
def Access.frozen {kve : KveMemory σ} {limit top : ℕ} (A : Access kve limit limit) (d : Bytes)
    (b : ℕ) (ht : top ≤ limit) (h : b = 0 ∨ top = 0) : Access kve.powered limit top where
  view p := A.view p.live
  Ok p := A.Ok p.live ∧ A.Ok p.stored ∧ A.view p.stored = d ∧ p.budget = b
  limit_le := A.limit_le
  top_le := Nat.le_trans ht A.top_le
  read_bytes hp hb := A.read_bytes hp.1 hb
  read_ok hp hb := ⟨A.read_ok hp.1 hb, hp.2⟩
  read_view hp hb := A.read_view hp.1 hb
  write_ok := by
    intro p a data hp hb
    obtain ⟨hlive, hstored, hview, hbudget⟩ := hp
    have htake : data.take p.budget = [] := by
      rcases h with rfl | rfl
      · rw [hbudget, List.take_zero]
      · rw [List.length_eq_zero_iff.mp (show data.length = 0 by omega), List.take_nil]
    have hleft : p.budget - data.length = b := by
      rcases h with rfl | rfl <;> omega
    refine ⟨A.write_ok hlive (Nat.le_trans hb ht), ?_, ?_, hleft⟩
    · change A.Ok (kve.write a (data.take p.budget) p.stored)
      rw [htake]
      exact A.write_ok hstored (by rw [List.length_nil]; omega)
    · change A.view (kve.write a (data.take p.budget) p.stored) = d
      rw [htake, A.write_view hstored (by rw [List.length_nil]; omega), Bytes.write_nil, hview]
  write_view hp hb := A.write_view hp.1 (Nat.le_trans hb ht)
  flush_ok := by
    intro p hp
    obtain ⟨hlive, hstored, hview, hbudget⟩ := hp
    exact ⟨A.flush_ok hlive, A.flush_ok hstored, (A.flush_view hstored).trans hview, hbudget⟩
  flush_view hp := A.flush_view hp.1

end

/-! ### The writes of a call -/

namespace Layout

/-- Number of bytes before the item of a key. -/
def offset : List Entry → List UInt8 → ℕ
  | [], _ => 0
  | e :: es, key => if e.key? = some key then 0 else e.length + offset es key

theorem offset_split {pre post : List Entry} {key v : List UInt8} (h : key ∉ keys pre) :
    offset (pre ++ .item key v :: post) key = span pre := by
  induction pre with
  | nil => simp [offset]
  | cons e pre ih =>
      have hrest : key ∉ keys pre := by
        intro hm
        obtain ⟨x, hx, hk⟩ := List.mem_filterMap.mp hm
        exact h (List.mem_filterMap.mpr ⟨x, List.mem_cons_of_mem _ hx, hk⟩)
      have hfirst : e.key? ≠ some key := fun hk =>
        h (List.mem_filterMap.mpr ⟨e, List.mem_cons_self, hk⟩)
      rw [List.cons_append, offset, if_neg hfirst, ih hrest, span_cons]

/-- An item behind the entries and a new end tag. -/
def appendLog (es : List Entry) (key value : List UInt8) : WriteLog :=
  [(firstItemAddress + span es, (Entry.item key value).bytes ++ [0xff, 0xff])]

/-- The item of a key turned into a hole. -/
def deleteLog (es : List Entry) (key : List UInt8) : WriteLog :=
  match lookup es key with
  | none => []
  | some old =>
      [(firstItemAddress + offset es key, (Entry.hole (3 + key.length + old.length)).bytes)]

/-- The writes of a store that does not defragment the table. -/
def storeLog (es : List Entry) (key value : List UInt8) : WriteLog :=
  match lookup es key with
  | none => appendLog es key value
  | some old =>
      if old.length ≠ value.length then deleteLog es key ++ appendLog es key value
      else [(firstItemAddress + offset es key, (Entry.item key value).bytes)]

/-- The store takes the place of a value of the same length. -/
def InPlace (es : List Entry) (key value : List UInt8) : Prop :=
  ∃ old, lookup es key = some old ∧ old.length = value.length

/-- The store needs no defragmentation. -/
def Direct (memorySize : ℕ) (es : List Entry) (key value : List UInt8) : Prop :=
  InPlace es key value ∨ fits memorySize es key value = true

end Layout

section
variable {σ : Type} {kve : KveMemory σ} {limit : ℕ} (A : Access kve limit limit)
include A

/-! ### Accesses -/

theorem Access.Powers.frozen {s : KveState (Powered σ)} {m d : Bytes} {b : ℕ}
    (h : A.Powers s m d b) :
    (A.frozen d b (Nat.zero_le limit) (Or.inr rfl)).At s m :=
  ⟨⟨h.live_ok, h.stored_ok, h.stored_view, h.budget⟩, h.live_view⟩

theorem Access.Powers.of_frozen {s : KveState (Powered σ)} {m d : Bytes} {b : ℕ}
    (h : (A.frozen d b (Nat.zero_le limit) (Or.inr rfl)).At s m) : A.Powers s m d b :=
  ⟨h.1.1, h.2, h.1.2.1, h.1.2.2.1, h.1.2.2.2⟩

/-- A write adds to the log, wherever the power has failed. -/
theorem returns_powered_write {s : KveState (Powered σ)} {m m0 : Bytes} {log : WriteLog}
    {b a : ℕ} {data : List UInt8} {Q : Unit → KveState (Powered σ) → Prop}
    (h : A.Powers s m (log.cut m0 b) (b - log.size)) (hb : a + data.length ≤ limit)
    (hQ : ∀ s', A.Powers s' (m.write a data) ((log ++ [(a, data)]).cut m0 b)
      (b - (log ++ [(a, data)]).size) → Q () s') :
    Returns (kveWrite kve.powered a data) s Q := by
  have hbt : a + (data.take s.dev.budget).length ≤ limit := by
    rw [List.length_take]
    omega
  have hsize : b - (log ++ [(a, data)]).size = b - log.size - data.length := by
    simp only [WriteLog.size_append, WriteLog.size_cons, WriteLog.size_nil, Nat.add_zero,
      Nat.sub_sub]
  refine returns_kveWrite_iff.mpr (hQ _ ?_)
  rw [hsize]
  refine ⟨A.write_ok h.live_ok hb, ?_, A.write_ok h.stored_ok hbt, ?_, ?_⟩
  · rw [← h.live_view]
    exact A.write_view h.live_ok hb
  · rw [WriteLog.cut_append, WriteLog.cut_cons, WriteLog.cut_nil, ← h.stored_view, ← h.budget]
    exact A.write_view h.stored_ok hbt
  · rw [← h.budget]
    rfl

/-- Two adjacent writes count as one. -/
theorem Access.Powers.adjacent {s : KveState (Powered σ)} {m m0 : Bytes} {log : WriteLog}
    {b a a' : ℕ} {x y : List UInt8} (ha : a' = a + x.length)
    (h : A.Powers s m ((log ++ [(a, x)] ++ [(a', y)]).cut m0 b)
      (b - (log ++ [(a, x)] ++ [(a', y)]).size)) :
    A.Powers s m ((log ++ [(a, x ++ y)]).cut m0 b) (b - (log ++ [(a, x ++ y)]).size) := by
  subst ha
  rw [WriteLog.cut_append_adjacent] at h
  simpa only [WriteLog.size_append, WriteLog.size_cons, WriteLog.size_nil, List.length_append,
    Nat.add_assoc, Nat.add_zero] using h

theorem returns_powered_flush {s : KveState (Powered σ)} {m d : Bytes} {b : ℕ}
    {Q : Unit → KveState (Powered σ) → Prop} (h : A.Powers s m d b)
    (hQ : ∀ s', A.Powers s' m d b → Q () s') : Returns (kveFlush kve.powered) s Q :=
  returns_kveFlush (A.frozen d b (Nat.zero_le limit) (Or.inr rfl)) (h.frozen A)
    fun s' h' => hQ s' (.of_frozen A h')

theorem returns_powered_writeHole {s : KveState (Powered σ)} {m m0 : Bytes} {log : WriteLog}
    {b a n : ℕ} {Q : ℕ → KveState (Powered σ) → Prop}
    (h : A.Powers s m (log.cut m0 b) (b - log.size)) (hn : n < 65536) (hb : a + 3 ≤ limit)
    (hQ : ∀ s', A.Powers s' (m.write a (Entry.hole n).bytes)
      ((log ++ [(a, (Entry.hole n).bytes)]).cut m0 b)
      (b - (log ++ [(a, (Entry.hole n).bytes)]).size) → Q n s') :
    Returns (kveStorageWriteHole kve.powered a n) s Q := by
  simp only [kveStorageWriteHole, returns_bind, Nat.mod_eq_of_lt hn, returns_pure]
  apply returns_powered_write A h hb
  intro s1 h1
  exact returns_powered_flush A h1 hQ

/-- The three writes of an item are one write of the entry. -/
theorem returns_powered_writeItem {s : KveState (Powered σ)} {m m0 : Bytes} {log : WriteLog}
    {b a : ℕ} {key value : List UInt8} {Q : ℕ → KveState (Powered σ) → Prop}
    (h : A.Powers s m (log.cut m0 b) (b - log.size)) (hk : key.length ≤ 255)
    (hl : 3 + key.length + value.length < 65536)
    (hb : a + (3 + key.length + value.length) ≤ limit)
    (hQ : ∀ s' m', A.Powers s' m' ((log ++ [(a, (Entry.item key value).bytes)]).cut m0 b)
      (b - (log ++ [(a, (Entry.item key value).bytes)]).size) →
      Q (3 + key.length + value.length) s') :
    Returns (kveStorageWriteItem kve.powered a key value) s Q := by
  have ek : key.length % 256 = key.length := Nat.mod_eq_of_lt (by omega)
  have el : (2 + 1 + key.length + value.length) % 65536 = 3 + key.length + value.length :=
    Nat.mod_eq_of_lt hl
  simp only [kveStorageWriteItem, returns_bind, ek, el, List.take_length, returns_pure,
    sizeofHeader]
  apply returns_powered_write A h (by simp [KveItemHeader.toBytes]; omega)
  intro s1 h1
  apply returns_powered_write A h1 (by omega)
  intro s2 h2
  have h2 := h2.adjacent A rfl
  apply returns_powered_write A h2 (by omega)
  intro s3 h3
  have h3 := h3.adjacent A (by simp [KveItemHeader.toBytes]; omega)
  rw [List.append_assoc] at h3
  apply returns_powered_flush A h3
  intro s4 h4
  exact hQ s4 _ h4

/-- An item and the end tag behind it are one write. -/
theorem powered_writeItemAndEnd {s : KveState (Powered σ)} {m m0 : Bytes} {log : WriteLog}
    {b a : ℕ} {key value : List UInt8} (h : A.Powers s m (log.cut m0 b) (b - log.size))
    (hk : key.length ≤ 255) (hl : 3 + key.length + value.length < 65536)
    (hb : a + (3 + key.length + value.length) + 2 ≤ limit) :
    Returns (writeItemAndEnd kve.powered a key value) s (fun _ s' => ∃ m',
      A.Powers s' m'
        ((log ++ [(a, (Entry.item key value).bytes ++ [0xff, 0xff])]).cut m0 b)
        (b - (log ++ [(a, (Entry.item key value).bytes ++ [0xff, 0xff])]).size)) := by
  have hbytes : (Entry.item key value).bytes.length = 3 + key.length + value.length := by
    simp only [Entry.bytes, KveItemHeader.toBytes, List.length_append, List.length_cons,
      List.length_nil]
    omega
  simp only [writeItemAndEnd, kveStorageWriteEnd, returns_bind, returns_pure]
  apply returns_powered_writeItem A h hk hl (by omega)
  intro s1 m1 h1
  apply returns_powered_write A h1 (by simpa using hb)
  intro s2 h2
  have h2 := h2.adjacent A (by rw [hbytes])
  apply returns_powered_flush A h2
  intro s3 h3
  exact ⟨_, h3⟩

/-! ### The log of a call -/

theorem append_log {m m0 : Bytes} {es : List Entry} {key value : List UInt8} {fuel b : ℕ}
    {log : WriteLog} {s : KveState (Powered σ)}
    (h : A.Powers s m (log.cut m0 b) (b - log.size)) (T : Table m limit es)
    (hfits : Layout.fits kve.memorySize es key value = true) (hk : key.length ≤ 255)
    (hb : firstItemAddress + span es + (3 + key.length + value.length) + 2 ≤ limit)
    (hf : kve.memorySize ≤ fuel) :
    Returns (appendItemToEnd fuel kve.powered firstItemAddress key value) s (fun _ s' => ∃ m',
      A.Powers s' m' ((log ++ Layout.appendLog es key value).cut m0 b)
        (b - (log ++ Layout.appendLog es key value).size)) := by
  have hlim := A.limit_le
  have hsz := kve.size_le
  unfold appendItemToEnd
  refine (T.findEnd (A.frozen _ _ (Nat.zero_le limit) (Or.inr rfl)) (h.frozen A) hf).bind ?_
  intro e s1 h1
  obtain ⟨rfl, h1⟩ := h1
  have h1 := Access.Powers.of_frozen A h1
  rw [if_neg (show firstItemAddress + span es ≠ sizeMax by unfold sizeMax; omega),
    show enoughSpace kve.powered (firstItemAddress + span es) key value = true from hfits,
    if_pos rfl]
  refine (powered_writeItemAndEnd A h1 hk (by omega) hb).bind ?_
  intro _ s2 h2
  exact returns_pure.mpr h2

theorem delete_log {m : Bytes} {es : List Entry} {key : List UInt8} {fuel b : ℕ}
    {s : KveState (Powered σ)} (h : A.Powers s m m b) (T : Table m limit es) (hk : KeyOk key)
    (hf : kve.memorySize ≤ fuel) :
    Returns (kveDelete fuel kve.powered key) s (fun _ s' => ∃ m',
      A.Powers s' m' ((Layout.deleteLog es key).cut m b) (b - (Layout.deleteLog es key).size)) := by
  have hlim := A.limit_le
  have hsz := kve.size_le
  have hfit := T.fits
  unfold kveDelete Layout.deleteLog
  cases hl : Layout.lookup es key with
  | none =>
      refine ((T.searchable _).findItemByKey_none (A.frozen _ _ (Nat.zero_le limit) (Or.inr rfl))
        (h.frozen A) hk.1 hk.2 hf (Layout.lookup_eq_none.mp hl)).bind ?_
      intro r s1 h1
      obtain ⟨rfl, h1⟩ := h1
      rw [if_neg (by simp), returns_pure]
      exact ⟨m, .of_frozen A h1⟩
  | some old =>
      obtain ⟨pre, post, rfl, hp, _⟩ := T.toLaid.split hl
      simp only [span_append, span_cons, Entry.length_item, sizeofHeader] at hfit
      refine ((T.searchable _).findItemByKey_some (A.frozen _ _ (Nat.zero_le limit) (Or.inr rfl))
        (h.frozen A) hf hp).bind ?_
      intro r s1 h1
      obtain ⟨rfl, h1⟩ := h1
      rw [if_pos (by unfold sizeMax; omega)]
      refine (getItemInfo_item (A.frozen _ _ (Nat.zero_le limit) (Or.inr rfl)) h1 T.itemAt).bind ?_
      intro r s2 h2
      obtain ⟨rfl, h2⟩ := h2
      have h2 := Access.Powers.of_frozen A h2
      dsimp only
      rw [returns_bind]
      apply returns_powered_writeHole A (show A.Powers s2 m (WriteLog.cut m [] b) _ from h2)
        (by omega) (by omega)
      intro s3 h3
      rw [returns_pure, Layout.offset_split hp]
      exact ⟨_, h3⟩

/-- **The writes of a store.**  A store that needs no defragmentation leaves the memory with its
log cut off where the power fails. -/
theorem store_log {m : Bytes} {es : List Entry} {key value : List UInt8} {fuel b : ℕ}
    {s : KveState (Powered σ)} (h : A.Powers s m m b) (T : Table m limit es) (hk : KeyOk key)
    (hv : value.length < limit) (hdirect : Layout.Direct kve.memorySize es key value)
    (hb : Layout.InPlace es key value ∨
      firstItemAddress + span es + (3 + key.length + value.length) + 2 ≤ limit)
    (hf : kve.memorySize ≤ fuel) :
    Returns (kveStore fuel kve.powered key value) s (fun _ s' => ∃ m',
      A.Powers s' m' ((Layout.storeLog es key value).cut m b)
        (b - (Layout.storeLog es key value).size)) := by
  have hlim := A.limit_le
  have hsz := kve.size_le
  have hfit := T.fits
  unfold kveStore Layout.storeLog
  cases hl : Layout.lookup es key with
  | none =>
      have hnew : ¬ Layout.InPlace es key value := by
        intro hin
        obtain ⟨old, ho, _⟩ := hin
        rw [hl] at ho
        cases ho
      refine ((T.searchable _).findItemByKey_none (A.frozen _ _ (Nat.zero_le limit) (Or.inr rfl))
        (h.frozen A) hk.1 hk.2 hf (Layout.lookup_eq_none.mp hl)).bind ?_
      intro r s1 h1
      obtain ⟨rfl, h1⟩ := h1
      rw [if_pos rfl]
      exact append_log A (show A.Powers s1 m (WriteLog.cut m [] b) _ from .of_frozen A h1) T
        (hdirect.resolve_left hnew) hk.2 (hb.resolve_left hnew) hf
  | some old =>
      obtain ⟨pre, post, rfl, hp, hq⟩ := T.toLaid.split hl
      have hspan := Layout.span_markHole (pre ++ .item key old :: post) key
      have hdel : Layout.deleteLog (pre ++ .item key old :: post) key =
          [(firstItemAddress + span pre, (Entry.hole (3 + key.length + old.length)).bytes)] := by
        simp only [Layout.deleteLog, hl, Layout.offset_split hp]
      have hin : Layout.InPlace (pre ++ .item key old :: post) key value ↔
          old.length = value.length := by
        unfold Layout.InPlace
        rw [hl]
        simp
      simp only [span_append, span_cons, Entry.length_item, sizeofHeader] at hfit
      rw [hin] at hb
      unfold Layout.Direct at hdirect
      rw [hin] at hdirect
      refine ((T.searchable _).findItemByKey_some (A.frozen _ _ (Nat.zero_le limit) (Or.inr rfl))
        (h.frozen A) hf hp).bind ?_
      intro r s1 h1
      obtain ⟨rfl, h1⟩ := h1
      rw [if_neg (by unfold sizeMax; omega)]
      refine (getItemInfo_item (A.frozen _ _ (Nat.zero_le limit) (Or.inr rfl)) h1 T.itemAt).bind ?_
      intro r s2 h2
      obtain ⟨rfl, h2⟩ := h2
      have h2 : A.Powers s2 m (WriteLog.cut m [] b) (b - WriteLog.size []) := .of_frozen A h2
      have hsame : 3 + key.length + old.length ≠ (value.length + 3 + key.length) % 65536 ↔
          old.length ≠ value.length := by
        rcases hb with hb | hb <;> omega
      dsimp only
      by_cases hne : old.length ≠ value.length
      · rw [if_pos (hsame.mpr hne), if_pos hne, returns_bind]
        apply returns_powered_writeHole A h2 (by omega) (by omega)
        intro s3 h3
        have happend := append_log A h3 (T.markHole hp hq)
          (show Layout.fits kve.memorySize _ key value = true by
            unfold Layout.fits
            rw [hspan]
            exact hdirect.resolve_left hne)
          hk.2 (by rw [hspan]; exact hb.resolve_left hne) hf
        rw [hdel]
        unfold Layout.appendLog at happend ⊢
        rw [hspan] at happend
        exact happend
      · have heq : old.length = value.length := not_not.mp hne
        rw [if_neg (fun h => hne (hsame.mp h)), if_neg hne, returns_bind, Layout.offset_split hp]
        apply returns_powered_writeItem A h2 hk.2 (by omega) (by omega)
        intro s3 m3 h3
        rw [returns_pure]
        exact ⟨m3, h3⟩

end

end NanoDrone
