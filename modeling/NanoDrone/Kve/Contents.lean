import NanoDrone.Kve.FailedStore

/-! # The live content of a table

To its callers a table is the list of its keys and values in the order of their addresses
(`contents`); the holes between them are what deletions and updates left behind.  The two results
of this file say that only the content matters: a store finds room exactly when the content of
the other keys leaves it (`store_true_iff`), and a defragmentation leaves the content and nothing
else (`defrag_contents`), whatever bytes lie behind the end tag. -/

namespace NanoDrone

/-- The key and the value of an item. -/
def Entry.content? : Entry → Option (List UInt8 × List UInt8)
  | item key value => some (key, value)
  | hole _ => none

/-- The keys and values of a table in the order of their addresses. -/
def contents (es : List Entry) : List (List UInt8 × List UInt8) := es.filterMap Entry.content?

/-- The item of a key and its value. -/
def itemOf (p : List UInt8 × List UInt8) : Entry := .item p.1 p.2

/-- Number of bytes that keys and values take up as items. -/
def contentLength (ps : List (List UInt8 × List UInt8)) : ℕ :=
  (ps.map (fun p => 3 + p.1.length + p.2.length)).sum

@[simp] theorem contents_nil : contents [] = [] := rfl

@[simp] theorem contents_item (k v : List UInt8) (es : List Entry) :
    contents (.item k v :: es) = (k, v) :: contents es := rfl

@[simp] theorem contents_hole (n : ℕ) (es : List Entry) : contents (.hole n :: es) = contents es :=
  rfl

/-- The items alone are the content written without holes. -/
theorem compact_eq_contents (es : List Entry) :
    Layout.compact es = (contents es).map itemOf := by
  induction es with
  | nil => rfl
  | cons e es ih =>
      cases e with
      | item k v => simp [ih, itemOf]
      | hole n => simp [ih]

theorem span_items (ps : List (List UInt8 × List UInt8)) :
    span (ps.map itemOf) = contentLength ps := by
  unfold span contentLength
  rw [List.map_map]
  rfl

/-- A hole in the place of a key takes its item away and leaves the others in their order. -/
theorem contents_markHole (es : List Entry) (key : List UInt8) :
    contents (Layout.markHole es key) = (contents es).filter (fun p => p.1 ≠ key) := by
  induction es with
  | nil => rfl
  | cons e es ih =>
      cases e with
      | item k v =>
          by_cases h : k = key
          · simp [h, ih]
          · simp [h, ih]
      | hole n => simp [ih]

theorem contents_of_notMem {es : List Entry} {key : List UInt8} (h : key ∉ keys es) :
    (contents es).filter (fun p => p.1 ≠ key) = contents es := by
  rw [← contents_markHole, Layout.markHole_of_notMem h]

/-- Without a repeated key the content is the map of the table. -/
theorem mem_contents_iff {es : List Entry} {key v : List UInt8} (h : (keys es).Nodup) :
    (key, v) ∈ contents es ↔ Layout.lookup es key = some v := by
  induction es with
  | nil => simp [Layout.lookup]
  | cons e es ih =>
      cases e with
      | item k w =>
          rw [keys_item, List.nodup_cons] at h
          by_cases hk : k = key
          · subst hk
            have hout : (k, v) ∉ contents es := by
              rw [ih h.2, Layout.lookup_eq_none.mpr h.1]
              simp
            simp [Layout.lookup, hout, eq_comm]
          · simp [Layout.lookup, hk, Ne.symm hk, ih h.2]
      | hole n => simpa [Layout.lookup] using ih h

/-- The room that a store needs, read off the content. -/
theorem roomFor_iff (n : ℕ) (es : List Entry) (key value : List UInt8) :
    Layout.RoomFor n es key value ↔
      1 + contentLength ((contents es).filter (fun p => p.1 ≠ key)) +
        (3 + key.length + value.length) + 2 < n := by
  unfold Layout.RoomFor
  rw [compact_eq_contents, span_items, contents_markHole]

/-- The answer of a store depends on the content only. -/
theorem store_snd_iff {n : ℕ} {es : List Entry} {key value : List UInt8}
    (hnd : (keys es).Nodup) (hes : 1 + span es + 3 ≤ n) (hn : n ≤ 65535) (hk : key.length ≤ 255)
    (hv : value.length < n) : (Layout.store n es key value).2 = true ↔
      (∃ old, (key, old) ∈ contents es ∧ old.length = value.length) ∨
        1 + contentLength ((contents es).filter (fun p => p.1 ≠ key)) +
          (3 + key.length + value.length) + 2 < n := by
  have hv' : value.length ≤ ptrdiffMax := by unfold ptrdiffMax; omega
  simp only [mem_contents_iff hnd]
  cases hl : Layout.lookup es key with
  | none =>
      have hnot := Layout.lookup_eq_none.mp hl
      have hst : Layout.store n es key value = Layout.append n es key value := by
        unfold Layout.store
        rw [hl]
      rw [hst, Layout.append_snd (by omega) hn hk hv', compact_eq_contents, span_items,
        contents_of_notMem hnot]
      simp
  | some old =>
      rw [Layout.store_snd_of_lookup hes hn hk hv' hl, roomFor_iff,
        Nat.mod_eq_of_lt (by omega)]
      simp

section
variable {n : ℕ} {h1 : 16 ≤ n} {h2 : n ≤ 65535} {fuel : ℕ}

/-- **When a store succeeds.**  In every state reached from `kveFormat` a store returns true
exactly when the key already holds a value of the same length, or the items of the other keys
leave room for the new one; no hole ever makes it fail. -/
theorem store_true_iff {s0 : KveState Bytes} {ops : List KveOp} {key value : List UInt8}
    (hops : ∀ op ∈ ops, op.Addressable) (hk : KeyOk key) (hv : value.length < n) (hf : n ≤ fuel) :
    Returns (KveOp.fromFormat fuel (idealMemory n h1 h2) ops) s0 (fun _ s =>
      (∃ es, Table s.dev n es) ∧ ∀ es, Table s.dev n es →
        Returns (kveStore fuel (idealMemory n h1 h2) key value) s (fun r _ => r = true ↔
          (∃ old, (key, old) ∈ contents es ∧ old.length = value.length) ∨
            1 + contentLength ((contents es).filter (fun p => p.1 ≠ key)) +
              (3 + key.length + value.length) + 2 < n)) := by
  refine (fromFormat_ideal hops hf).mono ?_
  intro _ s T0
  refine ⟨⟨_, T0⟩, fun es T => ?_⟩
  have hs : (idealAccess n h1 h2).At s s.dev := ⟨trivial, rfl⟩
  have hfit := T.fits
  unfold firstItemAddress sizeofHeader at hfit
  refine (store_ideal hs T hk (by unfold ptrdiffMax; omega) hf).mono ?_
  intro r _ hr
  rw [hr.1]
  exact store_snd_iff T.nodup hfit h2 hk.2 hv

/-- **What a defragmentation leaves.**  On every table reached from `kveFormat`, whatever bytes
follow its end tag, `kveDefrag` returns and leaves the content as items one after the other and
the end tag behind them. -/
theorem defrag_contents {s0 : KveState Bytes} {ops : List KveOp}
    (hops : ∀ op ∈ ops, op.Addressable) (hf : n ≤ fuel) :
    Returns (KveOp.fromFormat fuel (idealMemory n h1 h2) ops) s0 (fun _ s =>
      (∃ es, Table s.dev n es) ∧ ∀ es, Table s.dev n es → ∀ t : KveState Bytes,
        (∀ i, i < firstItemAddress + span es + kveEndTagLendth → t.dev i = s.dev i) →
        Returns (kveDefrag fuel (idealMemory n h1 h2)) t (fun _ t' =>
          Table t'.dev n ((contents es).map itemOf) ∧
          Stored t'.dev (1 + contentLength (contents es)) [0xff, 0xff])) := by
  refine (fromFormat_ideal hops hf).mono ?_
  intro _ s T0
  refine ⟨⟨_, T0⟩, fun es T t ht => ?_⟩
  have h : (idealAccess n h1 h2).At t t.dev := ⟨trivial, rfl⟩
  refine (defrag_spec (idealAccess n h1 h2) h (T.congr ht) T.endTag_le hf).mono ?_
  intro _ t' hd
  obtain ⟨m', h', T'⟩ := hd
  have e : t'.dev = m' := h'.2
  rw [compact_eq_contents] at T'
  rw [e]
  refine ⟨T', ?_⟩
  have hend := T'.endTag
  rwa [span_items] at hend

end

/-- A value is replaced by a longer one through the hole of another key. -/
theorem store_true_iff_small :
    Returns (KveOp.fromFormat 16 (idealMemory 16 (by decide) (by decide))
      [.store [97] [1], .store [98] [2], .delete [97]]) blankState (fun _ s =>
        (∃ es, Table s.dev 16 es) ∧ ∀ es, Table s.dev 16 es →
          Returns (kveStore 16 (idealMemory 16 (by decide) (by decide)) [98] [3, 4]) s
            (fun r _ => r = true ↔
              (∃ old, ([98], old) ∈ contents es ∧ old.length = ([3, 4] : List UInt8).length) ∨
                1 + contentLength ((contents es).filter (fun p => p.1 ≠ [98])) +
                  (3 + ([98] : List UInt8).length + ([3, 4] : List UInt8).length) + 2 < 16)) :=
  store_true_iff (by simp [KveOp.Addressable, KeyOk, ptrdiffMax]) (by simp [KeyOk]) (by decide)
    (Nat.le_refl 16)

/-- A deleted item between two others leaves a hole that a defragmentation removes. -/
theorem defrag_contents_small :
    Returns (KveOp.fromFormat 32 (idealMemory 32 (by decide) (by decide))
      [.store [97] [1], .store [98] [2], .store [99] [3], .delete [98]]) blankState (fun _ s =>
        (∃ es, Table s.dev 32 es) ∧ ∀ es, Table s.dev 32 es → ∀ t : KveState Bytes,
          (∀ i, i < firstItemAddress + span es + kveEndTagLendth → t.dev i = s.dev i) →
          Returns (kveDefrag 32 (idealMemory 32 (by decide) (by decide))) t (fun _ t' =>
            Table t'.dev 32 ((contents es).map itemOf) ∧
            Stored t'.dev (1 + contentLength (contents es)) [0xff, 0xff])) :=
  defrag_contents (by simp [KveOp.Addressable, KeyOk, ptrdiffMax]) (Nat.le_refl 32)

end NanoDrone
