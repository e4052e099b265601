import NanoDrone.Kve.Kve
import Mathlib.Algebra.BigOperators.Group.List.Basic
import Mathlib.Data.List.Nodup

/-! # Layout of the key-value table

A table is a list of entries: items (key and value) and holes (bytes that a deletion or an
update left behind).  `Layout.store`, `Layout.delete` and `Layout.compact` say what the
operations of `kve.c` do to that list; `Layout.lookup` reads it as a map from keys to values,
and the lemmas of this file describe that map after each operation.  Nothing here mentions the
memory: `Table.lean` relates a list of entries to bytes. -/

namespace NanoDrone

/-- An entry of the table. -/
inductive Entry where
  | item (key value : List UInt8)
  | hole (length : ℕ)
deriving DecidableEq, Repr

namespace Entry

/-- The full length of an entry in memory. -/
def length : Entry → ℕ
  | item key value => 3 + key.length + value.length
  | hole n => n

/-- The key length that the header of an entry shows. -/
def keyLength : Entry → ℕ
  | item key _ => key.length
  | hole _ => 0

def key? : Entry → Option (List UInt8)
  | item key _ => some key
  | hole _ => none

def isItem : Entry → Bool
  | item _ _ => true
  | hole _ => false

@[simp] theorem length_item (k v : List UInt8) : (item k v).length = 3 + k.length + v.length := rfl
@[simp] theorem length_hole (n : ℕ) : (hole n).length = n := rfl
@[simp] theorem keyLength_item (k v : List UInt8) : (item k v).keyLength = k.length := rfl
@[simp] theorem keyLength_hole (n : ℕ) : (hole n).keyLength = 0 := rfl
@[simp] theorem key?_item (k v : List UInt8) : (item k v).key? = some k := rfl
@[simp] theorem key?_hole (n : ℕ) : (hole n).key? = none := rfl
@[simp] theorem isItem_item (k v : List UInt8) : (item k v).isItem = true := rfl
@[simp] theorem isItem_hole (n : ℕ) : (hole n).isItem = false := rfl

/-- The bytes that the layout fixes: all of an item, the header of a hole. -/
def bytes : Entry → List UInt8
  | item key value =>
      KveItemHeader.toBytes ⟨3 + key.length + value.length, key.length⟩ ++ (key ++ value)
  | hole n => KveItemHeader.toBytes ⟨n, 0⟩

/-- Keys have 1 to 255 bytes; a hole is at least as long as the shortest item. -/
def Valid : Entry → Prop
  | item key _ => 1 ≤ key.length ∧ key.length ≤ 255
  | hole n => 4 ≤ n

theorem Valid.length_ge {e : Entry} (h : e.Valid) : 4 ≤ e.length := by
  cases e with
  | item key value => simp only [Valid] at h; simp only [length]; omega
  | hole n => exact h

theorem bytes_length_le {e : Entry} (h : e.Valid) : e.bytes.length ≤ e.length := by
  cases e with
  | item key value => simp [bytes, length, KveItemHeader.toBytes]; omega
  | hole n => simp only [Valid] at h; simp [bytes, length, KveItemHeader.toBytes]; omega

end Entry

/-- Number of bytes of a list of entries. -/
def span (es : List Entry) : ℕ := (es.map Entry.length).sum

@[simp] theorem span_nil : span [] = 0 := rfl

@[simp] theorem span_cons (e : Entry) (es : List Entry) : span (e :: es) = e.length + span es := by
  simp [span]

@[simp] theorem span_append (xs ys : List Entry) : span (xs ++ ys) = span xs + span ys := by
  simp [span]

theorem four_mul_length_le_span {es : List Entry} (h : ∀ e ∈ es, e.Valid) :
    4 * es.length ≤ span es := by
  induction es with
  | nil => simp
  | cons e es ih =>
      have h1 := (h e List.mem_cons_self).length_ge
      have h2 := ih (fun x hx => h x (List.mem_cons_of_mem _ hx))
      simp only [List.length_cons, span_cons]
      omega

/-! ### Operations on the list of entries -/

/-- The keys of a table in order. -/
def keys (es : List Entry) : List (List UInt8) := es.filterMap Entry.key?

@[simp] theorem keys_nil : keys [] = [] := rfl

@[simp] theorem keys_item (k v : List UInt8) (es : List Entry) :
    keys (.item k v :: es) = k :: keys es := rfl

@[simp] theorem keys_hole (n : ℕ) (es : List Entry) : keys (.hole n :: es) = keys es := rfl

@[simp] theorem keys_append (xs ys : List Entry) : keys (xs ++ ys) = keys xs ++ keys ys := by
  simp [keys]

theorem keys_nodup_split {pre post : List Entry} {key v : List UInt8}
    (h : (keys (pre ++ .item key v :: post)).Nodup) : key ∉ keys pre ∧ key ∉ keys post := by
  simp only [keys_append, keys_item] at h
  have h1 := List.nodup_middle.mp h
  have h2 := (List.nodup_cons.mp h1).1
  simpa [List.mem_append, not_or] using h2

namespace Layout

/-- The value stored under a key. -/
def lookup : List Entry → List UInt8 → Option (List UInt8)
  | [], _ => none
  | .item k v :: es, key => if k = key then some v else lookup es key
  | .hole _ :: es, key => lookup es key

/-- The item of a key turned into a hole. -/
def markHole (es : List Entry) (key : List UInt8) : List Entry :=
  es.map (fun e => if e.key? = some key then .hole e.length else e)

/-- The value of a key replaced in place. -/
def overwrite (es : List Entry) (key value : List UInt8) : List Entry :=
  es.map (fun e => if e.key? = some key then .item key value else e)

/-- The items without the holes, in the same order. -/
def compact (es : List Entry) : List Entry := es.filter Entry.isItem

/-- There is enough space for an item of this size behind the entries. -/
def fits (memorySize : ℕ) (es : List Entry) (key value : List UInt8) : Bool :=
  decide (sizeT (1 + span es + sizeofHeader + key.length + value.length + kveEndTagLendth)
    < memorySize)

/-- The item put at the end, after a defragmentation where it is needed. -/
def append (memorySize : ℕ) (es : List Entry) (key value : List UInt8) : List Entry × Bool :=
  if fits memorySize es key value then (es ++ [.item key value], true)
  else if fits memorySize (compact es) key value then (compact es ++ [.item key value], true)
  else (compact es, false)

def store (memorySize : ℕ) (es : List Entry) (key value : List UInt8) : List Entry × Bool :=
  match lookup es key with
  | none => append memorySize es key value
  | some old =>
      if 3 + key.length + old.length ≠ (value.length + 3 + key.length) % 65536 then
        append memorySize (markHole es key) key value
      else (overwrite es key value, true)

def delete (es : List Entry) (key : List UInt8) : List Entry × Bool :=
  match lookup es key with
  | none => (es, false)
  | some _ => (markHole es key, true)

/-! ### Finding a key -/

theorem lookup_eq_none {es : List Entry} {key : List UInt8} :
    lookup es key = none ↔ key ∉ keys es := by
  induction es with
  | nil => simp [lookup]
  | cons e es ih =>
      cases e with
      | item k v =>
          by_cases h : k = key
          · simp [lookup, h]
          · simp [lookup, h, ih, Ne.symm h]
      | hole n => simp [lookup, ih]

/-- A key that is found splits the table at its first item. -/
theorem lookup_split {es : List Entry} {key v : List UInt8} (h : lookup es key = some v) :
    ∃ pre post, es = pre ++ .item key v :: post ∧ key ∉ keys pre := by
  induction es with
  | nil => simp [lookup] at h
  | cons e es ih =>
      cases e with
      | item k w =>
          by_cases hk : k = key
          · subst hk
            simp only [lookup, ↓reduceIte, Option.some.injEq] at h
            subst h
            exact ⟨[], es, rfl, by simp⟩
          · simp only [lookup, hk, ↓reduceIte] at h
            obtain ⟨pre, post, rfl, hp⟩ := ih h
            refine ⟨.item k w :: pre, post, rfl, ?_⟩
            simp [hp, Ne.symm hk]
      | hole n =>
          obtain ⟨pre, post, rfl, hp⟩ := ih h
          exact ⟨.hole n :: pre, post, rfl, by simpa using hp⟩

/-- An item takes no more than all the entries do. -/
theorem length_le_of_lookup {es : List Entry} {key v : List UInt8} (h : lookup es key = some v) :
    3 + key.length + v.length ≤ span es := by
  obtain ⟨pre, post, rfl, _⟩ := lookup_split h
  simp only [span_append, span_cons, Entry.length_item]
  omega

@[simp] theorem markHole_nil (key : List UInt8) : markHole [] key = [] := rfl

@[simp] theorem markHole_item (k v key : List UInt8) (es : List Entry) :
    markHole (.item k v :: es) key =
      (if k = key then .hole (3 + k.length + v.length) else .item k v) :: markHole es key := by
  simp [markHole]

@[simp] theorem markHole_hole (n : ℕ) (key : List UInt8) (es : List Entry) :
    markHole (.hole n :: es) key = .hole n :: markHole es key := by
  simp [markHole]

@[simp] theorem overwrite_nil (key value : List UInt8) : overwrite [] key value = [] := rfl

@[simp] theorem overwrite_item (k v key value : List UInt8) (es : List Entry) :
    overwrite (.item k v :: es) key value =
      (if k = key then .item key value else .item k v) :: overwrite es key value := by
  simp [overwrite]

@[simp] theorem overwrite_hole (n : ℕ) (key value : List UInt8) (es : List Entry) :
    overwrite (.hole n :: es) key value = .hole n :: overwrite es key value := by
  simp [overwrite]

@[simp] theorem compact_nil : compact [] = [] := rfl

@[simp] theorem compact_item (k v : List UInt8) (es : List Entry) :
    compact (.item k v :: es) = .item k v :: compact es := rfl

@[simp] theorem compact_hole (n : ℕ) (es : List Entry) : compact (.hole n :: es) = compact es := rfl

@[simp] theorem compact_append (xs ys : List Entry) :
    compact (xs ++ ys) = compact xs ++ compact ys := List.filter_append xs ys

theorem markHole_of_notMem {es : List Entry} {key : List UInt8} (h : key ∉ keys es) :
    markHole es key = es := by
  induction es with
  | nil => rfl
  | cons e es ih =>
      cases e with
      | item k v =>
          simp only [keys_item, List.mem_cons, not_or] at h
          simp [Ne.symm h.1, ih h.2]
      | hole n => simp [ih h]

theorem overwrite_of_notMem {es : List Entry} {key : List UInt8} (value : List UInt8)
    (h : key ∉ keys es) : overwrite es key value = es := by
  induction es with
  | nil => rfl
  | cons e es ih =>
      cases e with
      | item k v =>
          simp only [keys_item, List.mem_cons, not_or] at h
          simp [Ne.symm h.1, ih h.2]
      | hole n => simp [ih h]

theorem markHole_append (xs ys : List Entry) (key : List UInt8) :
    markHole (xs ++ ys) key = markHole xs key ++ markHole ys key := List.map_append

theorem overwrite_append (xs ys : List Entry) (key value : List UInt8) :
    overwrite (xs ++ ys) key value = overwrite xs key value ++ overwrite ys key value :=
  List.map_append

theorem markHole_split {pre post : List Entry} {key v : List UInt8} (h1 : key ∉ keys pre)
    (h2 : key ∉ keys post) : markHole (pre ++ .item key v :: post) key =
      pre ++ .hole (3 + key.length + v.length) :: post := by
  rw [markHole_append, markHole_of_notMem h1, markHole_item, markHole_of_notMem h2]
  simp

theorem overwrite_split {pre post : List Entry} {key v w : List UInt8} (h1 : key ∉ keys pre)
    (h2 : key ∉ keys post) : overwrite (pre ++ .item key v :: post) key w =
      pre ++ .item key w :: post := by
  rw [overwrite_append, overwrite_of_notMem w h1, overwrite_item, overwrite_of_notMem w h2]
  simp

/-- A value replaced in place changes the span by the difference of the lengths. -/
theorem span_overwrite {es : List Entry} {key v : List UInt8} (value : List UInt8)
    (hnd : (keys es).Nodup) (h : lookup es key = some v) :
    span (overwrite es key value) + v.length = span es + value.length := by
  obtain ⟨pre, post, rfl, _⟩ := lookup_split h
  obtain ⟨hp, hq⟩ := keys_nodup_split hnd
  simp only [overwrite_split hp hq, span_append, span_cons, Entry.length_item]
  omega

/-! ### The map of a table after an operation -/

theorem lookup_append (xs ys : List Entry) (key : List UInt8) :
    lookup (xs ++ ys) key = (lookup xs key).or (lookup ys key) := by
  induction xs with
  | nil => simp [lookup]
  | cons e xs ih =>
      cases e with
      | item k v => by_cases h : k = key <;> simp [lookup, h, ih]
      | hole n => simp [lookup, ih]

theorem lookup_markHole (es : List Entry) (key k : List UInt8) :
    lookup (markHole es key) k = if k = key then none else lookup es k := by
  induction es with
  | nil => simp [lookup]
  | cons e es ih =>
      cases e with
      | item k' v =>
          by_cases h : k' = key
          · subst h
            by_cases hk : k = k'
            · subst hk
              simpa [lookup] using ih
            · simp [lookup, ih, hk, Ne.symm hk]
          · by_cases hk : k' = k
            · subst hk
              simp [lookup, h]
            · simp [lookup, h, hk, ih]
      | hole n => simp [lookup, ih]

theorem lookup_overwrite (es : List Entry) (key value k : List UInt8) :
    lookup (overwrite es key value) k =
      if k = key then (lookup es k).map (fun _ => value) else lookup es k := by
  induction es with
  | nil => simp [lookup]
  | cons e es ih =>
      cases e with
      | item k' v =>
          by_cases h : k' = key
          · subst h
            by_cases hk : k = k'
            · simp [lookup, hk]
            · simp [lookup, ih, hk, Ne.symm hk]
          · by_cases hk : k' = k
            · subst hk
              simp [lookup, h]
            · simp [lookup, h, hk, ih]
      | hole n => simp [lookup, ih]

@[simp] theorem lookup_compact (es : List Entry) (k : List UInt8) :
    lookup (compact es) k = lookup es k := by
  induction es with
  | nil => rfl
  | cons e es ih =>
      cases e with
      | item k' v => simp [lookup, ih]
      | hole n => simp [lookup, ih]

@[simp] theorem keys_compact (es : List Entry) : keys (compact es) = keys es := by
  induction es with
  | nil => rfl
  | cons e es ih =>
      cases e with
      | item k v => simp [ih]
      | hole n => simp [ih]

theorem span_compact_le (es : List Entry) : span (compact es) ≤ span es := by
  induction es with
  | nil => simp
  | cons e es ih =>
      cases e with
      | item k v => simp only [compact_item, span_cons]; omega
      | hole n => simp only [compact_hole, span_cons]; omega

theorem span_markHole (es : List Entry) (key : List UInt8) : span (markHole es key) = span es := by
  induction es with
  | nil => rfl
  | cons e es ih =>
      cases e with
      | item k v =>
          rw [markHole_item, span_cons, span_cons, ih]
          split <;> rfl
      | hole n => rw [markHole_hole, span_cons, span_cons, ih]

/-- The value that a successful append leaves under each key. -/
theorem lookup_append_item {es : List Entry} {key value k : List UInt8}
    (h : lookup es key = none) : lookup (es ++ [.item key value]) k =
      if k = key then some value else lookup es k := by
  rw [lookup_append]
  by_cases hk : k = key
  · subst hk
    simp [h, lookup]
  · simp [lookup, hk, Ne.symm hk]

theorem lookup_append_fst {memorySize : ℕ} {es : List Entry} {key value : List UInt8}
    (h : lookup es key = none) (k : List UInt8) :
    lookup (append memorySize es key value).1 k =
      if k = key ∧ (append memorySize es key value).2 = true then some value
      else lookup es k := by
  unfold append
  split
  · simp [lookup_append_item h]
  · split
    · rw [lookup_append_item (by simpa using h)]
      simp
    · simp

/-- **The map after a store.**  A store that returns true sets the value of its key; one that
returns false has removed the key; no other key is touched. -/
theorem lookup_store (memorySize : ℕ) (es : List Entry) (key value k : List UInt8) :
    lookup (store memorySize es key value).1 k =
      if k = key then (if (store memorySize es key value).2 = true then some value else none)
      else lookup es k := by
  unfold store
  cases hl : lookup es key with
  | none =>
      dsimp only
      rw [lookup_append_fst hl]
      by_cases hk : k = key
      · subst hk
        simp [hl]
      · simp [hk]
  | some old =>
      dsimp only
      split
      · rw [lookup_append_fst (by simp [lookup_markHole]), lookup_markHole]
        by_cases hk : k = key <;> simp [hk]
      · rw [lookup_overwrite]
        by_cases hk : k = key
        · subst hk
          simp [hl]
        · simp [hk]

theorem lookup_delete (es : List Entry) (key k : List UInt8) :
    lookup (delete es key).1 k = if k = key then none else lookup es k := by
  unfold delete
  cases hl : lookup es key with
  | none =>
      by_cases hk : k = key
      · subst hk
        simp [hl]
      · simp [hk]
  | some old => exact lookup_markHole es key k

@[simp] theorem delete_snd (es : List Entry) (key : List UInt8) :
    (delete es key).2 = (lookup es key).isSome := by
  unfold delete
  cases lookup es key <;> rfl

end Layout

end NanoDrone
