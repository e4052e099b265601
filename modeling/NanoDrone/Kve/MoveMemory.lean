import NanoDrone.Kve.KeyMap

/-! # Overlapping moves (`kveStorageMoveMemory`)

A move to a lower address goes through a buffer of 32 bytes, and its ranges may overlap.  The store
itself only moves within a table, where `moveMemory_spec` of `Defrag.lean` is enough; here the
memory is an array of any size, and `moveMemory_overlapping` says byte by byte what the move
leaves. -/

namespace NanoDrone

/-- Below `size` the accesses to the memory are those to an array. -/
structure KveMemory.IsArray (kve : KveMemory Bytes) (size : ℕ) : Prop where
  read : ∀ a len m, a + len ≤ size → kve.read a len m = (m.slice a len, m)
  write : ∀ a d m, a + d.length ≤ size → kve.write a d m = m.write a d
  flush : ∀ m, kve.flush m = m

theorem idealMemory_isArray (n : ℕ) (h1 : 16 ≤ n) (h2 : n ≤ 65535) :
    (idealMemory n h1 h2).IsArray n := by
  refine ⟨?_, ?_, fun _ => rfl⟩
  · intro a len m hfit
    exact if_pos hfit
  · intro a d m hfit
    exact if_pos hfit

section
variable {kve : KveMemory Bytes} {size : ℕ} {s : KveState Bytes} {m : Bytes} {a : ℕ}

theorem KveMemory.IsArray.returns_readMoveBuffer (h : kve.IsArray size) {n : ℕ}
    {Q : Bytes → KveState Bytes → Prop} (hs : s.dev = m) (hfit : a + n ≤ size)
    (hQ : ∀ b s', s'.dev = m → Q (Bytes.write b 0 (m.slice a n)) s') :
    Returns (readMoveBuffer kve a n) s Q := by
  have hread : kve.read a n s.dev = (m.slice a n, m) := by
    rw [hs]
    exact h.read a n m hfit
  refine ⟨_, _, rfl, ?_⟩
  rw [hread]
  exact hQ s.moveBuffer _ rfl

theorem KveMemory.IsArray.returns_kveWrite (h : kve.IsArray size) {d : List UInt8}
    {Q : Unit → KveState Bytes → Prop} (hs : s.dev = m) (hfit : a + d.length ≤ size)
    (hQ : ∀ s', s'.dev = m.write a d → Q () s') : Returns (kveWrite kve a d) s Q := by
  refine returns_kveWrite_iff.mpr (hQ _ ?_)
  rw [← hs]
  exact h.write a d s.dev hfit

/-- **Overlapping moves.**  For every content of a memory and every two ranges of it, of any length
and at any distance, a move to the lower one returns, leaves there the bytes that were at the higher
one and changes no other byte. -/
theorem moveMemory_overlapping (h : kve.IsArray size) {sourceAddress destinationAddress length : ℕ}
    (hlt : destinationAddress < sourceAddress) (hfit : sourceAddress + length ≤ size)
    (s : KveState Bytes) :
    Returns (kveStorageMoveMemory kve sourceAddress destinationAddress length) s (fun _ s' =>
      s'.dev.slice destinationAddress length = s.dev.slice sourceAddress length ∧
      ∀ i, i < destinationAddress ∨ destinationAddress + length ≤ i → s'.dev i = s.dev i) := by
  have hfit' : destinationAddress + length ≤ size := by omega
  have hloop := @moveMemoryLoop_rule _ kve size size (fun s m => s.dev = m)
    h.returns_readMoveBuffer h.returns_kveWrite length length sourceAddress destinationAddress
    s.dev s (Nat.le_refl length) rfl hlt hfit hfit'
  unfold kveStorageMoveMemory
  refine hloop.bind ?_
  intro _ s' hs'
  refine returns_kveFlush_iff.mpr ?_
  have hlength : (s.dev.slice sourceAddress length).length = length := Bytes.slice_length _ _ _
  dsimp only
  rw [h.flush, hs']
  refine ⟨?_, fun i hi => Bytes.write_outside _ (by rwa [hlength])⟩
  have hself := Bytes.slice_write_self s.dev destinationAddress (s.dev.slice sourceAddress length)
  rwa [hlength] at hself

end

/-- A move by seven bytes that takes two rounds, the second of eight bytes. -/
theorem moveMemory_overlapping_seven :
    let content : Bytes := fun i => UInt8.ofNat (i * i)
    Returns (kveStorageMoveMemory (idealMemory 64 (by decide) (by decide)) 10 3 40)
      ⟨content, fun _ => 0, fun _ => 0, fun _ => 0⟩ (fun _ s' =>
        s'.dev.slice 3 40 = content.slice 10 40 ∧
        ∀ i, i < 3 ∨ 3 + 40 ≤ i → s'.dev i = content i) :=
  moveMemory_overlapping (idealMemory_isArray 64 _ _) (by decide) (by decide) _

end NanoDrone
