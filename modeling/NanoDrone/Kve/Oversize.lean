import NanoDrone.Kve.FailedStore

/-! # Stores that are too long

`kveStore` compares the length of a value twice: with the entry it finds, in the 16 bits of
`full_length`, and with the size of the memory, in a `size_t` that wraps around.  A value that the
memory cannot hold is refused unless one of the two comparisons is fooled (`Layout.Refuses`), and
then nothing is written behind the end tag.

The writes are observed on a device that records them (`KveMemory.logWrites`).  With the end tag as
the upper bound of the writes it is a device as `Access` asks for, so the specification of the
store applies to it: the bound is what the device being `Ok` says. -/

namespace NanoDrone

section
variable {σ : Type}

/-- The device with a list of the writes made through it, each an address and a length. -/
def KveMemory.logWrites (kve : KveMemory σ) : KveMemory (σ × List (ℕ × ℕ)) where
  memorySize := kve.memorySize
  read a n s := ((kve.read a n s.1).1, (kve.read a n s.1).2, s.2)
  write a d s := (kve.write a d s.1, s.2 ++ [(a, d.length)])
  flush s := (kve.flush s.1, s.2)
  size_ge := kve.size_ge
  size_le := kve.size_le

/-- The state with an empty list of writes. -/
def KveState.unlogged (s : KveState σ) : KveState (σ × List (ℕ × ℕ)) :=
  ⟨(s.dev, []), s.searchBuffer, s.moveBuffer, s.stack⟩

/-- Every recorded write ends at `top` or before. -/
def WritesBelow (top : ℕ) (log : List (ℕ × ℕ)) : Prop := ∀ w ∈ log, w.1 + w.2 ≤ top

/-- A recording device gives access as the device itself does, as long as nothing is written
behind `top`. -/
def Access.logWrites {kve : KveMemory σ} {limit top : ℕ} (A : Access kve limit limit)
    (h : top ≤ limit) : Access kve.logWrites limit top where
  view s := A.view s.1
  Ok s := A.Ok s.1 ∧ WritesBelow top s.2
  limit_le := A.limit_le
  top_le := Nat.le_trans h A.top_le
  read_bytes hs hb := A.read_bytes hs.1 hb
  read_ok hs hb := ⟨A.read_ok hs.1 hb, hs.2⟩
  read_view hs hb := A.read_view hs.1 hb
  write_ok := by
    intro s a d hs hb
    refine ⟨A.write_ok hs.1 (Nat.le_trans hb h), ?_⟩
    intro w hw
    rcases List.mem_append.mp hw with hw | hw
    · exact hs.2 w hw
    · rw [List.mem_singleton.mp hw]
      exact hb
  write_view hs hb := A.write_view hs.1 (Nat.le_trans hb h)
  flush_ok hs := ⟨A.flush_ok hs.1, hs.2⟩
  flush_view hs := A.flush_view hs.1

end

section
variable {n : ℕ} {h1 : 16 ≤ n} {h2 : n ≤ 65535} {fuel : ℕ}

/-- **Refused stores.**  In every state reached from `kveFormat`, and for values of every length, a
store returns false without a write behind the end tag exactly when neither comparison of lengths
is fooled.  In the run itself only the values that no object can hold have to be refused. -/
theorem oversize_store_iff {s0 : KveState Bytes} {ops : List KveOp}
    (hops : KveOp.AllKept n [] ops) (hf : n ≤ fuel) :
    Returns (KveOp.fromFormat fuel (idealMemory n h1 h2) ops) s0 (fun _ s =>
      (∃ es, Table s.dev n es) ∧ ∀ es key value, Table s.dev n es → KeyOk key →
        Returns (kveStore fuel (idealMemory n h1 h2).logWrites key value) s.unlogged (fun r s' =>
          (r = false ∧
            WritesBelow (firstItemAddress + span es + kveEndTagLendth) s'.dev.2) ↔
            Layout.Refuses n es key value)) := by
  refine (fromFormat_kept hops hf).mono ?_
  intro _ s T0
  refine ⟨⟨_, T0⟩, fun es key value T hk => ?_⟩
  let A := (idealAccess n h1 h2).logWrites T.endTag_le
  have hs : A.At s.unlogged s.dev := ⟨⟨trivial, by simp [WritesBelow, KveState.unlogged]⟩, rfl⟩
  have hes := T.fits
  unfold firstItemAddress sizeofHeader at hes
  have hspec : Returns (kveStore fuel (idealMemory n h1 h2).logWrites key value) s.unlogged _ :=
    store_spec A hs T (Nat.le_refl _) hk.1 hk.2 hf
  refine hspec.mono ?_
  rintro r s' ⟨rfl, htab⟩
  have hiff : _ ↔ Layout.Refuses n es key value := Layout.store_refused_iff hes h2
  constructor
  · intro hr
    exact hiff.mp hr.1
  · intro hr
    have hfalse := hiff.mpr hr
    have hspan := Layout.span_store_of_refused hfalse
    obtain ⟨_, h', _⟩ := htab (Nat.add_le_add_right (Nat.add_le_add_left hspan _) _)
    exact ⟨hfalse, h'.1.2⟩

end

/-- The value of one byte is replaced in place by one of 65537 bytes, in a memory of 16. -/
theorem oversize_store_accepted :
    Returns (KveOp.fromFormat 16 (idealMemory 16 (by decide) (by decide)) [.store [97] [1]])
      blankState (fun _ s =>
        16 ≤ 1 + 3 + ([97] : List UInt8).length + (List.replicate 65537 (0 : UInt8)).length + 2 ∧
        Returns (kveStore 16 (idealMemory 16 (by decide) (by decide)) [97]
          (List.replicate 65537 0)) s (fun r _ => r = true)) := by
  have hops : ∀ op ∈ [KveOp.store [97] [1]], op.Addressable := by
    simp [KveOp.Addressable, KeyOk, ptrdiffMax]
  refine (@fromFormat_ideal 16 (by decide) (by decide) 16 blankState _ hops
    (Nat.le_refl 16)).mono ?_
  intro _ s T
  have hes : KveOp.entries 16 [.store [97] [1]] = [.item [97] [1]] := by decide
  rw [hes] at T
  have hs : (idealAccess 16 (by decide) (by decide)).At s s.dev := ⟨trivial, rfl⟩
  have hlen : (List.replicate 65537 (0 : UInt8)).length = 65537 := List.length_replicate
  generalize List.replicate 65537 (0 : UInt8) = value at hlen
  rw [hlen]
  refine ⟨by decide, (store_ideal hs T (by simp [KeyOk]) ?_ (Nat.le_refl 16)).mono ?_⟩
  · rw [hlen]
    decide
  · rintro r _ ⟨rfl, _⟩
    simp [Layout.store, Layout.lookup, hlen]

/-- A value of twenty bytes is refused by a memory of 16, with nothing written behind the end tag
at 6. -/
theorem oversize_store_small :
    Returns (KveOp.fromFormat 16 (idealMemory 16 (by decide) (by decide)) [.store [97] [1]])
      blankState (fun _ s => ∃ es, Table s.dev 16 es ∧
        Returns (kveStore 16 (idealMemory 16 (by decide) (by decide)).logWrites [98]
          (List.replicate 20 0)) s.unlogged (fun r s' =>
            (r = false ∧
              WritesBelow (firstItemAddress + span es + kveEndTagLendth) s'.dev.2) ↔
              Layout.Refuses 16 es [98] (List.replicate 20 0))) := by
  refine (@oversize_store_iff 16 (by decide) (by decide) 16 blankState [.store [97] [1]]
    (by simp [KveOp.AllKept, KveOp.Kept, KeyOk, ptrdiffMax]) (Nat.le_refl 16)).mono ?_
  rintro _ s ⟨⟨es, T⟩, hall⟩
  exact ⟨es, T, hall es [98] (List.replicate 20 0) T (by simp [KeyOk])⟩

end NanoDrone
