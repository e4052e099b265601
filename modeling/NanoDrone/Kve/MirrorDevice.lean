import NanoDrone.Lib.Mirror
import NanoDrone.Kve.Kve

/-! # `kve.c` on a device that mirrors another one

The functions of `kve_storage.c` and `kve.c` reach the memory through `kveMemory_t` only.  When
each access to one device is mirrored by the same access to another (`DeviceMirrors`), then so is
every run of these functions: it makes the same accesses and returns the same result on both.

Nothing here says what an access does.  `Good` is what the accesses of the first device may lose,
and only the runs that keep it are compared. -/

namespace NanoDrone

section
variable {τ σ : Type}

/-- The state with another device. -/
def KveState.map (g : τ → σ) (s : KveState τ) : KveState σ :=
  ⟨g s.dev, s.searchBuffer, s.moveBuffer, s.stack⟩

/-- The accesses to `kve'` that end `Good` are mirrored by those to `kve`. -/
structure DeviceMirrors (kve' : KveMemory τ) (kve : KveMemory σ) (g : τ → σ)
    (Good : τ → Prop) : Prop where
  memorySize : kve'.memorySize = kve.memorySize
  read : ∀ a n d, Good (kve'.read a n d).2 →
    Good d ∧ kve.read a n (g d) = ((kve'.read a n d).1, g (kve'.read a n d).2)
  write : ∀ a data d, Good (kve'.write a data d) →
    Good d ∧ kve.write a data (g d) = g (kve'.write a data d)
  flush : ∀ d, Good (kve'.flush d) → Good d ∧ kve.flush (g d) = g (kve'.flush d)

/-- `Mirrors` for the functions of `kve.c`. -/
abbrev KveMirrors {α : Type} (g : τ → σ) (Good : τ → Prop) (x : KveM τ α) (y : KveM σ α) : Prop :=
  Mirrors (KveState.map g) (fun s => Good s.dev) x y

end

namespace DeviceMirrors

section
variable {τ σ : Type} {kve' : KveMemory τ} {kve : KveMemory σ} {g : τ → σ} {Good : τ → Prop}
  (H : DeviceMirrors kve' kve g Good)
include H

/-! ### Accesses -/

theorem kveRead (a : ℕ) (b : Bytes) (n : ℕ) :
    KveMirrors g Good (kveRead kve' a b n) (kveRead kve a b n) := by
  intro t r t' h hg
  cases h
  obtain ⟨hd, hr⟩ := H.read a n t.dev hg
  refine ⟨hd, ?_⟩
  unfold NanoDrone.kveRead KveState.map
  dsimp only
  rw [hr]

theorem kveWrite (a : ℕ) (data : List UInt8) :
    KveMirrors g Good (kveWrite kve' a data) (kveWrite kve a data) := by
  intro t r t' h hg
  cases h
  obtain ⟨hd, hw⟩ := H.write a data t.dev hg
  refine ⟨hd, ?_⟩
  unfold NanoDrone.kveWrite KveState.map
  dsimp only
  rw [hw]

theorem kveFlush : KveMirrors g Good (kveFlush kve') (kveFlush kve) := by
  intro t r t' h hg
  cases h
  obtain ⟨hd, hf⟩ := H.flush t.dev hg
  refine ⟨hd, ?_⟩
  unfold NanoDrone.kveFlush KveState.map
  dsimp only
  rw [hf]

omit H in
theorem uninitialised : KveMirrors g Good uninitialised uninitialised :=
  Mirrors.get_bind fun t => Mirrors.pure t.stack

theorem readSearchBuffer (a n : ℕ) :
    KveMirrors g Good (readSearchBuffer kve' a n) (readSearchBuffer kve a n) := by
  refine Mirrors.get_bind fun t => (H.kveRead a t.searchBuffer n).bind fun b => ?_
  refine Mirrors.bind (Mirrors.modify ?_ ?_) fun _ => Mirrors.pure b
  · exact fun _ ht => ht
  · exact fun _ => rfl

theorem readMoveBuffer (a n : ℕ) :
    KveMirrors g Good (readMoveBuffer kve' a n) (readMoveBuffer kve a n) := by
  refine Mirrors.get_bind fun t => (H.kveRead a t.moveBuffer n).bind fun b => ?_
  refine Mirrors.bind (Mirrors.modify ?_ ?_) fun _ => Mirrors.pure b
  · exact fun _ ht => ht
  · exact fun _ => rfl

/-! ### `kve_storage.c` -/

theorem writeItem (a : ℕ) (key buffer : List UInt8) :
    KveMirrors g Good (kveStorageWriteItem kve' a key buffer)
      (kveStorageWriteItem kve a key buffer) := by
  unfold kveStorageWriteItem
  refine (H.kveWrite _ _).bind fun _ => (H.kveWrite _ _).bind fun _ => ?_
  exact (H.kveWrite _ _).bind fun _ => H.kveFlush.bind fun _ => Mirrors.pure _

theorem writeHole (a n : ℕ) :
    KveMirrors g Good (kveStorageWriteHole kve' a n) (kveStorageWriteHole kve a n) := by
  unfold kveStorageWriteHole
  exact (H.kveWrite _ _).bind fun _ => H.kveFlush.bind fun _ => Mirrors.pure _

theorem writeEnd (a : ℕ) :
    KveMirrors g Good (kveStorageWriteEnd kve' a) (kveStorageWriteEnd kve a) := by
  unfold kveStorageWriteEnd
  exact (H.kveWrite _ _).bind fun _ => H.kveFlush.bind fun _ => Mirrors.pure _

theorem moveMemoryLoop (fuel a b n : ℕ) :
    KveMirrors g Good (moveMemoryLoop kve' fuel a b n) (moveMemoryLoop kve fuel a b n) := by
  induction fuel generalizing a b n with
  | zero => exact Mirrors.ite (fun _ => Mirrors.failure) (fun _ => Mirrors.pure ())
  | succ fuel ih =>
      unfold NanoDrone.moveMemoryLoop
      refine Mirrors.ite (fun _ => ?_) (fun _ => Mirrors.pure ())
      exact (H.readMoveBuffer _ _).bind fun _ => (H.kveWrite _ _).bind fun _ => ih _ _ _

theorem moveMemory (a b n : ℕ) :
    KveMirrors g Good (kveStorageMoveMemory kve' a b n) (kveStorageMoveMemory kve a b n) := by
  unfold kveStorageMoveMemory
  exact (H.moveMemoryLoop _ _ _ _).bind fun _ => H.kveFlush

theorem findItemByKey (key : List UInt8) (fuel a : ℕ) :
    KveMirrors g Good (kveStorageFindItemByKey kve' fuel a key)
      (kveStorageFindItemByKey kve fuel a key) := by
  unfold kveStorageFindItemByKey
  induction fuel generalizing a with
  | zero => exact Mirrors.failure
  | succ fuel ih =>
      unfold findItemByKeyLoop
      rw [H.memorySize]
      refine Mirrors.ite (fun _ => ?_) (fun _ => Mirrors.pure _)
      refine (H.readSearchBuffer _ _).bind fun b => ?_
      refine Mirrors.ite (fun _ => Mirrors.pure _) fun _ => ?_
      refine Mirrors.ite (fun _ => ?_) (fun _ => ih _)
      refine (H.readSearchBuffer _ _).bind fun b' => ?_
      exact Mirrors.ite (fun _ => Mirrors.pure _) (fun _ => ih _)

theorem findEndLoop (fuel a : ℕ) (b : Bytes) :
    KveMirrors g Good (findEndLoop kve' fuel a b) (findEndLoop kve fuel a b) := by
  induction fuel generalizing a b with
  | zero => exact Mirrors.failure
  | succ fuel ih =>
      unfold NanoDrone.findEndLoop
      rw [H.memorySize]
      refine Mirrors.ite (fun _ => ?_) (fun _ => Mirrors.pure _)
      refine (H.kveRead _ _ _).bind fun b' => ?_
      refine Mirrors.ite (fun _ => Mirrors.pure _) fun _ => ?_
      exact Mirrors.ite (fun _ => Mirrors.pure _) (fun _ => ih _ _)

theorem findEnd (fuel a : ℕ) :
    KveMirrors g Good (kveStorageFindEnd kve' fuel a) (kveStorageFindEnd kve fuel a) :=
  uninitialised.bind fun b => H.findEndLoop fuel a b

theorem findHoleLoop (fuel a : ℕ) (b : Bytes) :
    KveMirrors g Good (findHoleLoop kve' fuel a b) (findHoleLoop kve fuel a b) := by
  induction fuel generalizing a b with
  | zero => exact Mirrors.failure
  | succ fuel ih =>
      unfold NanoDrone.findHoleLoop
      rw [H.memorySize]
      refine Mirrors.ite (fun _ => ?_) (fun _ => Mirrors.pure _)
      refine (H.kveRead _ _ _).bind fun b' => ?_
      exact Mirrors.ite (fun _ => Mirrors.pure _) (fun _ => ih _ _)

theorem findHole (fuel a : ℕ) :
    KveMirrors g Good (kveStorageFindHole kve' fuel a) (kveStorageFindHole kve fuel a) :=
  uninitialised.bind fun b => H.findHoleLoop fuel a b

theorem findNextItemLoop (fuel a : ℕ) (b : Bytes) :
    KveMirrors g Good (findNextItemLoop kve' fuel a b) (findNextItemLoop kve fuel a b) := by
  induction fuel generalizing a b with
  | zero => exact Mirrors.failure
  | succ fuel ih =>
      unfold NanoDrone.findNextItemLoop
      rw [H.memorySize]
      refine Mirrors.ite (fun _ => ?_) (fun _ => Mirrors.pure _)
      refine (H.kveRead _ _ _).bind fun b' => ?_
      refine Mirrors.ite (fun _ => Mirrors.pure _) fun _ => ?_
      exact Mirrors.ite (fun _ => Mirrors.pure _) (fun _ => ih _ _)

theorem findNextItem (fuel a : ℕ) :
    KveMirrors g Good (kveStorageFindNextItem kve' fuel a) (kveStorageFindNextItem kve fuel a) := by
  unfold kveStorageFindNextItem
  refine uninitialised.bind fun b => (H.kveRead _ _ _).bind fun b' => ?_
  exact Mirrors.ite (fun _ => Mirrors.pure _) (fun _ => H.findNextItemLoop _ _ _)

theorem getItemInfo (a : ℕ) :
    KveMirrors g Good (kveStorageGetItemInfo kve' a) (kveStorageGetItemInfo kve a) :=
  uninitialised.bind fun b => (H.kveRead a b _).bind fun _ => Mirrors.pure _

theorem getBuffer (a : ℕ) (header : KveItemHeader) (b : Bytes) (n : ℕ) :
    KveMirrors g Good (kveStorageGetBuffer kve' a header b n)
      (kveStorageGetBuffer kve a header b n) :=
  (H.kveRead _ b _).bind fun _ => Mirrors.pure _

/-! ### `kve.c` -/

theorem nextHoleOrEnd (fuel a : ℕ) :
    KveMirrors g Good (nextHoleOrEnd fuel kve' a) (nextHoleOrEnd fuel kve a) := by
  refine (H.findHole fuel a).bind fun b => ?_
  exact Mirrors.ite (fun _ => H.findEnd fuel a) (fun _ => Mirrors.pure b)

theorem defragLoop (fuel rounds a : ℕ) :
    KveMirrors g Good (defragLoop fuel kve' rounds a) (defragLoop fuel kve rounds a) := by
  induction rounds generalizing a with
  | zero => exact Mirrors.failure
  | succ rounds ih =>
      unfold NanoDrone.defragLoop
      refine Mirrors.ite (fun _ => ?_) (fun _ => Mirrors.pure ())
      refine (H.findNextItem fuel a).bind fun item => ?_
      refine Mirrors.ite (fun _ => ?_) (fun _ => ?_)
      · exact (H.writeEnd a).bind fun _ => Mirrors.pure ()
      · refine (H.nextHoleOrEnd fuel item).bind fun next => ?_
        refine (H.moveMemory _ _ _).bind fun _ => ?_
        exact (H.writeHole _ _).bind fun _ => ih _

theorem defrag (fuel : ℕ) : KveMirrors g Good (kveDefrag fuel kve') (kveDefrag fuel kve) :=
  (H.findHole fuel firstItemAddress).bind fun a => H.defragLoop fuel fuel a

theorem enoughSpace (a : ℕ) (key buffer : List UInt8) :
    enoughSpace kve' a key buffer = enoughSpace kve a key buffer := by
  unfold NanoDrone.enoughSpace
  rw [H.memorySize]

theorem writeItemAndEnd (a : ℕ) (key buffer : List UInt8) :
    KveMirrors g Good (writeItemAndEnd kve' a key buffer) (writeItemAndEnd kve a key buffer) :=
  (H.writeItem a key buffer).bind fun n => (H.writeEnd (a + n)).bind fun _ => Mirrors.pure ()

theorem appendItemToEnd (fuel a : ℕ) (key buffer : List UInt8) :
    KveMirrors g Good (appendItemToEnd fuel kve' a key buffer)
      (appendItemToEnd fuel kve a key buffer) := by
  have hwrite : ∀ b, KveMirrors g Good
      (do NanoDrone.writeItemAndEnd kve' b key buffer; Pure.pure true)
      (do NanoDrone.writeItemAndEnd kve b key buffer; Pure.pure true) :=
    fun b => (H.writeItemAndEnd b key buffer).bind fun _ => Mirrors.pure true
  unfold NanoDrone.appendItemToEnd
  refine (H.findEnd fuel a).bind fun b => ?_
  refine Mirrors.ite (fun _ => Mirrors.pure false) fun _ => ?_
  rw [H.enoughSpace]
  refine Mirrors.ite (fun _ => hwrite b) fun _ => ?_
  refine (H.defrag fuel).bind fun _ => (H.findEnd fuel _).bind fun c => ?_
  rw [H.enoughSpace]
  exact Mirrors.ite (fun _ => hwrite c) (fun _ => Mirrors.pure false)

theorem store (fuel : ℕ) (key buffer : List UInt8) :
    KveMirrors g Good (kveStore fuel kve' key buffer) (kveStore fuel kve key buffer) := by
  unfold kveStore
  refine (H.findItemByKey key fuel _).bind fun a => ?_
  refine Mirrors.ite (fun _ => H.appendItemToEnd fuel _ key buffer) fun _ => ?_
  refine (H.getItemInfo a).bind fun header => ?_
  refine Mirrors.ite (fun _ => ?_) (fun _ => ?_)
  · exact (H.writeHole _ _).bind fun _ => H.appendItemToEnd fuel _ key buffer
  · exact (H.writeItem _ _ _).bind fun _ => Mirrors.pure true

theorem fetch (fuel : ℕ) (key : List UInt8) (b : Bytes) (n : ℕ) :
    KveMirrors g Good (kveFetch fuel kve' key b n) (kveFetch fuel kve key b n) := by
  unfold kveFetch
  refine (H.findItemByKey key fuel _).bind fun a => ?_
  refine Mirrors.ite (fun _ => ?_) (fun _ => Mirrors.pure _)
  exact (H.getItemInfo a).bind fun header => H.getBuffer a header b _

theorem delete (fuel : ℕ) (key : List UInt8) :
    KveMirrors g Good (kveDelete fuel kve' key) (kveDelete fuel kve key) := by
  unfold kveDelete
  refine (H.findItemByKey key fuel _).bind fun a => ?_
  refine Mirrors.ite (fun _ => ?_) (fun _ => Mirrors.pure _)
  refine (H.getItemInfo a).bind fun header => ?_
  exact (H.writeHole _ _).bind fun _ => Mirrors.pure true

end

end DeviceMirrors

end NanoDrone
