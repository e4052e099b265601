import NanoDrone.Log.Answers

/-! # What a control command reads

The loop over the settings reads one setting from the packet in each round, and uses its type and
those of the ops that the block has as indices of `typeLength`.  `controlAccesses` lists these
accesses in order, also those after which the command has no result.

The number of settings is computed from the size of the packet, which may be less than the two bytes
before them.  `settings_inside_iff` says when every setting that is read lies in the packet. -/

namespace NanoDrone.Log

/-- An access of a command: to an element of `settings`, or of `typeLength`. -/
inductive Access where
  | setting (i : ℕ)
  | typeLength (index : ℕ)
deriving DecidableEq, Repr

/-! ### The accesses -/

/-- The ops whose types `blockCalcLength` adds up. -/
def LogState.opsOf (s : LogState) (block : BlockPtr) : List OpsPtr :=
  visited s.next logMaxOps (s.logBlocks block).ops

def calcAccesses (block : BlockPtr) (s : LogState) : List Access :=
  (s.opsOf block).map fun o => .typeLength (s.logOps o).logType

/-- The accesses of the loop over the settings from `i` on.  A round calculates the length of the
block, reads a setting and looks up its type; with the answer 0 the next round follows. -/
def appendAccesses (f : SettingFormat) (logs : List LogVar) (block : BlockPtr)
    (settings : Settings) (len : ℕ) : ℕ → ℕ → LogState → List Access
  | 0, _, _ => []
  | fuel + 1, i, s =>
      if i < len then
        calcAccesses block s ++
          if (blockCalcLength block s).isSome then
            .setting i :: .typeLength ((f.read settings.bytes i).logType &&& logTypeMask) ::
              match appendSettings f logs block settings len 1 i s with
              | some (0, s') =>
                  appendAccesses f logs block settings len fuel (f.after settings.bytes i) s'
              | _ => []
          else []
      else []

/-- The accesses of `logAppendBlock` and `logAppendBlockV2`. -/
def blockAccesses (f : SettingFormat) (logs : List LogVar) (id : Int) (settings : Settings)
    (len : ℕ) (s : LogState) : List Access :=
  match s.blockOf id with
  | none => []
  | some block => appendAccesses f logs block settings len len 0 s

/-- The accesses of `logCreateBlock` and `logCreateBlockV2`. -/
def createAccesses (f : SettingFormat) (logs : List LogVar) (created : Bool) (id : Int)
    (settings : Settings) (len : ℕ) (s : LogState) : List Access :=
  match s.blockOf id with
  | some _ => []
  | none =>
      match s.blockOf blockIdFree with
      | none => []
      | some i =>
          if created then blockAccesses f logs id settings len (s.withNewBlock i id true) else []

instance (p : ControlPacket) : Decidable p.Creates := inferInstanceAs (Decidable (_ ∨ _))

/-- The accesses of `logControlProcess`. -/
def controlAccesses (linker : Linker) (created : Bool) (p : ControlPacket) (s : LogState) :
    List Access :=
  match p.format with
  | none => []
  | some f =>
      let id : Int := (p.data 1).toNat
      if p.Creates then
        createAccesses f linker.logs created id (p.settings linker) (settingsLen p f) s
      else blockAccesses f linker.logs id (p.settings linker) (settingsLen p f) s

/-! ### The settings that are read -/

section
variable {f : SettingFormat} {logs : List LogVar} {settings : Settings} {s : LogState}
  {b : BlockPtr} {len : ℕ}

theorem setting_not_mem_calcAccesses {i : ℕ} : Access.setting i ∉ calcAccesses b s := by
  simp [calcAccesses]

theorem lt_of_setting_mem {fuel i j : ℕ}
    (h : .setting j ∈ appendAccesses f logs b settings len fuel i s) : j < len := by
  induction fuel generalizing i s with
  | zero => cases h
  | succ fuel ih =>
      unfold appendAccesses at h
      split at h
      · rename_i hi
        rcases List.mem_append.mp h with h | h
        · exact absurd h setting_not_mem_calcAccesses
        · split at h
          · rcases List.mem_cons.mp h with h | h
            · cases h
              exact hi
            · rcases List.mem_cons.mp h with h | h
              · cases h
              · split at h
                · exact ih h
                · cases h
          · cases h
      · cases h

/-- The loop reads a setting exactly if the length of the block can be calculated. -/
theorem setting_mem_iff (hlen : 0 < len) :
    (∃ j, .setting j ∈ appendAccesses f logs b settings len len 0 s) ↔
      (blockCalcLength b s).isSome := by
  obtain ⟨n, rfl⟩ := Nat.exists_eq_succ_of_ne_zero (Nat.ne_of_gt hlen)
  unfold appendAccesses
  rw [if_pos hlen]
  constructor
  · rintro ⟨j, hj⟩
    rcases List.mem_append.mp hj with hj | hj
    · exact absurd hj setting_not_mem_calcAccesses
    · split at hj
      · assumption
      · cases hj
  · intro hsome
    rw [if_pos hsome]
    exact ⟨0, List.mem_append_right _ List.mem_cons_self⟩

end

/-- The list of ops of the block ends, and its types are in `typeLength`. -/
def LogState.Measured (s : LogState) (b : BlockPtr) : Prop :=
  ∃ l, Linked s.next (s.logBlocks b).ops l ∧ ∀ o ∈ l, (s.logOps o).logType ≤ logFp16

theorem le_of_typeLength {t n : ℕ} (h : typeLength t = some n) : t ≤ logFp16 := by
  obtain ⟨hlt, _⟩ := List.getElem?_eq_some_iff.mp h
  exact Nat.le_of_lt_succ hlt

theorem le_of_foldlM_typeLength {s : LogState} {l : List OpsPtr} {n m : ℕ}
    (h : l.foldlM (fun len o => (typeLength (s.logOps o).logType).map (len + ·)) n = some m) :
    ∀ o ∈ l, (s.logOps o).logType ≤ logFp16 := by
  induction l generalizing n with
  | nil => exact fun _ ho => absurd ho List.not_mem_nil
  | cons x xs ih =>
      rw [List.foldlM_cons] at h
      obtain ⟨c, hc, hrest⟩ := Option.bind_eq_some_iff.mp h
      obtain ⟨k, hk, _⟩ := Option.map_eq_some_iff.mp hc
      rintro o (_ | ⟨_, ho⟩)
      · exact le_of_typeLength hk
      · exact ih hrest o ho

theorem blockCalcLength_isSome_iff {s : LogState} {b : BlockPtr} :
    (blockCalcLength b s).isSome ↔ s.Measured b := by
  have heq : (blockCalcLength b s).isSome =
      (walk s.next (fun len o => (typeLength (s.logOps o).logType).map (len + ·)) logMaxOps
        (s.logBlocks b).ops 0).isSome := by
    change (Option.isSome (Option.bind _ _)) = _
    rw [Option.isSome_bind]
    simp
  rw [heq]
  constructor
  · intro hsome
    obtain ⟨n, hn⟩ := Option.isSome_iff_exists.mp hsome
    obtain ⟨l, hl, hfold⟩ := linked_of_walk hn
    exact ⟨l, hl, le_of_foldlM_typeLength hfold⟩
  · rintro ⟨l, hl, htypes⟩
    have hlen := hl.length_le
    rw [Fintype.card_fin] at hlen
    rw [walk_eq hl hlen, foldlM_typeLength htypes]
    rfl

/-- The command comes to a block to append to: a new one, or one that there is, and the length of
its fields can be calculated. -/
def LogState.ComesToSettings (s : LogState) (created : Bool) (p : ControlPacket) : Prop :=
  let id : Int := (p.data 1).toNat
  p.format ≠ none ∧
    if p.Creates then s.blockOf id = none ∧ s.blockOf blockIdFree ≠ none ∧ created = true
    else ∃ b, s.blockOf id = some b ∧ s.Measured b

theorem LogState.blockOf_withNewBlock {s : LogState} {i : BlockPtr} {id : Int}
    (hid : s.blockOf id = none) : (s.withNewBlock i id true).blockOf id = some i := by
  have hself := s.withNewBlock_self i id true
  cases hfind : (s.withNewBlock i id true).blockOf id with
  | none =>
      refine absurd ?_ (id_ne_of_blockOf hfind i)
      rw [hself]
  | some a =>
      by_contra hne
      have hai : a ≠ i := fun e => hne (congrArg some e)
      have ha := id_of_blockOf hfind
      rw [s.withNewBlock_of_ne id true hai] at ha
      exact id_ne_of_blockOf hid a ha

theorem LogState.measured_withNewBlock (s : LogState) (i : BlockPtr) (id : Int) :
    (s.withNewBlock i id true).Measured i := by
  refine ⟨[], ?_, fun _ ho => absurd ho List.not_mem_nil⟩
  rw [s.withNewBlock_self]
  rfl

/-- Whether a command reads settings does not depend on them. -/
theorem setting_mem_controlAccesses {linker : Linker} {created : Bool} {p : ControlPacket}
    {s : LogState} {f : SettingFormat} (hf : p.format = some f) (hlen : 0 < settingsLen p f) :
    (∃ i, .setting i ∈ controlAccesses linker created p s) ↔ s.ComesToSettings created p := by
  unfold controlAccesses LogState.ComesToSettings
  simp only [hf, ne_eq, reduceCtorEq, not_false_eq_true, true_and]
  split
  · unfold createAccesses
    cases hid : s.blockOf (p.data 1).toNat with
    | some b => simp
    | none =>
        cases hfree : s.blockOf blockIdFree with
        | none => simp
        | some i =>
            cases created with
            | false => simp
            | true =>
                dsimp only
                unfold blockAccesses
                rw [if_pos rfl, LogState.blockOf_withNewBlock hid]
                dsimp only
                rw [setting_mem_iff hlen, blockCalcLength_isSome_iff]
                exact iff_of_true (s.measured_withNewBlock i _) ⟨rfl, Option.some_ne_none i, rfl⟩
  · unfold blockAccesses
    cases hid : s.blockOf (p.data 1).toNat with
    | none => simp
    | some b =>
        dsimp only
        rw [setting_mem_iff hlen, blockCalcLength_isSome_iff]
        simp

theorem setting_lt_of_mem {linker : Linker} {created : Bool} {p : ControlPacket} {s : LogState}
    {f : SettingFormat} (hf : p.format = some f) {i : ℕ}
    (hi : .setting i ∈ controlAccesses linker created p s) : i < settingsLen p f := by
  have hblock : ∀ {id : Int} {t : LogState}, Access.setting i ∈
      blockAccesses f linker.logs id (p.settings linker) (settingsLen p f) t →
        i < settingsLen p f := by
    intro id t h
    unfold blockAccesses at h
    split at h
    · cases h
    · exact lt_of_setting_mem h
  unfold controlAccesses at hi
  rw [hf] at hi
  dsimp only at hi
  split at hi
  · unfold createAccesses at hi
    split at hi
    · cases hi
    · split at hi
      · cases hi
      · split at hi
        · exact hblock hi
        · cases hi
  · exact hblock hi

/-- A setting lies in the payload. -/
def ControlPacket.Inside (p : ControlPacket) (f : SettingFormat) (i : ℕ) : Prop :=
  2 + f.size * (i + 1) ≤ p.size

theorem inside_of_lt {p : ControlPacket} {f : SettingFormat} (hsize : 2 ≤ p.size) {i : ℕ}
    (hi : i < settingsLen p f) : p.Inside f i := by
  have hle : f.size * (i + 1) ≤ f.size * settingsLen p f := Nat.mul_le_mul_left _ hi
  have hdiv : f.size * settingsLen p f ≤ (p.size + (2 ^ 32 - 2)) % 2 ^ 32 := Nat.mul_div_le _ _
  unfold ControlPacket.Inside
  omega

/-- With less than two bytes the number of settings wraps to a large one. -/
theorem settingsLen_pos {p : ControlPacket} {f : SettingFormat} (hf : p.format = some f)
    (hsize : p.size < 2) : 0 < settingsLen p f := by
  have hformat : f.size = 2 ∨ f.size = 3 := by
    unfold ControlPacket.format at hf
    split at hf <;> cases hf
    · exact Or.inl rfl
    · exact Or.inl rfl
    · exact Or.inr rfl
    · exact Or.inr rfl
  unfold settingsLen
  rcases hformat with h | h <;> rw [h] <;> omega

/-- **Settings that are read.**  Every setting that a control packet makes the code read lies in
its payload exactly if it has the two bytes that come before the settings, or the command does
not come to them; for a `Linker` with no variable at `NULL`. -/
theorem settings_inside_iff (linker : Linker) (created : Bool) (p : ControlPacket)
    (s : LogState) :
    (∀ f ∈ p.format, ∀ i, .setting i ∈ controlAccesses linker created p s → p.Inside f i) ↔
      2 ≤ p.size ∨ ¬ s.ComesToSettings created p := by
  constructor
  · intro hinside
    by_contra hnot
    obtain ⟨hsize, hcomes⟩ := not_or.mp hnot
    have hcomes := not_not.mp hcomes
    obtain ⟨f, hf⟩ := Option.ne_none_iff_exists'.mp hcomes.1
    have hpos := settingsLen_pos hf (Nat.not_le.mp hsize)
    obtain ⟨i, hi⟩ := (@setting_mem_controlAccesses linker _ _ _ _ hf hpos).mpr hcomes
    have hlast : 2 + f.size * (i + 1) ≤ p.size := hinside f hf i hi
    omega
  · rintro (hsize | hcomes) f hf i hi
    · exact inside_of_lt hsize (setting_lt_of_mem hf hi)
    · have hlt := setting_lt_of_mem hf hi
      exact absurd ((setting_mem_controlAccesses hf (Nat.zero_lt_of_lt hlt)).mp ⟨i, hi⟩) hcomes

/-- The first byte of a command, in a packet of one byte; the id of the block that comes after it is
what the buffer holds. -/
def ControlPacket.short : ControlPacket := ⟨1, fun i => [0, 7].getD i 0⟩

/-- The short command makes a block, and settings are read for it that the packet does not have. -/
theorem setting_outside : ∃ s, controlRun ⟨[], 0x20000000, by decide⟩ [] .zero = some ((), s) ∧
    ¬ ∀ f ∈ ControlPacket.short.format, ∀ i,
      .setting i ∈ controlAccesses ⟨[], 0x20000000, by decide⟩ true .short s →
        ControlPacket.short.Inside f i := by
  have hrun : ((controlRun ⟨[], 0x20000000, by decide⟩ [] .zero).map fun r => decide
      (.setting 0 ∈ controlAccesses ⟨[], 0x20000000, by decide⟩ true .short r.2)) = some true := by
    decide +kernel
  obtain ⟨⟨_, s⟩, hs, hread⟩ := Option.map_eq_some_iff.mp hrun
  refine ⟨s, hs, fun hinside => ?_⟩
  have hlast : 2 + 2 * (0 + 1) ≤ 1 := hinside opsSetting rfl 0 (of_decide_eq_true hread)
  omega

end NanoDrone.Log
