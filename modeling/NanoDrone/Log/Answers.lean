import NanoDrone.Log.Control

/-! # The answers to CREATE and APPEND

The commands that give settings to a block have a first and a second version, whose functions
differ only in how they read a setting.  On settings that read alike and name variables of the
TOC they do the same in every state (`versions_agree`).

A command that answers an error has stopped at one of its settings, and nothing is taken back: the
block of an APPEND keeps the ops of the settings before that one (`failed_command_keeps`).  The
answer also tells that every other block is as it was. -/

namespace NanoDrone.Log

/-! ### The two versions -/

/-- The two arrays hold the same settings, and each names a variable of the TOC. -/
def SameSettings (settings settings' : Settings) (len : ℕ) : Prop :=
  ∀ i < len, opsSettingV2.read settings'.bytes i = opsSetting.read settings.bytes i ∧
    (opsSetting.read settings.bytes i).id ≤ 254

section
variable {settings settings' : Settings} {len : ℕ}

theorem appendSettings_versions (h : SameSettings settings settings' len) (logs : List LogVar)
    (block : BlockPtr) (fuel i : ℕ) :
    appendSettings opsSettingV2 logs block settings' len fuel i =
      appendSettings opsSetting logs block settings len fuel i := by
  induction fuel generalizing i with
  | zero => rfl
  | succ fuel ih =>
      unfold appendSettings
      by_cases hlen : i < len
      · obtain ⟨hread, hid⟩ := h i hlen
        have hid1 : (opsSetting.read settings.bytes i).id ≠ opsSetting.memoryId := by
          change _ ≠ 255
          omega
        have hid2 : (opsSetting.read settings.bytes i).id ≠ opsSettingV2.memoryId := by
          change _ ≠ 0xFFFF
          omega
        simp only [if_pos hlen, hread, if_pos hid1, if_pos hid2, ih]
      · rw [if_neg hlen, if_neg hlen]

theorem appendBlock_versions (h : SameSettings settings settings' len) (logs : List LogVar)
    (id : Int) : logAppendBlockV2 logs id settings' len = logAppendBlock logs id settings len := by
  unfold logAppendBlockV2 logAppendBlock appendBlock
  simp only [appendSettings_versions h]

theorem createBlock_versions (h : SameSettings settings settings' len) (logs : List LogVar)
    (created : Bool) (id : Int) : logCreateBlockV2 logs created id settings' len =
      logCreateBlock logs created id settings len := by
  have happend := appendBlock_versions h logs
  unfold logAppendBlockV2 logAppendBlock at happend
  unfold logCreateBlockV2 logCreateBlock createBlock
  simp only [happend]

theorem not_badType_of_le (h : ∀ i < len, (opsSetting.read settings.bytes i).logType ≤ 8) :
    ¬ BadType opsSetting settings.bytes len := by
  rintro ⟨i, hi, -, htype⟩
  obtain ⟨n, hn⟩ := typeLength_of_le (Nat.and_le_left.trans (h i hi))
  rw [hn] at htype
  cases htype

end

/-- **The versions agree.**  In every state that a run reaches, with no variable at `NULL`, the
functions of the two versions return on the same settings, with the same code and in the same
state. -/
theorem versions_agree {linker : Linker} {s0 s : LogState} (hboot : s0.isInit = false)
    {packets : List (Bool × ControlPacket)} (hrun : controlRun linker packets s0 = some ((), s))
    {settings settings' : Settings} {len : ℕ} (h : SameSettings settings settings' len)
    (htypes : ∀ i < len, (opsSetting.read settings.bytes i).logType ≤ 8) (created : Bool) (id : ℕ) :
    (∃ r s', logCreateBlock linker.logs created id settings len s = some (r, s') ∧
      logCreateBlockV2 linker.logs created id settings' len s = some (r, s')) ∧
    ∃ r s', logAppendBlock linker.logs id settings len s = some (r, s') ∧
      logAppendBlockV2 linker.logs id settings' len s = some (r, s') := by
  obtain ⟨lists, hpool, -⟩ := (controlRun_unless hboot linker packets).of_eq hrun
  have hid : (id : Int) ≠ blockIdFree := by unfold blockIdFree; omega
  have hbad := not_badType_of_le htypes
  rw [createBlock_versions h, appendBlock_versions h]
  obtain ⟨r, s', hcreate, -⟩ := (hpool.createBlock hid opsSetting linker created settings
    len).returns hbad
  obtain ⟨q, t', happend, -⟩ := (hpool.appendBlock hid opsSetting linker settings len).returns hbad
  exact ⟨⟨r, s', hcreate, hcreate⟩, q, t', happend, happend⟩

/-- A new block with one variable of the TOC, in both layouts. -/
theorem versions_agree_small : ∃ s, controlRun ⟨[⟨3, some 0x20000100⟩], 0x20000000, by decide⟩
      [(true, .ofBytes [0, 7])] .zero = some ((), s) ∧
    (∃ r s', logCreateBlock [⟨3, some 0x20000100⟩] true (8 : ℕ)
        ⟨0, fun i => [3, 0].getD i 0⟩ 1 s = some (r, s') ∧
      logCreateBlockV2 [⟨3, some 0x20000100⟩] true (8 : ℕ)
        ⟨0, fun i => [3, 0, 0].getD i 0⟩ 1 s = some (r, s')) ∧
    ∃ r s', logAppendBlock [⟨3, some 0x20000100⟩] (8 : ℕ)
        ⟨0, fun i => [3, 0].getD i 0⟩ 1 s = some (r, s') ∧
      logAppendBlockV2 [⟨3, some 0x20000100⟩] (8 : ℕ)
        ⟨0, fun i => [3, 0, 0].getD i 0⟩ 1 s = some (r, s') := by
  have hrun : (controlRun ⟨[⟨3, some 0x20000100⟩], 0x20000000, by decide⟩
      [(true, .ofBytes [0, 7])] .zero).isSome = true := by
    decide +kernel
  obtain ⟨⟨_, s⟩, hs⟩ := Option.isSome_iff_exists.mp hrun
  exact ⟨s, hs, versions_agree rfl hs (by unfold SameSettings; decide) (by decide) true 8⟩

/-! ### Errors -/

/-- The command makes a block. -/
def ControlPacket.Creates (p : ControlPacket) : Prop :=
  (p.data 0).toNat = controlCreateBlock ∨ (p.data 0).toNat = controlCreateBlockV2

/-- What a CREATE leaves: all blocks that there were, and no other one when the id was in use or
there was no block or no timer for it. -/
def Config.KeptByCreate (created : Bool) (id : Int) (c c' : Config) : Prop :=
  (∀ b, c b ≠ none → c' b = c b) ∧
    (¬ c.Unknown id ∨ (∀ b, c b ≠ none) ∨ created = false → c' = c)

theorem Config.CreateResult.kept {f : SettingFormat} {logs : List LogVar} {settings : Settings}
    {len free r : ℕ} {created : Bool} {id : Int} {c c' : Config}
    (h : CreateResult f logs settings len free created id r c c') :
    c.KeptByCreate created id c' := by
  rcases h with ⟨-, rfl, -⟩ | ⟨-, -, rfl, -⟩ | ⟨hunknown, hcreated, b, hb, happend⟩
  · exact ⟨fun _ _ => rfl, fun _ => rfl⟩
  · exact ⟨fun _ _ => rfl, fun _ => rfl⟩
  · constructor
    · intro a ha
      have hab : a ≠ b := fun e => ha (e ▸ hb)
      rcases happend with ⟨-, rfl, -⟩ | ⟨b', old, hb', rfl, -⟩
      · exact Function.update_of_ne hab ..
      · -- only the new block has the id
        have hbb : b' = b := by
          by_contra hne
          rw [Function.update_of_ne hne] at hb'
          exact hunknown b' _ hb' rfl
        rw [hbb, Function.update_idem, Function.update_of_ne hab]
    · rintro (hknown | hfull | hnone)
      · exact absurd hunknown hknown
      · exact absurd hb (hfull b)
      · rw [hcreated] at hnone
        cases hnone

/-- **Commands that fail.**  In every state that a run reaches, with no variable at `NULL`, a CREATE
that answers an error leaves the blocks that there were as they were, and an APPEND that answers an
error leaves the block that it names with the ops of the settings before the one that failed, and
every other block as it was. -/
theorem failed_command_keeps {linker : Linker} {s0 s : LogState} (hboot : s0.isInit = false)
    {packets : List (Bool × ControlPacket)} (hrun : controlRun linker packets s0 = some ((), s))
    (created : Bool) {p : ControlPacket} {f : SettingFormat} (hf : p.format = some f) :
    ∃ lists, Pool s lists ∧ ReturnsUnless p.BadType (logControlProcess linker created p) s
      (fun q s' => q.data 2 ≠ 0 → ∃ r lists', q.data 2 = UInt8.ofNat r ∧ Pool s' lists' ∧
        (p.Creates → (s.config lists).KeptByCreate created (p.data 1).toNat
          (s'.config lists')) ∧
        (¬ p.Creates → Config.AppendResult f linker.logs (p.settings linker) (settingsLen p f)
          s.freeCount (p.data 1).toNat r (s.config lists) (s'.config lists'))) := by
  obtain ⟨lists, h, -⟩ := (controlRun_unless hboot linker packets).of_eq hrun
  have hid : ((p.data 1).toNat : Int) ≠ blockIdFree := by
    unfold blockIdFree
    omega
  have hbad : Log.BadType f (p.settings linker).bytes (settingsLen p f) → p.BadType :=
    fun hb => ⟨f, hf, hb⟩
  refine ⟨lists, h, ReturnsUnless.bind (P := fun r s' => ∃ lists', Pool s' lists' ∧
    (p.Creates → (s.config lists).KeptByCreate created (p.data 1).toNat (s'.config lists')) ∧
    (¬ p.Creates → Config.AppendResult f linker.logs (p.settings linker) (settingsLen p f)
      s.freeCount (p.data 1).toNat r (s.config lists) (s'.config lists'))) ?_ ?_⟩
  · unfold ControlPacket.format at hf
    unfold controlCommand ControlPacket.Creates
    split at hf
    all_goals
      rename_i hp
      cases hf
    · rw [hp]
      refine ((h.createBlock hid opsSetting ..).mono ?_).imp hbad
      rintro r s' ⟨lists', hs', hresult⟩
      exact ⟨lists', hs', fun _ => hresult.kept, fun hnot => absurd (Or.inl rfl) hnot⟩
    · rw [hp]
      refine ((h.appendBlock hid opsSetting ..).mono ?_).imp hbad
      rintro r s' ⟨lists', hs', hresult⟩
      exact ⟨lists', hs', fun hc => absurd hc (by decide), fun _ => hresult⟩
    · rw [hp]
      refine ((h.createBlock hid opsSettingV2 ..).mono ?_).imp hbad
      rintro r s' ⟨lists', hs', hresult⟩
      exact ⟨lists', hs', fun _ => hresult.kept, fun hnot => absurd (Or.inr rfl) hnot⟩
    · rw [hp]
      refine ((h.appendBlock hid opsSettingV2 ..).mono ?_).imp hbad
      rintro r s' ⟨lists', hs', hresult⟩
      exact ⟨lists', hs', fun hc => absurd hc (by decide), fun _ => hresult⟩
  · rintro r s' ⟨lists', hs', hkept⟩
    refine Or.inl (returns_pure.mpr fun _ => ⟨r, lists', ?_, hs', hkept⟩)
    exact Function.update_self 2 (UInt8.ofNat r) p.data

/-- An APPEND of a variable and of an id that names none answers ENOENT and has appended the
variable. -/
theorem failed_append_extends : ∃ s q s', controlRun
      ⟨[⟨3, some 0x20000100⟩], 0x20000000, by decide⟩ [(true, .ofBytes [0, 7])] .zero =
        some ((), s) ∧
    logControlProcess ⟨[⟨3, some 0x20000100⟩], 0x20000000, by decide⟩ true
      (.ofBytes [1, 7, 3, 0, 3, 5]) s = some (q, s') ∧
    q.data 2 = 2 ∧ (s.logBlocks 0).id = 7 ∧ (s.logBlocks 0).ops = none ∧
    (s'.logBlocks 0).id = 7 ∧ (s'.logBlocks 0).ops = some 0 := by
  have hrun : (controlRun ⟨[⟨3, some 0x20000100⟩], 0x20000000, by decide⟩
      [(true, .ofBytes [0, 7])] .zero).any (fun x => (logControlProcess
        ⟨[⟨3, some 0x20000100⟩], 0x20000000, by decide⟩ true (.ofBytes [1, 7, 3, 0, 3, 5])
        x.2).any (fun y => decide (y.1.data 2 = 2 ∧ (x.2.logBlocks 0).id = 7 ∧
          (x.2.logBlocks 0).ops = none ∧ (y.2.logBlocks 0).id = 7 ∧
          (y.2.logBlocks 0).ops = some 0))) = true := by
    decide +kernel
  obtain ⟨⟨_, s⟩, hs, hany⟩ := (Option.any_eq_true ..).mp hrun
  obtain ⟨⟨q, s'⟩, hq, hdecide⟩ := (Option.any_eq_true ..).mp hany
  exact ⟨s, q, s', hs, hq, of_decide_eq_true hdecide⟩

/-- A second setting that names no variable. -/
theorem failed_command_keeps_small : ∃ s lists, Pool s lists ∧
    ReturnsUnless (ControlPacket.BadType (.ofBytes [1, 7, 3, 0, 3, 5]))
      (logControlProcess ⟨[⟨3, some 0x20000100⟩], 0x20000000, by decide⟩ true
        (.ofBytes [1, 7, 3, 0, 3, 5])) s
      (fun q s' => q.data 2 ≠ 0 → ∃ r lists', q.data 2 = UInt8.ofNat r ∧ Pool s' lists' ∧
        (ControlPacket.Creates (.ofBytes [1, 7, 3, 0, 3, 5]) → (s.config lists).KeptByCreate true
          (7 : ℕ) (s'.config lists')) ∧
        (¬ ControlPacket.Creates (.ofBytes [1, 7, 3, 0, 3, 5]) → Config.AppendResult opsSetting
          [⟨3, some 0x20000100⟩] (ControlPacket.settings (.ofBytes [1, 7, 3, 0, 3, 5])
            ⟨[⟨3, some 0x20000100⟩], 0x20000000, by decide⟩) 2 s.freeCount (7 : ℕ) r
          (s.config lists) (s'.config lists'))) := by
  have hrun : (controlRun ⟨[⟨3, some 0x20000100⟩], 0x20000000, by decide⟩
      [(true, .ofBytes [0, 7])] .zero).isSome = true := by
    decide +kernel
  obtain ⟨⟨_, s⟩, hs⟩ := Option.isSome_iff_exists.mp hrun
  exact ⟨s, failed_command_keeps rfl hs true rfl⟩

end NanoDrone.Log
