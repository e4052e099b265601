import NanoDrone.Log.Download
import NanoDrone.Log.Images

/-! # Logging from end to end

A client downloads the table, asks with CREATE for a block with some of its variables, each in its
own type, and from then on takes the packets of the block apart.  `create_answer` says when the
drone agrees.  `log_end_to_end` says what the client gets after that: whatever other commands come
in between, as long as none of them takes the block apart, the fields that it reads are the bytes
of the variables that it has asked for by name. -/

namespace NanoDrone.Log

/-! ### The client -/

/-- A control packet, behind which there may be anything. -/
def controlRequest (behind : Bytes) (request : List UInt8) : ControlPacket where
  size := request.length
  data := behind.write 0 request

/-- A setting: the variable in its own type. -/
def TocElement.setting (e : TocElement) : List UInt8 := UInt8.ofNat e.ctype :: leBytes 2 e.ident

def createRequest (id : UInt8) (wanted : List TocElement) : List UInt8 :=
  UInt8.ofNat controlCreateBlockV2 :: id :: wanted.flatMap TocElement.setting

def TocElement.width (e : TocElement) : ℕ := (typeLength e.ctype).getD 0

/-- The id, the timestamp and the fields of a log packet. -/
def readLogPacket (wanted : List TocElement) : List UInt8 → Option (UInt8 × ℕ × List (List UInt8))
  | id :: t0 :: t1 :: t2 :: fields =>
      (splitWidths (wanted.map TocElement.width) fields).map fun images =>
        (id, ofLeBytes [t0, t1, t2], images)
  | _ => none

/-- The drone has a variable of the name, and it has these bytes. -/
def TocElement.Image (groups : List LogGroup) (env : Surroundings) (timestamp : ℕ)
    (e : TocElement) (image : List UInt8) : Prop :=
  ∃ g v, (tocVariables groups)[e.ident]? = some (g, v) ∧ g.name = e.group ∧ v.name = e.name ∧
    v.image env timestamp = some image

/-- Commands, each with what `xTimerCreateStatic` would say. -/
def handlePackets (linker : Linker) (packets : List (Bool × ControlPacket)) : LogM Unit :=
  packets.forM fun c => do
    let _ ← logControlProcess linker c.1 c.2

/-- A command that takes the block with the id away or gives it more ops. -/
def ControlPacket.Changes (p : ControlPacket) (id : UInt8) : Prop :=
  (p.data 0).toNat = controlReset ∨ p.data 1 = id ∧ ((p.data 0).toNat = controlDeleteBlock ∨
    (p.data 0).toNat = controlAppendBlock ∨ (p.data 0).toNat = controlAppendBlockV2)

instance (p : ControlPacket) (id : UInt8) : Decidable (p.Changes id) :=
  inferInstanceAs (Decidable (_ ∨ _ ∧ _))

/-! ### The request -/

section
variable (behind : Bytes) (id : UInt8) {wanted : List TocElement} {linker : Linker}

theorem setting_length (e : TocElement) : e.setting.length = 3 := by
  simp [TocElement.setting, leBytes_length]

theorem createRequest_command :
    ((controlRequest behind (createRequest id wanted)).data 0).toNat = controlCreateBlockV2 := by
  simp only [controlRequest, createRequest, Bytes.write]
  rfl

theorem createRequest_id : (controlRequest behind (createRequest id wanted)).data 1 = id := by
  simp [controlRequest, createRequest, Bytes.write]

theorem createRequest_settingsLen (hlen : wanted.length < 2 ^ 16) :
    settingsLen (controlRequest behind (createRequest id wanted)) opsSettingV2 =
      wanted.length := by
  have hbody : (wanted.flatMap TocElement.setting).length = 3 * wanted.length := by
    induction wanted with
    | nil => rfl
    | cons e wanted ih =>
        rw [List.length_cons] at hlen
        rw [List.flatMap_cons, List.length_append, ih (by omega), setting_length, List.length_cons]
        omega
  unfold settingsLen controlRequest createRequest
  rw [List.length_cons, List.length_cons, hbody]
  change (3 * wanted.length + 1 + 1 + (2 ^ 32 - 2)) % 2 ^ 32 / 3 = _
  omega

/-- The code reads the settings that the client wrote. -/
theorem createRequest_read {i : ℕ} (hi : i < wanted.length) (hctype : wanted[i].ctype < 256)
    (hident : wanted[i].ident < 65536) : opsSettingV2.read
      ((controlRequest behind (createRequest id wanted)).settings linker).bytes i =
        ⟨wanted[i].ctype, wanted[i].ident⟩ := by
  have hbyte : ∀ k, k < 3 → ∀ x, wanted[i].setting[k]? = some x →
      ((controlRequest behind (createRequest id wanted)).settings linker).bytes (3 * i + k) = x := by
    intro k hk x hx
    have hat := getElem?_flatMap_records (l := wanted) (fun e _ => setting_length e) hk i
    rw [List.getElem?_eq_getElem hi, Option.bind_some, hx] at hat
    have hplace : 2 + (3 * i + k) = 3 * i + k + 1 + 1 := by omega
    simp only [ControlPacket.settings, controlRequest, createRequest, Bytes.write, Nat.zero_le,
      ↓reduceIte, Nat.sub_zero]
    rw [List.getD_eq_getElem?_getD, hplace, List.getElem?_cons_succ, List.getElem?_cons_succ, hat,
      Option.getD_some]
  have htype := hbyte 0 (by omega) (UInt8.ofNat wanted[i].ctype) (by simp [TocElement.setting])
  have hlow := hbyte 1 (by omega) (UInt8.ofNat wanted[i].ident)
    (by simp [TocElement.setting, leBytes])
  have hhigh := hbyte 2 (by omega) (UInt8.ofNat (wanted[i].ident / 256))
    (by simp [TocElement.setting, leBytes])
  change OpsSetting.mk _ _ = _
  rw [← Nat.add_zero (3 * i), htype, Nat.add_zero, hlow, hhigh, UInt8.toNat_ofNat',
    UInt8.toNat_ofNat', UInt8.toNat_ofNat', OpsSetting.mk.injEq]
  exact ⟨by omega, by omega⟩

end

/-! ### The loop over the settings -/

section
variable {f : SettingFormat} {logs : List LogVar} {settings : Settings} {len fuel i used free : ℕ}

/-- The width of the field of a setting. -/
def settingWidth (f : SettingFormat) (settings : Settings) (i : ℕ) : ℕ :=
  (typeLength ((f.read settings.bytes i).logType &&& logTypeMask)).getD 0

theorem range'_step (hi : i < len) : List.range' i (len - i) =
    i :: List.range' (i + 1) (len - (i + 1)) := by
  obtain ⟨n, hn⟩ : ∃ n, len - i = n + 1 := ⟨len - i - 1, by omega⟩
  rw [hn, List.range'_succ, show len - (i + 1) = n by omega]

/-- Without an error there is an op for every setting. -/
theorem settingsResult_items (hfuel : len ≤ i + fuel)
    (hid : ∀ j < len, (f.read settings.bytes j).id ≠ f.memoryId)
    (hzero : (settingsResult f logs settings len fuel i used free).2 = 0) :
    (settingsResult f logs settings len fuel i used free).1 =
      (List.range' i (len - i)).map (settingItem f logs settings) := by
  induction fuel generalizing i used free with
  | zero => simp [settingsResult, show len - i = 0 by omega]
  | succ fuel ih =>
      by_cases hi : i < len
      · rw [settingsResult_succ hi] at hzero ⊢
        by_cases hanswer : settingAnswer f logs (f.read settings.bytes i) used free = 0
        · rw [if_pos hanswer] at hzero ⊢
          dsimp only at hzero ⊢
          have hafter : f.after settings.bytes i = i + 1 := if_pos (hid i hi)
          rw [hafter] at hzero ⊢
          rw [ih (by omega) hzero, range'_step hi, List.map_cons]
        · rw [if_neg hanswer] at hzero
          exact absurd hzero hanswer
      · unfold settingsResult
        simp [hi, show len - i = 0 by omega]

theorem settingAnswer_zero_iff {setting : OpsSetting}
    (hknown : variableGetIndex logs setting.id ≠ none) :
    settingAnswer f logs setting used free = 0 ↔
      used + (typeLength (setting.logType &&& logTypeMask)).getD 0 ≤ logMaxLen ∧ free ≠ 0 := by
  unfold settingAnswer
  split_ifs with hfull hfree hnone
  · exact iff_of_false (by simp [e2big]) fun h => absurd h.1 (Nat.not_le.mpr hfull)
  · exact iff_of_false (by simp [enomem]) fun h => h.2 hfree
  · exact absurd hnone.2 hknown
  · exact iff_of_true rfl ⟨Nat.not_lt.mp hfull, hfree⟩

/-- There is no error exactly if the fields fit in a packet and there are enough free ops. -/
theorem settingsResult_zero_iff (hfuel : len ≤ i + fuel)
    (hid : ∀ j < len, (f.read settings.bytes j).id ≠ f.memoryId)
    (hknown : ∀ j < len, variableGetIndex logs (f.read settings.bytes j).id ≠ none)
    (hused : used ≤ logMaxLen) :
    (settingsResult f logs settings len fuel i used free).2 = 0 ↔
      used + ((List.range' i (len - i)).map (settingWidth f settings)).sum ≤ logMaxLen ∧
        len - i ≤ free := by
  induction fuel generalizing i used free with
  | zero => simp [settingsResult, show len - i = 0 by omega, hused]
  | succ fuel ih =>
      by_cases hi : i < len
      · have hanswer := @settingAnswer_zero_iff f logs used free _ (hknown i hi)
        rw [← settingWidth] at hanswer
        rw [settingsResult_succ hi, range'_step hi, List.map_cons, List.sum_cons]
        by_cases hzero : settingAnswer f logs (f.read settings.bytes i) used free = 0
        · have hafter : f.after settings.bytes i = i + 1 := if_pos (hid i hi)
          obtain ⟨hfits, hfree⟩ := hanswer.mp hzero
          rw [if_pos hzero, ← settingWidth, hafter]
          dsimp only
          rw [ih (by omega) hfits]
          omega
        · rw [if_neg hzero]
          refine iff_of_false hzero fun h => hzero (hanswer.mpr ⟨by omega, by omega⟩)
      · unfold settingsResult
        simp [hi, show len - i = 0 by omega, hused]

theorem settingAnswer_le (setting : OpsSetting) :
    settingAnswer f logs setting used free ≤ enomem := by
  unfold settingAnswer
  split_ifs <;> decide

/-- Every answer is an error of the module. -/
theorem settingsResult_le : (settingsResult f logs settings len fuel i used free).2 ≤ enomem := by
  induction fuel generalizing i used free with
  | zero => exact Nat.zero_le _
  | succ fuel ih =>
      by_cases hi : i < len
      · rw [settingsResult_succ hi]
        split
        · exact ih
        · exact settingAnswer_le _
      · unfold settingsResult
        rw [if_neg hi]
        exact Nat.zero_le _

end

/-! ### Known variables -/

/-- The variable with a number. -/
def variableAt (groups : List LogGroup) (id : ℕ) : LogAdd :=
  ((tocVariables groups)[id]?.map Prod.snd).getD ⟨0, [], none, rfl⟩

/-- The client knows the variable from the table, and it has a type that clients log. -/
structure TocElement.Known (groups : List LogGroup) (e : TocElement) : Prop where
  found : ∃ x, (tocVariables groups)[e.ident]? = some x ∧ e = tocElement e.ident x
  loggable : logUint8 ≤ e.ctype ∧ e.ctype ≤ logFloat

section
variable {toc : Toc} {groups : List LogGroup} {linker : Linker} {e : TocElement}

theorem Toc.Accepts.known (h : toc.Accepts groups) {leftover : ℕ → Bytes} {table : List TocElement}
    (hdownload : download toc leftover = some table) (he : e ∈ table)
    (htype : logUint8 ≤ e.ctype ∧ e.ctype ≤ logFloat) : e.Known groups := by
  rw [h.download_eq leftover] at hdownload
  obtain rfl := Option.some.inj hdownload
  obtain ⟨i, hi, rfl⟩ := List.mem_mapIdx.mp he
  exact ⟨⟨_, List.getElem?_eq_getElem hi, rfl⟩, htype⟩

theorem TocElement.Known.ident_lt (h : e.Known groups) : e.ident < (tocVariables groups).length := by
  obtain ⟨x, hx, -⟩ := h.found
  exact (List.getElem?_eq_some_iff.mp hx).1

theorem TocElement.Known.ctype_eq (h : e.Known groups) :
    e.ctype = (variableAt groups e.ident).type &&& logTypeMask := by
  obtain ⟨x, hx, he⟩ := h.found
  unfold variableAt
  rw [hx, Option.map_some, Option.getD_some]
  exact congrArg TocElement.ctype he

theorem TocElement.Known.variable_loggable (h : e.Known groups) :
    (variableAt groups e.ident).Loggable := by
  unfold LogAdd.Loggable
  rw [← h.ctype_eq]
  exact h.loggable

theorem TocElement.Known.ident_ne (h : e.Known groups) (htoc : toc.Accepts groups) :
    e.ident ≠ opsSettingV2.memoryId := by
  have hlt := h.ident_lt
  have hcount := htoc.count_lt
  change e.ident ≠ 0xFFFF
  omega

/-- The number selects the variable. -/
theorem TocElement.Known.index (h : e.Known groups) (htoc : toc.Accepts groups)
    (hlinker : linker.logs = toc.logs.map LogEntry.toLogVar) : ∃ varId,
      variableGetIndex linker.logs e.ident = some varId ∧
        logsAt linker.logs varId = (variableAt groups e.ident).entry.toLogVar := by
  have hlength := htoc.length
  obtain ⟨x, hx, -⟩ := h.found
  obtain ⟨pos, hfind, hat⟩ := @findItem_tocVariables e.ident 0 0 [] groups x (Nat.zero_le _)
    (by omega) hx
  have hfst := @findItem_fst e.ident 0 0 [] (tocEntries groups) (by omega)
  rw [hfind, Option.map_some, Nat.zero_add] at hfst
  rw [hlinker, htoc.logs]
  refine ⟨pos, hfst.symm, ?_⟩
  unfold logsAt variableAt
  rw [List.getD_eq_getElem?_getD, List.getElem?_map, hat.getElem?, hx]
  rfl

/-- The op that a setting with the number and the type gives. -/
theorem TocElement.Known.settingItem (h : e.Known groups) (htoc : toc.Accepts groups)
    (hlinker : linker.logs = toc.logs.map LogEntry.toLogVar) {settings : Settings} {i : ℕ}
    (hread : opsSettingV2.read settings.bytes i = ⟨e.ctype, e.ident⟩) :
    settingItem opsSettingV2 linker.logs settings i = (variableAt groups e.ident).op := by
  obtain ⟨varId, hindex, hat⟩ := h.index htoc hlinker
  unfold Log.settingItem
  rw [hread]
  dsimp only
  rw [if_pos (h.ident_ne htoc), hindex, Option.getD_some]
  unfold tocOps logGetType
  rw [hat, h.ctype_eq, Nat.and_assoc, Nat.and_self]
  rfl

end

/-! ### Creating the block -/

/-- A CREATE either finds no place for a block, or it makes one and runs the loop. -/
theorem Config.CreateResult.fresh {f : SettingFormat} {logs : List LogVar} {settings : Settings}
    {len free r : ℕ} {created : Bool} {id : Int} {c c' : Config}
    (h : CreateResult f logs settings len free created id r c c') :
    (¬ c.Unknown id ∨ (∀ b, c b ≠ none) ∨ created = false) ∧ (r = eexist ∨ r = enomem) ∨
    c.Unknown id ∧ created = true ∧ ∃ b, c b = none ∧
      c' = Function.update c b
        (some ⟨id, (settingsResult f logs settings len len 0 0 free).1⟩) ∧
      r = (settingsResult f logs settings len len 0 0 free).2 := by
  rcases h with ⟨hknown, -, hr⟩ | ⟨-, hnone, -, hr⟩ | ⟨hunknown, hcreated, b, hb, happend⟩
  · exact Or.inl ⟨Or.inl hknown, Or.inl hr⟩
  · exact Or.inl ⟨Or.inr hnone, Or.inr hr⟩
  · refine Or.inr ⟨hunknown, hcreated, b, hb, ?_⟩
    rcases happend with ⟨hnot, -⟩ | ⟨b', old, hb', hc, hr⟩
    · exact absurd rfl (hnot b _ (Function.update_self ..))
    · -- only the new block has the id
      obtain rfl : b' = b := by
        by_contra hne
        rw [Function.update_of_ne hne] at hb'
        exact hunknown b' _ hb' rfl
      rw [Function.update_self] at hb'
      cases hb'
      rw [Function.update_idem] at hc
      exact ⟨hc, hr⟩

section
variable {toc : Toc} {groups : List LogGroup} {linker : Linker} {wanted : List TocElement}
  {s : LogState} {lists : BlockPtr → List OpsPtr} (behind : Bytes) (id : UInt8)

/-- The settings of the request, one for each variable. -/
theorem createRequest_settings (htoc : toc.Accepts groups)
    (hwanted : ∀ e ∈ wanted, e.Known groups) {i : ℕ} (hi : i < wanted.length) :
    opsSettingV2.read ((controlRequest behind (createRequest id wanted)).settings linker).bytes i =
      ⟨wanted[i].ctype, wanted[i].ident⟩ := by
  have hknown := hwanted _ (List.getElem_mem hi)
  have hlt := hknown.ident_lt
  have hcount := htoc.count_lt
  have htype := hknown.loggable.2
  exact createRequest_read behind id hi (by unfold logFloat at htype; omega) (by omega)

/-- What the drone makes of the request. -/
theorem Pool.createRequest (h : Pool s lists) (htoc : toc.Accepts groups) (hlen : wanted.length ≤ 9)
    (hwanted : ∀ e ∈ wanted, e.Known groups) (created : Bool) : ∃ r s' lists' data,
      logControlProcess linker created (controlRequest behind (createRequest id wanted)) s =
        some (⟨3, data⟩, s') ∧ data 2 = UInt8.ofNat r ∧ Pool s' lists' ∧
      Config.CreateResult opsSettingV2 linker.logs
        ((controlRequest behind (Log.createRequest id wanted)).settings linker) wanted.length
        s.freeCount created id.toNat r (s.config lists) (s'.config lists') := by
  have hid : ((id.toNat : ℕ) : Int) ≠ blockIdFree := by
    unfold blockIdFree
    omega
  have hbad : ¬ BadType opsSettingV2
      ((controlRequest behind (Log.createRequest id wanted)).settings linker).bytes
      wanted.length := by
    rintro ⟨i, hi, -, hnone⟩
    rw [createRequest_settings behind id htoc hwanted hi] at hnone
    have htype := (hwanted _ (List.getElem_mem hi)).loggable.2
    obtain ⟨n, hn⟩ := typeLength_of_le (Nat.and_le_left.trans
      (htype.trans (by decide : logFloat ≤ logFp16)))
    rw [hn] at hnone
    cases hnone
  obtain ⟨r, s', hcreate, lists', hs', hresult⟩ := (h.createBlock hid opsSettingV2 linker created
    ((controlRequest behind (Log.createRequest id wanted)).settings linker)
    wanted.length).returns hbad
  have hcommand : controlCommand linker created
      (controlRequest behind (Log.createRequest id wanted)) s = some (r, s') := by
    unfold controlCommand
    rw [createRequest_command, createRequest_id, createRequest_settingsLen behind id (by omega)]
    exact hcreate
  refine ⟨r, s', lists', Function.update (controlRequest behind
    (Log.createRequest id wanted)).data 2 (UInt8.ofNat r), ?_, Function.update_self .., hs',
    hresult⟩
  unfold logControlProcess
  simp only [Bind.bind, StateT.bind, hcommand, Option.bind_some]
  rfl

/-- The ops that the loop makes for the request, if it meets no error. -/
theorem createRequest_items (htoc : toc.Accepts groups)
    (hlinker : linker.logs = toc.logs.map LogEntry.toLogVar)
    (hwanted : ∀ e ∈ wanted, e.Known groups) {free : ℕ}
    (hzero : (settingsResult opsSettingV2 linker.logs
      ((controlRequest behind (createRequest id wanted)).settings linker) wanted.length
      wanted.length 0 0 free).2 = 0) :
    (settingsResult opsSettingV2 linker.logs
      ((controlRequest behind (createRequest id wanted)).settings linker) wanted.length
      wanted.length 0 0 free).1 = wanted.map fun e => (variableAt groups e.ident).op := by
  have hread := fun (i : ℕ) (hi : i < wanted.length) =>
    @createRequest_settings toc groups linker wanted behind id htoc hwanted i hi
  have hid : ∀ j < wanted.length, (opsSettingV2.read ((controlRequest behind
      (createRequest id wanted)).settings linker).bytes j).id ≠ opsSettingV2.memoryId := by
    intro j hj
    rw [hread j hj]
    exact (hwanted _ (List.getElem_mem hj)).ident_ne htoc
  rw [settingsResult_items (by omega) hid hzero]
  refine List.ext_getElem (by simp) fun i hi _ => ?_
  have hi' : i < wanted.length := by simpa using hi
  simp only [List.getElem_map, List.getElem_range', Nat.zero_add, Nat.one_mul]
  exact (hwanted _ (List.getElem_mem hi')).settingItem htoc hlinker (hread i hi')

/-- When it meets none. -/
theorem createRequest_zero_iff (htoc : toc.Accepts groups)
    (hlinker : linker.logs = toc.logs.map LogEntry.toLogVar)
    (hwanted : ∀ e ∈ wanted, e.Known groups) {free : ℕ} :
    (settingsResult opsSettingV2 linker.logs
      ((controlRequest behind (createRequest id wanted)).settings linker) wanted.length
      wanted.length 0 0 free).2 = 0 ↔
        (wanted.map TocElement.width).sum ≤ logMaxLen ∧ wanted.length ≤ free := by
  have hread := fun (i : ℕ) (hi : i < wanted.length) =>
    @createRequest_settings toc groups linker wanted behind id htoc hwanted i hi
  have hwidths : (List.range' 0 (wanted.length - 0)).map (settingWidth opsSettingV2
      ((controlRequest behind (createRequest id wanted)).settings linker)) =
        wanted.map TocElement.width := by
    refine List.ext_getElem (by simp) fun i hi _ => ?_
    have hi' : i < wanted.length := by simpa using hi
    simp only [List.getElem_map, List.getElem_range', Nat.zero_add, Nat.one_mul, settingWidth,
      hread i hi']
    rw [TocElement.width, (hwanted _ (List.getElem_mem hi')).ctype_eq, Nat.and_assoc, Nat.and_self]
  rw [settingsResult_zero_iff (by omega) ?_ ?_ (Nat.zero_le _), hwidths, Nat.zero_add]
  · rfl
  · intro j hj
    rw [hread j hj]
    exact (hwanted _ (List.getElem_mem hj)).ident_ne htoc
  · intro j hj
    rw [hread j hj]
    obtain ⟨varId, hindex, -⟩ := (hwanted _ (List.getElem_mem hj)).index htoc hlinker
    exact hindex ▸ Option.some_ne_none varId

end

theorem LogState.unknown_iff {s : LogState} {lists : BlockPtr → List OpsPtr} {id : Int}
    (hid : id ≠ blockIdFree) :
    (s.config lists).Unknown id ↔ ∀ b, (s.logBlocks b).id ≠ id := by
  constructor
  · intro h b hb
    exact h b _ (config_allocated (hb.trans_ne hid)) hb
  · intro h b blk hblk
    by_cases hb : s.Allocated b
    · rw [config_allocated hb] at hblk
      obtain rfl := Option.some.inj hblk
      exact h b
    · rw [config_free hb] at hblk
      cases hblk

theorem LogState.config_eq_none_iff {s : LogState} {lists : BlockPtr → List OpsPtr} {b : BlockPtr} :
    s.config lists b = none ↔ (s.logBlocks b).id = blockIdFree := by
  by_cases hb : s.Allocated b
  · rw [config_allocated hb]
    exact iff_of_false (Option.some_ne_none _) hb
  · rw [config_free hb]
    exact iff_of_true rfl (not_not.mp hb)

theorem LogState.config_eq_some {s : LogState} {lists : BlockPtr → List OpsPtr} {b : BlockPtr}
    {blk : Block} (h : s.config lists b = some blk) :
    s.Allocated b ∧ (s.logBlocks b).id = blk.id ∧ s.items (lists b) = blk.items := by
  by_cases hb : s.Allocated b
  · rw [config_allocated hb] at h
    obtain rfl := Option.some.inj h
    exact ⟨hb, rfl, rfl⟩
  · rw [config_free hb] at h
    cases h

/-- Answers are small enough to tell an error from 0. -/
theorem answer_eq_zero_iff {r : ℕ} (h : r ≤ eexist) : UInt8.ofNat r = 0 ↔ r = 0 := by
  unfold eexist at h
  rw [← UInt8.toNat_inj, UInt8.toNat_ofNat']
  change r % 2 ^ 8 = 0 ↔ r = 0
  omega

/-- The table of two groups, as the linker provides it. -/
def twoGroupsLinker : Linker := ⟨twoGroupsToc.logs.map LogEntry.toLogVar, 0x20000000, by decide⟩

/-- **When a block is created.**  In every state that a run of control packets reaches without a type
that `typeLength` lacks, with no variable at `NULL`, the drone answers 0 to a client that asks for
variables of the table, none of them `LOG_FP16`, exactly if the id is not in use, there is a free
block and a timer for it, the fields fit in a packet and there are enough free ops. -/
theorem create_answer {toc : Toc} {groups : List LogGroup} (htoc : toc.Accepts groups)
    {linker : Linker} (hlinker : linker.logs = toc.logs.map LogEntry.toLogVar) {s0 s : LogState}
    (hboot : s0.isInit = false) {packets : List (Bool × ControlPacket)}
    (hrun : controlRun linker packets s0 = some ((), s)) {leftover : ℕ → Bytes}
    {table : List TocElement} (hdownload : download toc leftover = some table)
    {wanted : List TocElement}
    (hwanted : ∀ e ∈ wanted, e ∈ table ∧ logUint8 ≤ e.ctype ∧ e.ctype ≤ logFloat)
    (hlen : wanted.length ≤ 9) (behind : Bytes) (id : UInt8) (created : Bool) :
    ∃ q s', logControlProcess linker created (controlRequest behind (createRequest id wanted)) s =
        some (q, s') ∧
      (q.data 2 = 0 ↔ (∀ b, (s.logBlocks b).id ≠ id.toNat) ∧
        (∃ b, (s.logBlocks b).id = blockIdFree) ∧ created = true ∧
        (wanted.map TocElement.width).sum ≤ logMaxLen ∧ wanted.length ≤ s.freeCount) := by
  obtain ⟨lists, h, -⟩ := (controlRun_unless hboot linker packets).of_eq hrun
  have hknown : ∀ e ∈ wanted, e.Known groups := fun e he =>
    htoc.known hdownload (hwanted e he).1 (hwanted e he).2
  have hid : ((id.toNat : ℕ) : Int) ≠ blockIdFree := by
    unfold blockIdFree
    omega
  obtain ⟨r, s', lists', data, hcreate, hdata, -, hresult⟩ :=
    h.createRequest behind id htoc hlen hknown created
  refine ⟨_, s', hcreate, ?_⟩
  dsimp only
  rw [hdata, ← @LogState.unknown_iff s lists _ hid]
  rcases hresult.fresh with ⟨hnone, hr⟩ | ⟨hunknown, hcreated, b, hb, -, hr⟩
  · have hne : UInt8.ofNat r ≠ 0 := by rcases hr with rfl | rfl <;> decide
    refine iff_of_false hne fun ⟨hunknown, ⟨b, hb⟩, hcreated, _⟩ => ?_
    rcases hnone with hnot | hfull | hfalse
    · exact hnot hunknown
    · exact hfull b (LogState.config_eq_none_iff.mpr hb)
    · rw [hcreated] at hfalse
      cases hfalse
  · have hle : r ≤ eexist := hr ▸ settingsResult_le.trans (by decide)
    rw [answer_eq_zero_iff hle, hr, createRequest_zero_iff behind id htoc hlinker hknown]
    exact ⟨fun hfits => ⟨hunknown, ⟨b, LogState.config_eq_none_iff.mp hb⟩, hcreated, hfits⟩,
      fun hall => hall.2.2.2⟩

/-- A block with both variables of a table. -/
theorem create_answer_small : ∃ s q s', controlRun twoGroupsLinker [] .zero = some ((), s) ∧
    logControlProcess twoGroupsLinker true (controlRequest (fun _ => 0xFF)
      (createRequest 7 [⟨1, [0x67], [0x61], logUint8⟩, ⟨0, [0x70, 0x6D], [0x76], logFloat⟩])) s =
        some (q, s') ∧
    (q.data 2 = 0 ↔ (∀ b, (s.logBlocks b).id ≠ 7) ∧ (∃ b, (s.logBlocks b).id = blockIdFree) ∧
      true = true ∧ 1 + (4 + 0) ≤ logMaxLen ∧ 2 ≤ s.freeCount) := by
  have hrun : (controlRun twoGroupsLinker [] .zero).isSome = true := by decide +kernel
  obtain ⟨⟨_, s⟩, hs⟩ := Option.isSome_iff_exists.mp hrun
  have hdownload : download twoGroupsToc (fun _ _ => 0xFF) =
      some [⟨0, [0x70, 0x6D], [0x76], logFloat⟩, ⟨1, [0x67], [0x61], logUint8⟩] := by
    decide +kernel
  obtain ⟨q, s', hq, hiff⟩ := @create_answer _ _ twoGroups_accepted twoGroupsLinker rfl _ _ rfl _ hs
    _ _ hdownload [⟨1, [0x67], [0x61], logUint8⟩, ⟨0, [0x70, 0x6D], [0x76], logFloat⟩] (by decide)
    (by decide) (fun _ => 0xFF) 7 true
  exact ⟨s, q, s', hs, hq, hiff⟩

/-! ### After that -/

/-- Commands that do not take the block apart leave it as it is. -/
theorem Config.Step.keeps {linker : Linker} {p : ControlPacket} {id : UInt8} {c c' : Config}
    {b : BlockPtr} {items : List LogOps} (h : c.Step linker p c')
    (hb : c b = some ⟨id.toNat, items⟩) (hp : ¬ p.Changes id) :
    c' b = some ⟨id.toNat, items⟩ := by
  have hcreates : ∀ {asked}, c.Creates (p.data 1).toNat asked c' → c' b = c b := by
    rintro asked (rfl | ⟨-, a, new, ha, -, rfl⟩)
    · rfl
    · refine Function.update_of_ne ?_ ..
      rintro rfl
      rw [ha] at hb
      cases hb
  -- the command names another block
  have hother : ∀ {a old}, p.data 1 ≠ id → c a = some ⟨(p.data 1).toNat, old⟩ → b ≠ a := by
    rintro a old hne ha rfl
    have hsame := congrArg Block.id (Option.some.inj (ha.symm.trans hb))
    exact hne (UInt8.toNat_inj.mp (Int.natCast_inj.mp hsame))
  have happends : ∀ {asked}, p.data 1 ≠ id → c.Appends (p.data 1).toNat asked c' → c' b = c b := by
    rintro asked hne (⟨-, rfl⟩ | ⟨a, old, new, ha, -, rfl⟩)
    · rfl
    · exact Function.update_of_ne (hother hne ha) ..
  rw [← hb]
  unfold Step at h
  split at h
  · exact hcreates h
  · rename_i hcommand
    exact happends (fun he => hp (Or.inr ⟨he, Or.inr (Or.inl hcommand)⟩)) h
  · rename_i hcommand
    rcases h with ⟨-, rfl⟩ | ⟨a, old, ha, rfl⟩
    · rfl
    · exact Function.update_of_ne
        (hother (fun he => hp (Or.inr ⟨he, Or.inl hcommand⟩)) ha) ..
  · rename_i hcommand
    exact absurd (Or.inl hcommand) hp
  · exact hcreates h
  · rename_i hcommand
    exact happends (fun he => hp (Or.inr ⟨he, Or.inr (Or.inr hcommand)⟩)) h
  · rw [h]

theorem Pool.handlePackets {s t : LogState} {lists : BlockPtr → List OpsPtr} (h : Pool s lists)
    {linker : Linker} {id : UInt8} {b : BlockPtr} {items : List LogOps}
    (hb : s.config lists b = some ⟨id.toNat, items⟩) {packets : List (Bool × ControlPacket)}
    (hkeep : ∀ c ∈ packets, ¬ c.2.Changes id) (hrun : handlePackets linker packets s = some ((), t)) :
    ∃ lists', Pool t lists' ∧ t.config lists' b = some ⟨id.toNat, items⟩ := by
  refine (ReturnsUnless.forM (E := True) (I := fun _ u => ∃ lists', Pool u lists' ∧
    u.config lists' b = some ⟨id.toNat, items⟩) ⟨lists, h, hb⟩ ?_).of_eq hrun
  rintro c rest u hc ⟨lists1, h1, hb1⟩
  refine ((h1.controlProcess linker c.1 c.2).bind ?_).imp fun _ => trivial
  rintro _ u' ⟨lists2, h2, hstep⟩
  exact Or.inl (returns_pure.mpr ⟨lists2, h2, hstep.keeps hb1 (hkeep c hc)⟩)

/-- The client takes apart what the drone put together. -/
theorem readLogPacket_eq {wanted : List TocElement} {images : List (List UInt8)}
    (hwidths : wanted.map TocElement.width = images.map List.length) (id : UInt8) (timestamp : ℕ) :
    readLogPacket wanted (id :: leBytes 3 timestamp ++ images.flatten) =
      some (id, timestamp % 2 ^ 24, images) := by
  have htime : ofLeBytes (leBytes 3 timestamp) = timestamp % 2 ^ 24 := ofLeBytes_leBytes 3 timestamp
  change (splitWidths (wanted.map TocElement.width) images.flatten).map (fun fields =>
    (id, ofLeBytes (leBytes 3 timestamp), fields)) = _
  rw [hwidths, splitWidths_flatten, htime, Option.map_some]

/-- The bytes that the client expects are those of the variables that it has asked for. -/
theorem images_of_known {groups : List LogGroup} {env : Surroundings} {timestamp : ℕ}
    {wanted : List TocElement} {images : List (List UInt8)}
    (hknown : ∀ e ∈ wanted, e.Known groups)
    (h : List.Forall₂ (TocElement.Image groups env timestamp) wanted images) :
    List.Forall₂ (fun v image => LogAdd.image env timestamp v = some image)
      (wanted.map fun e => variableAt groups e.ident) images ∧
    wanted.map TocElement.width = images.map List.length := by
  induction h with
  | nil => exact ⟨.nil, rfl⟩
  | @cons e image wanted images he _ ih =>
      obtain ⟨g, v, hat, -, -, himage⟩ := he
      have hv : variableAt groups e.ident = v := by
        unfold variableAt
        rw [hat]
        rfl
      have hwidth : e.width = image.length := by
        rw [TocElement.width, (hknown e List.mem_cons_self).ctype_eq, hv, v.image_length himage,
          Option.getD_some]
      obtain ⟨hvariables, hwidths⟩ := ih fun e' he' => hknown e' (List.mem_cons_of_mem e he')
      rw [List.map_cons, List.map_cons, List.map_cons, hv, hwidth, hwidths]
      exact ⟨.cons himage hvariables, rfl⟩

/-- **Logging from end to end.**  Once a client that has downloaded the table has got the answer 0
to its CREATE for variables that are not `LOG_FP16`, there is a block with its id, and after any
commands that do not take that block apart every packet of the block reads as the id, the timestamp
and the bytes that the variables have at that time, in the order in which the client has asked for
them.  All commands come to their end, and no variable is at `NULL`. -/
theorem log_end_to_end {toc : Toc} {groups : List LogGroup} (htoc : toc.Accepts groups)
    {linker : Linker} (hlinker : linker.logs = toc.logs.map LogEntry.toLogVar)
    {s0 s s' t : LogState} (hboot : s0.isInit = false) {before later : List (Bool × ControlPacket)}
    (hbefore : controlRun linker before s0 = some ((), s)) {leftover : ℕ → Bytes}
    {table wanted : List TocElement} (hdownload : download toc leftover = some table)
    (hwanted : ∀ e ∈ wanted, e ∈ table ∧ logUint8 ≤ e.ctype ∧ e.ctype ≤ logFloat)
    (hlen : wanted.length ≤ 9) {behind : Bytes} {id : UInt8} {created : Bool} {q : ControlPacket}
    (hcreate : logControlProcess linker created
      (controlRequest behind (createRequest id wanted)) s = some (q, s')) (hok : q.data 2 = 0)
    (hlater : handlePackets linker later s' = some ((), t))
    (hkeep : ∀ c ∈ later, ¬ c.2.Changes id) :
    ∃ b, (t.logBlocks b).id = id.toNat ∧ ∀ env timestamp images,
      List.Forall₂ (TocElement.Image groups env timestamp) wanted images →
      ∃ visited pk, logRunBlockLocked env timestamp b (t.logBlocks b).ops t = (visited, some pk) ∧
        pk.length ≤ crtpMaxDataSize ∧
        readLogPacket wanted pk = some (id, timestamp % 2 ^ 24, images) := by
  obtain ⟨lists, h, -⟩ := (controlRun_unless hboot linker before).of_eq hbefore
  have hknown : ∀ e ∈ wanted, e.Known groups := fun e he =>
    htoc.known hdownload (hwanted e he).1 (hwanted e he).2
  obtain ⟨r, s1, lists1, data, hcreated, hdata, h1, hresult⟩ :=
    h.createRequest behind id htoc hlen hknown created
  rw [hcreated] at hcreate
  obtain ⟨rfl, rfl⟩ := Prod.mk.inj (Option.some.inj hcreate)
  dsimp only at hok
  rw [hdata] at hok
  rcases hresult.fresh with ⟨-, hr⟩ | ⟨-, -, b, -, hconfig, hr⟩
  · exact absurd hok (by rcases hr with rfl | rfl <;> decide)
  · have hzero : r = 0 := (answer_eq_zero_iff (hr ▸ settingsResult_le.trans (by decide))).mp hok
    rw [hzero] at hr
    have hfits := (createRequest_zero_iff behind id htoc hlinker hknown).mp hr.symm
    rw [createRequest_items behind id htoc hlinker hknown hr.symm] at hconfig
    have hb : s1.config lists1 b = some ⟨id.toNat, wanted.map fun e =>
        (variableAt groups e.ident).op⟩ := by
      rw [hconfig, Function.update_self]
    obtain ⟨lists2, h2, hb2⟩ := h1.handlePackets hb hkeep hlater
    obtain ⟨halloc, hblock, hitems⟩ := LogState.config_eq_some hb2
    refine ⟨b, hblock, ?_⟩
    intro env timestamp images himages
    obtain ⟨hvariables, hwidths⟩ := images_of_known hknown himages
    have hloggable : ∀ v ∈ wanted.map fun e => variableAt groups e.ident, v.Loggable := by
      intro v hv
      obtain ⟨e, he, rfl⟩ := List.mem_map.mp hv
      exact (hknown e he).variable_loggable
    have hlength : images.flatten.length ≤ logMaxLen := by
      rw [List.length_flatten, ← hwidths]
      exact hfits.1
    have hid : UInt8.ofInt (t.logBlocks b).id = id := by
      have hlt := id.toNat_lt
      rw [hblock]
      exact UInt8.toNat_inj.mp (Int.natCast_inj.mp
        (toNat_ofInt (Int.natCast_nonneg _) (by dsimp only; omega)))
    have hrun := h2.runBlock_images halloc hloggable (by rw [hitems, List.map_map]; rfl) hvariables
      hlength
    rw [hid] at hrun
    refine ⟨_, _, hrun, ?_, readLogPacket_eq hwidths id timestamp⟩
    rw [List.length_append, List.length_cons, leBytes_length, crtpMaxDataSize]
    unfold logMaxLen at hlength
    omega

/-- Both variables of a table, in the other order, with a START after the CREATE. -/
theorem log_end_to_end_small : ∃ s q s' t b visited pk,
    controlRun twoGroupsLinker [] .zero = some ((), s) ∧
    logControlProcess twoGroupsLinker true (controlRequest (fun _ => 0xFF)
      (createRequest 7 [⟨1, [0x67], [0x61], logUint8⟩, ⟨0, [0x70, 0x6D], [0x76], logFloat⟩])) s =
        some (q, s') ∧
    handlePackets twoGroupsLinker [(true, .ofBytes [3, 7, 10])] s' = some ((), t) ∧
    (t.logBlocks b).id = (7 : ℕ) ∧
    logRunBlockLocked ⟨fun a => UInt8.ofNat a, fun _ _ _ => none, fun _ => 0, fun _ => 0,
      fun _ => 0⟩ 1000 b (t.logBlocks b).ops t = (visited, some pk) ∧
    readLogPacket [⟨1, [0x67], [0x61], logUint8⟩, ⟨0, [0x70, 0x6D], [0x76], logFloat⟩] pk =
      some (7, 1000, [[4], [0, 1, 2, 3]]) := by
  have hrun : (controlRun twoGroupsLinker [] .zero).any (fun x => (logControlProcess
      twoGroupsLinker true (controlRequest (fun _ => 0xFF) (createRequest 7
        [⟨1, [0x67], [0x61], logUint8⟩, ⟨0, [0x70, 0x6D], [0x76], logFloat⟩])) x.2).any
          (fun y => decide (y.1.data 2 = 0) && (handlePackets twoGroupsLinker
            [(true, .ofBytes [3, 7, 10])] y.2).isSome)) = true := by
    decide +kernel
  obtain ⟨⟨_, s⟩, hs, hany⟩ := (Option.any_eq_true ..).mp hrun
  obtain ⟨⟨q, s'⟩, hq, hboth⟩ := (Option.any_eq_true ..).mp hany
  obtain ⟨hok, hlater⟩ := (Bool.and_eq_true ..).mp hboth
  obtain ⟨⟨_, t⟩, ht⟩ := Option.isSome_iff_exists.mp hlater
  have hdownload : download twoGroupsToc (fun _ _ => 0xFF) =
      some [⟨0, [0x70, 0x6D], [0x76], logFloat⟩, ⟨1, [0x67], [0x61], logUint8⟩] := by
    decide +kernel
  obtain ⟨b, hb, hpackets⟩ := log_end_to_end twoGroups_accepted rfl rfl hs hdownload (by decide)
    (by decide) hq (of_decide_eq_true hok) ht (by decide)
  obtain ⟨visited, pk, hpk, -, hread⟩ := hpackets ⟨fun a => UInt8.ofNat a, fun _ _ _ => none,
    fun _ => 0, fun _ => 0, fun _ => 0⟩ 1000 [[4], [0, 1, 2, 3]]
    (.cons ⟨_, _, rfl, rfl, rfl, rfl⟩ (.cons ⟨_, _, rfl, rfl, rfl, rfl⟩ .nil))
  exact ⟨s, q, s', t, b, visited, pk, hs, hq, ht, hb, hpk, hread⟩

end NanoDrone.Log
