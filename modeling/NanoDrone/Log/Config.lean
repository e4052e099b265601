import NanoDrone.Log.OpsPool
import Mathlib.Algebra.BigOperators.Group.List.Basic

/-! # Log configurations

What the control commands are for: a client keeps a few blocks, each with an id and the ops that
are logged for it, in the order in which they were appended.  `Config` says so without a pool and
without links.  `Config.Step` is what a command may do to it: a block is created, one is extended
by ops for the first settings of the packet, as long as their fields fit in a log packet, one is
deleted, or all are.

`LogState.config` reads the configuration off the state of `log.c`, given the lists of its ops. -/

namespace NanoDrone.Log

/-- An op without its link. -/
def LogOps.item (o : LogOps) : LogOps := { o with next := none }

/-- A block that is allocated, with its ops in order. -/
structure Block where
  id : Int
  items : List LogOps
deriving DecidableEq, Repr

abbrev Config := BlockPtr → Option Block

/-- The length of the fields of ops in a packet. -/
def itemsLength (items : List LogOps) : ℕ :=
  (items.map fun o => (typeLength o.logType).getD 0).sum

theorem itemsLength_cons (o : LogOps) (items : List LogOps) :
    itemsLength (o :: items) = (typeLength o.logType).getD 0 + itemsLength items := by
  simp [itemsLength]

theorem itemsLength_append (items items' : List LogOps) :
    itemsLength (items ++ items') = itemsLength items + itemsLength items' := by
  simp [itemsLength]

/-! ### What a packet asks for -/

/-- An op before anything is set. -/
def blankOps : LogOps := ⟨none, 0, 0, none, .memory⟩

/-- The ops for the settings from `i` on, up to one that names no variable. -/
def settingItems (f : SettingFormat) (logs : List LogVar) (settings : Settings) (len : ℕ) :
    ℕ → ℕ → List LogOps
  | 0, _ => []
  | fuel + 1, i =>
      if i < len then
        if (f.read settings.bytes i).id ≠ f.memoryId then
          match variableGetIndex logs (f.read settings.bytes i).id with
          | none => []
          | some varId => tocOps logs varId (f.read settings.bytes i) blankOps ::
              settingItems f logs settings len fuel (i + 1)
        else memoryOps (settings.address + f.size * (i + 1)) (f.read settings.bytes i) blankOps ::
          settingItems f logs settings len fuel (i + 2 + 1)
      else []

/-- The ops for all settings of a packet. -/
def ControlPacket.items (p : ControlPacket) (linker : Linker) (f : SettingFormat) : List LogOps :=
  settingItems f linker.logs (p.settings linker) (settingsLen p f) (settingsLen p f) 0

/-- The ops that the loop over the settings from `i` on appends to a block whose fields take up
`used` bytes while the pool has `free` ops, and its answer.  It stops at the first setting that
does not fit, finds no op or names no variable. -/
def settingsResult (f : SettingFormat) (logs : List LogVar) (settings : Settings) (len : ℕ) :
    ℕ → ℕ → ℕ → ℕ → List LogOps × ℕ
  | 0, _, _, _ => ([], 0)
  | fuel + 1, i, used, free =>
      if i < len then
        let setting := f.read settings.bytes i
        let length := (typeLength (setting.logType &&& logTypeMask)).getD 0
        if used + length > logMaxLen then ([], e2big)
        else if free = 0 then ([], enomem)
        else if setting.id ≠ f.memoryId then
          match variableGetIndex logs setting.id with
          | none => ([], enoent)
          | some varId =>
              let r := settingsResult f logs settings len fuel (i + 1) (used + length) (free - 1)
              (tocOps logs varId setting blankOps :: r.1, r.2)
        else
          let r := settingsResult f logs settings len fuel (i + 2 + 1) (used + length) (free - 1)
          (memoryOps (settings.address + f.size * (i + 1)) setting blankOps :: r.1, r.2)
      else ([], 0)

/-- The setting that the loop reads after the setting `i`. -/
def SettingFormat.after (f : SettingFormat) (bytes : Bytes) (i : ℕ) : ℕ :=
  if (f.read bytes i).id ≠ f.memoryId then i + 1 else i + 2 + 1

/-- The answer to one setting, 0 when an op is appended for it. -/
def settingAnswer (f : SettingFormat) (logs : List LogVar) (setting : OpsSetting)
    (used free : ℕ) : ℕ :=
  if used + (typeLength (setting.logType &&& logTypeMask)).getD 0 > logMaxLen then e2big
  else if free = 0 then enomem
  else if setting.id ≠ f.memoryId ∧ variableGetIndex logs setting.id = none then enoent
  else 0

/-- The op for the setting `i`. -/
def settingItem (f : SettingFormat) (logs : List LogVar) (settings : Settings) (i : ℕ) : LogOps :=
  let setting := f.read settings.bytes i
  if setting.id ≠ f.memoryId then
    tocOps logs ((variableGetIndex logs setting.id).getD 0) setting blankOps
  else memoryOps (settings.address + f.size * (i + 1)) setting blankOps

/-- The first setting is answered with zero and gives an op, or its error is the answer. -/
theorem settingsResult_succ {f : SettingFormat} {logs : List LogVar} {settings : Settings}
    {len fuel i used free : ℕ} (hi : i < len) :
    settingsResult f logs settings len (fuel + 1) i used free =
      if settingAnswer f logs (f.read settings.bytes i) used free = 0 then
        let r := settingsResult f logs settings len fuel (f.after settings.bytes i)
          (used + (typeLength ((f.read settings.bytes i).logType &&& logTypeMask)).getD 0)
          (free - 1)
        (settingItem f logs settings i :: r.1, r.2)
      else ([], settingAnswer f logs (f.read settings.bytes i) used free) := by
  rw [settingsResult, if_pos hi]
  unfold settingAnswer settingItem SettingFormat.after
  dsimp only
  split
  · rfl
  · split
    · rfl
    · by_cases hid : (f.read settings.bytes i).id ≠ f.memoryId
      · rw [if_pos hid, if_pos hid, if_pos hid]
        cases variableGetIndex logs (f.read settings.bytes i).id with
        | none => simp [hid, enoent]
        | some varId => simp only [reduceCtorEq, and_false, ↓reduceIte, Option.getD_some]
      · rw [if_neg hid, if_neg hid, if_neg hid]
        simp only [hid, false_and, ↓reduceIte]

theorem settingItem_length {f : SettingFormat} {logs : List LogVar} {settings : Settings} {i : ℕ} :
    itemsLength [settingItem f logs settings i] =
      (typeLength ((f.read settings.bytes i).logType &&& logTypeMask)).getD 0 := by
  unfold itemsLength settingItem
  dsimp only
  split <;> rfl

/-! ### What a command may do -/

/-- Some of the first ops asked for have been appended, and what was appended fits. -/
def Grown (old asked new : List LogOps) : Prop :=
  ∃ pre, pre <+: asked ∧ new = old ++ pre ∧ (pre = [] ∨ itemsLength new ≤ logMaxLen)

theorem Grown.refl (old asked : List LogOps) : Grown old asked old :=
  ⟨[], List.nil_prefix, (List.append_nil old).symm, Or.inl rfl⟩

/-- One more op in front. -/
theorem Grown.cons {old asked new : List LogOps} {o : LogOps} (h : Grown (old ++ [o]) asked new)
    (hfits : itemsLength (old ++ [o]) ≤ logMaxLen) : Grown old (o :: asked) new := by
  obtain ⟨pre, hpre, rfl, hlen⟩ := h
  refine ⟨o :: pre, List.cons_prefix_cons.mpr ⟨rfl, hpre⟩, by simp, Or.inr ?_⟩
  rcases hlen with rfl | hlen
  · rwa [List.append_nil]
  · exact hlen

/-- The ops that the loop appends. -/
theorem settingsResult_grown {f : SettingFormat} {logs : List LogVar} {settings : Settings}
    {len fuel i free : ℕ} (old : List LogOps) : Grown old (settingItems f logs settings len fuel i)
      (old ++ (settingsResult f logs settings len fuel i (itemsLength old) free).1) := by
  have hstop : ∀ old asked, Grown old asked (old ++ []) := by
    intro old asked
    rw [List.append_nil]
    exact .refl old asked
  induction fuel generalizing i old free with
  | zero => exact hstop old []
  | succ fuel ih =>
      unfold settingsResult settingItems
      by_cases hlen : i < len
      · rw [if_pos hlen, if_pos hlen]
        dsimp only
        by_cases hfull : itemsLength old +
            (typeLength ((f.read settings.bytes i).logType &&& logTypeMask)).getD 0 > logMaxLen
        · rw [if_pos hfull]
          exact hstop old _
        · rw [if_neg hfull]
          -- an op of either kind, and then the rest
          have hnext : ∀ {o : LogOps} {j : ℕ},
              o.logType = (f.read settings.bytes i).logType &&& logTypeMask →
              Grown old (o :: settingItems f logs settings len fuel j) (old ++ (o ::
                (settingsResult f logs settings len fuel j (itemsLength old + (typeLength
                  ((f.read settings.bytes i).logType &&& logTypeMask)).getD 0) (free - 1)).1)) := by
            intro o j htype
            have hone : itemsLength (old ++ [o]) = itemsLength old +
                (typeLength ((f.read settings.bytes i).logType &&& logTypeMask)).getD 0 := by
              rw [itemsLength_append, itemsLength_cons, htype]
              rfl
            have hgrown : Grown (old ++ [o]) (settingItems f logs settings len fuel j)
                (old ++ [o] ++ (settingsResult f logs settings len fuel j
                  (itemsLength (old ++ [o])) (free - 1)).1) := ih _
            rw [hone, List.append_assoc, List.singleton_append] at hgrown
            exact hgrown.cons (by rw [hone]; exact Nat.not_lt.mp hfull)
          by_cases hfree : free = 0
          · rw [if_pos hfree]
            exact hstop old _
          · rw [if_neg hfree]
            by_cases hid : (f.read settings.bytes i).id ≠ f.memoryId
            · rw [if_pos hid, if_pos hid]
              cases variableGetIndex logs (f.read settings.bytes i).id with
              | none => exact hstop old _
              | some varId => exact hnext rfl
            · rw [if_neg hid, if_neg hid]
              exact hnext rfl
      · rw [if_neg hlen, if_neg hlen]
        exact hstop old _

/-- What fitted still does. -/
theorem Grown.fits {old asked new : List LogOps} (h : Grown old asked new)
    (hold : itemsLength old ≤ logMaxLen) : itemsLength new ≤ logMaxLen := by
  obtain ⟨pre, -, rfl, rfl | hlen⟩ := h
  · rwa [List.append_nil]
  · exact hlen

namespace Config

/-- No block has the id. -/
def Unknown (c : Config) (id : Int) : Prop := ∀ a blk, c a = some blk → blk.id ≠ id

/-- A new block gets some of the ops asked for, or nothing happens. -/
def Creates (id : Int) (asked : List LogOps) (c c' : Config) : Prop :=
  c' = c ∨ c.Unknown id ∧ ∃ b items, c b = none ∧ Grown [] asked items ∧
    c' = Function.update c b (some ⟨id, items⟩)

/-- The block with the id gets some of the ops asked for. -/
def Appends (id : Int) (asked : List LogOps) (c c' : Config) : Prop :=
  c.Unknown id ∧ c' = c ∨ ∃ b old new, c b = some ⟨id, old⟩ ∧ Grown old asked new ∧
    c' = Function.update c b (some ⟨id, new⟩)

/-- The loop over the settings has run on the block with the id and has answered `r`. -/
def AppendResult (f : SettingFormat) (logs : List LogVar) (settings : Settings) (len free : ℕ)
    (id : Int) (r : ℕ) (c c' : Config) : Prop :=
  c.Unknown id ∧ c' = c ∧ r = enoent ∨ ∃ b old, c b = some ⟨id, old⟩ ∧
    c' = Function.update c b (some ⟨id, old ++
      (settingsResult f logs settings len len 0 (itemsLength old) free).1⟩) ∧
    r = (settingsResult f logs settings len len 0 (itemsLength old) free).2

/-- The id is in use, there is no block or no timer, or a new block has got its settings. -/
def CreateResult (f : SettingFormat) (logs : List LogVar) (settings : Settings) (len free : ℕ)
    (created : Bool) (id : Int) (r : ℕ) (c c' : Config) : Prop :=
  ¬ c.Unknown id ∧ c' = c ∧ r = eexist ∨
  c.Unknown id ∧ ((∀ b, c b ≠ none) ∨ created = false) ∧ c' = c ∧ r = enomem ∨
  c.Unknown id ∧ created = true ∧ ∃ b, c b = none ∧
    AppendResult f logs settings len free id r (Function.update c b (some ⟨id, []⟩)) c'

/-- The block with the id is gone. -/
def Deletes (id : Int) (c c' : Config) : Prop :=
  c.Unknown id ∧ c' = c ∨ ∃ b items, c b = some ⟨id, items⟩ ∧ c' = Function.update c b none

/-- What the command of a packet may do. -/
def Step (linker : Linker) (p : ControlPacket) (c c' : Config) : Prop :=
  match (p.data 0).toNat with
  | controlCreateBlock => c.Creates (p.data 1).toNat (p.items linker opsSetting) c'
  | controlAppendBlock => c.Appends (p.data 1).toNat (p.items linker opsSetting) c'
  | controlDeleteBlock => c.Deletes (p.data 1).toNat c'
  | controlReset => c' = fun _ => none
  | controlCreateBlockV2 => c.Creates (p.data 1).toNat (p.items linker opsSettingV2) c'
  | controlAppendBlockV2 => c.Appends (p.data 1).toNat (p.items linker opsSettingV2) c'
  | _ => c' = c

/-- What the commands of packets may have done, one after the other. -/
inductive Run (linker : Linker) : List ControlPacket → Config → Prop
  | start : Run linker [] fun _ => none
  | step {packets : List ControlPacket} {p : ControlPacket} {c c' : Config} :
      Run linker packets c → c.Step linker p c' → Run linker (packets ++ [p]) c'

section
variable {f : SettingFormat} {logs : List LogVar} {settings : Settings} {len free r : ℕ}
  {created : Bool} {id : Int} {c c' : Config}

theorem AppendResult.appends (h : AppendResult f logs settings len free id r c c') :
    c.Appends id (settingItems f logs settings len len 0) c' := by
  rcases h with ⟨hunknown, hc, -⟩ | ⟨b, old, hb, hc, -⟩
  · exact Or.inl ⟨hunknown, hc⟩
  · exact Or.inr ⟨b, old, _, hb, settingsResult_grown old, hc⟩

end

/-- An append to a block that was just made. -/
theorem Creates.of_appends {c c' : Config} {id : Int} {asked : List LogOps} {b : BlockPtr}
    (hunknown : c.Unknown id) (hb : c b = none)
    (h : Appends id asked (Function.update c b (some ⟨id, []⟩)) c') : c.Creates id asked c' := by
  rcases h with ⟨hnot, -⟩ | ⟨a, old, new, ha, hgrown, rfl⟩
  · exact absurd rfl (hnot b _ (Function.update_self ..))
  · rcases eq_or_ne a b with rfl | hab
    · rw [Function.update_self] at ha
      cases ha
      exact Or.inr ⟨hunknown, a, new, hb, hgrown, Function.update_idem ..⟩
    · rw [Function.update_of_ne hab] at ha
      exact absurd rfl (hunknown a _ ha)

theorem CreateResult.creates {f : SettingFormat} {logs : List LogVar} {settings : Settings}
    {len free r : ℕ} {created : Bool} {id : Int} {c c' : Config}
    (h : CreateResult f logs settings len free created id r c c') :
    c.Creates id (settingItems f logs settings len len 0) c' := by
  rcases h with ⟨-, hc, -⟩ | ⟨-, -, hc, -⟩ | ⟨hunknown, -, b, hb, happend⟩
  · exact Or.inl hc
  · exact Or.inl hc
  · exact .of_appends hunknown hb happend.appends

/-- The fields of every block fit in a log packet, and its id is that of a packet. -/
def Fits (c : Config) : Prop :=
  ∀ b blk, c b = some blk → itemsLength blk.items ≤ logMaxLen ∧ 0 ≤ blk.id ∧ blk.id < 256

variable {c c' : Config} {linker : Linker} {p : ControlPacket}

theorem Fits.update (h : c.Fits) {b : BlockPtr} {new : Option Block} (hnew : ∀ blk, new = some blk →
    itemsLength blk.items ≤ logMaxLen ∧ 0 ≤ blk.id ∧ blk.id < 256) :
    Fits (Function.update c b new) := by
  intro a blk hblk
  rcases eq_or_ne a b with rfl | ha
  · rw [Function.update_self] at hblk
    exact hnew blk hblk
  · rw [Function.update_of_ne ha] at hblk
    exact h a blk hblk

theorem Fits.update_some (h : c.Fits) {b : BlockPtr} {id : UInt8} {items : List LogOps}
    (hitems : itemsLength items ≤ logMaxLen) :
    Fits (Function.update c b (some ⟨id.toNat, items⟩)) := by
  refine h.update ?_
  intro blk hblk
  cases hblk
  have hlt := id.toNat_lt
  exact ⟨hitems, Int.natCast_nonneg _, by dsimp only; omega⟩

theorem Fits.creates (h : c.Fits) {id : UInt8} {asked : List LogOps}
    (hc : c.Creates id.toNat asked c') : c'.Fits := by
  rcases hc with rfl | ⟨-, b, items, -, hgrown, rfl⟩
  · exact h
  · exact h.update_some (hgrown.fits (Nat.zero_le _))

theorem Fits.appends (h : c.Fits) {id : UInt8} {asked : List LogOps}
    (hc : c.Appends id.toNat asked c') : c'.Fits := by
  rcases hc with ⟨-, rfl⟩ | ⟨b, old, new, hold, hgrown, rfl⟩
  · exact h
  · exact h.update_some (hgrown.fits (h b _ hold).1)

theorem Fits.step (h : c.Fits) (hstep : c.Step linker p c') : c'.Fits := by
  unfold Step at hstep
  split at hstep
  · exact h.creates hstep
  · exact h.appends hstep
  · rcases hstep with ⟨-, rfl⟩ | ⟨b, items, -, rfl⟩
    · exact h
    · exact h.update fun _ hblk => by cases hblk
  · subst hstep
    exact fun _ _ hblk => by cases hblk
  · exact h.creates hstep
  · exact h.appends hstep
  · subst hstep
    exact h

theorem Run.fits {packets : List ControlPacket} (h : Run linker packets c) : c.Fits := by
  induction h with
  | start => exact fun _ _ hblk => by cases hblk
  | step _ hstep ih => exact ih.step hstep

end Config

/-! ### The configuration of a state -/

namespace LogState

variable (s : LogState) (lists : BlockPtr → List OpsPtr)

def items (l : List OpsPtr) : List LogOps := l.map fun o => (s.logOps o).item

def config : Config := fun b =>
  if s.Allocated b then some ⟨(s.logBlocks b).id, s.items (lists b)⟩ else none

variable {s lists} {s' : LogState} {lists' : BlockPtr → List OpsPtr} {b : BlockPtr}

theorem config_allocated (hb : s.Allocated b) :
    s.config lists b = some ⟨(s.logBlocks b).id, s.items (lists b)⟩ := if_pos hb

theorem config_free (hb : ¬ s.Allocated b) : s.config lists b = none := if_neg hb

/-- A block with the same id and the same ops. -/
theorem config_apply_congr (hid : (s'.logBlocks b).id = (s.logBlocks b).id)
    (hitems : s'.items (lists' b) = s.items (lists b)) :
    s'.config lists' b = s.config lists b := by
  have halloc : s'.Allocated b ↔ s.Allocated b := allocated_congr hid
  by_cases hb : s.Allocated b
  · rw [config_allocated hb, config_allocated (halloc.mpr hb), hid, hitems]
  · rw [config_free hb, config_free fun e => hb (halloc.mp e)]

/-- All blocks but one have the same id and the same ops. -/
theorem config_update {blk : Option Block}
    (hid : ∀ a, a ≠ b → (s'.logBlocks a).id = (s.logBlocks a).id)
    (hitems : ∀ a, a ≠ b → s'.items (lists' a) = s.items (lists a))
    (hb : s'.config lists' b = blk) :
    s'.config lists' = Function.update (s.config lists) b blk := by
  funext a
  rcases eq_or_ne a b with rfl | ha
  · rw [Function.update_self, hb]
  · rw [Function.update_of_ne ha]
    exact config_apply_congr (hid a ha) (hitems a ha)

theorem config_congr (hid : ∀ a, (s'.logBlocks a).id = (s.logBlocks a).id)
    (hops : s'.logOps = s.logOps) : s'.config lists = s.config lists := by
  funext a
  refine config_apply_congr (hid a) ?_
  unfold items
  rw [hops]

end LogState

end NanoDrone.Log
