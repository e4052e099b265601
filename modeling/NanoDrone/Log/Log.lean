import NanoDrone.Lib.Bytes
import NanoDrone.Lib.LinkedList
import NanoDrone.Lib.Returns
import Mathlib.Algebra.Ring.Nat

/-! # The log subsystem (`log.c`)

The log subsystem has a fixed array of blocks and a fixed pool of ops.  The ops of a block are a
linked list, and an op of the pool is free when its variable is `NULL`; a block is free when its
id is `BLOCK_ID_FREE`.  Blocks are made, extended and deleted by control packets that
`logTask` handles under the lock `logLock`.

A function that only ever runs under the lock is a `LogM`, a state program that has no result
when a loop does not end or an access is undefined.  `logStopBlock`, `logDeleteBlock` and
`logReset` also run without it, so they are written over any monad with the state, one `get` or
`modify` for each access to it.

Pointers into the two arrays are indices, `none` is `NULL`, and other addresses are numbers.
Periods are in milliseconds. -/

namespace NanoDrone.Log

/-- `LOG_MAX_OPS`. -/
abbrev logMaxOps : ℕ := 128

/-- `LOG_MAX_BLOCKS`. -/
abbrev logMaxBlocks : ℕ := 16

/-- `LOG_MAX_LEN`: the maximum payload; 4 bytes are used for block id and timestamp. -/
def logMaxLen : ℕ := 26

/-- `BLOCK_ID_FREE`. -/
def blockIdFree : Int := -1

/-! The types of variables. -/

@[match_pattern] abbrev logUint8 : ℕ := 1
@[match_pattern] abbrev logUint16 : ℕ := 2
@[match_pattern] abbrev logUint32 : ℕ := 3
@[match_pattern] abbrev logInt8 : ℕ := 4
@[match_pattern] abbrev logInt16 : ℕ := 5
@[match_pattern] abbrev logInt32 : ℕ := 6
@[match_pattern] abbrev logFloat : ℕ := 7
@[match_pattern] abbrev logFp16 : ℕ := 8

/-- `LOG_TYPE_MASK`. -/
def logTypeMask : ℕ := 0x0f

/-- `LOG_BY_FUNCTION`. -/
def logByFunction : ℕ := 0x40

/-- `LOG_GROUP`. -/
def logGroup : ℕ := 0x80

/-- `typeLength`, by type; there is no entry after `LOG_FP16`. -/
def typeLength (logType : ℕ) : Option ℕ := [0, 1, 2, 4, 1, 2, 4, 4, 2][logType]?

/-! Error codes of the commands. -/

def enoent : ℕ := 2
def e2big : ℕ := 7
def enoexec : ℕ := 8
def enomem : ℕ := 12
def eexist : ℕ := 17

/-! The commands. -/

@[match_pattern] abbrev controlCreateBlock : ℕ := 0
@[match_pattern] abbrev controlAppendBlock : ℕ := 1
@[match_pattern] abbrev controlDeleteBlock : ℕ := 2
@[match_pattern] abbrev controlStartBlock : ℕ := 3
@[match_pattern] abbrev controlStopBlock : ℕ := 4
@[match_pattern] abbrev controlReset : ℕ := 5
@[match_pattern] abbrev controlCreateBlockV2 : ℕ := 6
@[match_pattern] abbrev controlAppendBlockV2 : ℕ := 7

/-! ### The state -/

/-- A pointer into `logOps`. -/
abbrev OpsPtr := Fin logMaxOps

/-- A pointer into `logBlocks`. -/
abbrev BlockPtr := Fin logMaxBlocks

abbrev Address := ℕ

/-- `acquisitionType_t`. -/
inductive AcquisitionType where
  | memory
  | function
deriving DecidableEq, Repr

/-- `struct log_ops`. -/
structure LogOps where
  next : Option OpsPtr
  storageType : ℕ
  logType : ℕ
  variablePtr : Option Address
  acquisitionType : AcquisitionType
deriving DecidableEq, Repr

/-- A timer, made with a period of 1000 ms. -/
structure Timer where
  active : Bool := false
  period : ℕ := 1000
deriving DecidableEq, Repr

/-- `struct log_block`. -/
structure LogBlock where
  id : Int
  timer : Option Timer
  droppedPackets : UInt32
  ops : Option OpsPtr
deriving DecidableEq, Repr

/-- The variables of `log.c`, and the blocks for which the worker is to run `logRunBlock`. -/
structure LogState where
  logOps : OpsPtr → LogOps
  logBlocks : BlockPtr → LogBlock
  isInit : Bool
  scheduled : List BlockPtr

namespace LogState

def setOps (s : LogState) (o : OpsPtr) (f : LogOps → LogOps) : LogState :=
  { s with logOps := Function.update s.logOps o (f (s.logOps o)) }

def setBlock (s : LogState) (b : BlockPtr) (f : LogBlock → LogBlock) : LogState :=
  { s with logBlocks := Function.update s.logBlocks b (f (s.logBlocks b)) }

/-- The links between the ops. -/
def next (s : LogState) (o : OpsPtr) : Option OpsPtr := (s.logOps o).next

end LogState

/-- The memory before `logInit`, all zeros. -/
def LogState.zero : LogState where
  logOps _ := ⟨none, 0, 0, none, .memory⟩
  logBlocks _ := ⟨0, none, 0, none⟩
  isInit := false
  scheduled := []

/-- `struct log_s` without the name. -/
structure LogVar where
  type : ℕ
  address : Option Address
deriving DecidableEq, Repr

/-- What the linker provides: the table of variables and the address of `p.data`.  No variable is at
`NULL`; an op whose variable is `NULL` counts as free, so one with such a variable would be given
out again.  All that is said of runs with a `Linker` is said under this condition. -/
structure Linker where
  logs : List LogVar
  packetData : Address
  address_ne : ∀ v ∈ logs, v.type &&& logGroup = 0 → v.address ≠ none

/-- A control packet: its size, and the memory from its data on. -/
structure ControlPacket where
  size : ℕ
  data : Bytes

/-- A packet with zeros in the memory after it. -/
def ControlPacket.ofBytes (bytes : List UInt8) : ControlPacket :=
  ⟨bytes.length, fun i => bytes.getD i 0⟩

/-! ### Functions that also run without the lock -/

section
variable {m : Type → Type} [Monad m] [MonadStateOf LogState m]

/-- `for (i=0; i<LOG_MAX_BLOCKS; i++) if (logBlocks[i].id == id) break;`. -/
def findBlockIn (id : Int) : List BlockPtr → m (Option BlockPtr)
  | [] => pure none
  | i :: rest => do
      if ((← get).logBlocks i).id = id then pure (some i) else findBlockIn id rest

def findBlock (id : Int) : m (Option BlockPtr) := findBlockIn id (List.finRange logMaxBlocks)

def opsFree (ops : OpsPtr) : m Unit :=
  modify (·.setOps ops fun o => { o with variablePtr := none })

/-- `xTimerDelete(logBlocks[i].timer, portMAX_DELAY); logBlocks[i].timer = 0;`. -/
def xTimerDelete (i : BlockPtr) : m Unit := modify (·.setBlock i fun b => { b with timer := none })

def setId (i : BlockPtr) (id : Int) : m Unit := modify (·.setBlock i fun b => { b with id := id })

variable [MonadExceptOf Unit m]

/-- `while (ops) { opsNext = ops->next; opsFree(ops); ops = opsNext; }`. -/
def freeList : ℕ → Option OpsPtr → m Unit
  | _, none => pure ()
  | 0, some _ => throw ()
  | fuel + 1, some ops => do
      let opsNext := (← get).next ops
      opsFree ops
      freeList fuel opsNext

/-- `xTimerStop(logBlocks[i].timer, portMAX_DELAY)`. -/
def xTimerStop (i : BlockPtr) : m Unit := do
  match ((← get).logBlocks i).timer with
  | none => throw ()
  | some _ =>
      modify (·.setBlock i fun b => { b with timer := b.timer.map ({ · with active := false }) })

def logStopBlock (id : Int) : m ℕ := do
  match ← findBlock id with
  | none => pure enoent
  | some i => do
      xTimerStop i
      pure 0

def logDeleteBlock (id : Int) : m ℕ := do
  match ← findBlock id with
  | none => pure enoent
  | some i => do
      let ops := ((← get).logBlocks i).ops
      freeList logMaxOps ops
      if ((← get).logBlocks i).timer.isSome then do
        xTimerStop i
        xTimerDelete i
      setId i blockIdFree
      pure 0

/-- Stop and delete the block if it is started. -/
def resetBlock (i : BlockPtr) : m Unit := do
  if ((← get).logBlocks i).id ≠ -1 then do
    let _ ← logStopBlock ((← get).logBlocks i).id
    let _ ← logDeleteBlock ((← get).logBlocks i).id

def logReset : m Unit := do
  if (← get).isInit then
    (List.finRange logMaxBlocks).forM resetBlock
  (List.finRange logMaxBlocks).forM (setId · blockIdFree)
  (List.finRange logMaxOps).forM opsFree

end

/-! ### Functions that run under the lock -/

abbrev LogM := StateT LogState Option

/-- `variableGetIndex` from the index `i` on, with `n` variables before it. -/
def variableGetIndexFrom (id : ℕ) : List LogVar → ℕ → ℕ → Option ℕ
  | [], _, _ => none
  | v :: rest, i, n =>
      if v.type &&& logGroup = 0 then
        if n = id then some i else variableGetIndexFrom id rest (i + 1) (n + 1)
      else variableGetIndexFrom id rest (i + 1) n

/-- `none` for the result -1. -/
def variableGetIndex (logs : List LogVar) (id : ℕ) : Option ℕ := variableGetIndexFrom id logs 0 0

/-- `logs[varId]`. -/
def logsAt (logs : List LogVar) (varId : ℕ) : LogVar := logs.getD varId ⟨0, none⟩

def logGetType (logs : List LogVar) (varId : ℕ) : ℕ := (logsAt logs varId).type &&& logTypeMask

def acquisitionTypeFromLogType (logType : ℕ) : AcquisitionType :=
  if logType &&& logByFunction ≠ 0 then .function else .memory

/-- The first op of the pool with variable `NULL`. -/
def opsMalloc : LogM (Option OpsPtr) := do
  let s ← get
  pure ((List.finRange logMaxOps).find? fun o => (s.logOps o).variablePtr.isNone)

def blockCalcLength (block : BlockPtr) : LogM ℕ := do
  let s ← get
  StateT.lift (walk s.next (fun len o => (typeLength (s.logOps o).logType).map (len + ·)) logMaxOps
    (s.logBlocks block).ops 0)

def blockAppendOps (block : BlockPtr) (ops : OpsPtr) : LogM Unit := do
  modify (·.setOps ops fun o => { o with next := none })
  let s ← get
  match (s.logBlocks block).ops with
  | none => set (s.setBlock block fun b => { b with ops := some ops })
  | some first => do
      let last ← StateT.lift (lastCell s.next logMaxOps first)
      set (s.setOps last fun o => { o with next := some ops })

/-- An element of `settings`. -/
structure OpsSetting where
  logType : ℕ
  id : ℕ
deriving DecidableEq, Repr

/-- An array `settings`: where it is and the memory there. -/
structure Settings where
  address : Address
  bytes : Bytes

/-- How settings are laid out in a version of the protocol, and the id that stands for a memory
variable. -/
structure SettingFormat where
  size : ℕ
  read : Bytes → ℕ → OpsSetting
  memoryId : ℕ

/-- `struct ops_setting`. -/
def opsSetting : SettingFormat where
  size := 2
  read bytes i := ⟨(bytes (2 * i)).toNat, (bytes (2 * i + 1)).toNat⟩
  memoryId := 255

/-- `struct ops_setting_v2`. -/
def opsSettingV2 : SettingFormat where
  size := 3
  read bytes i :=
    ⟨(bytes (3 * i)).toNat, (bytes (3 * i + 1)).toNat + 256 * (bytes (3 * i + 2)).toNat⟩
  memoryId := 0xFFFF

/-- An op for the TOC variable `varId`. -/
def tocOps (logs : List LogVar) (varId : ℕ) (setting : OpsSetting) (o : LogOps) : LogOps :=
  { o with
    variablePtr := (logsAt logs varId).address
    storageType := logGetType logs varId
    logType := setting.logType &&& logTypeMask
    acquisitionType := acquisitionTypeFromLogType (logsAt logs varId).type }

/-- An op for a memory variable, whose pointer is `(void*)(&settings[i]+1)`. -/
def memoryOps (pointer : Address) (setting : OpsSetting) (o : LogOps) : LogOps :=
  { o with
    variablePtr := some pointer
    storageType := setting.logType >>> 4 &&& logTypeMask
    logType := setting.logType &&& logTypeMask
    acquisitionType := .memory }

/-- The loop of `logAppendBlock` over the settings from `i` on.  It runs at most `len` times. -/
def appendSettings (f : SettingFormat) (logs : List LogVar) (block : BlockPtr)
    (settings : Settings) (len : ℕ) : ℕ → ℕ → LogM ℕ
  | 0, _ => pure 0
  | fuel + 1, i =>
      if i < len then do
        let setting := f.read settings.bytes i
        let currentLength ← blockCalcLength block
        let length ← StateT.lift (typeLength (setting.logType &&& logTypeMask))
        if currentLength + length > logMaxLen then pure e2big
        else do
          match ← opsMalloc with
          | none => pure enomem
          | some ops =>
              if setting.id ≠ f.memoryId then
                match variableGetIndex logs setting.id with
                | none => pure enoent
                | some varId => do
                    modify (·.setOps ops (tocOps logs varId setting))
                    blockAppendOps block ops
                    appendSettings f logs block settings len fuel (i + 1)
              else do
                modify (·.setOps ops (memoryOps (settings.address + f.size * (i + 1)) setting))
                blockAppendOps block ops
                -- the settings that hold the address are skipped
                appendSettings f logs block settings len fuel (i + 2 + 1)
      else pure 0

/-- `logAppendBlock` and `logAppendBlockV2`. -/
def appendBlock (f : SettingFormat) (logs : List LogVar) (id : Int) (settings : Settings)
    (len : ℕ) : LogM ℕ := do
  match ← findBlock id with
  | none => pure enoent
  | some block => appendSettings f logs block settings len len 0

def logAppendBlock := appendBlock opsSetting

def logAppendBlockV2 := appendBlock opsSettingV2

/-- `logCreateBlock` and `logCreateBlockV2`; `created` says whether `xTimerCreateStatic` returns a
timer. -/
def createBlock (f : SettingFormat) (logs : List LogVar) (created : Bool) (id : Int)
    (settings : Settings) (len : ℕ) : LogM ℕ := do
  match ← findBlock id with
  | some _ => pure eexist
  | none => do
      match ← findBlock blockIdFree with
      | none => pure enomem
      | some i => do
          setId i id
          modify (·.setBlock i fun b =>
            { b with timer := if created then some {} else none, ops := none })
          if ((← get).logBlocks i).timer.isNone then do
            setId i blockIdFree
            pure enomem
          else appendBlock f logs id settings len

def logCreateBlock := createBlock opsSetting

def logCreateBlockV2 := createBlock opsSettingV2

/-- `workerSchedule(logRunBlock, &logBlocks[i])`. -/
def scheduleRunBlock (i : BlockPtr) (s : LogState) : LogState :=
  { s with scheduled := s.scheduled ++ [i] }

/-- `xTimerChangePeriod` and `xTimerStart`. -/
def xTimerStart (i : BlockPtr) (period : ℕ) : LogM Unit := do
  match ((← get).logBlocks i).timer with
  | none => throw ()
  | some _ => modify (·.setBlock i fun b => { b with timer := some ⟨true, period⟩ })

def logStartBlock (id : Int) (period : ℕ) : LogM ℕ := do
  match ← findBlock id with
  | none => pure enoent
  | some i => do
      if period > 0 then xTimerStart i period else modify (scheduleRunBlock i)
      pure 0

/-- `(p.size-2)/sizeof(..)`, in unsigned arithmetic. -/
def settingsLen (p : ControlPacket) (f : SettingFormat) : ℕ :=
  (p.size + (2 ^ 32 - 2)) % 2 ^ 32 / f.size

/-- `&p.data[2]`. -/
def ControlPacket.settings (p : ControlPacket) (linker : Linker) : Settings :=
  ⟨linker.packetData + 2, fun i => p.data (2 + i)⟩

/-- The result of the command of a control packet. -/
def controlCommand (linker : Linker) (created : Bool) (p : ControlPacket) : LogM ℕ :=
  let id : Int := (p.data 1).toNat
  match (p.data 0).toNat with
  | controlCreateBlock =>
      logCreateBlock linker.logs created id (p.settings linker) (settingsLen p opsSetting)
  | controlAppendBlock =>
      logAppendBlock linker.logs id (p.settings linker) (settingsLen p opsSetting)
  | controlDeleteBlock => logDeleteBlock id
  | controlStartBlock => logStartBlock id ((p.data 2).toNat * 10)
  | controlStopBlock => logStopBlock id
  | controlReset => do
      logReset
      pure 0
  | controlCreateBlockV2 =>
      logCreateBlockV2 linker.logs created id (p.settings linker) (settingsLen p opsSettingV2)
  | controlAppendBlockV2 =>
      logAppendBlockV2 linker.logs id (p.settings linker) (settingsLen p opsSettingV2)
  | _ => pure enoexec

/-- The command, and the packet that answers it. -/
def logControlProcess (linker : Linker) (created : Bool) (p : ControlPacket) :
    LogM ControlPacket := do
  let ret ← controlCommand linker created p
  pure ⟨3, Function.update p.data 2 (UInt8.ofNat ret)⟩

/-- `logInit`: the part that sets up the blocks and the ops. -/
def logInit : LogM Unit := do
  if (← get).isInit then pure ()
  else do
    (List.finRange logMaxBlocks).forM (setId · blockIdFree)
    logReset
    modify ({ · with isInit := true })

/-- `logInit`, and then control packets, each with what `xTimerCreateStatic` would say. -/
def controlRun (linker : Linker) (packets : List (Bool × ControlPacket)) : LogM Unit := do
  logInit
  packets.forM fun c => do
    let _ ← logControlProcess linker c.1 c.2

/-- `logBlockTimed`, called when the timer of a block expires. -/
def logBlockTimed (i : BlockPtr) (s : LogState) : LogState := scheduleRunBlock i s

end NanoDrone.Log
