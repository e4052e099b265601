import NanoDrone.Lib.Bytes

/-! # Register access over I2C (`i2cdevInit.c`)

`I2cBus` stands for the calls of Zephyr's I2C driver that `i2cdevInit.c` makes; they return an
error code, here whether it was zero.  The register functions for 16-bit addresses take the
address as a `uint8_t` parameter, like those for 8-bit addresses.

`EepromOnBus` is what is assumed of a bus with the EEPROM at `EEPROM_I2C_ADDR`: a transfer that
succeeds accesses consecutive bytes from the internal address, a write that fails changes at
most bytes of its range, and neither a read nor a bare write of one byte changes the memory. -/

namespace NanoDrone

/-- `EEPROM_I2C_ADDR`. -/
def eepromI2cAddr : ℕ := 0x50

/-- Zephyr's I2C calls on a bus with state `β`: device address, internal address, length or
data. -/
structure I2cBus (β : Type) where
  burstRead : ℕ → ℕ → ℕ → β → Option (List UInt8) × β
  burstWrite : ℕ → ℕ → List UInt8 → β → Bool × β
  write : ℕ → List UInt8 → β → Bool × β

section
variable {β : Type} (bus : I2cBus β)

def i2cdevReadReg16 (devAddress memAddress len : ℕ) (s : β) : Option (List UInt8) × β :=
  bus.burstRead devAddress (memAddress % 256) len s

def i2cdevWriteReg16 (devAddress memAddress : ℕ) (data : List UInt8) (s : β) : Bool × β :=
  bus.burstWrite devAddress (memAddress % 256) data s

/-- `i2cdevRead16`, for compatibility. -/
abbrev i2cdevRead16 := @i2cdevReadReg16

/-- `i2cdevWrite16`, for compatibility. -/
abbrev i2cdevWrite16 := @i2cdevWriteReg16

def i2cdevWrite (devAddress : ℕ) (data : List UInt8) (s : β) : Bool × β :=
  bus.write devAddress data s

end

/-- A write from internal address `start` stays inside one page of 32 bytes. -/
def InPage (start len : ℕ) : Prop := start % 32 + len ≤ 32

/-- The EEPROM answers on the bus. -/
structure EepromOnBus {β : Type} (bus : I2cBus β) where
  mem : β → Bytes
  read_data : ∀ {s s' : β} {start len : ℕ} {d : List UInt8},
    bus.burstRead eepromI2cAddr start len s = (some d, s') → d = (mem s).slice start len
  read_mem : ∀ (s : β) (start len : ℕ), mem (bus.burstRead eepromI2cAddr start len s).2 = mem s
  write_data : ∀ {s s' : β} {start : ℕ} {data : List UInt8}, InPage start data.length →
    bus.burstWrite eepromI2cAddr start data s = (true, s') → mem s' = (mem s).write start data
  write_fail : ∀ {s s' : β} {start : ℕ} {data : List UInt8}, InPage start data.length →
    bus.burstWrite eepromI2cAddr start data s = (false, s') →
    ∀ i, i < start ∨ start + data.length ≤ i → mem s' i = mem s i
  poll_mem : ∀ (s : β) (b : UInt8), mem (bus.write eepromI2cAddr [b] s).2 = mem s

/-- A bus on which every transfer succeeds. -/
def reliableBus : I2cBus Bytes where
  burstRead _ start len m := (some (m.slice start len), m)
  burstWrite _ start data m := (true, m.write start data)
  write _ _ m := (true, m)

def reliableEeprom : EepromOnBus reliableBus where
  mem m := m
  read_data h := by
    cases h
    rfl
  read_mem _ _ _ := rfl
  write_data _ h := by
    cases h
    rfl
  write_fail _ h := by cases h
  poll_mem _ _ := rfl

end NanoDrone
