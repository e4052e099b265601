import NanoDrone.Lib.Bytes

/-! # The EEPROM as its callers see it

`storage.c` and `configblockeeprom.c` reach the EEPROM through `eepromReadBuffer` and
`eepromWriteBuffer`.  Here these transfer bytes faithfully when the range check of `eeprom.c`
passes, and otherwise return false and touch nothing; refused accesses are counted.  What the
driver does behind the range check is the subject of `Eeprom.lean`. -/

namespace NanoDrone

/-- `EEPROM_SIZE`. -/
def eepromSize : ℕ := 0x1FFF

/-- The bytes of the EEPROM and the number of accesses refused so far. -/
structure EepromDevice where
  bytes : Bytes
  refused : ℕ

namespace EepromDevice

/-- `eepromReadBuffer`: the bytes read, or `none` where it returns false. -/
def readBuffer (readAddr len : ℕ) (d : EepromDevice) : Option (List UInt8) × EepromDevice :=
  if readAddr + len > eepromSize then (none, { d with refused := d.refused + 1 })
  else (some (d.bytes.slice readAddr len), d)

/-- `eepromWriteBuffer`. -/
def writeBuffer (writeAddr : ℕ) (buffer : List UInt8) (d : EepromDevice) : Bool × EepromDevice :=
  if writeAddr + buffer.length > eepromSize then (false, { d with refused := d.refused + 1 })
  else (true, { d with bytes := d.bytes.write writeAddr buffer })

theorem readBuffer_of_le {a n : ℕ} (d : EepromDevice) (h : a + n ≤ eepromSize) :
    d.readBuffer a n = (some (d.bytes.slice a n), d) := if_neg (Nat.not_lt.mpr h)

theorem writeBuffer_of_le {a : ℕ} {data : List UInt8} (d : EepromDevice)
    (h : a + data.length ≤ eepromSize) :
    d.writeBuffer a data = (true, { d with bytes := d.bytes.write a data }) :=
  if_neg (Nat.not_lt.mpr h)

end EepromDevice

end NanoDrone
