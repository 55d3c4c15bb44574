import SmartStreaming.Base.Io.Buffer
import SmartStreaming.Rtmp.Amf.Value

/-!
# Rtmp/Amf/Codec — reading and writing AMF0 values on a `Buffer`

Both directions test `read_require` before each access, the writers too.  `discovery` peeks at the
end-of-object marker and at the type marker and rewinds with `seek_read(-3)` and `seek_read(-1)`;
the virtual `read` of the value it made reads the type marker again.

`amf0_read_any` and `Amf0Any::read` call each other.  Here `read` takes the call for a nested value
as `any`, and `readAny` ties the knot with fuel; `amf0ReadAny` gives it a unit for each byte there
is, which is never used up (`Rtmp/Amf/Progress`).
-/

namespace SmartStreaming

open Machinery Comp Buffer

/-! ## Reading -/

/-- The marker every reader begins with. -/
def amf0ReadMarker (required : Byte) : Stream PUnit := do
  requireRead 1 errorRtmpAmf0Decode
  let marker ← read1byte
  ensure (marker = required) errorRtmpAmf0Decode

/-- `amf0_read_utf8(stream, value)`: an empty string leaves `value` as it is. -/
def amf0ReadUtf8 (value : Bytes) : Stream Bytes := do
  requireRead 2 errorRtmpAmf0Decode
  let len ← read2bytes
  if len.toInt ≤ 0 then
    return value
  else
    requireRead len.toInt errorRtmpAmf0Decode
    readString len.toInt

def amf0ReadString (value : Bytes) : Stream Bytes := do
  amf0ReadMarker rtmpAmf0String
  amf0ReadUtf8 value

def amf0ReadBoolean : Stream Bool := do
  amf0ReadMarker rtmpAmf0Boolean
  requireRead 1 errorRtmpAmf0Decode
  let value ← read1byte
  return value ≠ 0

def amf0ReadNumber : Stream Double := do
  amf0ReadMarker rtmpAmf0Number
  requireRead 8 errorRtmpAmf0Decode
  read8bytes

def amf0ReadNull : Stream PUnit := amf0ReadMarker rtmpAmf0Null

def amf0ReadUndefined : Stream PUnit := amf0ReadMarker rtmpAmf0Undefined

/-- `Amf0Date::read`: the date value and the time zone. -/
def amf0ReadDate : Stream (BitVec 64 × BitVec 16) := do
  amf0ReadMarker rtmpAmf0Date
  requireRead 8 errorRtmpAmf0Decode
  let dateValue ← read8bytes
  requireRead 2 errorRtmpAmf0Decode
  let timeZone ← read2bytes
  return (dateValue, timeZone)

/-- `Amf0ObjectEOF::read`. -/
def amf0ReadObjectEof : Stream PUnit := do
  requireRead 2 errorRtmpAmf0Decode
  let temp ← read2bytes
  ensure (temp = 0x00) errorRtmpAmf0Decode
  amf0ReadMarker rtmpAmf0ObjectEnd

/-- `amf0_is_object_eof(stream)`. -/
def amf0IsObjectEof : Stream Bool := do
  if (← get).readRequire 3 then
    let flag ← read3bytes
    let _ ← seekRead (-3)
    return 0x09 = flag
  else
    return false

namespace Amf0Any

/-- The `switch` of `discovery`: the fresh value of the marker's class. -/
def ofMarker (marker : Byte) : Option Amf0Any :=
  if marker = rtmpAmf0String then some (string [])
  else if marker = rtmpAmf0Boolean then some (boolean false)
  else if marker = rtmpAmf0Number then some (number 0)
  else if marker = rtmpAmf0Null then some null
  else if marker = rtmpAmf0Undefined then some undefined
  else if marker = rtmpAmf0Object then some (object [])
  else if marker = rtmpAmf0EcmaArray then some (ecmaArray [] 0)
  else if marker = rtmpAmf0StrictArray then some (strictArray [] 0)
  else if marker = rtmpAmf0Date then some (date 0 0)
  else none

def discovery : Stream Amf0Any := do
  if ← amf0IsObjectEof then
    return objectEof
  else
    requireRead 1 errorRtmpAmf0Decode
    let marker ← read1byte
    let _ ← seekRead (-1)
    match ofMarker marker with
    | some value => return value
    | none => fail errorRtmpAmf0Invalid

/-- The loop of `Amf0Object::read` and `Amf0EcmaArray::read` over the properties, which goes on
while there is something to read and `more` asks for it. -/
def readProperties (any : Stream Amf0Any) (more : UnSortedHashtable → Bool) :
    ℕ → UnSortedHashtable → Stream UnSortedHashtable
  | 0, _ => stop .outOfFuel
  | fuel + 1, properties => do
    if ¬ (← get).readEmpty ∧ more properties then
      if ← amf0IsObjectEof then
        amf0ReadObjectEof
        return properties
      else
        let propertyName ← amf0ReadUtf8 []
        let propertyValue ← any
        readProperties any more fuel (properties.set propertyName (some propertyValue))
    else
      return properties

/-- The loop of `Amf0StrictArray::read` from its `i`-th round on. -/
def readElements (any : Stream Amf0Any) (count : ℤ) :
    ℕ → ℤ → List Amf0Any → Stream (List Amf0Any)
  | 0, _, _ => stop .outOfFuel
  | fuel + 1, i, properties => do
    if i < count ∧ ¬ (← get).readEmpty then
      let elem ← any
      readElements any count fuel (i + 1) (properties ++ [elem])
    else
      return properties

/-- `Amf0Object::read`. -/
def readObject (any : Stream Amf0Any) (fuel : ℕ) (properties : UnSortedHashtable) :
    Stream Amf0Any := do
  amf0ReadMarker rtmpAmf0Object
  let properties ← readProperties any (fun _ => true) fuel properties
  return object properties

/-- `Amf0EcmaArray::read`. -/
def readEcmaArray (any : Stream Amf0Any) (fuel : ℕ) (properties : UnSortedHashtable) :
    Stream Amf0Any := do
  amf0ReadMarker rtmpAmf0EcmaArray
  requireRead 4 errorRtmpAmf0Decode
  let count ← read4bytes
  let properties ← readProperties any (fun ps => ps.count < count.toInt) fuel properties
  return ecmaArray properties count

/-- `Amf0StrictArray::read`. -/
def readStrictArray (any : Stream Amf0Any) (fuel : ℕ) (properties : List Amf0Any) :
    Stream Amf0Any := do
  amf0ReadMarker rtmpAmf0StrictArray
  requireRead 4 errorRtmpAmf0Decode
  let count ← read4bytes
  let properties ← readElements any count.toInt fuel 0 properties
  return strictArray properties count

/-- The virtual `read(stream)`, with `any` for a nested `amf0_read_any`. -/
def read (any : Stream Amf0Any) (fuel : ℕ) : Amf0Any → Stream Amf0Any
  | string value => return string (← amf0ReadString value)
  | boolean _ => return boolean (← amf0ReadBoolean)
  | number _ => return number (← amf0ReadNumber)
  | date _ _ => do
    let (dateValue, timeZone) ← amf0ReadDate
    return date dateValue timeZone
  | null => do
    amf0ReadNull
    return null
  | undefined => do
    amf0ReadUndefined
    return undefined
  | objectEof => do
    amf0ReadObjectEof
    return objectEof
  | object properties => readObject any fuel properties
  | ecmaArray properties _ => readEcmaArray any fuel properties
  | strictArray properties _ => readStrictArray any fuel properties

/-- `amf0_read_any(stream, value)` down to the given depth. -/
def readAny : ℕ → Stream Amf0Any
  | 0 => stop .outOfFuel
  | fuel + 1 => do
    let value ← discovery
    value.read (readAny fuel) fuel

/-- `value->read(stream)`. -/
def readFrom (value : Amf0Any) : Stream Amf0Any := do
  let fuel := (← get).readLeft.toNat + 1
  value.read (readAny fuel) fuel

end Amf0Any

/-- `amf0_read_any(stream, value)`. -/
def amf0ReadAny : Stream Amf0Any := do
  Amf0Any.readAny ((← get).readLeft.toNat + 1)

/-! ## Accessors

Each asserts the class of the value, which `is_boolean()` and its like test by the marker. -/

namespace Amf0Any

def toStr : Amf0Any → Stream Bytes
  | string value => return value
  | _ => stop .assertion

def toBoolean : Amf0Any → Stream Bool
  | boolean value => return value
  | _ => stop .assertion

def toNumber : Amf0Any → Stream Double
  | number value => return value
  | _ => stop .assertion

/-- `to_object()`; an `Amf0EcmaArray` is an `Amf0Object` too. -/
def toObject : Amf0Any → Stream Amf0Any
  | object properties => return object properties
  | ecmaArray properties count => return ecmaArray properties count
  | _ => stop .assertion

def toEcmaArray : Amf0Any → Stream Amf0Any
  | ecmaArray properties count => return ecmaArray properties count
  | _ => stop .assertion

end Amf0Any

/-! ## Writing -/

/-- The marker every writer begins with. -/
def amf0WriteMarker (marker : Byte) : Stream PUnit := do
  requireRead 1 errorRtmpAmf0Encode
  let _ ← write1byte marker

/-- `amf0_write_utf8(stream, value)`: the length is cut to 16 bits, the result of `write_bytes` is
dropped. -/
def amf0WriteUtf8 (value : Bytes) : Stream PUnit := do
  requireRead 2 errorRtmpAmf0Encode
  let _ ← write2bytes (BitVec.ofNat 16 value.length)
  if value.length ≤ 0 then
    return ⟨⟩
  else
    requireRead value.length errorRtmpAmf0Encode
    let _ ← writeBytes value value.length

def amf0WriteString (value : Bytes) : Stream PUnit := do
  amf0WriteMarker rtmpAmf0String
  amf0WriteUtf8 value

def amf0WriteBoolean (value : Bool) : Stream PUnit := do
  amf0WriteMarker rtmpAmf0Boolean
  requireRead 1 errorRtmpAmf0Encode
  let _ ← write1byte (if value then 0x01 else 0x00)

def amf0WriteNumber (value : Double) : Stream PUnit := do
  amf0WriteMarker rtmpAmf0Number
  requireRead 8 errorRtmpAmf0Encode
  let _ ← write8bytes value

def amf0WriteNull : Stream PUnit := amf0WriteMarker rtmpAmf0Null

def amf0WriteUndefined : Stream PUnit := amf0WriteMarker rtmpAmf0Undefined

/-- `Amf0Date::write`. -/
def amf0WriteDate (dateValue : BitVec 64) (timeZone : BitVec 16) : Stream PUnit := do
  amf0WriteMarker rtmpAmf0Date
  requireRead 8 errorRtmpAmf0Encode
  let _ ← write8bytes dateValue
  requireRead 2 errorRtmpAmf0Encode
  let _ ← write2bytes timeZone

/-- `Amf0ObjectEOF::write`. -/
def amf0WriteObjectEof : Stream PUnit := do
  requireRead 2 errorRtmpAmf0Encode
  let _ ← write2bytes 0x00
  amf0WriteMarker rtmpAmf0ObjectEnd

/-- The `count` of the two array types. -/
def amf0WriteCount (count : BitVec 32) : Stream PUnit := do
  requireRead 4 errorRtmpAmf0Encode
  let _ ← write4bytes count

namespace Amf0Any

mutual

/-- The virtual `write(stream)`, which is what `amf0_write_any` calls. -/
def write : Amf0Any → Stream PUnit
  | string value => amf0WriteString value
  | boolean value => amf0WriteBoolean value
  | number value => amf0WriteNumber value
  | date dateValue timeZone => amf0WriteDate dateValue timeZone
  | null => amf0WriteNull
  | undefined => amf0WriteUndefined
  | objectEof => amf0WriteObjectEof
  | object properties => do
    amf0WriteMarker rtmpAmf0Object
    writeProperties properties
    amf0WriteObjectEof
  | ecmaArray properties count => do
    amf0WriteMarker rtmpAmf0EcmaArray
    amf0WriteCount count
    writeProperties properties
    amf0WriteObjectEof
  | strictArray properties count => do
    amf0WriteMarker rtmpAmf0StrictArray
    amf0WriteCount count
    writeElements properties

/-- The loop of `Amf0Object::write` and `Amf0EcmaArray::write` over the properties. -/
def writeProperties : List (Bytes × Amf0Any) → Stream PUnit
  | [] => return ⟨⟩
  | (name, any) :: properties => do
    amf0WriteUtf8 name
    write any
    writeProperties properties

/-- The loop of `Amf0StrictArray::write`. -/
def writeElements : List Amf0Any → Stream PUnit
  | [] => return ⟨⟩
  | any :: properties => do
    write any
    writeElements properties

end

end Amf0Any

end SmartStreaming
