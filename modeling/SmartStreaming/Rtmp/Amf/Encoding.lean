import SmartStreaming.Base.Io.BufferMoves
import SmartStreaming.Rtmp.Amf.Codec

/-!
# Rtmp/Amf/Encoding — the moves of the AMF0 writers

`moves` lists for each value what its `write` does to the buffer, and `write_eq_emit` says that it
does no more than that.  The bytes of these moves are the encoding of the value, of `total_size()`
bytes (`length_encoding`).
-/

namespace SmartStreaming

open Machinery Comp Buffer

/-! ## Scalars -/

/-- The marker of a value. -/
def amf0MarkerMoves (marker : Byte) : List Move :=
  [.require 1 errorRtmpAmf0Encode, .int 1 marker.toNat]

/-- A string without its marker: its length and, if there are any, its bytes. -/
def amf0Utf8Moves (value : Bytes) : List Move :=
  [.require 2 errorRtmpAmf0Encode, .int 2 (BitVec.ofNat 16 value.length).toNat]
    ++ if value.length ≤ 0 then []
      else [.require value.length errorRtmpAmf0Encode, .bytes value]

/-- A string value. -/
def amf0StringMoves (value : Bytes) : List Move :=
  amf0MarkerMoves rtmpAmf0String ++ amf0Utf8Moves value

/-- Any value but zero would be true; one is written. -/
def amf0BooleanMoves (value : Bool) : List Move :=
  amf0MarkerMoves rtmpAmf0Boolean
    ++ [.require 1 errorRtmpAmf0Encode, .int 1 (if value then 0x01 else 0x00 : Byte).toNat]

/-- The eight bytes of a double. -/
def amf0NumberMoves (value : Double) : List Move :=
  amf0MarkerMoves rtmpAmf0Number ++ [.require 8 errorRtmpAmf0Encode, .int 8 value.toNat]

/-- The date and the time zone are tested apart. -/
def amf0DateMoves (dateValue : BitVec 64) (timeZone : BitVec 16) : List Move :=
  amf0MarkerMoves rtmpAmf0Date ++ [.require 8 errorRtmpAmf0Encode, .int 8 dateValue.toNat,
    .require 2 errorRtmpAmf0Encode, .int 2 timeZone.toNat]

/-- An empty name and the end marker. -/
def amf0ObjectEofMoves : List Move :=
  [.require 2 errorRtmpAmf0Encode, .int 2 0] ++ amf0MarkerMoves rtmpAmf0ObjectEnd

/-- The count in front of the entries of an array. -/
def amf0CountMoves (count : BitVec 32) : List Move :=
  [.require 4 errorRtmpAmf0Encode, .int 4 count.toNat]

/-- The marker that every value begins with, tested before it is written. -/
theorem amf0WriteMarker_eq_emit (marker : Byte) :
    amf0WriteMarker marker = emit (amf0MarkerMoves marker) := by
  rw [amf0WriteMarker, write1byte_eq_writeInt]
  rfl

/-- The bytes are written only where there are some. -/
theorem amf0WriteUtf8_eq_emit (value : Bytes) :
    amf0WriteUtf8 value = emit (amf0Utf8Moves value) := by
  rw [amf0WriteUtf8, amf0Utf8Moves, write2bytes_eq_writeInt, List.cons_append, List.cons_append,
    List.nil_append, emit, emit, apply_ite emit]
  rfl

theorem amf0WriteString_eq_emit (value : Bytes) :
    amf0WriteString value = emit (amf0StringMoves value) := by
  rw [amf0WriteString, amf0StringMoves, emit_append, amf0WriteMarker_eq_emit,
    amf0WriteUtf8_eq_emit]

theorem amf0WriteBoolean_eq_emit (value : Bool) :
    amf0WriteBoolean value = emit (amf0BooleanMoves value) := by
  rw [amf0WriteBoolean, amf0BooleanMoves, emit_append, amf0WriteMarker_eq_emit,
    write1byte_eq_writeInt]
  rfl

theorem amf0WriteNumber_eq_emit (value : Double) :
    amf0WriteNumber value = emit (amf0NumberMoves value) := by
  rw [amf0WriteNumber, amf0NumberMoves, emit_append, amf0WriteMarker_eq_emit,
    write8bytes_eq_writeInt]
  rfl

theorem amf0WriteDate_eq_emit (dateValue : BitVec 64) (timeZone : BitVec 16) :
    amf0WriteDate dateValue timeZone = emit (amf0DateMoves dateValue timeZone) := by
  rw [amf0WriteDate, amf0DateMoves, emit_append, amf0WriteMarker_eq_emit,
    write8bytes_eq_writeInt, write2bytes_eq_writeInt]
  rfl

/-- The end of an object and of an ECMA array. -/
theorem amf0WriteObjectEof_eq_emit : amf0WriteObjectEof = emit amf0ObjectEofMoves := by
  rw [amf0WriteObjectEof, amf0WriteMarker_eq_emit, write2bytes_eq_writeInt]
  rfl

/-- The count of an array. -/
theorem amf0WriteCount_eq_emit (count : BitVec 32) :
    amf0WriteCount count = emit (amf0CountMoves count) := by
  rw [amf0WriteCount, write4bytes_eq_writeInt]
  rfl

/-! ## Values -/

namespace Amf0Any

mutual

/-- The moves of `write`. -/
def moves : Amf0Any → List Move
  | string value => amf0StringMoves value
  | boolean value => amf0BooleanMoves value
  | number value => amf0NumberMoves value
  | date dateValue timeZone => amf0DateMoves dateValue timeZone
  | null => amf0MarkerMoves rtmpAmf0Null
  | undefined => amf0MarkerMoves rtmpAmf0Undefined
  | objectEof => amf0ObjectEofMoves
  | object properties =>
    amf0MarkerMoves rtmpAmf0Object ++ (propertiesMoves properties ++ amf0ObjectEofMoves)
  | ecmaArray properties count =>
    amf0MarkerMoves rtmpAmf0EcmaArray
      ++ (amf0CountMoves count ++ (propertiesMoves properties ++ amf0ObjectEofMoves))
  | strictArray properties count =>
    amf0MarkerMoves rtmpAmf0StrictArray ++ (amf0CountMoves count ++ elementsMoves properties)

/-- Each property is its name and its value. -/
def propertiesMoves : List (Bytes × Amf0Any) → List Move
  | [] => []
  | (name, any) :: properties =>
    amf0Utf8Moves name ++ (moves any ++ propertiesMoves properties)

/-- The elements of a strict array, without names. -/
def elementsMoves : List Amf0Any → List Move
  | [] => []
  | any :: properties => moves any ++ elementsMoves properties

end

mutual

/-- **`write` makes the moves of the value and no others.** -/
theorem write_eq_emit : ∀ v : Amf0Any, v.write = emit v.moves
  | string value => amf0WriteString_eq_emit value
  | boolean value => amf0WriteBoolean_eq_emit value
  | number value => amf0WriteNumber_eq_emit value
  | date dateValue timeZone => amf0WriteDate_eq_emit dateValue timeZone
  | null => amf0WriteMarker_eq_emit _
  | undefined => amf0WriteMarker_eq_emit _
  | objectEof => amf0WriteObjectEof_eq_emit
  | object properties => by
    rw [write, moves, emit_append, emit_append, amf0WriteMarker_eq_emit,
      writeProperties_eq_emit properties, amf0WriteObjectEof_eq_emit]
  | ecmaArray properties count => by
    rw [write, moves, emit_append, emit_append, emit_append, amf0WriteMarker_eq_emit,
      amf0WriteCount_eq_emit, writeProperties_eq_emit properties, amf0WriteObjectEof_eq_emit]
  | strictArray properties count => by
    rw [write, moves, emit_append, emit_append, amf0WriteMarker_eq_emit, amf0WriteCount_eq_emit,
      writeElements_eq_emit properties]

/-- The loop over the properties. -/
theorem writeProperties_eq_emit : ∀ properties : List (Bytes × Amf0Any),
    writeProperties properties = emit (propertiesMoves properties)
  | [] => rfl
  | (name, any) :: properties => by
    rw [writeProperties, propertiesMoves, emit_append, emit_append, amf0WriteUtf8_eq_emit,
      write_eq_emit any, writeProperties_eq_emit properties]

/-- The loop over the elements. -/
theorem writeElements_eq_emit : ∀ properties : List Amf0Any,
    writeElements properties = emit (elementsMoves properties)
  | [] => rfl
  | any :: properties => by
    rw [writeElements, elementsMoves, emit_append, write_eq_emit any,
      writeElements_eq_emit properties]

end

/-! ## Bytes -/

/-- The bytes of the value. -/
def encoding (v : Amf0Any) : Bytes := Buffer.encoding v.moves

/-- The bytes of properties one after the other. -/
def propertiesEncoding (properties : List (Bytes × Amf0Any)) : Bytes :=
  Buffer.encoding (propertiesMoves properties)

/-- The bytes of elements one after the other. -/
def elementsEncoding (properties : List Amf0Any) : Bytes :=
  Buffer.encoding (elementsMoves properties)

end Amf0Any

/-- One byte; what is required appends nothing. -/
theorem encoding_amf0MarkerMoves (marker : Byte) :
    encoding (amf0MarkerMoves marker) = [marker] := by
  simp [encoding, amf0MarkerMoves, Move.payload, beBytes, leBytes]

/-- The length field has sixteen bits, however long the string is. -/
theorem encoding_amf0Utf8Moves (value : Bytes) : encoding (amf0Utf8Moves value)
    = beBytes 2 (BitVec.ofNat 16 value.length).toNat ++ value := by
  rw [amf0Utf8Moves]
  split
  · obtain rfl : value = [] := List.length_eq_zero_iff.1 (by omega)
    rfl
  · simp [encoding, Move.payload]

theorem encoding_amf0CountMoves (count : BitVec 32) :
    encoding (amf0CountMoves count) = beBytes 4 count.toNat := by
  simp [encoding, amf0CountMoves, Move.payload]

/-- The three bytes that readers look for. -/
theorem encoding_amf0ObjectEofMoves : encoding amf0ObjectEofMoves = [0x00, 0x00, 0x09] := by
  decide

/-- `Amf0Size` counts the bytes that are written. -/
theorem length_amf0Utf8Moves (value : Bytes) :
    ((encoding (amf0Utf8Moves value)).length : ℤ) = Amf0Size.utf8 value := by
  rw [encoding_amf0Utf8Moves, List.length_append, length_beBytes, Nat.cast_add]
  rfl

theorem length_amf0StringMoves (value : Bytes) :
    ((encoding (amf0StringMoves value)).length : ℤ) = Amf0Size.str value := by
  rw [amf0StringMoves, encoding_append, encoding_amf0MarkerMoves, List.length_append, Nat.cast_add,
    length_amf0Utf8Moves]
  rfl

theorem length_amf0NumberMoves (value : Double) :
    ((encoding (amf0NumberMoves value)).length : ℤ) = Amf0Size.number := by
  rw [amf0NumberMoves, encoding_append, encoding_amf0MarkerMoves, List.length_append]
  simp [encoding, Move.payload, length_beBytes, Amf0Size.number]

theorem length_amf0BooleanMoves (value : Bool) :
    ((encoding (amf0BooleanMoves value)).length : ℤ) = Amf0Size.boolean := by
  rw [amf0BooleanMoves, encoding_append, encoding_amf0MarkerMoves, List.length_append]
  simp [encoding, Move.payload, length_beBytes, Amf0Size.boolean]

theorem length_amf0DateMoves (dateValue : BitVec 64) (timeZone : BitVec 16) :
    ((encoding (amf0DateMoves dateValue timeZone)).length : ℤ) = Amf0Size.date := by
  rw [amf0DateMoves, encoding_append, encoding_amf0MarkerMoves, List.length_append]
  simp [encoding, Move.payload, length_beBytes, Amf0Size.date]

namespace Amf0Any

/-- The marker, the properties and the end marker. -/
theorem encoding_object (properties : UnSortedHashtable) : (object properties).encoding
    = rtmpAmf0Object :: (propertiesEncoding properties ++ [0x00, 0x00, 0x09]) := by
  rw [encoding, moves, encoding_append, encoding_append, encoding_amf0MarkerMoves,
    encoding_amf0ObjectEofMoves]
  rfl

/-- As an object, with the count behind the marker. -/
theorem encoding_ecmaArray (properties : UnSortedHashtable) (count : BitVec 32) :
    (ecmaArray properties count).encoding = rtmpAmf0EcmaArray
      :: (beBytes 4 count.toNat ++ (propertiesEncoding properties ++ [0x00, 0x00, 0x09])) := by
  rw [encoding, moves, encoding_append, encoding_append, encoding_append,
    encoding_amf0MarkerMoves, encoding_amf0CountMoves, encoding_amf0ObjectEofMoves]
  rfl

/-- No end marker: a reader has the count alone. -/
theorem encoding_strictArray (properties : List Amf0Any) (count : BitVec 32) :
    (strictArray properties count).encoding = rtmpAmf0StrictArray
      :: (beBytes 4 count.toNat ++ elementsEncoding properties) := by
  rw [encoding, moves, encoding_append, encoding_append, encoding_amf0MarkerMoves,
    encoding_amf0CountMoves]
  rfl

/-- The first property, then the others. -/
theorem propertiesEncoding_cons (name : Bytes) (any : Amf0Any)
    (properties : List (Bytes × Amf0Any)) : propertiesEncoding ((name, any) :: properties)
      = beBytes 2 (BitVec.ofNat 16 name.length).toNat ++ (name ++ (any.encoding
        ++ propertiesEncoding properties)) := by
  rw [propertiesEncoding, propertiesMoves, encoding_append, encoding_append,
    encoding_amf0Utf8Moves, List.append_assoc]
  rfl

theorem elementsEncoding_cons (any : Amf0Any) (properties : List Amf0Any) :
    elementsEncoding (any :: properties) = any.encoding ++ elementsEncoding properties := by
  rw [elementsEncoding, elementsMoves, encoding_append]
  rfl

mutual

/-- **A value is encoded in `total_size()` bytes.** -/
theorem length_encoding : ∀ v : Amf0Any, (v.encoding.length : ℤ) = v.totalSize
  | string value => length_amf0StringMoves value
  | boolean value => length_amf0BooleanMoves value
  | number value => length_amf0NumberMoves value
  | date dateValue timeZone => length_amf0DateMoves dateValue timeZone
  | null => by
    rw [encoding, moves, encoding_amf0MarkerMoves]
    rfl
  | undefined => by
    rw [encoding, moves, encoding_amf0MarkerMoves]
    rfl
  | objectEof => by
    rw [encoding, moves, encoding_amf0ObjectEofMoves]
    rfl
  | object properties => by
    have hlen := length_propertiesEncoding properties
    rw [encoding_object, totalSize, Amf0Size.objectEof]
    simp only [List.length_cons, List.length_append, List.length_nil]
    omega
  | ecmaArray properties count => by
    have hlen := length_propertiesEncoding properties
    rw [encoding_ecmaArray, totalSize, Amf0Size.objectEof]
    simp only [List.length_cons, List.length_append, List.length_nil, length_beBytes]
    omega
  | strictArray properties count => by
    have hlen := length_elementsEncoding properties
    rw [encoding_strictArray, totalSize]
    simp only [List.length_cons, List.length_append, length_beBytes]
    omega

/-- The properties, by induction on the list. -/
theorem length_propertiesEncoding : ∀ properties : List (Bytes × Amf0Any),
    ((propertiesEncoding properties).length : ℤ) = propertiesSize properties
  | [] => rfl
  | (name, any) :: properties => by
    have hany := length_encoding any
    have hlen := length_propertiesEncoding properties
    rw [propertiesEncoding_cons, propertiesSize, Amf0Size.utf8]
    simp only [List.length_append, length_beBytes]
    omega

/-- The elements, by induction on the list. -/
theorem length_elementsEncoding : ∀ properties : List Amf0Any,
    ((elementsEncoding properties).length : ℤ) = elementsSize properties
  | [] => rfl
  | any :: properties => by
    have hany := length_encoding any
    have hlen := length_elementsEncoding properties
    rw [elementsEncoding_cons, elementsSize, List.length_append]
    omega

end

end Amf0Any

end SmartStreaming
