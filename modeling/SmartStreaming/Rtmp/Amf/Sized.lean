import SmartStreaming.Base.Io.BufferWrites
import SmartStreaming.Rtmp.Amf.Codec

/-!
# Rtmp/Amf/Sized — `write` appends `total_size()` bytes

The two recursions over a value, of its size and of its bytes, agree: `writes_write`.
-/

namespace SmartStreaming

open Machinery Comp Buffer

/-- A test writes nothing, so that only the marker counts. -/
theorem writes_amf0WriteMarker (marker : Byte) : Writes 1 (amf0WriteMarker marker) :=
  (writes_requireRead 1 _).bind fun _ => (writes_write1byte marker).bind fun _ => writes_pure _

/-- The two bytes of the length are written for the empty string as well. -/
theorem writes_amf0WriteUtf8 (value : Bytes) :
    Writes (Amf0Size.utf8 value) (amf0WriteUtf8 value) := by
  have hlen : Writes (0 + (2 + value.length)) (amf0WriteUtf8 value) := by
    refine (writes_requireRead 2 _).bind fun _ => (writes_write2bytes _).bind fun _ => ?_
    refine Writes.ite (fun h => ?_) fun _ => ?_
    · have h₀ : (value.length : ℤ) = 0 := by omega
      exact h₀ ▸ writes_pure _
    · have hdata := (writes_requireRead value.length errorRtmpAmf0Encode).bind fun _ =>
        (writes_writeBytes value).bind fun _ => writes_pure PUnit.unit
      rwa [zero_add, add_zero] at hdata
  rwa [zero_add] at hlen

/-- The marker and the string behind it. -/
theorem writes_amf0WriteString (value : Bytes) :
    Writes (Amf0Size.str value) (amf0WriteString value) :=
  (writes_amf0WriteMarker _).bind fun _ => writes_amf0WriteUtf8 value

theorem writes_amf0WriteBoolean (value : Bool) :
    Writes Amf0Size.boolean (amf0WriteBoolean value) :=
  (writes_amf0WriteMarker _).bind fun _ => (writes_requireRead 1 _).bind fun _ =>
    (writes_write1byte _).bind fun _ => writes_pure _

theorem writes_amf0WriteNumber (value : Double) :
    Writes Amf0Size.number (amf0WriteNumber value) :=
  (writes_amf0WriteMarker _).bind fun _ => (writes_requireRead 8 _).bind fun _ =>
    (writes_write8bytes value).bind fun _ => writes_pure _

/-- Two integers, each behind its own test. -/
theorem writes_amf0WriteDate (dateValue : BitVec 64) (timeZone : BitVec 16) :
    Writes Amf0Size.date (amf0WriteDate dateValue timeZone) :=
  (writes_amf0WriteMarker _).bind fun _ => (writes_requireRead 8 _).bind fun _ =>
    (writes_write8bytes dateValue).bind fun _ => (writes_requireRead 2 _).bind fun _ =>
      (writes_write2bytes timeZone).bind fun _ => writes_pure _

/-- The end of an object takes three bytes. -/
theorem writes_amf0WriteObjectEof : Writes Amf0Size.objectEof amf0WriteObjectEof :=
  (writes_requireRead 2 _).bind fun _ => (writes_write2bytes _).bind fun _ =>
    writes_amf0WriteMarker _

/-- The count takes four bytes. -/
theorem writes_amf0WriteCount (count : BitVec 32) : Writes 4 (amf0WriteCount count) :=
  (writes_requireRead 4 _).bind fun _ => (writes_write4bytes count).bind fun _ => writes_pure _

namespace Amf0Any

mutual

/-- **`write` appends `total_size()` bytes**, by induction on the value. -/
theorem writes_write : ∀ v : Amf0Any, Writes v.totalSize v.write
  | string value => writes_amf0WriteString value
  | boolean value => writes_amf0WriteBoolean value
  | number value => writes_amf0WriteNumber value
  | date dateValue timeZone => writes_amf0WriteDate dateValue timeZone
  | null => writes_amf0WriteMarker _
  | undefined => writes_amf0WriteMarker _
  | objectEof => writes_amf0WriteObjectEof
  | object properties => by
    rw [totalSize, write, add_assoc]
    refine (writes_amf0WriteMarker _).bind fun _ => ?_
    exact (writes_writeProperties properties).bind fun _ => writes_amf0WriteObjectEof
  | ecmaArray properties count => by
    rw [totalSize, write, add_assoc, add_assoc]
    refine (writes_amf0WriteMarker _).bind fun _ => (writes_amf0WriteCount count).bind fun _ => ?_
    exact (writes_writeProperties properties).bind fun _ => writes_amf0WriteObjectEof
  | strictArray properties count => by
    rw [totalSize, write, add_assoc]
    refine (writes_amf0WriteMarker _).bind fun _ => (writes_amf0WriteCount count).bind fun _ => ?_
    exact writes_writeElements properties

/-- The properties, by induction on the list. -/
theorem writes_writeProperties : ∀ properties : List (Bytes × Amf0Any),
    Writes (propertiesSize properties) (writeProperties properties)
  | [] => writes_pure _
  | (name, any) :: properties => by
    rw [propertiesSize, writeProperties, add_assoc]
    refine (writes_amf0WriteUtf8 name).bind fun _ => (writes_write any).bind fun _ => ?_
    exact writes_writeProperties properties

/-- The elements, by induction on the list. -/
theorem writes_writeElements : ∀ properties : List Amf0Any,
    Writes (elementsSize properties) (writeElements properties)
  | [] => writes_pure _
  | any :: properties => by
    rw [elementsSize, writeElements]
    exact (writes_write any).bind fun _ => writes_writeElements properties

end

end Amf0Any

end SmartStreaming
