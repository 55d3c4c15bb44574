import SmartStreaming.Base.Double
import Mathlib.Tactic.Ring

/-!
# Rtmp/Amf/Value — AMF0 values of `rtmp_amf.cpp`, their properties and their sizes

`Amf0Any` is the base class with its subclasses as constructors.  An object and an ECMA array keep
their properties in an `UnSortedHashtable`, which is a list in insertion order.  Sizes are `int`s
of the source, here integers.
-/

namespace SmartStreaming

/-! ## Markers -/

def rtmpAmf0Number : Byte := 0x00
def rtmpAmf0Boolean : Byte := 0x01
def rtmpAmf0String : Byte := 0x02
def rtmpAmf0Object : Byte := 0x03
def rtmpAmf0Null : Byte := 0x05
def rtmpAmf0Undefined : Byte := 0x06
def rtmpAmf0EcmaArray : Byte := 0x08
def rtmpAmf0ObjectEnd : Byte := 0x09
def rtmpAmf0StrictArray : Byte := 0x0A
def rtmpAmf0Date : Byte := 0x0B

/-! ## Values -/

/-- `class Amf0Any` with its subclasses. -/
inductive Amf0Any
  | string (value : Bytes)
  | boolean (value : Bool)
  | number (value : Double)
  | date (value : BitVec 64) (timeZone : BitVec 16)
  | null
  | undefined
  | objectEof
  | object (properties : List (Bytes × Amf0Any))
  | ecmaArray (properties : List (Bytes × Amf0Any)) (count : BitVec 32)
  | strictArray (properties : List Amf0Any) (count : BitVec 32)

/-- `class UnSortedHashtable`: the properties in the order they were added. -/
abbrev UnSortedHashtable := List (Bytes × Amf0Any)

namespace UnSortedHashtable

def count (properties : UnSortedHashtable) : ℤ := properties.length

/-- `set(key, value)`: the first property of that name goes, the new one comes last; without a
value (`NULL`) it only goes. -/
def set (properties : UnSortedHashtable) (key : Bytes) (value : Option Amf0Any) :
    UnSortedHashtable :=
  properties.eraseP (fun elem => elem.1 = key) ++ (value.map fun any => (key, any)).toList

def getProperty (properties : UnSortedHashtable) (name : Bytes) : Option Amf0Any :=
  (properties.find? fun elem => elem.1 = name).map Prod.snd

end UnSortedHashtable

namespace Amf0Any

/-- The `marker` a constructor sets. -/
def marker : Amf0Any → Byte
  | string _ => rtmpAmf0String
  | boolean _ => rtmpAmf0Boolean
  | number _ => rtmpAmf0Number
  | date _ _ => rtmpAmf0Date
  | null => rtmpAmf0Null
  | undefined => rtmpAmf0Undefined
  | objectEof => rtmpAmf0ObjectEnd
  | object _ => rtmpAmf0Object
  | ecmaArray _ _ => rtmpAmf0EcmaArray
  | strictArray _ _ => rtmpAmf0StrictArray

def isObject (v : Amf0Any) : Bool := v.marker = rtmpAmf0Object
def isEcmaArray (v : Amf0Any) : Bool := v.marker = rtmpAmf0EcmaArray
def isString (v : Amf0Any) : Bool := v.marker = rtmpAmf0String
def isNumber (v : Amf0Any) : Bool := v.marker = rtmpAmf0Number
def isBoolean (v : Amf0Any) : Bool := v.marker = rtmpAmf0Boolean

/-- The `properties` of an `Amf0Object` or of the `Amf0EcmaArray` derived from it. -/
def properties : Amf0Any → UnSortedHashtable
  | object properties => properties
  | ecmaArray properties _ => properties
  | _ => []

/-- `Amf0Object::get_property(name)`. -/
def getProperty (v : Amf0Any) (name : Bytes) : Option Amf0Any := v.properties.getProperty name

/-- `Amf0Object::set(key, value)`. -/
def set (v : Amf0Any) (key : Bytes) (value : Option Amf0Any) : Amf0Any :=
  match v with
  | object properties => object (UnSortedHashtable.set properties key value)
  | ecmaArray properties count => ecmaArray (UnSortedHashtable.set properties key value) count
  | v => v

mutual

/-- The virtual `copy()`: a string is copied as a C string, up to its first NUL. -/
def copy : Amf0Any → Amf0Any
  | string value => string (value.takeWhile (· ≠ 0))
  | boolean value => boolean value
  | number value => number value
  | date value timeZone => date value timeZone
  | null => null
  | undefined => undefined
  | objectEof => objectEof
  | object properties => object (copyProperties [] properties)
  | ecmaArray properties count => ecmaArray (copyProperties [] properties) count
  | strictArray properties count => strictArray (copyElements properties) count

/-- `UnSortedHashtable::copy(src)` into the table `properties`. -/
def copyProperties (properties : UnSortedHashtable) :
    List (Bytes × Amf0Any) → UnSortedHashtable
  | [] => properties
  | (key, any) :: src => copyProperties (properties.set key (some any.copy)) src

/-- The loop of `Amf0StrictArray::copy`. -/
def copyElements : List Amf0Any → List Amf0Any
  | [] => []
  | any :: properties => any.copy :: copyElements properties

end

end Amf0Any

/-! ## Sizes -/

namespace Amf0Size

def utf8 (value : Bytes) : ℤ := 2 + value.length
def str (value : Bytes) : ℤ := 1 + utf8 value
def number : ℤ := 1 + 8
def date : ℤ := 1 + 8 + 2
def null : ℤ := 1
def undefined : ℤ := 1
def boolean : ℤ := 1 + 1
def objectEof : ℤ := 2 + 1

end Amf0Size

namespace Amf0Any

mutual

/-- The virtual `total_size()`. -/
def totalSize : Amf0Any → ℤ
  | string value => Amf0Size.str value
  | boolean _ => Amf0Size.boolean
  | number _ => Amf0Size.number
  | date _ _ => Amf0Size.date
  | null => Amf0Size.null
  | undefined => Amf0Size.undefined
  | objectEof => Amf0Size.objectEof
  | object properties => 1 + propertiesSize properties + Amf0Size.objectEof
  | ecmaArray properties _ => 1 + 4 + propertiesSize properties + Amf0Size.objectEof
  | strictArray properties _ => 1 + 4 + elementsSize properties

/-- What the loop over the properties adds to a size. -/
def propertiesSize : List (Bytes × Amf0Any) → ℤ
  | [] => 0
  | (name, value) :: properties =>
    Amf0Size.utf8 name + totalSize value + propertiesSize properties

/-- What the loop over the elements adds to a size. -/
def elementsSize : List Amf0Any → ℤ
  | [] => 0
  | any :: properties => totalSize any + elementsSize properties

end

/-- `Amf0Size::any(o)`: nothing where there is no value. -/
def size : Option Amf0Any → ℤ
  | none => 0
  | some o => o.totalSize

mutual

/-- **A value takes at least a marker.** -/
theorem totalSize_pos : ∀ v : Amf0Any, 0 < totalSize v
  | string value => by
    simp only [totalSize, Amf0Size.str, Amf0Size.utf8]
    omega
  | boolean _ => show 0 < Amf0Size.boolean by decide
  | number _ => show 0 < Amf0Size.number by decide
  | date _ _ => show 0 < Amf0Size.date by decide
  | null => show 0 < Amf0Size.null by decide
  | undefined => show 0 < Amf0Size.undefined by decide
  | objectEof => show 0 < Amf0Size.objectEof by decide
  | object properties => by
    have := propertiesSize_nonneg properties
    simp only [totalSize, Amf0Size.objectEof]
    omega
  | ecmaArray properties _ => by
    have := propertiesSize_nonneg properties
    simp only [totalSize, Amf0Size.objectEof]
    omega
  | strictArray properties _ => by
    have := elementsSize_nonneg properties
    simp only [totalSize]
    omega

theorem propertiesSize_nonneg : ∀ properties : List (Bytes × Amf0Any),
    0 ≤ propertiesSize properties
  | [] => le_refl _
  | (name, value) :: properties => by
    have := totalSize_pos value
    have := propertiesSize_nonneg properties
    simp only [propertiesSize, Amf0Size.utf8]
    omega

theorem elementsSize_nonneg : ∀ properties : List Amf0Any, 0 ≤ elementsSize properties
  | [] => le_refl _
  | any :: properties => by
    have := totalSize_pos any
    have := elementsSize_nonneg properties
    simp only [elementsSize]
    omega

end

theorem propertiesSize_append (ps qs : UnSortedHashtable) :
    propertiesSize (ps ++ qs) = propertiesSize ps + propertiesSize qs := by
  induction ps with
  | nil => simp [propertiesSize]
  | cons p ps ih =>
    obtain ⟨name, value⟩ := p
    rw [List.cons_append, propertiesSize, propertiesSize, ih]
    ring

theorem elementsSize_append (vs ws : List Amf0Any) :
    elementsSize (vs ++ ws) = elementsSize vs + elementsSize ws := by
  induction vs with
  | nil => simp [elementsSize]
  | cons v vs ih =>
    rw [List.cons_append, elementsSize, elementsSize, ih]
    ring

theorem propertiesSize_eraseP_le (p : Bytes × Amf0Any → Bool) (ps : UnSortedHashtable) :
    propertiesSize (ps.eraseP p) ≤ propertiesSize ps := by
  induction ps with
  | nil => rfl
  | cons q ps ih =>
    obtain ⟨name, value⟩ := q
    have hvalue := totalSize_pos value
    by_cases h : p (name, value)
    · rw [List.eraseP_cons_of_pos h, propertiesSize, Amf0Size.utf8]
      omega
    · rw [List.eraseP_cons_of_neg h, propertiesSize, propertiesSize]
      omega

/-- **A property adds at most its own size**: it may replace one. -/
theorem propertiesSize_set_le (properties : UnSortedHashtable) (key : Bytes) (value : Amf0Any) :
    propertiesSize (properties.set key (some value))
      ≤ propertiesSize properties + Amf0Size.utf8 key + totalSize value := by
  have h := propertiesSize_eraseP_le (fun elem => elem.1 = key) properties
  rw [UnSortedHashtable.set, propertiesSize_append]
  simp only [Option.map_some, Option.toList_some, propertiesSize]
  omega

end Amf0Any

end SmartStreaming
