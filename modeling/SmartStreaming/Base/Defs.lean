import SmartStreaming.Machinery.Comp
import SmartStreaming.Machinery.ByteOrder
import SmartStreaming.Machinery.Ring

/-!
# Base/Defs — bytes, memory blocks, error codes, and what stops the program

A `char*` with an allocation behind it is the list of the allocation's bytes; an access outside it
is the fault `outOfBounds`.  An `int` is a `ℤ`, an integer assembled byte by byte is a `BitVec`
whose bytes lie in memory little-endian (`fromMemory`).
-/

namespace SmartStreaming

open Machinery

/-- A `char`. -/
abbrev Byte := BitVec 8

/-- A `std::string`, or the bytes of a memory block. -/
abbrev Bytes := List Byte

/-- The bytes of a C string literal. -/
def text (s : String) : Bytes := s.toList.map fun c => BitVec.ofNat 8 c.toNat

/-- What stops the program. -/
inductive Fault
  /-- A failed `assert`. -/
  | assertion
  /-- A member call through a null `shared_ptr`. -/
  | nullPointer
  /-- A memory access outside its block. -/
  | outOfBounds
  /-- `std::length_error`, thrown by `std::string::append` on a negative length. -/
  | lengthError
  /-- A sum or product of two `int`s that is not an `int`. -/
  | signedOverflow
  /-- `std::bad_alloc`, thrown by `new char[n]` on a negative `n`. -/
  | badAlloc
  /-- A use or a `delete[]` of a block that is not allocated. -/
  | deadBlock
  /-- A function that returns a value ends without a `return`. -/
  | missingReturn
  /-- The recursion of the source goes deeper than the model was given fuel for. -/
  | outOfFuel
  deriving DecidableEq, Repr

/-! ## Error codes -/

def errorSuccess : ℤ := 0
def errorSocketRead : ℤ := 10004
def errorSocketTimeout : ℤ := 10008
def errorSocketAlreadyClosed : ℤ := 10009
def errorCothreadStart : ℤ := 10020
def errorCothreadInterrupt : ℤ := 10021
def errorCothreadStop : ℤ := 10022
def errorBufferRead : ℤ := 12001
def errorBufferNotEnough : ℤ := 12003
def errorIngestNoInput : ℤ := 13001
def errorRtmpAmf0Decode : ℤ := 14100
def errorRtmpAmf0Encode : ℤ := 14101
def errorRtmpPacketInvalid : ℤ := 14102
def errorRtmpNoRequest : ℤ := 14103
def errorRtmpChunkStart : ℤ := 14104
def errorRtmpPacketSize : ℤ := 14105
def errorRtmpAmf0Invalid : ℤ := 14106
def errorRtmpMessageEncode : ℤ := 14107
def errorRtmpChunkSize : ℤ := 14108
def errorRtmpMessageDecode : ℤ := 14201

def errorFileBufferNotEnough : ℤ := 16001
def errorFileBufferInitSmall : ℤ := 16003
def errorFileBufferTooLarge : ℤ := 16004

/-! ## Memory -/

/-- The value of an `int` expression, if it is an `int`. -/
def toCInt (x : ℤ) : Option ℤ := if -2 ^ 31 ≤ x ∧ x < 2 ^ 31 then some x else none

/-- `*(mem + i)`. -/
def loadByte (mem : Bytes) (i : ℤ) : Option Byte :=
  if 0 ≤ i then mem[i.toNat]? else none

/-- The `len` bytes from `mem + off` on, as a `memcpy` reads them. -/
def load (mem : Bytes) (off len : ℤ) : Option Bytes :=
  if 0 ≤ off ∧ 0 ≤ len ∧ off + len ≤ mem.length then
    some ((mem.drop off.toNat).take len.toNat)
  else none

/-- The block after `bs` has been written to `mem + off`. -/
def store (mem : Bytes) (off : ℤ) (bs : Bytes) : Option Bytes :=
  if 0 ≤ off ∧ off + bs.length ≤ mem.length then some (splice mem off.toNat bs) else none

/-- The `w`-bit integer whose bytes in memory, lowest address first, are `pp`. -/
def fromMemory (w : ℕ) (pp : Bytes) : BitVec w := BitVec.ofNat w (leNat pp)

/-- The byte `pp[i]` of an integer read through `char* pp`. -/
def byteAt {w : ℕ} (value : BitVec w) (i : ℕ) : Byte := BitVec.ofNat 8 (value.toNat / 256 ^ i)

/-- A failed `assert` stops the program. -/
def cassert {σ : Type} (p : Prop) [Decidable p] : Comp Fault σ ℤ PUnit :=
  if p then pure ⟨⟩ else Comp.stop .assertion

theorem toCInt_eq_some {x : ℤ} (h₁ : -2 ^ 31 ≤ x) (h₂ : x < 2 ^ 31) : toCInt x = some x :=
  if_pos ⟨h₁, h₂⟩

theorem toCInt_eq {x y : ℤ} (h : toCInt x = some y) : x = y := by
  unfold toCInt at h
  split at h
  · exact Option.some.inj h
  · cases h

theorem load_eq_some {mem : Bytes} {off len : ℤ} (h₁ : 0 ≤ off) (h₂ : 0 ≤ len)
    (h₃ : off + len ≤ mem.length) :
    load mem off len = some ((mem.drop off.toNat).take len.toNat) := if_pos ⟨h₁, h₂, h₃⟩

theorem store_eq_some {mem : Bytes} {off : ℤ} {bs : Bytes} (h₁ : 0 ≤ off)
    (h₂ : off + bs.length ≤ mem.length) : store mem off bs = some (splice mem off.toNat bs) :=
  if_pos ⟨h₁, h₂⟩

end SmartStreaming
