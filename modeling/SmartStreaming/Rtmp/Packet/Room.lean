import SmartStreaming.Rtmp.Amf.Encoding
import SmartStreaming.Rtmp.Packet.Encode

/-!
# Rtmp/Packet/Room — when the writers test the room

Each `write` and each `encode_packet` makes a list of moves of `total_size()` or `get_size()` bytes
(`Emits`), so `Buffer.checksRoom_iff` says when it tests the room for them.
-/

namespace SmartStreaming

open Machinery Comp Buffer

/-- **`f` makes the moves `ms`**, which append `n` bytes. -/
structure Emits (n : ℤ) (ms : List Move) (f : Stream PUnit) : Prop where
  eq_emit : f = emit ms
  length_eq : ((encoding ms).length : ℤ) = n

section Emits

variable {m n : ℤ} {ms ns : List Move} {f g : Stream PUnit}

/-- **Two writers one after the other.** -/
theorem Emits.andThen (hf : Emits m ms f) (hg : Emits n ns g) :
    Emits (m + n) (ms ++ ns) (do f; g) where
  eq_emit := by rw [emit_append, hf.eq_emit, hg.eq_emit]
  length_eq := by
    rw [encoding_append, List.length_append, Nat.cast_add, hf.length_eq, hg.length_eq]

/-- A requirement before the moves. -/
theorem Emits.require (hf : Emits n ms f) (k code : ℤ) :
    Emits n (.require k code :: ms) (do requireRead k code; f) where
  eq_emit := by rw [emit, hf.eq_emit]
  length_eq := hf.length_eq

/-- An integer before the moves. -/
theorem Emits.int (hf : Emits n ms f) (k x : ℕ) :
    Emits (k + n) (.int k x :: ms) (do let _ ← writeInt k x; f) where
  eq_emit := by rw [emit, hf.eq_emit]
  length_eq := by
    have hlen := hf.length_eq
    rw [encoding, List.flatMap_cons, List.length_append, Nat.cast_add, ← hlen, Move.payload,
      length_beBytes]
    rfl

/-- No move at all. -/
theorem emits_nil : Emits 0 [] (pure ⟨⟩) := ⟨rfl, rfl⟩

/-- What a writer tests of the packet decides about its moves. -/
theorem Emits.ite {p : Prop} [Decidable p] (hf : Emits m ms f) (hg : Emits n ns g) :
    Emits (if p then m else n) (if p then ms else ns) (if p then f else g) := by
  split
  · exact hf
  · exact hg

theorem emits_amf0WriteString (value : Bytes) :
    Emits (Amf0Size.str value) (amf0StringMoves value) (amf0WriteString value) :=
  ⟨amf0WriteString_eq_emit value, length_amf0StringMoves value⟩

theorem emits_amf0WriteNumber (value : Double) :
    Emits Amf0Size.number (amf0NumberMoves value) (amf0WriteNumber value) :=
  ⟨amf0WriteNumber_eq_emit value, length_amf0NumberMoves value⟩

theorem emits_amf0WriteBoolean (value : Bool) :
    Emits Amf0Size.boolean (amf0BooleanMoves value) (amf0WriteBoolean value) :=
  ⟨amf0WriteBoolean_eq_emit value, length_amf0BooleanMoves value⟩

theorem emits_amf0WriteMarker (marker : Byte) :
    Emits 1 (amf0MarkerMoves marker) (amf0WriteMarker marker) :=
  ⟨amf0WriteMarker_eq_emit marker, by rw [encoding_amf0MarkerMoves]; rfl⟩

/-- A value, of any nesting. -/
theorem emits_write (v : Amf0Any) : Emits v.totalSize v.moves v.write :=
  ⟨v.write_eq_emit, v.length_encoding⟩

/-- The moves of `encode_packet` for the name and the transaction id of a command. -/
def commandMoves (commandName : Bytes) (transactionId : Double) : List Move :=
  amf0StringMoves commandName ++ amf0NumberMoves transactionId

/-- Those of a command with a `null` object. -/
def nullCommandMoves (commandName : Bytes) (transactionId : Double) : List Move :=
  commandMoves commandName transactionId ++ amf0MarkerMoves rtmpAmf0Null

/-- The moves for a pointer that is followed untested. -/
def pointerMoves : Option Amf0Any → List Move
  | none => [.null]
  | some value => value.moves

/-- The moves for a pointer that is tested. -/
def ifAnyMoves : Option Amf0Any → List Move
  | none => []
  | some value => value.moves

/-- The four bytes of a control packet. -/
def wordMoves (value : BitVec 32) : List Move :=
  [.require 4 errorRtmpMessageEncode, .int 4 value.toNat]

/-- The name and the transaction id. -/
theorem emits_encodeCommand (commandName : Bytes) (transactionId : Double) :
    Emits (Amf0Size.str commandName + Amf0Size.number) (commandMoves commandName transactionId)
      (encodeCommand commandName transactionId) :=
  (emits_amf0WriteString commandName).andThen (emits_amf0WriteNumber transactionId)

/-- A null pointer has the size of nothing and is followed all the same. -/
theorem emits_writePointer : ∀ value : Option Amf0Any,
    Emits (Amf0Any.size value) (pointerMoves value) (writePointer value)
  | none => ⟨rfl, rfl⟩
  | some value => emits_write value

/-- A null pointer is left out. -/
theorem emits_writeIfAny : ∀ value : Option Amf0Any,
    Emits (Amf0Any.size value) (ifAnyMoves value) (writeIfAny value)
  | none => ⟨rfl, rfl⟩
  | some value => emits_write value

/-- A field that is sent on a condition. -/
theorem emits_onlyIf {p : Prop} [Decidable p] (h : Emits n ms f) :
    Emits (if p then n else 0) (if p then ms else []) (onlyIf p f) :=
  h.ite emits_nil

/-- A control packet of four bytes. -/
theorem emits_encodeWord (value : BitVec 32) : Emits 4 (wordMoves value) (encodeWord value) := by
  rw [encodeWord, write4bytes_eq_writeInt]
  exact (emits_nil.int 4 value.toNat).require 4 _

/-- The commands that carry a `null` object. -/
theorem emits_encodeNullCommand (commandName : Bytes) (transactionId : Double)
    (hf : Emits n ms f) :
    Emits (Amf0Size.str commandName + Amf0Size.number + Amf0Size.null + n)
      (nullCommandMoves commandName transactionId ++ ms) (do
        encodeCommand commandName transactionId
        amf0WriteNull
        f) := by
  have h := ((emits_encodeCommand commandName transactionId).andThen
    (emits_amf0WriteMarker rtmpAmf0Null)).andThen hf
  rwa [bind_assoc] at h

end Emits

namespace RtmpPacket

/-- The optional fields are sent by the tests of the class. -/
def playMoves (p : RtmpPlayPacket) : List Move :=
  nullCommandMoves p.commandName p.transactionId ++ (amf0StringMoves p.streamName
    ++ ((if p.sendsStart then amf0NumberMoves p.start else [])
      ++ ((if p.sendsDuration then amf0NumberMoves p.duration else [])
        ++ (if ¬ p.reset then amf0BooleanMoves p.reset else []))))

/-- One requirement for the whole packet, then its integers. -/
def userControlMoves (p : RtmpUserControlPacket) : List Move :=
  [.require p.getSize errorRtmpMessageEncode, .int 2 p.eventType.toNat]
    ++ ((if p.eventType = srcPCUCFmsEvent0 then [.int 1 (p.eventData.setWidth 8).toNat]
        else [.int 4 p.eventData.toNat])
      ++ (if p.eventType = srcPCUCSetBufferLength then [.int 4 p.extraData.toNat] else []))

/-- The moves of `encode_packet` for the classes that override it. -/
def moves : RtmpPacket → List Move
  | connectApp p => commandMoves p.commandName p.transactionId
      ++ (pointerMoves p.commandObject ++ ifAnyMoves p.args)
  | connectAppRes p => commandMoves p.commandName p.transactionId
      ++ (pointerMoves p.props ++ pointerMoves p.info)
  | setWindowAckSize p => wordMoves p.ackowledgementWindowSize
  | play p => playMoves p
  | playRes p => nullCommandMoves p.commandName p.transactionId ++ pointerMoves p.desc
  | setChunkSize p => wordMoves p.chunkSize
  | setPeerBandwidth p => [.require 5 errorRtmpMessageEncode, .int 4 p.bandwidth.toNat,
      .int 1 p.type.toNat]
  | userControl p => userControlMoves p
  | createStream p => nullCommandMoves p.commandName p.transactionId
  | createStreamRes p => nullCommandMoves p.commandName p.transactionId
      ++ amf0NumberMoves p.streamId
  | fmleStart p => nullCommandMoves p.commandName p.transactionId ++ amf0StringMoves p.streamName
  | fmleStartRes p => nullCommandMoves p.commandName p.transactionId
      ++ amf0MarkerMoves rtmpAmf0Undefined
  | publish p => nullCommandMoves p.commandName p.transactionId
      ++ (amf0StringMoves p.streamName ++ amf0StringMoves p.type)
  | onStatusCall p => nullCommandMoves p.commandName p.transactionId ++ pointerMoves p.data
  | onMetaData p => amf0StringMoves p.name ++ pointerMoves p.metadata
  | bandwidth p => nullCommandMoves p.commandName p.transactionId ++ pointerMoves p.data
  | call p => commandMoves p.commandName p.transactionId
      ++ (ifAnyMoves p.commandObject ++ ifAnyMoves p.arguments)
  | callRes p => commandMoves p.commandName p.transactionId
      ++ (ifAnyMoves p.commandObject ++ ifAnyMoves p.response)
  | acknowledgement p => wordMoves p.sequenceNumber
  | base | pause _ | closeStream _ | onCustomAmfData _ => []

/-- A `play` command, its optional fields one by one. -/
theorem emits_play (p : RtmpPlayPacket) : Emits p.getSize (playMoves p) p.encodePacket := by
  rw [RtmpPlayPacket.getSize, add_assoc, add_assoc, add_assoc]
  refine emits_encodeNullCommand _ _ ((emits_amf0WriteString p.streamName).andThen ?_)
  refine (emits_onlyIf (emits_amf0WriteNumber p.start)).andThen ?_
  refine (emits_onlyIf (emits_amf0WriteNumber p.duration)).andThen ?_
  exact emits_onlyIf (emits_amf0WriteBoolean p.reset)

/-- A user control packet, whose event decides about two of its fields. -/
theorem emits_userControl (p : RtmpUserControlPacket) :
    Emits p.getSize (userControlMoves p) p.encodePacket := by
  have hdata : Emits (if p.eventType = srcPCUCFmsEvent0 then 1 else 4)
      (if p.eventType = srcPCUCFmsEvent0 then [.int 1 (p.eventData.setWidth 8).toNat]
        else [.int 4 p.eventData.toNat]) p.encodeEventData := by
    rw [RtmpUserControlPacket.encodeEventData, write1byte_eq_writeInt, write4bytes_eq_writeInt]
    exact (emits_nil.int 1 _).ite (emits_nil.int 4 _)
  have hextra : Emits (if p.eventType = srcPCUCSetBufferLength then 4 else 0)
      (if p.eventType = srcPCUCSetBufferLength then [.int 4 p.extraData.toNat] else [])
      (onlyIf (p.eventType = srcPCUCSetBufferLength) (do let _ ← write4bytes p.extraData)) := by
    rw [write4bytes_eq_writeInt]
    exact emits_onlyIf (emits_nil.int 4 _)
  have h := ((hdata.andThen hextra).int 2 p.eventType.toNat).require p.getSize
    errorRtmpMessageEncode
  have hsize : p.getSize = ((2 : ℕ) : ℤ) + ((if p.eventType = srcPCUCFmsEvent0 then 1 else 4)
      + (if p.eventType = srcPCUCSetBufferLength then 4 else 0)) := add_assoc _ _ _
  rw [RtmpUserControlPacket.encodePacket, write2bytes_eq_writeInt]
  exact ⟨h.eq_emit, h.length_eq.trans hsize.symm⟩

/-- **Every `encode_packet` makes the moves of its class**, of `get_size()` bytes. -/
theorem emits_encodePacket {p : RtmpPacket} (hp : p.overridesEncode = true) :
    Emits p.getSize p.moves p.encodePacket := by
  cases p with
  | connectApp p =>
    rw [getSize, RtmpConnectAppPacket.getSize, add_assoc]
    exact (emits_encodeCommand _ _).andThen ((emits_writePointer _).andThen (emits_writeIfAny _))
  | connectAppRes p =>
    rw [getSize, RtmpConnectAppResPacket.getSize, add_assoc]
    exact (emits_encodeCommand _ _).andThen ((emits_writePointer _).andThen (emits_writePointer _))
  | setWindowAckSize p => exact emits_encodeWord _
  | play p => exact emits_play p
  | playRes p => exact emits_encodeNullCommand _ _ (emits_writePointer _)
  | setChunkSize p => exact emits_encodeWord _
  | setPeerBandwidth p =>
    have h := ((emits_nil.int 1 p.type.toNat).int 4 p.bandwidth.toNat).require 5
      errorRtmpMessageEncode
    rw [encodePacket, RtmpSetPeerBandwidthPacket.encodePacket, write4bytes_eq_writeInt,
      write1byte_eq_writeInt]
    exact h
  | userControl p => exact emits_userControl p
  | createStream p =>
    exact (emits_encodeCommand _ _).andThen (emits_amf0WriteMarker _)
  | createStreamRes p => exact emits_encodeNullCommand _ _ (emits_amf0WriteNumber _)
  | fmleStart p => exact emits_encodeNullCommand _ _ (emits_amf0WriteString _)
  | fmleStartRes p => exact emits_encodeNullCommand _ _ (emits_amf0WriteMarker _)
  | publish p =>
    rw [getSize, RtmpPublishPacket.getSize, add_assoc]
    exact emits_encodeNullCommand _ _ ((emits_amf0WriteString _).andThen
      (emits_amf0WriteString _))
  | onStatusCall p => exact emits_encodeNullCommand _ _ (emits_writePointer _)
  | onMetaData p => exact (emits_amf0WriteString _).andThen (emits_writePointer _)
  | bandwidth p => exact emits_encodeNullCommand _ _ (emits_writePointer _)
  | call p =>
    rw [getSize, RtmpCallPacket.getSize, add_assoc]
    exact (emits_encodeCommand _ _).andThen ((emits_writeIfAny _).andThen (emits_writeIfAny _))
  | callRes p =>
    rw [getSize, RtmpCallResPacket.getSize, add_assoc]
    exact (emits_encodeCommand _ _).andThen ((emits_writeIfAny _).andThen (emits_writeIfAny _))
  | acknowledgement p => exact emits_encodeWord _
  | base | pause _ | closeStream _ | onCustomAmfData _ => exact absurd hp Bool.false_ne_true

end RtmpPacket

/-! ## Room -/

/-- What is written: a value, or a packet of a class that overrides `encode_packet`. -/
inductive Written
  | value (v : Amf0Any)
  | packet (p : RtmpPacket) (hp : p.overridesEncode = true)

namespace Written

/-- `write` or `encode_packet`. -/
def write : Written → Stream PUnit
  | value v => v.write
  | packet p _ => p.encodePacket

/-- `total_size()` or `get_size()`. -/
def size : Written → ℤ
  | value v => v.totalSize
  | packet p _ => p.getSize

/-- The moves of either. -/
def moves : Written → List Move
  | value v => v.moves
  | packet p _ => p.moves

/-- Whatever is written, it is the moves, of as many bytes as it says. -/
theorem emits : ∀ x : Written, Emits x.size x.moves x.write
  | value v => emits_write v
  | packet _ hp => RtmpPacket.emits_encodePacket hp

end Written

/-- **A writer tests the room**, that is, returns only with all of its bytes appended, fails where
there is no room for them and never runs into an assertion, exactly if there is room for all of
them, or if it runs short of bytes to read before it comes to the end of the room. -/
theorem room_tested_iff (x : Written) (b : Buffer) (hb : b.Valid) :
    ChecksRoom (encoding x.moves) x.write b
      ↔ x.size ≤ b.writeLeft ∨ Starved b.readLeft b.writeLeft x.moves := by
  rw [x.emits.eq_emit, ← x.emits.length_eq]
  exact checksRoom_iff hb x.moves

/-- The value `null` into a buffer of two bytes, one of which holds a byte to read. -/
theorem room_tested_iff_null :
    ChecksRoom (encoding (Written.value .null).moves) (Written.value .null).write
        ⟨[0x07, 0x00, 0x00], 1, 0, 3⟩
      ↔ (Written.value .null).size ≤ (⟨[0x07, 0x00, 0x00], 1, 0, 3⟩ : Buffer).writeLeft
        ∨ Starved (⟨[0x07, 0x00, 0x00], 1, 0, 3⟩ : Buffer).readLeft
          (⟨[0x07, 0x00, 0x00], 1, 0, 3⟩ : Buffer).writeLeft (Written.value .null).moves :=
  room_tested_iff _ _ (by constructor <;> decide)

/-- **`null` into a full buffer** runs into the assertion of `write_1byte`, as does a chunk size
into three free bytes; a string whose bytes do not fit is left out, and `write` succeeds. -/
theorem room_not_tested :
    (¬ ChecksRoom (encoding (Written.value .null).moves) (Written.value .null).write
        ⟨[0x07, 0x00], 1, 0, 2⟩)
    ∧ (Written.value .null).write.fault ⟨[0x07, 0x00], 1, 0, 2⟩ = some .assertion
    ∧ (Written.packet (.setChunkSize {}) rfl).write.fault
        ⟨[0x07, 0x07, 0x07, 0x07, 0x00, 0x00, 0x00, 0x00], 4, 0, 8⟩ = some .assertion
    ∧ (Written.value (.string [0x61, 0x62])).write
        ⟨[0x07, 0x07, 0x00, 0x00, 0x00, 0x00, 0x00], 2, 0, 7⟩
      = .ok (.ok ⟨⟩, ⟨[0x07, 0x07, 0x02, 0x00, 0x02, 0x00, 0x00], 5, 0, 7⟩) := by
  have hnull : (Written.value .null).write ⟨[0x07, 0x00], 1, 0, 2⟩ = .error .assertion := by
    decide +kernel
  refine ⟨fun h => h.not_assertion hnull, ?_, ?_, ?_⟩
  · decide +kernel
  · decide +kernel
  · decide +kernel

end SmartStreaming
