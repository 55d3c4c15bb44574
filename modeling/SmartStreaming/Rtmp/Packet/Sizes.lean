import SmartStreaming.Rtmp.Amf.Sized
import SmartStreaming.Rtmp.Packet.Packets

/-!
# Rtmp/Packet/Sizes — `encode_packet` appends `get_size()` bytes

The two functions of each class agree, and so do the two virtual functions: `writes_encodePacket`.
-/

namespace SmartStreaming

open Machinery Comp Buffer

theorem writes_encodeCommand (commandName : Bytes) (transactionId : Double) :
    Writes (Amf0Size.str commandName + Amf0Size.number)
      (encodeCommand commandName transactionId) :=
  (writes_amf0WriteString commandName).bind fun _ => writes_amf0WriteNumber transactionId

/-- A null pointer stops the program: there is no success to speak of. -/
theorem writes_writePointer : ∀ value : Option Amf0Any,
    Writes (Amf0Any.size value) (writePointer value)
  | none => by
    intro b hb
    rw [writePointer, holds_bind, holds_none]
    trivial
  | some value => by
    have h := (writes_pure value).bind fun v => (Amf0Any.writes_write value)
    rw [zero_add] at h
    exact h

theorem writes_writeIfAny : ∀ value : Option Amf0Any,
    Writes (Amf0Any.size value) (writeIfAny value)
  | none => writes_pure _
  | some value => Amf0Any.writes_write value

theorem writes_onlyIf {p : Prop} [Decidable p] {n : ℤ} {f : Stream PUnit} (h : Writes n f) :
    Writes (if p then n else 0) (onlyIf p f) := by
  unfold onlyIf
  split
  · exact h
  · exact writes_pure _

theorem writes_encodeWord (value : BitVec 32) : Writes 4 (encodeWord value) :=
  (writes_requireRead 4 _).bind fun _ => (writes_write4bytes value).bind fun _ => writes_pure _

/-- The commands that carry a `null` object. -/
theorem writes_encodeNullCommand {n : ℤ} {f : Stream PUnit} (commandName : Bytes)
    (transactionId : Double) (hf : Writes n f) :
    Writes (Amf0Size.str commandName + Amf0Size.number + Amf0Size.null + n) (do
      encodeCommand commandName transactionId
      amf0WriteNull
      f) := by
  rw [add_assoc]
  exact (writes_encodeCommand commandName transactionId).bind fun _ =>
    (writes_amf0WriteMarker _).bind fun _ => hf

theorem RtmpPlayPacket.writes_encodePacket (p : RtmpPlayPacket) :
    Writes p.getSize p.encodePacket := by
  rw [getSize, add_assoc, add_assoc, add_assoc]
  refine writes_encodeNullCommand _ _ ((writes_amf0WriteString p.streamName).bind fun _ => ?_)
  refine (writes_onlyIf (writes_amf0WriteNumber p.start)).bind fun _ => ?_
  refine (writes_onlyIf (writes_amf0WriteNumber p.duration)).bind fun _ => ?_
  exact writes_onlyIf (writes_amf0WriteBoolean p.reset)

theorem RtmpUserControlPacket.writes_encodePacket (p : RtmpUserControlPacket) :
    Writes p.getSize p.encodePacket := by
  have hdata : Writes (if p.eventType = srcPCUCFmsEvent0 then 1 else 4) p.encodeEventData := by
    unfold encodeEventData
    split
    · exact (writes_write1byte _).bind fun _ => writes_pure _
    · exact (writes_write4bytes _).bind fun _ => writes_pure _
  rw [getSize, add_assoc, ← zero_add (2 + _)]
  refine (writes_requireRead _ _).bind fun _ => (writes_write2bytes _).bind fun _ => ?_
  refine hdata.bind fun _ => writes_onlyIf ?_
  exact (writes_write4bytes p.extraData).bind fun _ => writes_pure _

namespace RtmpPacket

/-- **`encode_packet` appends `get_size()` bytes**, whatever the class. -/
theorem writes_encodePacket (p : RtmpPacket) : Writes p.getSize p.encodePacket := by
  cases p with
  | base => exact writes_fail _
  | connectApp p =>
    simp only [getSize, RtmpConnectAppPacket.getSize, add_assoc]
    rw [← add_assoc]
    exact (writes_encodeCommand _ _).bind fun _ => (writes_writePointer _).bind fun _ =>
      writes_writeIfAny _
  | connectAppRes p =>
    simp only [getSize, RtmpConnectAppResPacket.getSize, add_assoc]
    rw [← add_assoc]
    exact (writes_encodeCommand _ _).bind fun _ => (writes_writePointer _).bind fun _ =>
      writes_writePointer _
  | setWindowAckSize p => exact writes_encodeWord _
  | play p => exact p.writes_encodePacket
  | playRes p => exact writes_encodeNullCommand _ _ (writes_writePointer _)
  | setChunkSize p => exact writes_encodeWord _
  | setPeerBandwidth p =>
    exact (writes_requireRead 5 _).bind fun _ => (writes_write4bytes p.bandwidth).bind fun _ =>
      (writes_write1byte p.type).bind fun _ => writes_pure _
  | userControl p => exact p.writes_encodePacket
  | createStream p =>
    exact (writes_encodeCommand _ _).bind fun _ => writes_amf0WriteMarker _
  | createStreamRes p => exact writes_encodeNullCommand _ _ (writes_amf0WriteNumber _)
  | fmleStart p => exact writes_encodeNullCommand _ _ (writes_amf0WriteString _)
  | fmleStartRes p => exact writes_encodeNullCommand _ _ (writes_amf0WriteMarker _)
  | publish p =>
    simp only [getSize, RtmpPublishPacket.getSize]
    rw [add_assoc]
    exact writes_encodeNullCommand _ _ ((writes_amf0WriteString _).bind fun _ =>
      writes_amf0WriteString _)
  | pause p => exact writes_fail _
  | onStatusCall p => exact writes_encodeNullCommand _ _ (writes_writePointer _)
  | onMetaData p =>
    exact (writes_amf0WriteString _).bind fun _ => writes_writePointer _
  | bandwidth p => exact writes_encodeNullCommand _ _ (writes_writePointer _)
  | closeStream p => exact writes_fail _
  | call p =>
    simp only [getSize, RtmpCallPacket.getSize, add_assoc]
    rw [← add_assoc]
    exact (writes_encodeCommand _ _).bind fun _ => (writes_writeIfAny _).bind fun _ =>
      writes_writeIfAny _
  | callRes p =>
    simp only [getSize, RtmpCallResPacket.getSize, add_assoc]
    rw [← add_assoc]
    exact (writes_encodeCommand _ _).bind fun _ => (writes_writeIfAny _).bind fun _ =>
      writes_writeIfAny _
  | onCustomAmfData p => exact writes_fail _
  | acknowledgement p => exact writes_encodeWord _

end RtmpPacket

/-- **A successful `write` or `encode_packet` has appended exactly the announced size**, where
there was room for it, and has not moved the read position. -/
theorem success_appends_size (b b' : Buffer) (hb : b.Valid) :
    (∀ v : Amf0Any, v.totalSize ≤ b.writeLeft → v.write b = .ok (.ok ⟨⟩, b') →
      ∃ e, b'.content = b.content ++ e ∧ e.length = v.totalSize ∧ b'.rpos = b.rpos)
    ∧ ∀ p : RtmpPacket, p.getSize ≤ b.writeLeft → p.encodePacket b = .ok (.ok ⟨⟩, b') →
      ∃ e, b'.content = b.content ++ e ∧ e.length = p.getSize ∧ b'.rpos = b.rpos := by
  have hsize : ∀ {n : ℤ} {f : Stream PUnit}, Writes n f → n ≤ b.writeLeft →
      f b = .ok (.ok ⟨⟩, b') → ∃ e, b'.content = b.content ++ e ∧ e.length = n
        ∧ b'.rpos = b.rpos := by
    intro n f hf hroom hrun
    obtain ⟨e, happ, _, hlen⟩ := hf.appended hb hrun
    exact ⟨e, happ.content_eq, hlen hroom, happ.rpos_eq⟩
  exact ⟨fun v => hsize (Amf0Any.writes_write v), fun p => hsize p.writes_encodePacket⟩

/-- The object `{"a": null}` behind three bytes, and a buffer-length event behind ten, written
across the end of the block. -/
theorem success_appends_size_two :
    (∃ e : Bytes, (⟨[7, 7, 7, 3, 0, 1, 0x61, 5, 0, 0, 9, 0], 11, 0, 12⟩ : Buffer).content
        = (⟨[7, 7, 7, 0, 0, 0, 0, 0, 0, 0, 0, 0], 3, 0, 12⟩ : Buffer).content ++ e
      ∧ e.length = (Amf0Any.object [(text "a", .null)]).totalSize
      ∧ (⟨[7, 7, 7, 3, 0, 1, 0x61, 5, 0, 0, 9, 0], 11, 0, 12⟩ : Buffer).rpos = 0)
    ∧ ∃ e : Bytes,
      (⟨[0, 5, 0, 0, 1, 0x2c, 0, 0, 7, 7, 7, 7, 7, 7, 7, 7, 7, 7, 0, 3, 0, 0], 6, 8, 22⟩
          : Buffer).content
        = (⟨[0, 0, 0, 0, 0, 0, 0, 0, 7, 7, 7, 7, 7, 7, 7, 7, 7, 7, 0, 0, 0, 0], 18, 8, 22⟩
          : Buffer).content ++ e
      ∧ e.length = (RtmpPacket.userControl ⟨srcPCUCSetBufferLength, 5, 300⟩).getSize
      ∧ (⟨[0, 5, 0, 0, 1, 0x2c, 0, 0, 7, 7, 7, 7, 7, 7, 7, 7, 7, 7, 0, 3, 0, 0], 6, 8, 22⟩
          : Buffer).rpos = 8 := by
  refine ⟨(success_appends_size ⟨[7, 7, 7, 0, 0, 0, 0, 0, 0, 0, 0, 0], 3, 0, 12⟩
      ⟨[7, 7, 7, 3, 0, 1, 0x61, 5, 0, 0, 9, 0], 11, 0, 12⟩ ?_).1 _ ?_ ?_,
    (success_appends_size
      ⟨[0, 0, 0, 0, 0, 0, 0, 0, 7, 7, 7, 7, 7, 7, 7, 7, 7, 7, 0, 0, 0, 0], 18, 8, 22⟩
      ⟨[0, 5, 0, 0, 1, 0x2c, 0, 0, 7, 7, 7, 7, 7, 7, 7, 7, 7, 7, 0, 3, 0, 0], 6, 8, 22⟩ ?_).2
      _ ?_ ?_⟩
  · constructor <;> decide
  · decide +kernel
  · decide +kernel
  · constructor <;> decide
  · decide +kernel
  · decide +kernel

end SmartStreaming
