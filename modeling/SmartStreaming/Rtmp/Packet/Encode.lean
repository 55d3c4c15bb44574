import SmartStreaming.Rtmp.Control
import SmartStreaming.Rtmp.Packet.Sizes

/-!
# Rtmp/Packet/Encode — `RtmpPacket::encode`

A packet is encoded to a `Buffer` over the block it will be sent from.  Every field writer first
asks whether the `Buffer` holds enough to *read*, and it holds nothing: `encode_refused`.
-/

namespace SmartStreaming

open Machinery Comp Buffer

theorem RtmpUserControlPacket.getSize_pos (p : RtmpUserControlPacket) : 0 < p.getSize := by
  rw [getSize]
  split <;> split <;> omega

namespace RtmpPacket

/-- The class overrides both `get_size` and `encode_packet`. -/
def overridesEncode : RtmpPacket → Bool
  | base | pause _ | closeStream _ | onCustomAmfData _ => false
  | _ => true

/-- What `encode(size, payload)` leaves: the code it returns, and what `size` and `payload` refer
to; there is no code where the function ends without a `return`. -/
abbrev Encoded := Option ℤ × ℤ × Option Bytes

/-- `encode(size, payload)`, where `new char[wanted_size]` would give the block `fresh`. -/
def encode (p : RtmpPacket) (fresh : Bytes) (size : ℤ) (payload : Option Bytes) :
    Except Fault Encoded :=
  let wantedPayload := if size > 0 then some fresh else none
  match p.encodePacket (Buffer.new (wantedPayload.getD []) p.getSize) with
  | .error e => .error e
  | .ok (.error ret, _) => .ok (some ret, size, payload)
  | .ok (.ok _, stream) => .ok (none, p.getSize, wantedPayload.map fun _ => stream.buf)

/-! ## What it is for -/

/-- The bytes that `encode_packet` appends where there is room. -/
def IsEncoding (p : RtmpPacket) (e : Bytes) : Prop :=
  ∃ b b' : Buffer, b.Valid ∧ p.getSize ≤ b.writeLeft ∧ p.encodePacket b = .ok (.ok ⟨⟩, b')
    ∧ b'.content = b.content ++ e

/-- The packet was encoded: success, its size, and its bytes. -/
def EncodedAs (p : RtmpPacket) (r : Except Fault Encoded) : Prop :=
  ∃ payload, r = .ok (some errorSuccess, p.getSize, some payload) ∧ p.IsEncoding payload

/-! ## What it does -/

section

variable (buffer : Bytes) (size : ℤ)

/-- Codes of a packet that cannot be encoded. -/
def EncodeError (code : ℤ) : Prop := code = errorRtmpAmf0Encode ∨ code = errorRtmpMessageEncode

/-- The call gives up on a buffer over a block, before it has written anything. -/
def GivesUp (f : Stream PUnit) : Prop :=
  ∃ code, EncodeError code ∧ f (Buffer.new buffer size) = .ok (.error code, Buffer.new buffer size)

variable {buffer size}

/-- What follows is not reached. -/
theorem GivesUp.bind {f : Stream PUnit} (h : GivesUp buffer size f) (g : PUnit → Stream PUnit) :
    GivesUp buffer size (f >>= g) := by
  obtain ⟨code, hcode, hrun⟩ := h
  exact ⟨code, hcode, run_bind_error hrun⟩

theorem givesUp_requireRead {n code : ℤ} (hn : 0 < n) (hcode : EncodeError code)
    (g : PUnit → Stream PUnit) : GivesUp buffer size (requireRead n code >>= g) :=
  ⟨code, hcode, RtmpSession.run_requireRead_new buffer size hn code g⟩

/-- Every AMF0 string begins with a marker, for which there has to be a byte to read. -/
theorem givesUp_amf0WriteString (value : Bytes) :
    GivesUp buffer size (amf0WriteString value) :=
  (givesUp_requireRead Int.one_pos (.inl rfl) _).bind _

theorem givesUp_encodeCommand (commandName : Bytes) (transactionId : Double) :
    GivesUp buffer size (encodeCommand commandName transactionId) :=
  (givesUp_amf0WriteString commandName).bind _

theorem givesUp_encodeWord (value : BitVec 32) : GivesUp buffer size (encodeWord value) :=
  givesUp_requireRead (by decide) (.inr rfl) _

/-- **Every class gives up**: its first writer finds nothing to read. -/
theorem givesUp_encodePacket {p : RtmpPacket} (hp : p.overridesEncode = true) :
    GivesUp buffer size p.encodePacket := by
  cases p with
  | base | pause | closeStream | onCustomAmfData => cases hp
  | setWindowAckSize p => exact givesUp_encodeWord _
  | setChunkSize p => exact givesUp_encodeWord _
  | acknowledgement p => exact givesUp_encodeWord _
  | setPeerBandwidth p => exact givesUp_requireRead (by decide) (.inr rfl) _
  | userControl p => exact givesUp_requireRead p.getSize_pos (.inr rfl) _
  | onMetaData p => exact (givesUp_amf0WriteString _).bind _
  | connectApp p => exact (givesUp_encodeCommand _ _).bind _
  | connectAppRes p => exact (givesUp_encodeCommand _ _).bind _
  | play p => exact (givesUp_encodeCommand _ _).bind _
  | playRes p => exact (givesUp_encodeCommand _ _).bind _
  | createStream p => exact (givesUp_encodeCommand _ _).bind _
  | createStreamRes p => exact (givesUp_encodeCommand _ _).bind _
  | fmleStart p => exact (givesUp_encodeCommand _ _).bind _
  | fmleStartRes p => exact (givesUp_encodeCommand _ _).bind _
  | publish p => exact (givesUp_encodeCommand _ _).bind _
  | onStatusCall p => exact (givesUp_encodeCommand _ _).bind _
  | bandwidth p => exact (givesUp_encodeCommand _ _).bind _
  | call p => exact (givesUp_encodeCommand _ _).bind _
  | callRes p => exact (givesUp_encodeCommand _ _).bind _

end

/-- `encode` fails, also over a block, and sets nothing. -/
theorem exists_encode_eq {p : RtmpPacket} (hp : p.overridesEncode = true) (fresh : Bytes)
    (size : ℤ) (payload : Option Bytes) :
    ∃ code, EncodeError code ∧ p.encode fresh size payload = .ok (some code, size, payload) := by
  obtain ⟨code, hcode, hrun⟩ : GivesUp ((if size > 0 then some fresh else none).getD [])
    p.getSize p.encodePacket := givesUp_encodePacket hp
  refine ⟨code, hcode, ?_⟩
  rw [encode, hrun]

/-- A call that returns an error has not encoded the packet. -/
theorem not_encodedAs_of_error {p : RtmpPacket} {r : Except Fault Encoded} {code : ℤ}
    (hcode : EncodeError code) (hrun : r = .ok (some code, 0, none)) : ¬ p.EncodedAs r := by
  rintro ⟨payload, hsuccess, -⟩
  have hret : some code = some errorSuccess := congrArg Prod.fst (Except.ok.inj (hrun ▸ hsuccess))
  rcases hcode with rfl | rfl <;> exact absurd (Option.some.inj hret) (by decide)

/-- **No packet is ever encoded**: called as `send_packet` calls it, `encode` returns an error and
sets neither the size nor the payload. -/
theorem encode_refused (p : RtmpPacket) (hp : p.overridesEncode = true) (fresh : Bytes) :
    ∃ code, EncodeError code ∧ p.encode fresh 0 none = .ok (some code, 0, none)
      ∧ ¬ p.EncodedAs (p.encode fresh 0 none) := by
  obtain ⟨code, hcode, hrun⟩ := exists_encode_eq hp fresh 0 none
  exact ⟨code, hcode, hrun, not_encodedAs_of_error hcode hrun⟩

theorem encode_refused_createStream :
    ∃ code, EncodeError code
      ∧ (createStream {}).encode (List.replicate 25 0) 0 none = .ok (some code, 0, none)
      ∧ ¬ (createStream {}).EncodedAs ((createStream {}).encode (List.replicate 25 0) 0 none) :=
  encode_refused (createStream {}) rfl (List.replicate 25 0)

/-- A `createStream` command, the first a client sends after it is connected. -/
theorem createStream_not_encoded :
    (createStream {}).encode (List.replicate 25 0) 0 none
        = .ok (some errorRtmpAmf0Encode, 0, none)
      ∧ ¬ (createStream {}).EncodedAs ((createStream {}).encode (List.replicate 25 0) 0 none) := by
  exact ⟨rfl, not_encodedAs_of_error (.inl rfl) rfl⟩

end RtmpPacket

end SmartStreaming
