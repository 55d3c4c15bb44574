import SmartStreaming.Rtmp.Chunk.Recv
import SmartStreaming.Rtmp.Packet.Dispatch

/-!
# Rtmp/Control — `on_recv_message`: what a received control message changes

The message types that set a chunk size, an acknowledgement window or a buffer length are decoded
from a `Buffer` over the payload of the message, and applied to the handler.  A `Buffer` begins
empty, also over a block that is filled: `Buffer.readLeft_new`.
-/

namespace SmartStreaming

open Machinery Comp Buffer

/-! ## The handler -/

/-- `TMSS_CONSTS_RTMP_MIN_CHUNK_SIZE`. -/
def tmssConstsRtmpMinChunkSize : ℤ := 128

def srcPCUCPingRequest : BitVec 16 := 0x06
def srcPCUCPingResponse : BitVec 16 := 0x07

/-- `class AckWindowSize`. -/
structure AckWindowSize where
  window : BitVec 32 := 0
  nbRecvBytes : BitVec 64 := 0
  sequenceNumber : BitVec 32 := 0

/-- `class RtmpProtocolHandler`, with what the handling of a message reads and writes as well. -/
structure RtmpSession (σ : Type) extends RtmpProtocolHandler σ where
  inAckSize : AckWindowSize
  inBufferLength : BitVec 32
  requests : Requests
  autoResponseWhenRecv : Bool
  manualResponseQueue : List RtmpPacket

namespace RtmpSession

variable {σ : Type}

/-- Calls on the handler. -/
abbrev Call (σ : Type) := Comp Fault (RtmpSession σ) ℤ

/-! ## Responses -/

/-- `send_packet(pkt, 0)`.  It calls `encode(size, payload)` with `size = 0`, so that no block is
allocated and the packet is encoded to a null pointer; an `encode` that gets to its end returns no
value. -/
def sendPacket (pkt : RtmpPacket) : Call σ PUnit :=
  zoom (fun _ => Buffer.new [] pkt.getSize) (fun _ h => h) do
    pkt.encodePacket
    stop .missingReturn

/-- A response is cached, or sent at once. -/
def respond (pkt : RtmpPacket) : Call σ PUnit := do
  let h ← get
  if ¬ h.autoResponseWhenRecv then
    put { h with manualResponseQueue := h.manualResponseQueue ++ [pkt] }
  else
    sendPacket pkt

/-- `response_acknowledgement_message()`. -/
def responseAcknowledgementMessage (getRecvBytes : σ → BitVec 64) : Call σ PUnit := do
  let h ← get
  let recvBytes := getRecvBytes h.ioBuffer
  let delta := (recvBytes - h.inAckSize.nbRecvBytes).setWidth 32
  if h.inAckSize.window = 0 then
    return ⟨⟩
  else if delta.toNat < h.inAckSize.window.toNat / 2 then
    return ⟨⟩
  else
    let sequenceNumber := h.inAckSize.sequenceNumber + delta
    let sequenceNumber := if sequenceNumber.toNat > 0xf0000000 then delta else sequenceNumber
    put { h with inAckSize :=
      { h.inAckSize with nbRecvBytes := recvBytes, sequenceNumber := sequenceNumber } }
    respond (.acknowledgement { sequenceNumber := sequenceNumber })

/-- `response_ping_message(timestamp)`. -/
def responsePingMessage (timestamp : BitVec 32) : Call σ PUnit :=
  respond (.userControl { eventType := srcPCUCPingResponse, eventData := timestamp })

/-! ## Applying a packet -/

/-- The branch of `RTMP_MSG_WindowAcknowledgementSize`. -/
def applyWindowAckSize : RtmpPacket → Call σ PUnit
  | .setWindowAckSize pkt => do
    let h ← get
    if pkt.ackowledgementWindowSize.toInt > 0 then
      put { h with inAckSize := { h.inAckSize with window := pkt.ackowledgementWindowSize } }
    else return ⟨⟩
  | _ => stop .assertion

/-- The branch of `RTMP_MSG_SetChunkSize`. -/
def applyChunkSize : RtmpPacket → Call σ PUnit
  | .setChunkSize pkt => do
    let h ← get
    if pkt.chunkSize.toInt < tmssConstsRtmpMinChunkSize then
      fail errorRtmpChunkSize
    else
      put { h with inChunkSize := pkt.chunkSize.toInt }
  | _ => stop .assertion

/-- The branch of `RTMP_MSG_UserControlMessage`. -/
def applyUserControl : RtmpPacket → Call σ PUnit
  | .userControl pkt => do
    let h ← get
    if pkt.eventType = srcPCUCSetBufferLength then
      put { h with inBufferLength := pkt.extraData }
    else if pkt.eventType = srcPCUCPingRequest then
      responsePingMessage pkt.eventData
    else return ⟨⟩
  | _ => stop .assertion

/-- The second `switch` over the type. -/
def applyPacket (header : MessageHeader) (packet : RtmpPacket) : Call σ PUnit :=
  if header.messageType = rtmpMsgWindowAcknowledgementSize then applyWindowAckSize packet
  else if header.messageType = rtmpMsgSetChunkSize then applyChunkSize packet
  else if header.messageType = rtmpMsgUserControlMessage then applyUserControl packet
  else return ⟨⟩

/-- The types that the first `switch` decodes. -/
def isControl (header : MessageHeader) : Bool :=
  header.messageType = rtmpMsgSetChunkSize ∨ header.messageType = rtmpMsgUserControlMessage
    ∨ header.messageType = rtmpMsgWindowAcknowledgementSize

/-- `Buffer stream(msg->payload, msg->size)` and
`do_decode_message(msg->header, &stream, packet)`. -/
def decodePayload (msg : RtmpMessage) (packet : Option RtmpPacket) :
    Call σ (Option RtmpPacket) := do
  let h ← get
  zoom (fun _ => Buffer.new (msg.payload.getD []) msg.size) (fun _ h => h)
    (doDecodeMessage h.requests msg.header packet)

/-- `on_recv_message(msg, packet)`; the result is what `packet` refers to afterwards. -/
def onRecvMessage (getRecvBytes : σ → BitVec 64) (msg : RtmpMessage)
    (packet : Option RtmpPacket) : Call σ (Option RtmpPacket) := do
  responseAcknowledgementMessage getRecvBytes
  if isControl msg.header then
    let packet ← decodePayload msg packet
    let pkt ← ofOption .assertion packet
    applyPacket msg.header pkt
    return packet
  else
    return packet

/-! ## What the messages say -/

/-- What a control message sets. -/
structure Control where
  inChunkSize : ℤ
  inAckWindow : BitVec 32
  inBufferLength : BitVec 32

/-- The part of the handler that control messages are about. -/
def control (h : RtmpSession σ) : Control := ⟨h.inChunkSize, h.inAckSize.window, h.inBufferLength⟩

/-- A value that a control message carries. -/
inductive ControlValue
  | chunkSize (n : BitVec 32)
  | ackWindow (w : BitVec 32) (pos : w ≠ 0)
  | bufferLength (eventData extraData : BitVec 32)

namespace ControlValue

def messageType : ControlValue → BitVec 8
  | chunkSize _ => rtmpMsgSetChunkSize
  | ackWindow _ _ => rtmpMsgWindowAcknowledgementSize
  | bufferLength _ _ => rtmpMsgUserControlMessage

/-- The bytes of the value on the wire. -/
def bytes : ControlValue → Bytes
  | chunkSize n => beBytes 4 n.toNat
  | ackWindow w _ => beBytes 4 w.toNat
  | bufferLength eventData extraData =>
    beBytes 2 srcPCUCSetBufferLength.toNat ++ beBytes 4 eventData.toNat
      ++ beBytes 4 extraData.toNat

/-- The message carries the value, possibly with more bytes behind it. -/
structure CarriedBy (v : ControlValue) (msg : RtmpMessage) : Prop where
  messageType : msg.header.messageType = v.messageType
  payload : ∃ tail, msg.payload = some (v.bytes ++ tail) ∧ msg.size = (v.bytes ++ tail).length

/-- **What the message is for**: a value that can be set is set and nothing else of the group
changes, a chunk size below the minimum is refused. -/
def AppliedBy (v : ControlValue) (c : Control) (ret : Except ℤ (Option RtmpPacket))
    (c' : Control) : Prop :=
  match v with
  | chunkSize n =>
    if tmssConstsRtmpMinChunkSize ≤ n.toInt then c' = { c with inChunkSize := n.toInt }
    else ret = .error errorRtmpChunkSize ∧ c' = c
  | ackWindow w _ => c' = { c with inAckWindow := w }
  | bufferLength _ extraData => c' = { c with inBufferLength := extraData }

/-- The value is one that can be set, and is set already. -/
def SetIn (v : ControlValue) (c : Control) : Prop :=
  match v with
  | chunkSize n => tmssConstsRtmpMinChunkSize ≤ n.toInt ∧ c.inChunkSize = n.toInt
  | ackWindow w _ => c.inAckWindow = w
  | bufferLength _ extraData => c.inBufferLength = extraData

end ControlValue

/-! ## Decoding from a buffer over a payload -/

/-- **A buffer over a block has nothing to read.** -/
@[simp] theorem readLeft_new (buffer : Bytes) (size : ℤ) :
    (Buffer.new buffer size).readLeft = 0 := by
  rw [Buffer.new, Buffer.readLeft, zero_add, sub_zero, Int.tmod_self]

/-- A packet that begins by requiring bytes gives up on a buffer that begins empty. -/
theorem run_requireRead_new {α : Type} (buffer : Bytes) (size : ℤ) {n : ℤ} (hn : 0 < n) (code : ℤ)
    (f : PUnit → Stream α) :
    (requireRead n code >>= f) (Buffer.new buffer size)
      = .ok (.error code, Buffer.new buffer size) := by
  refine run_bind_error ?_
  have hno : (Buffer.new buffer size).readRequire n = false := by
    rw [Buffer.readRequire, if_neg (by omega), readLeft_new]
    exact decide_eq_false (by omega)
  rw [requireRead, run_get_bind, hno]
  rfl

section Decode

variable {F : Fault → Prop} {Q : Option RtmpPacket → RtmpSession σ → Prop}

/-- **No control message is decoded.** -/
theorem holds_decodePayload {E : ℤ → RtmpSession σ → Prop} {msg : RtmpMessage}
    (hmsg : isControl msg.header = true) (packet : Option RtmpPacket) (h : RtmpSession σ)
    (hE : E errorRtmpMessageDecode h) : Holds F E Q (decodePayload msg packet) h := by
  have hrun : doDecodeMessage h.requests msg.header packet
      (Buffer.new (msg.payload.getD []) msg.size)
      = .ok (.error errorRtmpMessageDecode, Buffer.new (msg.payload.getD []) msg.size) := by
    rw [isControl, decide_eq_true_eq] at hmsg
    rcases hmsg with htype | htype | htype
    all_goals
      simp only [doDecodeMessage, MessageHeader.isAmf, MessageHeader.isAmf0Command,
        MessageHeader.isAmf3Command, MessageHeader.isAmf0Data, MessageHeader.isAmf3Data,
        MessageHeader.isUserControlMessage, MessageHeader.isWindowAckledgementSize,
        MessageHeader.isSetChunkSize, htype]
    · exact run_bind_error (run_bind_error (run_bind_error
        (run_requireRead_new _ _ (n := 4) (by decide) _ _)))
    · exact run_bind_error (run_bind_error (run_requireRead_new _ _ (n := 2) (by decide) _ _))
    · exact run_bind_error (run_bind_error (run_bind_error
        (run_requireRead_new _ _ (n := 4) (by decide) _ _)))
  rw [decodePayload, holds_bind, holds_get, holds_zoom, Holds, hrun]
  exact hE

end Decode

/-! ## The whole call -/

/-- An acknowledgement that is sent at once cannot be encoded. -/
theorem holds_sendAcknowledgement (pkt : RtmpAcknowledgementPacket) (h : RtmpSession σ) :
    Holds (fun _ => False) (fun c h' => c = errorRtmpMessageEncode ∧ h' = h) (fun _ _ => False)
      (sendPacket (.acknowledgement pkt)) h := by
  have hrun : (RtmpPacket.acknowledgement pkt).encodePacket (Buffer.new [] 4)
      = .ok (.error errorRtmpMessageEncode, Buffer.new [] 4) :=
    run_requireRead_new _ _ (n := 4) (by decide) _ _
  rw [sendPacket, holds_zoom, holds_bind]
  change Holds _ _ _ ((RtmpPacket.acknowledgement pkt).encodePacket) (Buffer.new [] 4)
  rw [Holds, hrun]
  exact ⟨rfl, rfl⟩

/-- A response to the bytes received changes nothing that control messages are about. -/
theorem holds_responseAcknowledgementMessage (getRecvBytes : σ → BitVec 64) (h : RtmpSession σ) :
    Holds (fun _ => False) (fun c h' => c = errorRtmpMessageEncode ∧ h'.control = h.control)
      (fun _ h' => h'.control = h.control) (responseAcknowledgementMessage getRecvBytes) h := by
  simp only [responseAcknowledgementMessage, respond, holds_bind, holds_get, holds_ite, holds_pure,
    holds_put]
  refine ⟨fun _ => trivial, fun _ => ⟨fun _ => trivial, fun _ => ⟨fun _ => rfl, fun _ => ?_⟩⟩⟩
  refine (holds_sendAcknowledgement _ _).imp ?_ fun _ _ => False.elim
  rintro c h' ⟨hc, rfl⟩
  exact ⟨hc, rfl⟩

/-- **A control message is refused, whatever it carries**, and changes nothing it is about. -/
theorem holds_onRecvMessage (getRecvBytes : σ → BitVec 64) {msg : RtmpMessage}
    (hmsg : isControl msg.header = true) (packet : Option RtmpPacket) (h : RtmpSession σ) :
    Holds (fun _ => False)
      (fun c h' => (c = errorRtmpMessageEncode ∨ c = errorRtmpMessageDecode)
        ∧ h'.control = h.control)
      (fun _ _ => False) (onRecvMessage getRecvBytes msg packet) h := by
  rw [onRecvMessage, holds_bind]
  refine (holds_responseAcknowledgementMessage getRecvBytes h).imp ?_ ?_
  · rintro c h' ⟨hc, hctl⟩
    exact ⟨Or.inl hc, hctl⟩
  · intro _ h' hctl
    rw [if_pos hmsg, holds_bind]
    exact holds_decodePayload hmsg packet h' ⟨Or.inr rfl, hctl⟩

namespace ControlValue

theorem CarriedBy.isControl {v : ControlValue} {msg : RtmpMessage} (h : v.CarriedBy msg) :
    RtmpSession.isControl msg.header = true := by
  rw [RtmpSession.isControl, h.messageType]
  cases v <;> rfl

/-- A call that is refused and changes nothing has applied just what was set before. -/
theorem appliedBy_iff_of_refused (v : ControlValue) (c : Control) {code : ℤ}
    (hcode : code ≠ errorRtmpChunkSize) : v.AppliedBy c (.error code) c ↔ v.SetIn c := by
  cases v with
  | chunkSize n =>
    simp only [AppliedBy, SetIn]
    split
    · rename_i hmin
      refine ⟨fun heq => ⟨hmin, congrArg Control.inChunkSize heq⟩, fun hset => ?_⟩
      rw [← hset.2]
    · rename_i hmin
      refine ⟨fun hret => absurd (Except.error.inj hret.1) hcode, fun hset => absurd hset.1 hmin⟩
  | ackWindow w _ =>
    refine ⟨fun heq => congrArg Control.inAckWindow heq, fun hset => ?_⟩
    simp only [SetIn] at hset
    simp only [AppliedBy, ← hset]
  | bufferLength _ extraData =>
    refine ⟨fun heq => congrArg Control.inBufferLength heq, fun hset => ?_⟩
    simp only [SetIn] at hset
    simp only [AppliedBy, ← hset]

end ControlValue

/-- **A control message is applied only where it has nothing to change**: its value is one that can
be set and is set already. -/
theorem control_message_applied_iff (getRecvBytes : σ → BitVec 64) (v : ControlValue)
    (msg : RtmpMessage) (hmsg : v.CarriedBy msg) (packet : Option RtmpPacket)
    (h : RtmpSession σ) :
    ∃ ret h', onRecvMessage getRecvBytes msg packet h = .ok (ret, h')
      ∧ (v.AppliedBy h.control ret h'.control ↔ v.SetIn h.control) := by
  have hrun := holds_onRecvMessage getRecvBytes hmsg.isControl packet h
  unfold Holds at hrun
  split at hrun
  · exact hrun.elim
  · rename_i code h' heq
    obtain ⟨hcode, hctl⟩ := hrun
    refine ⟨_, h', heq, ?_⟩
    rw [hctl]
    refine v.appliedBy_iff_of_refused h.control ?_
    rcases hcode with rfl | rfl <;> decide
  · exact hrun.elim

/-- A handler that has received nothing yet, with the chunk size the protocol begins with. -/
def initial : RtmpSession Unit where
  toRtmpProtocolHandler := .new () false 128
  inAckSize := {}
  inBufferLength := 0
  requests := []
  autoResponseWhenRecv := true
  manualResponseQueue := []

/-- The peer announces chunks of 4096 bytes. -/
def setChunkSize4096 : RtmpMessage where
  header := { messageType := rtmpMsgSetChunkSize, payloadLength := 4 }
  size := 4
  payload := some [0x00, 0x00, 0x10, 0x00]

theorem control_message_applied_iff_4096 :
    ∃ ret h', onRecvMessage (fun _ => 0) setChunkSize4096 none initial = .ok (ret, h')
      ∧ ((ControlValue.chunkSize 4096).AppliedBy initial.control ret h'.control
        ↔ (ControlValue.chunkSize 4096).SetIn initial.control) :=
  control_message_applied_iff (fun _ => 0) (.chunkSize 4096) setChunkSize4096
    ⟨rfl, [], rfl, rfl⟩ none initial

/-- **A chunk size of 4096 bytes is refused as undecodable**, and chunks go on being cut at 128. -/
theorem chunk_size_not_set :
    (ControlValue.chunkSize 4096).CarriedBy setChunkSize4096
    ∧ ∃ h', onRecvMessage (fun _ => 0) setChunkSize4096 none initial
        = .ok (.error errorRtmpMessageDecode, h')
      ∧ h'.inChunkSize = 128
      ∧ ¬ (ControlValue.chunkSize 4096).AppliedBy initial.control
          (.error errorRtmpMessageDecode) h'.control := by
  refine ⟨⟨rfl, [], rfl, rfl⟩, initial, rfl, rfl, fun happ => ?_⟩
  have hsize : (128 : ℤ) = 4096 := congrArg Control.inChunkSize happ
  omega

end RtmpSession

end SmartStreaming
