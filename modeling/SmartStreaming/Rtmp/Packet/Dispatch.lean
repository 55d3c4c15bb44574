import SmartStreaming.Rtmp.Message
import SmartStreaming.Rtmp.Packet.Packets

/-!
# Rtmp/Packet/Dispatch — `do_decode_message` and `do_decode_command` of `rtmp_stack.cpp`

The type of a message, and for commands and data the name at its beginning, choose the class that
decodes it.  `packet` is the reference argument: the result is what it refers to afterwards.
-/

namespace SmartStreaming

open Machinery Comp Buffer

/-! ## Message types -/

def rtmpMsgSetChunkSize : BitVec 8 := 0x01
def rtmpMsgUserControlMessage : BitVec 8 := 0x04
def rtmpMsgWindowAcknowledgementSize : BitVec 8 := 0x05
def rtmpMsgAMF3DataMessage : BitVec 8 := 15
def rtmpMsgAMF3CommandMessage : BitVec 8 := 17
def rtmpMsgAMF0DataMessage : BitVec 8 := 18
def rtmpMsgAMF0CommandMessage : BitVec 8 := 20

namespace MessageHeader

def isAmf0Command (h : MessageHeader) : Bool := h.messageType = rtmpMsgAMF0CommandMessage
def isAmf0Data (h : MessageHeader) : Bool := h.messageType = rtmpMsgAMF0DataMessage
def isAmf3Command (h : MessageHeader) : Bool := h.messageType = rtmpMsgAMF3CommandMessage
def isAmf3Data (h : MessageHeader) : Bool := h.messageType = rtmpMsgAMF3DataMessage
def isWindowAckledgementSize (h : MessageHeader) : Bool :=
  h.messageType = rtmpMsgWindowAcknowledgementSize
def isSetChunkSize (h : MessageHeader) : Bool := h.messageType = rtmpMsgSetChunkSize
def isUserControlMessage (h : MessageHeader) : Bool := h.messageType = rtmpMsgUserControlMessage

/-- `is_amf0_command() || is_amf3_command() || is_amf0_data() || is_amf3_data()`. -/
def isAmf (h : MessageHeader) : Bool :=
  h.isAmf0Command || h.isAmf3Command || h.isAmf0Data || h.isAmf3Data

end MessageHeader

/-! ## Commands -/

/-- `std::map<double, std::string>` in the order of its keys. -/
abbrev Requests := List (Double × Bytes)

/-- `requests.find(transactionId)`: the first key that is not less, when it is not greater. -/
def Requests.find (requests : Requests) (transactionId : Double) : Option Bytes :=
  match List.find? (fun request => ¬ request.1.lt transactionId) requests with
  | some (key, name) => if transactionId.lt key then none else some name
  | none => none

/-- `packet = make_shared<...>(); return packet->decode(stream);` -/
def decodeAs (packet : RtmpPacket) : Stream (Option RtmpPacket) := do
  let packet ← packet.decode
  return some packet

/-- A `decode` whose failure is dropped together with the packet. -/
def decodeOrDrop (packet : RtmpPacket) : Stream (Option RtmpPacket) := do
  match ← attempt packet.decode with
  | .ok packet => return some packet
  | .error _ => return some .base

/-- The names of the bandwidth checks that are decoded. -/
def bandwidthCommands : List Bytes :=
  [tmssBwCheckFinished, tmssBwCheckPlaying, tmssBwCheckPublishing, tmssBwCheckStartingPlay,
    tmssBwCheckStartingPublish, tmssBwCheckStartPlay, tmssBwCheckStartPublish,
    tmssBwCheckStoppedPlay, tmssBwCheckStopPlay, tmssBwCheckStopPublish,
    tmssBwCheckStoppedPublish, tmssBwCheckFinal]

def doDecodeCommand (header : MessageHeader) (command : Bytes) (packet : Option RtmpPacket) :
    Stream (Option RtmpPacket) :=
  if command = rtmpAmf0CommandConnect then decodeAs (.connectApp {})
  else if command = rtmpAmf0CommandCreateStream then decodeAs (.createStream {})
  else if command = rtmpAmf0CommandPlay then decodeAs (.play {})
  else if command = rtmpAmf0CommandPause then decodeAs (.pause {})
  else if command = rtmpAmf0CommandReleaseStream then decodeAs (.fmleStart {})
  else if command = rtmpAmf0CommandFcPublish then decodeAs (.fmleStart {})
  else if command = rtmpAmf0CommandPublish then decodeAs (.publish {})
  else if command = rtmpAmf0CommandUnpublish then decodeAs (.fmleStart {})
  else if command = rtmpAmf0CommandOnStatus then decodeOrDrop (.onStatusCall {})
  else if command = tmssConstsRtmpSetDataframe ∨ command = tmssConstsRtmpOnMetadata then
    decodeAs (.onMetaData {})
  else if bandwidthCommands.any (command = ·) then decodeAs (.bandwidth {})
  else if command = rtmpAmf0CommandCloseStream then decodeAs (.closeStream {})
  else if header.isAmf0Command ∨ header.isAmf3Command then decodeAs (.call {})
  else if header.isAmf0Data ∨ header.isAmf3Data then decodeOrDrop (.onCustomAmfData {})
  else return packet

/-! ## Messages -/

/-- An AMF3 command begins with one byte to skip. -/
def skipAmf3 (header : MessageHeader) : Stream PUnit := do
  let b ← get
  onlyIf (header.isAmf3Command ∧ b.readRequire 1) (do
    let _ ← seekRead 1)

/-- `stream->reset()`, which is meant to go back to the beginning. -/
def restart (header : MessageHeader) : Stream PUnit := do
  reset
  onlyIf header.isAmf3Command (do
    let _ ← seekRead 1)

/-- The class that decodes the response to a request of that name. -/
def decodeResponseTo (requestName : Bytes) : Stream (Option RtmpPacket) :=
  if requestName = rtmpAmf0CommandConnect then decodeAs (.connectAppRes {})
  else if requestName = rtmpAmf0CommandCreateStream then
    decodeAs (.createStreamRes { transactionId := Double.zero, streamId := Double.zero })
  else if requestName = rtmpAmf0CommandReleaseStream ∨ requestName = rtmpAmf0CommandFcPublish
      ∨ requestName = rtmpAmf0CommandUnpublish then
    decodeAs (.fmleStartRes { transactionId := Double.zero })
  else fail errorRtmpNoRequest

/-- The branch of `_result` and `_error`. -/
def decodeResponse (requests : Requests) (header : MessageHeader) :
    Stream (Option RtmpPacket) := do
  let transactionId ← amf0ReadNumber
  restart header
  match requests.find transactionId with
  | some requestName => decodeResponseTo requestName
  | none => fail errorRtmpNoRequest

/-- The branch of the other commands; the decoded packet is replaced by a plain one. -/
def decodeRequest (header : MessageHeader) (command : Bytes) (packet : Option RtmpPacket) :
    Stream (Option RtmpPacket) := do
  restart header
  let _ ← doDecodeCommand header command packet
  return some .base

def decodeAmf (requests : Requests) (header : MessageHeader) (packet : Option RtmpPacket) :
    Stream (Option RtmpPacket) := do
  skipAmf3 header
  let command ← amf0ReadString []
  if command = rtmpAmf0CommandResult ∨ command = rtmpAmf0CommandError then
    decodeResponse requests header
  else
    decodeRequest header command packet

def doDecodeMessage (requests : Requests) (header : MessageHeader) (packet : Option RtmpPacket) :
    Stream (Option RtmpPacket) :=
  if header.isAmf then decodeAmf requests header packet
  else if header.isUserControlMessage then decodeAs (.userControl {})
  else if header.isWindowAckledgementSize then decodeAs (.setWindowAckSize {})
  else if header.isSetChunkSize then decodeAs (.setChunkSize {})
  else return packet

end SmartStreaming
