import SmartStreaming.Base.Defs

/-!
# Rtmp/Message — messages, and what is remembered of a chunk stream

`MessageHeader`, `RtmpMessage` and `RtmpChunkStream` of `rtmp_message.hpp`, with the fields that
receiving and sending chunks read or write.  Fields that are bytes of the wire are `BitVec`s, an
`int` that only counts is a `ℤ`.
-/

namespace SmartStreaming

/-- `RTMP_CID_OverConnection`. -/
def rtmpCidOverConnection : ℤ := 0x03

/-- `RTMP_EXTENDED_TIMESTAMP`. -/
def rtmpExtendedTimestamp : ℤ := 0xFFFFFF

/-- `class MessageHeader`. -/
structure MessageHeader where
  timestampDelta : BitVec 32 := 0
  payloadLength : ℤ := 0
  messageType : BitVec 8 := 0
  streamId : BitVec 32 := 0
  /-- An `int64_t` that every complete header leaves below `2^32`. -/
  timestamp : ℤ := 0
  perferCid : ℤ := rtmpCidOverConnection
  deriving DecidableEq

/-- `class RtmpMessage`: `payload` is the allocation, of which `size` bytes are filled. -/
structure RtmpMessage where
  header : MessageHeader := {}
  size : ℤ := 0
  payload : Option Bytes := none
  deriving DecidableEq

/-- `create_payload(size)`: a block of `size` bytes, whatever they are. -/
def RtmpMessage.createPayload (size : ℤ) : Bytes := List.replicate size.toNat 0

/-- `class RtmpChunkStream`. -/
structure RtmpChunkStream where
  cid : ℤ
  header : MessageHeader := {}
  extendedTimestamp : Bool := false
  /-- The partially read message. -/
  msg : Option RtmpMessage := none
  /-- Tells whether the chunk stream is fresh. -/
  msgCount : ℕ := 0
  extendTime : BitVec 32 := 0
  deriving DecidableEq

/-- A chunk stream as the handler creates it. -/
def RtmpChunkStream.new (cid : ℤ) : RtmpChunkStream :=
  { cid := cid, header := { perferCid := cid } }

end SmartStreaming
