import SmartStreaming.Rtmp.Message

/-!
# Rtmp/Chunk/Recv — receiving chunks of interlaced messages

`recv_interlaced_message` of `RtmpProtocolHandler`: a basic header names a chunk stream, a message
header updates what is remembered of it, and a piece of payload is read into its partial message.
The `io_buffer` it reads from is a parameter, `ByteSource`; the four bytes of an extended timestamp
are read from beyond the header block, so they are an argument of each call.
-/

namespace SmartStreaming

open Machinery Comp

/-- What the handler uses of its `io_buffer`: `read_bytes(dst, n)` gives a return code and what it
stored at `dst`. -/
structure ByteSource (σ : Type) where
  readBytes : σ → ℤ → (ℤ × Bytes) × σ
  seekRead : σ → ℤ → σ

/-- `class RtmpProtocolHandler`, with what receiving reads and writes. -/
structure RtmpProtocolHandler (σ : Type) where
  ioBuffer : σ
  chunkStreams : ℤ → Option RtmpChunkStream
  csCache : List RtmpChunkStream
  fixRtmpTimestamp : Bool
  inChunkSize : ℤ

/-- `TMSS_PERF_CHUNK_STREAM_CACHE`. -/
def tmssPerfChunkStreamCache : ℕ := 16

/-- `RtmpProtocolHandler(io, fix_timestamp)`. -/
def RtmpProtocolHandler.new {σ : Type} (io : σ) (fixTimestamp : Bool) (inChunkSize : ℤ) :
    RtmpProtocolHandler σ where
  ioBuffer := io
  chunkStreams := fun _ => none
  csCache := (List.range tmssPerfChunkStreamCache).map fun cid : ℕ => RtmpChunkStream.new cid
  fixRtmpTimestamp := fixTimestamp
  inChunkSize := inChunkSize

namespace RtmpProtocolHandler

variable {σ : Type}

/-- Calls on the handler. -/
abbrev Call (σ : Type) := Comp Fault (RtmpProtocolHandler σ) ℤ

/-- Calls on one chunk stream and the source. -/
abbrev OnChunk (σ : Type) := Comp Fault (RtmpChunkStream × σ) ℤ

/-! ## The basic header -/

/-- `io_buffer->read_bytes(pos, n)`, returning the code when it is not `error_success`. -/
def readIo (src : ByteSource σ) (n : ℤ) : Comp Fault σ ℤ Bytes := do
  let ((ret, bs), io) := src.readBytes (← get) n
  put io
  if ret ≠ errorSuccess then fail ret
  else return bs

/-- `read_basic_header`: the format and the chunk stream id. -/
def readBasicHeader (src : ByteSource σ) : Comp Fault σ ℤ (ℕ × ℤ) := do
  let b := (← readIo src 1).getD 0 0
  let cid : ℤ := (b &&& 0x3f).toNat
  let fmt := ((b >>> 6) &&& 0x03).toNat
  if cid > 1 then
    return (fmt, cid)
  else if cid = 0 then
    let pos ← readIo src 1
    return (fmt, 64 + (pos.getD 0 0).toNat)
  else if cid = 1 then
    let pos ← readIo src 2
    return (fmt, 64 + (pos.getD 0 0).toNat + (pos.getD 1 0).toNat * 256)
  else stop .assertion

/-! ## The message header -/

/-- `mh_sizes[fmt]`. -/
def mhSize (fmt : ℕ) : ℤ := [11, 7, 3, 0].getD fmt 0

/-- The three bytes of timestamp of the formats 0, 1 and 2. -/
def setTimestamp (fmt : ℕ) (data : Bytes) (chunk : RtmpChunkStream) : RtmpChunkStream :=
  let delta := fromMemory 32 [data.getD 2 0, data.getD 1 0, data.getD 0 0, 0]
  if delta.toInt ≥ rtmpExtendedTimestamp then
    { chunk with
      header := { chunk.header with timestampDelta := delta }
      extendedTimestamp := true }
  else if fmt = 0 then
    { chunk with
      header := { chunk.header with timestamp := delta.toInt, timestampDelta := 0 }
      extendedTimestamp := false
      extendTime := 0 }
  else
    { chunk with
      header := { chunk.header with
        timestamp := chunk.header.timestamp + delta.toInt, timestampDelta := delta }
      extendedTimestamp := false
      extendTime := 0 }

/-- The three bytes of payload length of the formats 0 and 1. -/
def payloadLengthOf (data : Bytes) : ℤ :=
  (fromMemory 32 [data.getD 5 0, data.getD 4 0, data.getD 3 0, 0]).toInt

/-- Payload length and message type, and the stream id of format 0. -/
def setLength (fmt : ℕ) (data : Bytes) (chunk : RtmpChunkStream) : RtmpChunkStream :=
  let header := { chunk.header with
    payloadLength := payloadLengthOf data, messageType := data.getD 6 0 }
  let streamId := fromMemory 32 [data.getD 7 0, data.getD 8 0, data.getD 9 0, data.getD 10 0]
  if fmt = 0 then { chunk with header := { header with streamId := streamId } }
  else { chunk with header := header }

/-- The extended timestamp, and whether the source is told to go back over its four bytes. -/
def setExtended (fixRtmpTimestamp isFirstChunkOfMsg : Bool) (fmt : ℕ) (timestamp : BitVec 32)
    (chunk : RtmpChunkStream) : RtmpChunkStream × Bool :=
  let header := chunk.header
  let chunkTimestamp :=
    if fixRtmpTimestamp then chunk.extendTime else BitVec.ofInt 32 header.timestamp
  let notRepeated := !isFirstChunkOfMsg ∧ chunkTimestamp.toNat > 0 ∧ chunkTimestamp ≠ timestamp
  let header' :=
    if notRepeated then header
    else if !fixRtmpTimestamp then { header with timestamp := timestamp.toNat }
    else if !isFirstChunkOfMsg then header
    else if fmt = 2 ∨ fmt = 1 then
      { header with
        timestamp := (BitVec.ofInt 32 header.timestamp + timestamp).toNat
        timestampDelta := timestamp }
    else if fmt = 3 then
      { header with timestamp := (BitVec.ofInt 32 header.timestamp + timestamp).toNat }
    else { header with timestamp := timestamp.toNat, timestampDelta := 0 }
  ({ chunk with header := header', extendTime := timestamp }, decide notRepeated)

def getChunk : OnChunk σ RtmpChunkStream := do return (← get).1

def setChunk (chunk : RtmpChunkStream) : OnChunk σ PUnit := do put (chunk, (← get).2)

/-- A call on the source. -/
def onSource {α : Type} (f : Comp Fault σ ℤ α) : OnChunk σ α :=
  zoom Prod.snd (fun io s => (s.1, io)) f

/-- The `mh_size` bytes of the header. -/
def readHeaderBytes (src : ByteSource σ) (fmt : ℕ) : OnChunk σ Bytes :=
  if mhSize fmt > 0 then onSource (readIo src (mhSize fmt)) else return []

/-- The fields of the header; format 3 has none and repeats the last timestamp delta. -/
def readFields (isFirstChunkOfMsg : Bool) (fmt : ℕ) (data : Bytes) : OnChunk σ PUnit := do
  let chunk ← getChunk
  if fmt ≤ 2 then
    let chunk := setTimestamp fmt data chunk
    setChunk chunk
    if fmt ≤ 1 then
      -- the size of a message must not change between its chunks
      if !isFirstChunkOfMsg ∧ chunk.header.payloadLength ≠ payloadLengthOf data then
        fail errorRtmpPacketSize
      else setChunk (setLength fmt data chunk)
    else return ⟨⟩
  else if isFirstChunkOfMsg ∧ !chunk.extendedTimestamp then
    setChunk { chunk with header := { chunk.header with
      timestamp := chunk.header.timestamp + chunk.header.timestampDelta.toInt } }
  else return ⟨⟩

/-- The extended timestamp `ext`, which is read from beyond the header block. -/
def readExtended (src : ByteSource σ) (fixRtmpTimestamp isFirstChunkOfMsg : Bool) (fmt : ℕ)
    (ext : BitVec 32) : OnChunk σ PUnit := do
  let chunk ← getChunk
  if chunk.extendedTimestamp then
    let out := setExtended fixRtmpTimestamp isFirstChunkOfMsg fmt ext chunk
    setChunk out.1
    if out.2 then onSource (do put (src.seekRead (← get) (-4)))
    else return ⟨⟩
  else return ⟨⟩

/-- The end of `read_message_header`: the header goes to the message. -/
def finishHeader : OnChunk σ PUnit := do
  let chunk ← getChunk
  let header := { chunk.header with timestamp := chunk.header.timestamp % 2 ^ 32 }
  cassert (header.payloadLength ≥ 0)
  let msg ← ofOption .nullPointer chunk.msg
  setChunk { chunk with
    header := header
    msg := some { msg with header := header }
    msgCount := chunk.msgCount + 1 }

/-- `read_message_header(chunk, fmt)`. -/
def readMessageHeader (src : ByteSource σ) (fixRtmpTimestamp : Bool) (ext : BitVec 32) (fmt : ℕ) :
    OnChunk σ PUnit := do
  let chunk ← getChunk
  let isFirstChunkOfMsg := chunk.msg.isNone
  if chunk.msgCount = 0 ∧ fmt ≠ 0 ∧ fmt ≠ 1 then
    fail errorRtmpChunkStart
  else if chunk.msg.isSome ∧ fmt = 0 then
    fail errorRtmpChunkStart
  else
    setChunk { chunk with msg := some (chunk.msg.getD {}) }
    let data ← readHeaderBytes src fmt
    readFields isFirstChunkOfMsg fmt data
    readExtended src fixRtmpTimestamp isFirstChunkOfMsg fmt ext
    finishHeader

/-! ## The payload -/

/-- `create_payload`, when nothing is allocated yet. -/
def ensurePayload (chunk : RtmpChunkStream) (msg : RtmpMessage) : RtmpMessage :=
  { msg with
    payload := some (msg.payload.getD (RtmpMessage.createPayload chunk.header.payloadLength)) }

/-- `io_buffer->read_bytes(payload + size, n)`: the destination has to lie in the allocation. -/
def readPayloadBytes (src : ByteSource σ) (msg : RtmpMessage) (n : ℤ) : OnChunk σ PUnit := do
  let payload ← ofOption .nullPointer msg.payload
  if 0 ≤ msg.size ∧ 0 ≤ n ∧ msg.size + n ≤ payload.length then
    let (chunk, io) ← get
    let out := src.readBytes io n
    let payload ← ofOption .outOfBounds (store payload msg.size out.1.2)
    put ({ chunk with msg := some { msg with payload := some payload } }, out.2)
    if out.1.1 ≠ errorSuccess then fail out.1.1 else return ⟨⟩
  else stop .outOfBounds

/-- The end of `read_message_payload`: the message, when all of it has arrived. -/
def finishPayload (payloadSize : ℤ) : OnChunk σ (Option RtmpMessage) := do
  let chunk ← getChunk
  let msg ← ofOption .nullPointer chunk.msg
  let msg := { msg with size := msg.size + payloadSize }
  if chunk.header.payloadLength = msg.size then
    setChunk { chunk with msg := none }
    return some msg
  else
    setChunk { chunk with msg := some msg }
    return none

/-- `read_message_payload(chunk, msg)`. -/
def readMessagePayload (src : ByteSource σ) (inChunkSize : ℤ) : OnChunk σ (Option RtmpMessage) := do
  let chunk ← getChunk
  if chunk.header.payloadLength ≤ 0 then
    setChunk { chunk with msg := none }
    return chunk.msg
  else
    let msg ← ofOption .nullPointer chunk.msg
    let payloadSize := min (chunk.header.payloadLength - msg.size) inChunkSize
    let msg := ensurePayload chunk msg
    setChunk { chunk with msg := some msg }
    readPayloadBytes src msg payloadSize
    finishPayload payloadSize

/-! ## A chunk -/

/-- The chunk stream `cid`: an entry of the cache, or of the map, where it is created on a miss. -/
def chunkStream (h : RtmpProtocolHandler σ) (cid : ℤ) : Option RtmpChunkStream :=
  if cid < tmssPerfChunkStreamCache then h.csCache[cid.toNat]?
  else some ((h.chunkStreams cid).getD (RtmpChunkStream.new cid))

/-- The handler with the chunk stream `cid` as it is now. -/
def setChunkStream (h : RtmpProtocolHandler σ) (cid : ℤ) (chunk : RtmpChunkStream) :
    RtmpProtocolHandler σ :=
  if cid < tmssPerfChunkStreamCache then { h with csCache := h.csCache.set cid.toNat chunk }
  else { h with chunkStreams := fun i => if i = cid then some chunk else h.chunkStreams i }

/-- A call on the chunk stream `cid`, which is `chunk`. -/
def onChunk {α : Type} (cid : ℤ) (chunk : RtmpChunkStream) (f : OnChunk σ α) : Call σ α :=
  zoom (fun h => (chunk, h.ioBuffer))
    (fun s h => { h.setChunkStream cid s.1 with ioBuffer := s.2 }) f

/-- `recv_interlaced_message(msg)`: a message, when the chunk received completes one. -/
def recvInterlacedMessage (src : ByteSource σ) (ext : BitVec 32) : Call σ (Option RtmpMessage) := do
  let (fmt, cid) ← zoom ioBuffer (fun io h => { h with ioBuffer := io }) (readBasicHeader src)
  cassert (cid ≥ 0)
  let h ← get
  let chunk ← ofOption .outOfBounds (h.chunkStream cid)
  onChunk cid chunk do
    readMessageHeader src h.fixRtmpTimestamp ext fmt
    readMessagePayload src h.inChunkSize

end RtmpProtocolHandler

end SmartStreaming
