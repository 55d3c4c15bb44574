import SmartStreaming.Rtmp.Amf.Codec

/-!
# Rtmp/Packet/Packets — the packet classes of `rtmp_stack.cpp`

Each class is a structure whose defaults are what its constructor sets, with its `decode`,
`get_size` and `encode_packet`; `RtmpPacket` is the base class with its subclasses as constructors.
A `shared_ptr` is an option.  Fields that none of these functions uses (the `null` command objects)
are left out.  A packet whose `decode` fails is not looked at again, so a failure has none.
-/

namespace SmartStreaming

open Machinery Comp Buffer

/-! ## Names -/

def rtmpAmf0CommandConnect : Bytes := text "connect"
def rtmpAmf0CommandCreateStream : Bytes := text "createStream"
def rtmpAmf0CommandCloseStream : Bytes := text "closeStream"
def rtmpAmf0CommandPlay : Bytes := text "play"
def rtmpAmf0CommandPause : Bytes := text "pause"
def rtmpAmf0CommandOnStatus : Bytes := text "onStatus"
def rtmpAmf0CommandResult : Bytes := text "_result"
def rtmpAmf0CommandError : Bytes := text "_error"
def rtmpAmf0CommandReleaseStream : Bytes := text "releaseStream"
def rtmpAmf0CommandFcPublish : Bytes := text "FCPublish"
def rtmpAmf0CommandUnpublish : Bytes := text "FCUnpublish"
def rtmpAmf0CommandPublish : Bytes := text "publish"

def tmssBwCheckStartPlay : Bytes := text "onSrsBandCheckStartPlayBytes"
def tmssBwCheckStartingPlay : Bytes := text "onSrsBandCheckStartingPlayBytes"
def tmssBwCheckStopPlay : Bytes := text "onSrsBandCheckStopPlayBytes"
def tmssBwCheckStoppedPlay : Bytes := text "onSrsBandCheckStoppedPlayBytes"
def tmssBwCheckStartPublish : Bytes := text "onSrsBandCheckStartPublishBytes"
def tmssBwCheckStartingPublish : Bytes := text "onSrsBandCheckStartingPublishBytes"
def tmssBwCheckStopPublish : Bytes := text "onSrsBandCheckStopPublishBytes"
def tmssBwCheckStoppedPublish : Bytes := text "onSrsBandCheckStoppedPublishBytes"
def tmssBwCheckFinished : Bytes := text "onSrsBandCheckFinished"
def tmssBwCheckFinal : Bytes := text "finalClientPacket"
def tmssBwCheckPlaying : Bytes := text "onSrsBandCheckPlaying"
def tmssBwCheckPublishing : Bytes := text "onSrsBandCheckPublishing"

def tmssConstsRtmpOnMetadata : Bytes := text "onMetaData"
def tmssConstsRtmpSetDataframe : Bytes := text "@setDataFrame"

def tmssConstsRtmpProtocolChunkSize : BitVec 32 := 128
def srcPCUCSetBufferLength : BitVec 16 := 0x03
def srcPCUCFmsEvent0 : BitVec 16 := 0x1a
def rtmpPeerBandwidthDynamic : BitVec 8 := 2

/-! ## What the classes share -/

/-- The beginning of a command: its name, which `accepts` has to pass, and its transaction id. -/
def decodeCommand (accepts : Bytes → Bool) (commandName : Bytes) : Stream (Bytes × Double) := do
  let commandName ← amf0ReadString commandName
  ensure (accepts commandName) errorRtmpAmf0Decode
  let transactionId ← amf0ReadNumber
  return (commandName, transactionId)

/-- What every `encode_packet` of a command begins with. -/
def encodeCommand (commandName : Bytes) (transactionId : Double) : Stream PUnit := do
  amf0WriteString commandName
  amf0WriteNumber transactionId

/-- `if (!stream->read_empty())` read a new value, else keep the old one. -/
def unlessEmpty {α : Type} (value : α) (f : Stream α) : Stream α := do
  if (← get).readEmpty then
    return value
  else
    f

/-- `value->read(stream)`. -/
def readPointer (value : Option Amf0Any) : Stream Amf0Any := do
  let value ← ofOption .nullPointer value
  value.readFrom

/-- `Amf0Any::discovery(stream, any)`, then `any->read(stream)`. -/
def discoverAndRead : Stream Amf0Any := do
  let any ← Amf0Any.discovery
  any.readFrom

/-- `value->write(stream)`. -/
def writePointer (value : Option Amf0Any) : Stream PUnit := do
  let value ← ofOption .nullPointer value
  value.write

/-- `if (value)` write it. -/
def writeIfAny : Option Amf0Any → Stream PUnit
  | none => return ⟨⟩
  | some value => value.write

/-! ## The classes -/

/-- `class RtmpConnectAppPacket`: the client names the application it wants. -/
structure RtmpConnectAppPacket where
  commandName : Bytes := rtmpAmf0CommandConnect
  transactionId : Double := Double.one
  commandObject : Option Amf0Any := some (.object [])
  args : Option Amf0Any := none

namespace RtmpConnectAppPacket

/-- The optional arguments; only an object is kept. -/
def decodeArgs (p : RtmpConnectAppPacket) : Stream RtmpConnectAppPacket := do
  let any ← discoverAndRead
  if any.isObject then
    let args ← any.toObject
    return { p with args := some args }
  else
    return p

/-- The command object is read into the object that the constructor has made. -/
def decode (p : RtmpConnectAppPacket) : Stream RtmpConnectAppPacket := do
  let (commandName, transactionId) ← decodeCommand (· = rtmpAmf0CommandConnect) p.commandName
  let commandObject ← readPointer p.commandObject
  let p := { p with
    commandName := commandName, transactionId := transactionId,
    commandObject := some commandObject }
  unlessEmpty p p.decodeArgs

def getSize (p : RtmpConnectAppPacket) : ℤ :=
  Amf0Size.str p.commandName + Amf0Size.number + Amf0Any.size p.commandObject
    + Amf0Any.size p.args

/-- Without a command object the null pointer is followed; the arguments are tested. -/
def encodePacket (p : RtmpConnectAppPacket) : Stream PUnit := do
  encodeCommand p.commandName p.transactionId
  writePointer p.commandObject
  writeIfAny p.args

end RtmpConnectAppPacket

/-- `class RtmpConnectAppResPacket`, the answer to it. -/
structure RtmpConnectAppResPacket where
  commandName : Bytes := rtmpAmf0CommandResult
  transactionId : Double := Double.one
  props : Option Amf0Any := some (.object [])
  info : Option Amf0Any := some (.object [])

namespace RtmpConnectAppResPacket

/-- The props, which are ignored when they are no object. -/
def decodeProps (p : RtmpConnectAppResPacket) : Stream (Option Amf0Any) := do
  let any ← amf0ReadAny
  if any.isObject then
    let props ← any.toObject
    return some props
  else
    return p.props

/-- The props may be missing, the info may not. -/
def decode (p : RtmpConnectAppResPacket) : Stream RtmpConnectAppResPacket := do
  let (commandName, transactionId) ← decodeCommand (· = rtmpAmf0CommandResult) p.commandName
  let props ← unlessEmpty p.props p.decodeProps
  let info ← readPointer p.info
  return { commandName, transactionId, props, info := some info }

def getSize (p : RtmpConnectAppResPacket) : ℤ :=
  Amf0Size.str p.commandName + Amf0Size.number + Amf0Any.size p.props + Amf0Any.size p.info

def encodePacket (p : RtmpConnectAppResPacket) : Stream PUnit := do
  encodeCommand p.commandName p.transactionId
  writePointer p.props
  writePointer p.info

end RtmpConnectAppResPacket

/-- The four bytes that three of the protocol control packets consist of. -/
def decodeWord : Stream (BitVec 32) := do
  requireRead 4 errorRtmpMessageDecode
  read4bytes

/-- They are written behind a test of what can be read. -/
def encodeWord (value : BitVec 32) : Stream PUnit := do
  requireRead 4 errorRtmpMessageEncode
  let _ ← write4bytes value

/-- `class RtmpSetWindowAckSizePacket`: after so many bytes the peer is to acknowledge. -/
structure RtmpSetWindowAckSizePacket where
  ackowledgementWindowSize : BitVec 32 := 0

namespace RtmpSetWindowAckSizePacket

def decode (_ : RtmpSetWindowAckSizePacket) : Stream RtmpSetWindowAckSizePacket := do
  let ackowledgementWindowSize ← decodeWord
  return { ackowledgementWindowSize }

def getSize (_ : RtmpSetWindowAckSizePacket) : ℤ := 4

def encodePacket (p : RtmpSetWindowAckSizePacket) : Stream PUnit :=
  encodeWord p.ackowledgementWindowSize

end RtmpSetWindowAckSizePacket

/-- `class RtmpPlayPacket`; a start of `-2` is a live stream or else a recorded one, a duration of
`-1` is to its end. -/
structure RtmpPlayPacket where
  commandName : Bytes := rtmpAmf0CommandPlay
  transactionId : Double := Double.zero
  streamName : Bytes := []
  start : Double := Double.minusTwo
  duration : Double := Double.minusOne
  reset : Bool := true

namespace RtmpPlayPacket

/-- The optional `reset`: a boolean or a number. -/
def decodeReset (p : RtmpPlayPacket) : Stream RtmpPlayPacket := do
  match ← attempt amf0ReadAny with
  | .error _ => fail errorRtmpAmf0Decode
  | .ok resetValue =>
    if resetValue.isBoolean then
      let reset ← resetValue.toBoolean
      return { p with reset }
    else if resetValue.isNumber then
      let number ← resetValue.toNumber
      return { p with reset := ¬ number.eq Double.zero }
    else
      fail errorRtmpAmf0Decode

/-- Behind the stream name everything may be missing. -/
def decode (p : RtmpPlayPacket) : Stream RtmpPlayPacket := do
  let (commandName, transactionId) ← decodeCommand (· = rtmpAmf0CommandPlay) p.commandName
  amf0ReadNull
  let streamName ← amf0ReadString p.streamName
  let start ← unlessEmpty p.start amf0ReadNumber
  let duration ← unlessEmpty p.duration amf0ReadNumber
  let p := { p with commandName, transactionId, streamName, start, duration }
  unlessEmpty p p.decodeReset

/-- `duration != -1 || !reset`. -/
def sendsDuration (p : RtmpPlayPacket) : Bool := ¬ p.duration.eq Double.minusOne ∨ ¬ p.reset

/-- `start != -2 || duration != -1 || !reset`. -/
def sendsStart (p : RtmpPlayPacket) : Bool := ¬ p.start.eq Double.minusTwo ∨ p.sendsDuration

/-- A field that is sent is preceded by those before it. -/
def getSize (p : RtmpPlayPacket) : ℤ :=
  Amf0Size.str p.commandName + Amf0Size.number + Amf0Size.null + Amf0Size.str p.streamName
    + (if p.sendsStart then Amf0Size.number else 0)
    + (if p.sendsDuration then Amf0Size.number else 0)
    + (if ¬ p.reset then Amf0Size.boolean else 0)

/-- Only what differs from the defaults is sent, and what stands before it. -/
def encodePacket (p : RtmpPlayPacket) : Stream PUnit := do
  encodeCommand p.commandName p.transactionId
  amf0WriteNull
  amf0WriteString p.streamName
  onlyIf p.sendsStart (amf0WriteNumber p.start)
  onlyIf p.sendsDuration (amf0WriteNumber p.duration)
  onlyIf (¬ p.reset) (amf0WriteBoolean p.reset)

end RtmpPlayPacket

/-- `class RtmpPlayResPacket`, which is sent and never received. -/
structure RtmpPlayResPacket where
  commandName : Bytes := rtmpAmf0CommandResult
  transactionId : Double := Double.zero
  desc : Option Amf0Any := some (.object [])

namespace RtmpPlayResPacket

def getSize (p : RtmpPlayResPacket) : ℤ :=
  Amf0Size.str p.commandName + Amf0Size.number + Amf0Size.null + Amf0Any.size p.desc

def encodePacket (p : RtmpPlayResPacket) : Stream PUnit := do
  encodeCommand p.commandName p.transactionId
  amf0WriteNull
  writePointer p.desc

end RtmpPlayResPacket

/-- `class RtmpSetChunkSizePacket`: the chunks that follow are of this size. -/
structure RtmpSetChunkSizePacket where
  chunkSize : BitVec 32 := tmssConstsRtmpProtocolChunkSize

namespace RtmpSetChunkSizePacket

def decode (_ : RtmpSetChunkSizePacket) : Stream RtmpSetChunkSizePacket := do
  let chunkSize ← decodeWord
  return { chunkSize }

def getSize (_ : RtmpSetChunkSizePacket) : ℤ := 4

def encodePacket (p : RtmpSetChunkSizePacket) : Stream PUnit := encodeWord p.chunkSize

end RtmpSetChunkSizePacket

/-- `class RtmpSetPeerBandwidthPacket`, which is sent and never received. -/
structure RtmpSetPeerBandwidthPacket where
  bandwidth : BitVec 32 := 0
  type : BitVec 8 := rtmpPeerBandwidthDynamic

namespace RtmpSetPeerBandwidthPacket

def getSize (_ : RtmpSetPeerBandwidthPacket) : ℤ := 5

def encodePacket (p : RtmpSetPeerBandwidthPacket) : Stream PUnit := do
  requireRead 5 errorRtmpMessageEncode
  let _ ← write4bytes p.bandwidth
  let _ ← write1byte p.type

end RtmpSetPeerBandwidthPacket

/-- `class RtmpUserControlPacket`: an event, its data, and the length of a buffer for one event. -/
structure RtmpUserControlPacket where
  eventType : BitVec 16 := 0
  eventData : BitVec 32 := 0
  extraData : BitVec 32 := 0

namespace RtmpUserControlPacket

/-- One byte of event data for `SrcPCUCFmsEvent0`, four bytes for the other events. -/
def decodeEventData (eventType : BitVec 16) : Stream (BitVec 32) :=
  if eventType = srcPCUCFmsEvent0 then do
    requireRead 1 errorRtmpMessageDecode
    let eventData ← read1byte
    return eventData.signExtend 32
  else do
    requireRead 4 errorRtmpMessageDecode
    read4bytes

/-- The buffer length; the error of an encoder is returned here. -/
def decodeExtraData (p : RtmpUserControlPacket) (eventType : BitVec 16) : Stream (BitVec 32) :=
  if eventType = srcPCUCSetBufferLength then do
    requireRead 4 errorRtmpMessageEncode
    read4bytes
  else
    return p.extraData

def decode (p : RtmpUserControlPacket) : Stream RtmpUserControlPacket := do
  requireRead 2 errorRtmpMessageDecode
  let eventType ← read2bytes
  let eventData ← decodeEventData eventType
  let extraData ← p.decodeExtraData eventType
  return { eventType, eventData, extraData }

/-- The type, the data and what an event adds to them. -/
def getSize (p : RtmpUserControlPacket) : ℤ :=
  2 + (if p.eventType = srcPCUCFmsEvent0 then 1 else 4)
    + (if p.eventType = srcPCUCSetBufferLength then 4 else 0)

/-- As many bytes of data as the event has. -/
def encodeEventData (p : RtmpUserControlPacket) : Stream PUnit :=
  if p.eventType = srcPCUCFmsEvent0 then do
    let _ ← write1byte (p.eventData.setWidth 8)
  else do
    let _ ← write4bytes p.eventData

/-- One test for the whole packet. -/
def encodePacket (p : RtmpUserControlPacket) : Stream PUnit := do
  requireRead p.getSize errorRtmpMessageEncode
  let _ ← write2bytes p.eventType
  p.encodeEventData
  onlyIf (p.eventType = srcPCUCSetBufferLength) (do
    let _ ← write4bytes p.extraData)

end RtmpUserControlPacket

/-- `class RtmpCreateStreamPacket`. -/
structure RtmpCreateStreamPacket where
  commandName : Bytes := rtmpAmf0CommandCreateStream
  transactionId : Double := Double.two

namespace RtmpCreateStreamPacket

def decode (p : RtmpCreateStreamPacket) : Stream RtmpCreateStreamPacket := do
  let (commandName, transactionId) ←
    decodeCommand (· = rtmpAmf0CommandCreateStream) p.commandName
  amf0ReadNull
  return { commandName, transactionId }

def getSize (p : RtmpCreateStreamPacket) : ℤ :=
  Amf0Size.str p.commandName + Amf0Size.number + Amf0Size.null

def encodePacket (p : RtmpCreateStreamPacket) : Stream PUnit := do
  encodeCommand p.commandName p.transactionId
  amf0WriteNull

end RtmpCreateStreamPacket

/-- `class RtmpCreateStreamResPacket`, with the stream that was created. -/
structure RtmpCreateStreamResPacket where
  commandName : Bytes := rtmpAmf0CommandResult
  transactionId : Double
  streamId : Double

namespace RtmpCreateStreamResPacket

def decode (p : RtmpCreateStreamResPacket) : Stream RtmpCreateStreamResPacket := do
  let (commandName, transactionId) ← decodeCommand (· = rtmpAmf0CommandResult) p.commandName
  amf0ReadNull
  let streamId ← amf0ReadNumber
  return { commandName, transactionId, streamId }

def getSize (p : RtmpCreateStreamResPacket) : ℤ :=
  Amf0Size.str p.commandName + Amf0Size.number + Amf0Size.null + Amf0Size.number

def encodePacket (p : RtmpCreateStreamResPacket) : Stream PUnit := do
  encodeCommand p.commandName p.transactionId
  amf0WriteNull
  amf0WriteNumber p.streamId

end RtmpCreateStreamResPacket

/-- `class RtmpFMLEStartPacket`, one class for three commands of a publisher. -/
structure RtmpFMLEStartPacket where
  commandName : Bytes := rtmpAmf0CommandReleaseStream
  transactionId : Double := Double.zero
  streamName : Bytes := []

namespace RtmpFMLEStartPacket

def decode (p : RtmpFMLEStartPacket) : Stream RtmpFMLEStartPacket := do
  let (commandName, transactionId) ← decodeCommand
    (· ∈ [rtmpAmf0CommandReleaseStream, rtmpAmf0CommandFcPublish, rtmpAmf0CommandUnpublish])
    p.commandName
  amf0ReadNull
  let streamName ← amf0ReadString p.streamName
  return { commandName, transactionId, streamName }

def getSize (p : RtmpFMLEStartPacket) : ℤ :=
  Amf0Size.str p.commandName + Amf0Size.number + Amf0Size.null + Amf0Size.str p.streamName

def encodePacket (p : RtmpFMLEStartPacket) : Stream PUnit := do
  encodeCommand p.commandName p.transactionId
  amf0WriteNull
  amf0WriteString p.streamName

end RtmpFMLEStartPacket

/-- `class RtmpFMLEStartResPacket`, which ends in an undefined value. -/
structure RtmpFMLEStartResPacket where
  commandName : Bytes := rtmpAmf0CommandResult
  transactionId : Double

namespace RtmpFMLEStartResPacket

def decode (p : RtmpFMLEStartResPacket) : Stream RtmpFMLEStartResPacket := do
  let (commandName, transactionId) ← decodeCommand (· = rtmpAmf0CommandResult) p.commandName
  amf0ReadNull
  amf0ReadUndefined
  return { commandName, transactionId }

def getSize (p : RtmpFMLEStartResPacket) : ℤ :=
  Amf0Size.str p.commandName + Amf0Size.number + Amf0Size.null + Amf0Size.undefined

def encodePacket (p : RtmpFMLEStartResPacket) : Stream PUnit := do
  encodeCommand p.commandName p.transactionId
  amf0WriteNull
  amf0WriteUndefined

end RtmpFMLEStartResPacket

/-- `class RtmpPublishPacket`; `live` is the type where none is sent. -/
structure RtmpPublishPacket where
  commandName : Bytes := rtmpAmf0CommandPublish
  transactionId : Double := Double.zero
  streamName : Bytes := []
  type : Bytes := text "live"

namespace RtmpPublishPacket

def decode (p : RtmpPublishPacket) : Stream RtmpPublishPacket := do
  let (commandName, transactionId) ← decodeCommand (· = rtmpAmf0CommandPublish) p.commandName
  amf0ReadNull
  let streamName ← amf0ReadString p.streamName
  let type ← unlessEmpty p.type (amf0ReadString p.type)
  return { commandName, transactionId, streamName, type }

def getSize (p : RtmpPublishPacket) : ℤ :=
  Amf0Size.str p.commandName + Amf0Size.number + Amf0Size.null + Amf0Size.str p.streamName
    + Amf0Size.str p.type

def encodePacket (p : RtmpPublishPacket) : Stream PUnit := do
  encodeCommand p.commandName p.transactionId
  amf0WriteNull
  amf0WriteString p.streamName
  amf0WriteString p.type

end RtmpPublishPacket

/-- `class RtmpPausePacket`, which is received and never sent. -/
structure RtmpPausePacket where
  commandName : Bytes := rtmpAmf0CommandPause
  transactionId : Double := Double.zero
  isPause : Bool := true
  timeMs : Double := Double.zero

def RtmpPausePacket.decode (p : RtmpPausePacket) : Stream RtmpPausePacket := do
  let (commandName, transactionId) ← decodeCommand (· = rtmpAmf0CommandPause) p.commandName
  amf0ReadNull
  let isPause ← amf0ReadBoolean
  let timeMs ← amf0ReadNumber
  return { commandName, transactionId, isPause, timeMs }

/-- `class RtmpOnStatusCallPacket`; `on_status_str` is what its `"code"` says. -/
structure RtmpOnStatusCallPacket where
  commandName : Bytes := rtmpAmf0CommandOnStatus
  transactionId : Double := Double.zero
  data : Option Amf0Any := some (.object [])
  onStatusStr : Bytes := []

namespace RtmpOnStatusCallPacket

/-- `status_content` is the property `"code"` of the data, `NULL` when there is none. -/
def decodeStatus (p : RtmpOnStatusCallPacket) (data : Amf0Any) : Stream RtmpOnStatusCallPacket := do
  let statusContent ← ofOption .nullPointer (data.getProperty (text "code"))
  if statusContent.isString then
    let onStatusStr ← statusContent.toStr
    return { p with onStatusStr }
  else
    return p

/-- A transaction id other than zero is an error here. -/
def decode (p : RtmpOnStatusCallPacket) : Stream RtmpOnStatusCallPacket := do
  let (commandName, transactionId) ← decodeCommand (· = rtmpAmf0CommandOnStatus) p.commandName
  ensure (transactionId.eq Double.zero) errorRtmpAmf0Decode
  amf0ReadNull
  let data ← readPointer p.data
  decodeStatus { p with commandName, transactionId, data := some data } data

def getSize (p : RtmpOnStatusCallPacket) : ℤ :=
  Amf0Size.str p.commandName + Amf0Size.number + Amf0Size.null + Amf0Any.size p.data

def encodePacket (p : RtmpOnStatusCallPacket) : Stream PUnit := do
  encodeCommand p.commandName p.transactionId
  amf0WriteNull
  writePointer p.data

end RtmpOnStatusCallPacket

/-- `class RtmpOnMetaDataPacket`. -/
structure RtmpOnMetaDataPacket where
  name : Bytes := tmssConstsRtmpOnMetadata
  metadata : Option Amf0Any := some (.object [])

namespace RtmpOnMetaDataPacket

/-- The name; `@setDataFrame` is skipped. -/
def decodeName (name : Bytes) : Stream Bytes := do
  let name ← amf0ReadString name
  if name = tmssConstsRtmpSetDataframe then
    amf0ReadString name
  else
    return name

/-- The loop that copies an ECMA array into `metadata`. -/
def copyArray (metadata : Option Amf0Any) : UnSortedHashtable → Stream (Option Amf0Any)
  | [] => return metadata
  | (key, value) :: arr => do
    let object ← ofOption .nullPointer metadata
    copyArray (some (object.set key (some value.copy))) arr

/-- An ECMA array is made an object; any other value is passed over. -/
def decode (p : RtmpOnMetaDataPacket) : Stream RtmpOnMetaDataPacket := do
  let name ← decodeName p.name
  let any ← amf0ReadAny
  if any.isObject then
    let metadata ← any.toObject
    return { name, metadata := some metadata }
  else if any.isEcmaArray then
    let arr ← any.toEcmaArray
    let metadata ← copyArray p.metadata arr.properties
    return { name, metadata }
  else
    return { p with name }

def getSize (p : RtmpOnMetaDataPacket) : ℤ := Amf0Size.str p.name + Amf0Any.size p.metadata

def encodePacket (p : RtmpOnMetaDataPacket) : Stream PUnit := do
  amf0WriteString p.name
  writePointer p.metadata

end RtmpOnMetaDataPacket

/-- `class RtmpBandwidthPacket`, the bandwidth checks, told apart by their names. -/
structure RtmpBandwidthPacket where
  commandName : Bytes := rtmpAmf0CommandOnStatus
  transactionId : Double := Double.zero
  data : Option Amf0Any := some (.object [])

namespace RtmpBandwidthPacket

/-- `is_stop_play() || is_start_publish() || is_finish()`: only these carry data to decode. -/
def decodesData (commandName : Bytes) : Bool :=
  commandName = tmssBwCheckStopPlay ∨ commandName = tmssBwCheckStartPublish
    ∨ commandName = tmssBwCheckFinished

/-- The data, if the command has any. -/
def decodeData (p : RtmpBandwidthPacket) (commandName : Bytes) : Stream (Option Amf0Any) :=
  if decodesData commandName then do
    let data ← readPointer p.data
    return some data
  else
    return p.data

def decode (p : RtmpBandwidthPacket) : Stream RtmpBandwidthPacket := do
  let (commandName, transactionId) ← decodeCommand (fun _ => true) p.commandName
  amf0ReadNull
  let data ← p.decodeData commandName
  return { commandName, transactionId, data }

def getSize (p : RtmpBandwidthPacket) : ℤ :=
  Amf0Size.str p.commandName + Amf0Size.number + Amf0Size.null + Amf0Any.size p.data

def encodePacket (p : RtmpBandwidthPacket) : Stream PUnit := do
  encodeCommand p.commandName p.transactionId
  amf0WriteNull
  writePointer p.data

end RtmpBandwidthPacket

/-- `class RtmpCloseStreamPacket`; whatever the command is called, it is accepted. -/
structure RtmpCloseStreamPacket where
  commandName : Bytes := rtmpAmf0CommandCloseStream
  transactionId : Double := Double.zero

def RtmpCloseStreamPacket.decode (p : RtmpCloseStreamPacket) : Stream RtmpCloseStreamPacket := do
  let (commandName, transactionId) ← decodeCommand (fun _ => true) p.commandName
  amf0ReadNull
  return { commandName, transactionId }

/-- `class RtmpCallPacket`: a command that none of the others is. -/
structure RtmpCallPacket where
  commandName : Bytes := []
  transactionId : Double := Double.zero
  commandObject : Option Amf0Any := none
  arguments : Option Amf0Any := none

namespace RtmpCallPacket

/-- Of any type. -/
def decodeArguments : Stream (Option Amf0Any) := do
  let arguments ← discoverAndRead
  return some arguments

/-- The command must have a name. -/
def decode (p : RtmpCallPacket) : Stream RtmpCallPacket := do
  let (commandName, transactionId) ← decodeCommand (· ≠ []) p.commandName
  let commandObject ← discoverAndRead
  let arguments ← unlessEmpty p.arguments decodeArguments
  return { commandName, transactionId, commandObject := some commandObject, arguments }

def getSize (p : RtmpCallPacket) : ℤ :=
  Amf0Size.str p.commandName + Amf0Size.number + Amf0Any.size p.commandObject
    + Amf0Any.size p.arguments

/-- Both values are tested before they are written. -/
def encodePacket (p : RtmpCallPacket) : Stream PUnit := do
  encodeCommand p.commandName p.transactionId
  writeIfAny p.commandObject
  writeIfAny p.arguments

end RtmpCallPacket

/-- `class RtmpCallResPacket`, which is sent and never received. -/
structure RtmpCallResPacket where
  commandName : Bytes := rtmpAmf0CommandResult
  transactionId : Double
  commandObject : Option Amf0Any := none
  response : Option Amf0Any := none

namespace RtmpCallResPacket

def getSize (p : RtmpCallResPacket) : ℤ :=
  Amf0Size.str p.commandName + Amf0Size.number + Amf0Any.size p.commandObject
    + Amf0Any.size p.response

def encodePacket (p : RtmpCallResPacket) : Stream PUnit := do
  encodeCommand p.commandName p.transactionId
  writeIfAny p.commandObject
  writeIfAny p.response

end RtmpCallResPacket

/-- `class RtmpOnCustomAmfDataPacket`, of which only the name is looked at. -/
structure RtmpOnCustomAmfDataPacket where
  name : Bytes := []

def RtmpOnCustomAmfDataPacket.decode (p : RtmpOnCustomAmfDataPacket) :
    Stream RtmpOnCustomAmfDataPacket := do
  let name ← amf0ReadString p.name
  return { name }

/-- `class RtmpAcknowledgementPacket`: so many bytes have come. -/
structure RtmpAcknowledgementPacket where
  sequenceNumber : BitVec 32 := 0

namespace RtmpAcknowledgementPacket

def decode (_ : RtmpAcknowledgementPacket) : Stream RtmpAcknowledgementPacket := do
  let sequenceNumber ← decodeWord
  return { sequenceNumber }

def getSize (_ : RtmpAcknowledgementPacket) : ℤ := 4

def encodePacket (p : RtmpAcknowledgementPacket) : Stream PUnit := encodeWord p.sequenceNumber

end RtmpAcknowledgementPacket

/-! ## The base class -/

/-- `class RtmpPacket` with its subclasses. -/
inductive RtmpPacket
  | base
  | connectApp (p : RtmpConnectAppPacket)
  | connectAppRes (p : RtmpConnectAppResPacket)
  | setWindowAckSize (p : RtmpSetWindowAckSizePacket)
  | play (p : RtmpPlayPacket)
  | playRes (p : RtmpPlayResPacket)
  | setChunkSize (p : RtmpSetChunkSizePacket)
  | setPeerBandwidth (p : RtmpSetPeerBandwidthPacket)
  | userControl (p : RtmpUserControlPacket)
  | createStream (p : RtmpCreateStreamPacket)
  | createStreamRes (p : RtmpCreateStreamResPacket)
  | fmleStart (p : RtmpFMLEStartPacket)
  | fmleStartRes (p : RtmpFMLEStartResPacket)
  | publish (p : RtmpPublishPacket)
  | pause (p : RtmpPausePacket)
  | onStatusCall (p : RtmpOnStatusCallPacket)
  | onMetaData (p : RtmpOnMetaDataPacket)
  | bandwidth (p : RtmpBandwidthPacket)
  | closeStream (p : RtmpCloseStreamPacket)
  | call (p : RtmpCallPacket)
  | callRes (p : RtmpCallResPacket)
  | onCustomAmfData (p : RtmpOnCustomAmfDataPacket)
  | acknowledgement (p : RtmpAcknowledgementPacket)

namespace RtmpPacket

/-- The virtual `decode(stream)`; the base class fails. -/
def decode : RtmpPacket → Stream RtmpPacket
  | connectApp p => connectApp <$> p.decode
  | connectAppRes p => connectAppRes <$> p.decode
  | setWindowAckSize p => setWindowAckSize <$> p.decode
  | play p => play <$> p.decode
  | setChunkSize p => setChunkSize <$> p.decode
  | userControl p => userControl <$> p.decode
  | createStream p => createStream <$> p.decode
  | createStreamRes p => createStreamRes <$> p.decode
  | fmleStart p => fmleStart <$> p.decode
  | fmleStartRes p => fmleStartRes <$> p.decode
  | publish p => publish <$> p.decode
  | pause p => pause <$> p.decode
  | onStatusCall p => onStatusCall <$> p.decode
  | onMetaData p => onMetaData <$> p.decode
  | bandwidth p => bandwidth <$> p.decode
  | closeStream p => closeStream <$> p.decode
  | call p => call <$> p.decode
  | onCustomAmfData p => onCustomAmfData <$> p.decode
  | acknowledgement p => acknowledgement <$> p.decode
  | base | playRes _ | setPeerBandwidth _ | callRes _ => fail errorRtmpPacketInvalid

/-- The virtual `get_size()`; the base class has no bytes. -/
def getSize : RtmpPacket → ℤ
  | connectApp p => p.getSize
  | connectAppRes p => p.getSize
  | setWindowAckSize p => p.getSize
  | play p => p.getSize
  | playRes p => p.getSize
  | setChunkSize p => p.getSize
  | setPeerBandwidth p => p.getSize
  | userControl p => p.getSize
  | createStream p => p.getSize
  | createStreamRes p => p.getSize
  | fmleStart p => p.getSize
  | fmleStartRes p => p.getSize
  | publish p => p.getSize
  | onStatusCall p => p.getSize
  | onMetaData p => p.getSize
  | bandwidth p => p.getSize
  | call p => p.getSize
  | callRes p => p.getSize
  | acknowledgement p => p.getSize
  | base | pause _ | closeStream _ | onCustomAmfData _ => 0

/-- The virtual `encode_packet(stream)`; the base class fails. -/
def encodePacket : RtmpPacket → Stream PUnit
  | connectApp p => p.encodePacket
  | connectAppRes p => p.encodePacket
  | setWindowAckSize p => p.encodePacket
  | play p => p.encodePacket
  | playRes p => p.encodePacket
  | setChunkSize p => p.encodePacket
  | setPeerBandwidth p => p.encodePacket
  | userControl p => p.encodePacket
  | createStream p => p.encodePacket
  | createStreamRes p => p.encodePacket
  | fmleStart p => p.encodePacket
  | fmleStartRes p => p.encodePacket
  | publish p => p.encodePacket
  | onStatusCall p => p.encodePacket
  | onMetaData p => p.encodePacket
  | bandwidth p => p.encodePacket
  | call p => p.encodePacket
  | callRes p => p.encodePacket
  | acknowledgement p => p.encodePacket
  | base | pause _ | closeStream _ | onCustomAmfData _ => fail errorRtmpPacketInvalid

end RtmpPacket

end SmartStreaming
