import SmartStreaming.Machinery.Mirror
import SmartStreaming.Rtmp.Chunk.Interleave

/-!
# Rtmp/Chunk/Extended — where the extended timestamp is read from

`read_message_header` reads an extended timestamp at `pos`, which has come to the end of the header
block, and not from the source.  `readMessageHeaderIn` keeps to the block: it is the code wherever
it does not stop (`recvInterlacedMessage_of_in`), and it stops at every header that has an extended
timestamp.  So no message that is sent with one is received as it was sent.
-/

namespace SmartStreaming

open Machinery Comp RtmpProtocolHandler

/-- A message as it is sent with an extended timestamp, in one chunk or more. -/
structure LateMessage where
  timestamp : BitVec 32
  messageType : BitVec 8
  streamId : BitVec 32
  payload : Bytes
  le_timestamp : rtmpExtendedTimestamp ≤ timestamp.toNat
  payload_ne : payload ≠ []
  payload_lt : payload.length < 2 ^ 24

namespace RtmpProtocolHandler

variable {σ : Type}

/-- The extended timestamp at `pos` of the header block. -/
def loadExtended (data : Bytes) (pos : ℤ) : OnChunk σ (BitVec 32) := do
  let p ← ofOption .outOfBounds (load data pos 4)
  return fromMemory 32 [p.getD 3 0, p.getD 2 0, p.getD 1 0, p.getD 0 0]

/-- `readExtended`, with the extended timestamp at `pos = data + mh_size`. -/
def readExtendedIn (src : ByteSource σ) (fixRtmpTimestamp isFirstChunkOfMsg : Bool) (fmt : ℕ)
    (data : Bytes) : OnChunk σ PUnit := do
  let chunk ← getChunk
  if chunk.extendedTimestamp then
    let ext ← loadExtended data (mhSize fmt)
    readExtended src fixRtmpTimestamp isFirstChunkOfMsg fmt ext
  else return ⟨⟩

/-- `readMessageHeader` inside the header block. -/
def readMessageHeaderIn (src : ByteSource σ) (fixRtmpTimestamp : Bool) (fmt : ℕ) :
    OnChunk σ PUnit := do
  let chunk ← getChunk
  let isFirstChunkOfMsg := chunk.msg.isNone
  if chunk.msgCount = 0 ∧ fmt ≠ 0 ∧ fmt ≠ 1 then
    fail errorRtmpChunkStart
  else if chunk.msg.isSome ∧ fmt = 0 then
    fail errorRtmpChunkStart
  else
    setChunk { chunk with msg := some (chunk.msg.getD {}) }
    let data ← readHeaderBytes src fmt
    readFields isFirstChunkOfMsg fmt data
    readExtendedIn src fixRtmpTimestamp isFirstChunkOfMsg fmt data
    finishHeader

/-- `recvInterlacedMessage` inside the header block. -/
def recvInterlacedMessageIn (src : ByteSource σ) : Call σ (Option RtmpMessage) := do
  let (fmt, cid) ← zoom ioBuffer (fun io h => { h with ioBuffer := io }) (readBasicHeader src)
  cassert (cid ≥ 0)
  let h ← get
  let chunk ← ofOption .outOfBounds (h.chunkStream cid)
  onChunk cid chunk do
    readMessageHeaderIn src h.fixRtmpTimestamp fmt
    readMessagePayload src h.inChunkSize

/-! ## The code inside its block -/

variable {src : ByteSource σ}

theorem mhSize_nonneg (fmt : ℕ) : 0 ≤ mhSize fmt := by
  rcases fmt with _ | _ | _ | _ | fmt
  · decide
  · decide
  · decide
  · decide
  · exact le_refl _

/-- The header block has `mh_size` bytes. -/
theorem length_readHeaderBytes (hsrc : src.Lawful) {fmt : ℕ} {data : Bytes}
    {s s' : RtmpChunkStream × σ} (hrun : readHeaderBytes src fmt s = .ok (.ok data, s')) :
    (data.length : ℤ) = mhSize fmt := by
  have hnonneg := mhSize_nonneg fmt
  have hholds : Holds (fun _ => True) (fun _ _ => True)
      (fun data _ => (data.length : ℤ) = mhSize fmt) (readHeaderBytes src fmt) s := by
    rw [readHeaderBytes, holds_ite, onSource, holds_zoom]
    simp only [readIo, holds_bind, holds_get, holds_put, holds_ite, holds_fail, holds_pure]
    refine ⟨fun hpos => ⟨fun _ => trivial, fun hok => ?_⟩, fun hpos => ?_⟩
    · exact hsrc.length_eq s.2 (mhSize fmt) hnonneg (not_not.1 hok)
    · rw [List.length_nil]
      omega
  exact hholds.elim_ok hrun

/-- **Nothing of an extended timestamp lies in the header block.** -/
theorem load_eq_none {data : Bytes} {fmt : ℕ} (hdata : (data.length : ℤ) = mhSize fmt) :
    load data (mhSize fmt) 4 = none := by
  rw [load, if_neg]
  omega

theorem run_readExtendedIn {fix first : Bool} {fmt : ℕ} {data : Bytes}
    (hdata : (data.length : ℤ) = mhSize fmt) (s : RtmpChunkStream × σ) :
    readExtendedIn src fix first fmt data s
      = if s.1.extendedTimestamp then .error .outOfBounds else .ok (.ok ⟨⟩, s) := by
  rw [readExtendedIn, getChunk, bind_assoc, run_get_bind]
  change (if s.1.extendedTimestamp = true then _ else _ : OnChunk σ PUnit) s = _
  split
  · rw [loadExtended, load_eq_none hdata]
    rfl
  · rfl

/-- The header block is left only by an extended timestamp. -/
theorem readExtended_of_in {fix first : Bool} {fmt : ℕ} {data : Bytes}
    (hdata : (data.length : ℤ) = mhSize fmt) (ext : BitVec 32) :
    Within (readExtendedIn src fix first fmt data) (readExtended src fix first fmt ext) := by
  intro s r hrun
  rw [run_readExtendedIn hdata] at hrun
  rw [readExtended, getChunk, bind_assoc, run_get_bind]
  change (if s.1.extendedTimestamp = true then _ else _ : OnChunk σ PUnit) s = _
  split at hrun
  · cases hrun
  · rw [if_neg ‹_›]
    exact hrun

/-- **Inside its block a header is read as the code reads it**, whatever lies behind the block. -/
theorem readMessageHeader_of_in (hsrc : src.Lawful) (fix : Bool) (ext : BitVec 32) (fmt : ℕ) :
    Within (readMessageHeaderIn src fix fmt) (readMessageHeader src fix ext fmt) := by
  refine Within.bind fun _ chunk _ _ => Within.ite (fun _ => Within.refl _) fun _ => ?_
  refine Within.ite (fun _ => Within.refl _) fun _ => Within.bind fun _ _ _ _ => ?_
  refine Within.bind fun s data s' hdata => Within.bind fun _ _ _ _ => ?_
  exact (readExtended_of_in (length_readHeaderBytes hsrc hdata) ext).seq _

theorem recvInterlacedMessage_of_in (hsrc : src.Lawful) (ext : BitVec 32) :
    Within (recvInterlacedMessageIn src) (recvInterlacedMessage src ext) := by
  refine Within.bind fun _ out _ _ => Within.bind fun _ _ _ _ => Within.bind fun _ h _ _ => ?_
  refine Within.bind fun _ chunk _ _ => Within.zoom ?_
  exact (readMessageHeader_of_in hsrc _ ext _).seq _

end RtmpProtocolHandler

/-! ## What is sent -/

namespace LateMessage

variable (s : LateMessage)

/-- The header `send_packet` fills in for the message on the chunk stream `cid`. -/
def header (cid : ℤ) : MessageHeader where
  payloadLength := s.payload.length
  messageType := s.messageType
  streamId := s.streamId
  timestamp := s.timestamp.toNat
  perferCid := cid

/-- The chunks of the message. -/
def chunks (outChunkSize cid : ℤ) : List Bytes :=
  (sendChunks (s.header cid) outChunkSize s.payload).getD []

/-- The fields of the first chunk: three bytes `FF` announce the extended timestamp. -/
def fields : MessageFields :=
  .type0 0xFFFFFF (BitVec.ofNat 24 s.payload.length) s.messageType s.streamId

theorem toNat_fmt : s.fields.fmt.toNat = 0 := rfl

theorem length_eq {data : Bytes} (hdata : data = s.fields.bytes) :
    (data.length : ℤ) = mhSize 0 := by
  rw [hdata]
  rfl

theorem ofInt_timestamp : BitVec.ofInt 32 (s.timestamp.toNat : ℤ) = s.timestamp := by
  refine BitVec.eq_of_toNat_eq ?_
  have hlt := s.timestamp.isLt
  rw [BitVec.toNat_ofInt]
  omega

/-- The header of the first chunk, which ends with the extended timestamp. -/
theorem chunkHeader_zero (cid : ℤ) : chunkHeader (s.header cid) 0
    = (0x00 ||| BitVec.ofInt 8 (cid % 64))
      :: (s.fields.bytes ++ extendedTimestampBytes s.timestamp) := by
  have hle := s.le_timestamp
  have hlength : (BitVec.ofNat 24 s.payload.length).toNat
      = (BitVec.ofInt 32 (s.payload.length : ℤ)).toNat := by
    rw [BitVec.toNat_ofNat, Nat.mod_eq_of_lt s.payload_lt, toNat_ofInt_of_lt s.payload_lt]
  have hbytes := byteAt_congr hlength
  rw [chunkHeader, if_pos rfl, header, chunkHeaderC0, if_neg (by decide)]
  dsimp only
  rw [s.ofInt_timestamp, if_neg (by omega), fields, MessageFields.bytes, beThree, beThree]
  simp only [hbytes]
  rfl

/-- The first chunk of the message. -/
theorem exists_chunks {c : ℤ} (hc : 1 ≤ c) (cid : ℤ) : ∃ tail cs, s.chunks c cid
    = ((0x00 ||| BitVec.ofInt 8 (cid % 64))
        :: (s.fields.bytes ++ (extendedTimestampBytes s.timestamp ++ tail))) :: cs := by
  have hpos := List.length_pos_iff.2 s.payload_ne
  obtain ⟨cs, hcs⟩ : ∃ cs, sendChunks (s.header cid) c s.payload = some cs := exists_sendChunks hc
  have hsends := sends_of_sendLoop hcs
  rw [chunks, hcs, Option.getD_some]
  cases hsends with
  | done hle => omega
  | step hlt hrest =>
    rw [s.chunkHeader_zero]
    simp only [List.cons_append, List.append_assoc]
    exact ⟨_, _, rfl⟩

end LateMessage

/-! ## What is received -/

namespace RtmpProtocolHandler

variable {σ : Type} {src : ByteSource σ} {rest : σ → Bytes} {s : LateMessage}

/-- **The message is received as it was sent**: as many calls as there are chunks return, without
leaving a header block, and have taken all the bytes of the chunks; the last one hands out the
message with its timestamp and its payload. -/
def ReceivedIn (src : ByteSource σ) (rest : σ → Bytes) (s : LateMessage) (outChunkSize cid : ℤ)
    (tail : Bytes) (h : RtmpProtocolHandler σ) : Prop :=
  ∃ outs h' m,
    (s.chunks outChunkSize cid).mapM (fun _ => attempt (recvInterlacedMessageIn src)) h
        = .ok (.ok outs, h')
      ∧ outs.getLast? = some (.ok (some m)) ∧ m.header.timestamp = s.timestamp.toNat
      ∧ m.payload = some s.payload ∧ rest h'.ioBuffer = tail

/-- The header block of the first chunk. -/
theorem holds_readHeaderBytes_late {F : Fault → Prop} {E : ℤ → RtmpChunkStream × σ → Prop}
    {Q : Bytes → RtmpChunkStream × σ → Prop} (hsrc : src.Delivers rest) (s : LateMessage)
    {data : Bytes} (hdata : data = s.fields.bytes) {chunk : RtmpChunkStream} {io : σ}
    {tail : Bytes} (hrest : rest io = data ++ tail)
    (hQ : ∀ io', rest io' = tail → Q data (chunk, io')) :
    Holds F E Q (readHeaderBytes src 0) (chunk, io) := by
  subst hdata
  have hread : Holds F E Q (readHeaderBytes src s.fields.fmt.toNat) (chunk, io) :=
    holds_readHeaderBytes_fields hsrc s.fields hrest hQ
  rwa [s.toNat_fmt] at hread

/-- Three bytes `FF` are not a timestamp. -/
theorem setTimestamp_late (more : Bytes) (chunk : RtmpChunkStream) :
    setTimestamp 0 (beThree 0xFFFFFF ++ more) chunk
      = { chunk with
          header := { chunk.header with timestampDelta := (0xFFFFFF : BitVec 24).setWidth 32 }
          extendedTimestamp := true } := by
  have hdelta : fromMemory 32 [(beThree 0xFFFFFF ++ more).getD 2 0,
      (beThree 0xFFFFFF ++ more).getD 1 0, (beThree 0xFFFFFF ++ more).getD 0 0, 0]
        = (0xFFFFFF : BitVec 24).setWidth 32 := fromMemory_beThree _
  rw [setTimestamp]
  dsimp only
  rw [hdelta, toInt_setWidth, if_pos (by decide)]

/-- The fields of the first chunk announce an extended timestamp, for which nothing is read. -/
theorem run_readFields_late (s : LateMessage) {data : Bytes} (hdata : data = s.fields.bytes)
    (chunk : RtmpChunkStream) (io : σ) :
    ∃ header, 0 ≤ header.payloadLength ∧ readFields true 0 data (chunk, io)
      = .ok (.ok ⟨⟩, ({ chunk with header := header, extendedTimestamp := true }, io)) := by
  have hset : readFields true 0 data (chunk, io)
      = .ok (.ok ⟨⟩, (setLength 0 data (setTimestamp 0 data chunk), io)) := rfl
  rw [hset, hdata, LateMessage.fields, MessageFields.bytes, setTimestamp_late, setLength_beThree]
  exact ⟨_, Int.natCast_nonneg _, rfl⟩

/-- The first header takes the extended timestamp as it finds it, and nothing from the source. -/
theorem run_readExtended_late (src : ByteSource σ) (fix : Bool) (ext : BitVec 32)
    (chunk : RtmpChunkStream) (hext : chunk.extendedTimestamp = true) (io : σ) :
    ∃ chunk', chunk'.msg = chunk.msg
      ∧ chunk'.header.payloadLength = chunk.header.payloadLength
      ∧ readExtended src fix true 0 ext (chunk, io) = .ok (.ok ⟨⟩, (chunk', io)) := by
  refine ⟨(setExtended fix true 0 ext chunk).1, setExtended_msg 0 chunk fix true ext,
    setExtended_payloadLength 0 chunk fix true ext, ?_⟩
  rw [readExtended, getChunk, bind_assoc, run_get_bind]
  change (if chunk.extendedTimestamp = true then _ else _ : OnChunk σ PUnit) (chunk, io) = _
  rw [if_pos hext]
  rfl

/-- `read_message_header`, its extended timestamp read by `extended`. -/
def headerWith (src : ByteSource σ) (fmt : ℕ) (extended : Bool → Bytes → OnChunk σ PUnit) :
    OnChunk σ PUnit := do
  let chunk ← getChunk
  let isFirstChunkOfMsg := chunk.msg.isNone
  if chunk.msgCount = 0 ∧ fmt ≠ 0 ∧ fmt ≠ 1 then
    fail errorRtmpChunkStart
  else if chunk.msg.isSome ∧ fmt = 0 then
    fail errorRtmpChunkStart
  else
    setChunk { chunk with msg := some (chunk.msg.getD {}) }
    let data ← readHeaderBytes src fmt
    readFields isFirstChunkOfMsg fmt data
    extended isFirstChunkOfMsg data
    finishHeader

theorem readMessageHeader_eq (src : ByteSource σ) (fix : Bool) (ext : BitVec 32) (fmt : ℕ) :
    readMessageHeader src fix ext fmt
      = headerWith src fmt fun isFirst _ => readExtended src fix isFirst fmt ext := rfl

theorem readMessageHeaderIn_eq (src : ByteSource σ) (fix : Bool) (fmt : ℕ) :
    readMessageHeaderIn src fix fmt
      = headerWith src fmt fun isFirst data => readExtendedIn src fix isFirst fmt data := rfl

/-- The first header comes to its extended timestamp, which is still in the source. -/
theorem holds_headerWith_late {F : Fault → Prop} {E : ℤ → RtmpChunkStream × σ → Prop}
    {Q : PUnit → RtmpChunkStream × σ → Prop} (hsrc : src.Delivers rest) (s : LateMessage)
    {data : Bytes} (hdata : data = s.fields.bytes) {chunk : RtmpChunkStream} {io : σ}
    {tail : Bytes} (hmsg : chunk.msg = none) (hrest : rest io = data ++ tail)
    {extended : Bool → Bytes → OnChunk σ PUnit}
    (hextended : ∀ chunk' io', chunk'.extendedTimestamp = true → chunk'.msg = some {} →
      0 ≤ chunk'.header.payloadLength → rest io' = tail →
      Holds F E (fun _ st => Holds F E Q finishHeader st) (extended true data) (chunk', io')) :
    Holds F E Q (headerWith src 0 extended) (chunk, io) := by
  simp only [headerWith, getChunk, setChunk, holds_bind, holds_get, holds_pure, hmsg,
    Option.isNone_none, Option.getD_none]
  rw [if_neg (by simp), if_neg (by simp)]
  simp only [holds_bind, holds_put]
  refine holds_readHeaderBytes_late hsrc s hdata hrest fun io' hio' => ?_
  obtain ⟨header, hlen, hrun⟩ := run_readFields_late s hdata
    { chunk with msg := some {} : RtmpChunkStream } io'
  exact holds_of_run hrun (hextended _ io' rfl rfl hlen hio')

/-- **Inside the header block the first header is not read.** -/
theorem holds_readMessageHeaderIn_late {E : ℤ → RtmpChunkStream × σ → Prop}
    {Q : PUnit → RtmpChunkStream × σ → Prop} (hsrc : src.Delivers rest) (fix : Bool)
    (s : LateMessage) {data : Bytes} (hdata : data = s.fields.bytes) {chunk : RtmpChunkStream}
    {io : σ} {tail : Bytes} (hmsg : chunk.msg = none) (hrest : rest io = data ++ tail) :
    Holds (fun e => e = .outOfBounds) E Q (readMessageHeaderIn src fix 0) (chunk, io) := by
  rw [readMessageHeaderIn_eq]
  refine holds_headerWith_late hsrc s hdata hmsg hrest fun chunk' io' hext _ _ _ => ?_
  rw [Holds, run_readExtendedIn (s.length_eq hdata), if_pos hext]

/-- **The code reads it, and leaves the extended timestamp in the source**, whatever it has taken
for it. -/
theorem holds_readMessageHeader_late {F : Fault → Prop} {E : ℤ → RtmpChunkStream × σ → Prop}
    (hsrc : src.Delivers rest) (fix : Bool) (ext : BitVec 32) (s : LateMessage) {data : Bytes}
    (hdata : data = s.fields.bytes) {chunk : RtmpChunkStream} {io : σ} {tail : Bytes}
    (hmsg : chunk.msg = none) (hrest : rest io = data ++ tail) :
    Holds F E (fun _ st => rest st.2 = tail) (readMessageHeader src fix ext 0) (chunk, io) := by
  rw [readMessageHeader_eq]
  refine holds_headerWith_late hsrc s hdata hmsg hrest fun chunk' io' hext hmsg' hlen hio' => ?_
  obtain ⟨chunk'', hmsg'', hlen'', hrun⟩ := run_readExtended_late src fix ext chunk' hext io'
  refine holds_of_run hrun ?_
  exact holds_finishHeader_of_msg (hmsg''.trans hmsg') (hlen''.symm ▸ hlen) hio'

/-- Inside the header block the first chunk of the message is not received. -/
theorem holds_recvInterlacedMessageIn_late (hsrc : src.Delivers rest) (s : LateMessage)
    {cid : ℤ} (h₀ : 2 ≤ cid) (h₁ : cid ≤ 63) {h : RtmpProtocolHandler σ} {chunk : RtmpChunkStream}
    (hget : h.chunkStream cid = some chunk) (hmsg : chunk.msg = none) {tail : Bytes}
    (hio : rest h.ioBuffer
      = (0x00 ||| BitVec.ofInt 8 (cid % 64)) :: (s.fields.bytes ++ tail)) :
    Holds (fun e => e = .outOfBounds) (fun _ _ => False) (fun _ _ => False)
      (recvInterlacedMessageIn src) h := by
  simp only [recvInterlacedMessageIn, holds_bind, holds_zoom]
  refine holds_readBasicHeader_of_cid hsrc h₀ h₁ 0 hio ?_
  intro io' hio'
  have hget' : ({ h with ioBuffer := io' } : RtmpProtocolHandler σ).chunkStream cid
      = some chunk := hget
  simp only [cassert, if_pos (show cid ≥ 0 by omega), holds_pure, holds_get, hget', holds_some,
    onChunk, holds_zoom, holds_bind]
  exact holds_readMessageHeaderIn_late hsrc _ s rfl hmsg hio'

/-- The receiver stops at the first chunk. -/
theorem not_receivedIn (hsrc : src.Delivers rest) (s : LateMessage) {c cid : ℤ} (hc : 1 ≤ c)
    (h₀ : 2 ≤ cid) (h₁ : cid ≤ 63) {h : RtmpProtocolHandler σ} {chunk : RtmpChunkStream}
    (hget : h.chunkStream cid = some chunk) (hmsg : chunk.msg = none) {tail : Bytes}
    (hio : rest h.ioBuffer = (s.chunks c cid).flatten ++ tail) :
    ¬ ReceivedIn src rest s c cid tail h := by
  rintro ⟨outs, h', m, hrun, -⟩
  obtain ⟨more, cs, hchunks⟩ := s.exists_chunks hc cid
  rw [hchunks, List.flatten_cons, List.cons_append, List.cons_append, List.append_assoc,
    List.append_assoc] at hio
  have hstop : Holds (fun e => e = .outOfBounds) (fun _ _ => False) (fun _ _ => False)
      ((s.chunks c cid).mapM fun _ => attempt (recvInterlacedMessageIn src)) h := by
    rw [hchunks, List.mapM_cons, holds_bind, holds_attempt]
    exact (holds_recvInterlacedMessageIn_late hsrc s h₀ h₁ hget hmsg hio).imp
      (fun _ _ hfalse => hfalse.elim) fun _ _ hfalse => hfalse.elim
  exact hstop.elim_ok hrun

/-- **No message is received that was sent with an extended timestamp.**  Inside its header block
the receiver stops at the first chunk; beyond it, whatever it finds there, it leaves the extended
timestamp in the source, as the first bytes of the payload. -/
theorem extended_timestamp_not_received (hsrc : src.Delivers rest) (s : LateMessage) {c cid : ℤ}
    (hc : 1 ≤ c) (h₀ : 2 ≤ cid) (h₁ : cid ≤ 63) {h : RtmpProtocolHandler σ}
    {chunk : RtmpChunkStream} (hget : h.chunkStream cid = some chunk) (hmsg : chunk.msg = none)
    {tail : Bytes} (hio : rest h.ioBuffer = (s.chunks c cid).flatten ++ tail) :
    ¬ ReceivedIn src rest s c cid tail h
      ∧ ∀ ext io more, rest io = s.fields.bytes ++ (extendedTimestampBytes s.timestamp ++ more) →
        ∃ chunk' io', readMessageHeader src h.fixRtmpTimestamp ext 0 (chunk, io)
            = .ok (.ok ⟨⟩, (chunk', io'))
          ∧ rest io' = extendedTimestampBytes s.timestamp ++ more := by
  refine ⟨not_receivedIn hsrc s hc h₀ h₁ hget hmsg hio, fun ext io more hmore => ?_⟩
  have hheader : Holds (fun _ => False) (fun _ _ => False)
      (fun _ st => rest st.2 = extendedTimestampBytes s.timestamp ++ more)
      (readMessageHeader src h.fixRtmpTimestamp ext 0) (chunk, io) :=
    holds_readMessageHeader_late hsrc _ ext s rfl hmsg hmore
  rcases hrun : readMessageHeader src h.fixRtmpTimestamp ext 0 (chunk, io)
    with e | ⟨code | _, chunk', io'⟩
  · rw [Holds, hrun] at hheader
    exact hheader.elim
  · rw [Holds, hrun] at hheader
    exact hheader.elim
  · exact ⟨chunk', io', rfl, hheader.elim_ok hrun⟩

/-- A byte of video, some four hours and forty minutes into the stream. -/
def sampleLate : LateMessage where
  timestamp := 0x01000000
  messageType := 9
  streamId := 1
  payload := [9]
  le_timestamp := by decide
  payload_ne := by decide
  payload_lt := by norm_num

/-- The receiver before the video. -/
def beforeLate : RtmpProtocolHandler Bytes :=
  .new (sampleLate.chunks 128 3).flatten false 128

theorem extended_timestamp_not_received_sample :
    ¬ ReceivedIn ByteSource.ofBytes id sampleLate 128 3 [] beforeLate
      ∧ ∀ ext io more,
        id io = sampleLate.fields.bytes ++ (extendedTimestampBytes sampleLate.timestamp ++ more) →
          ∃ chunk' io',
            readMessageHeader ByteSource.ofBytes false ext 0 (RtmpChunkStream.new 3, io)
              = .ok (.ok ⟨⟩, (chunk', io'))
            ∧ id io' = extendedTimestampBytes sampleLate.timestamp ++ more :=
  extended_timestamp_not_received ByteSource.ofBytes_delivers sampleLate (by decide) (by decide)
    (by decide) rfl rfl (List.append_nil _).symm

/-- **The extended timestamp of the video comes back as its payload**, even when the receiver has
guessed it. -/
theorem extended_timestamp_in_payload :
    ¬ ReceivedIn ByteSource.ofBytes id sampleLate 128 3 [] beforeLate
      ∧ ∃ m h', recvInterlacedMessage ByteSource.ofBytes sampleLate.timestamp beforeLate
          = .ok (.ok (some m), h')
        ∧ m.header.timestamp = sampleLate.timestamp.toNat ∧ m.payload = some [1]
        ∧ h'.ioBuffer = [0, 0, 0, 9] := by
  refine ⟨?_, ?_⟩
  · exact not_receivedIn ByteSource.ofBytes_delivers sampleLate (by decide) (by decide)
      (by decide) rfl rfl (List.append_nil _).symm
  · refine ⟨_, _, rfl, ?_, ?_, ?_⟩
    · decide
    · decide
    · decide

end RtmpProtocolHandler

end SmartStreaming
