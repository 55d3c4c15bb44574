import SmartStreaming.Rtmp.Message

/-!
# Rtmp/Chunk/Send — cutting a message into chunks

`chunk_header_c0`, `chunk_header_c3` and the loop of `send_packet`: one chunk with a full header,
then chunks that repeat it, at most `out_chunk_size` bytes of payload each.
-/

namespace SmartStreaming

/-- `TMSS_CONSTS_RTMP_MAX_FMT0_HEADER_SIZE`, also the size of the array `c0c3`. -/
def tmssConstsRtmpMaxFmt0HeaderSize : ℤ := 16

/-- `TMSS_CONSTS_RTMP_MAX_FMT3_HEADER_SIZE`. -/
def tmssConstsRtmpMaxFmt3HeaderSize : ℤ := 5

/-- The four bytes of an extended timestamp, when the timestamp needs them. -/
def extendedTimestampBytes (timestamp : BitVec 32) : Bytes :=
  if timestamp.toNat ≥ rtmpExtendedTimestamp then
    [byteAt timestamp 3, byteAt timestamp 2, byteAt timestamp 1, byteAt timestamp 0]
  else []

/-- `chunk_header_c0(…, cache, nb_cache)`: the bytes written to `cache`. -/
def chunkHeaderC0 (perferCid : ℤ) (timestamp payloadLength : BitVec 32) (messageType : BitVec 8)
    (streamId : BitVec 32) (nbCache : ℤ) : Bytes :=
  if nbCache < tmssConstsRtmpMaxFmt0HeaderSize then []
  else
    [0x00 ||| BitVec.ofInt 8 (perferCid % 64)]
      ++ (if timestamp.toNat < rtmpExtendedTimestamp then
          [byteAt timestamp 2, byteAt timestamp 1, byteAt timestamp 0]
        else [0xFF, 0xFF, 0xFF])
      ++ [byteAt payloadLength 2, byteAt payloadLength 1, byteAt payloadLength 0]
      ++ [messageType]
      ++ [byteAt streamId 0, byteAt streamId 1, byteAt streamId 2, byteAt streamId 3]
      ++ extendedTimestampBytes timestamp

/-- `chunk_header_c3(…, cache, nb_cache)`: the bytes written to `cache`. -/
def chunkHeaderC3 (perferCid : ℤ) (timestamp : BitVec 32) (nbCache : ℤ) : Bytes :=
  if nbCache < tmssConstsRtmpMaxFmt3HeaderSize then []
  else [0xC0 ||| BitVec.ofInt 8 (perferCid % 64)] ++ extendedTimestampBytes timestamp

/-- The header of the chunk at `payload + p`. -/
def chunkHeader (header : MessageHeader) (p : ℤ) : Bytes :=
  if p = 0 then
    chunkHeaderC0 header.perferCid (BitVec.ofInt 32 header.timestamp)
      (BitVec.ofInt 32 header.payloadLength) header.messageType header.streamId
      tmssConstsRtmpMaxFmt0HeaderSize
  else
    chunkHeaderC3 header.perferCid (BitVec.ofInt 32 header.timestamp)
      tmssConstsRtmpMaxFmt0HeaderSize

/-- The loop of `send_packet` from `payload + p` on: what each `writev` sends, or `none` when the
loop goes round more often than `fuel`. -/
def sendLoop (header : MessageHeader) (outChunkSize : ℤ) (payload : Bytes) :
    ℕ → ℤ → Option (List Bytes)
  | 0, _ => none
  | fuel + 1, p =>
    if p < payload.length then
      let payloadSize := min (payload.length - p) outChunkSize
      let iovs := chunkHeader header p ++ (payload.drop p.toNat).take payloadSize.toNat
      (sendLoop header outChunkSize payload fuel (p + payloadSize)).map (iovs :: ·)
    else some []

/-- The chunks of a message: the loop goes round at most once for each byte. -/
def sendChunks (header : MessageHeader) (outChunkSize : ℤ) (payload : Bytes) :
    Option (List Bytes) :=
  sendLoop header outChunkSize payload (payload.length + 1) 0

/-! ## The loop as a relation -/

section Loop

variable {header : MessageHeader} {outChunkSize : ℤ} {payload : Bytes}

/-- What the loop sends from `payload + p` on. -/
inductive Sends (header : MessageHeader) (outChunkSize : ℤ) (payload : Bytes) :
    ℤ → List Bytes → Prop
  | done {p : ℤ} (h : payload.length ≤ p) : Sends header outChunkSize payload p []
  | step {p : ℤ} {cs : List Bytes} (h : p < payload.length)
      (hs : Sends header outChunkSize payload (p + min (payload.length - p) outChunkSize) cs) :
      Sends header outChunkSize payload p
        ((chunkHeader header p
          ++ (payload.drop p.toNat).take (min (payload.length - p) outChunkSize).toNat) :: cs)

theorem Sends.eq_nil {p : ℤ} {cs : List Bytes} (h : Sends header outChunkSize payload p cs)
    (hp : payload.length ≤ p) : cs = [] := by
  cases h with
  | done _ => rfl
  | step hlt _ => omega

theorem Sends.exists_cons {p : ℤ} {cs : List Bytes} (h : Sends header outChunkSize payload p cs)
    (hp : p < payload.length) : ∃ b cs', cs = b :: cs' := by
  cases h with
  | done hle => omega
  | step _ _ => exact ⟨_, _, rfl⟩

theorem sends_of_sendLoop {fuel : ℕ} {p : ℤ} {cs : List Bytes}
    (h : sendLoop header outChunkSize payload fuel p = some cs) :
    Sends header outChunkSize payload p cs := by
  induction fuel generalizing p cs with
  | zero => cases h
  | succ fuel ih =>
    rw [sendLoop] at h
    split at h
    · obtain ⟨cs', hcs', rfl⟩ := Option.map_eq_some_iff.1 h
      exact Sends.step ‹_› (ih hcs')
    · obtain rfl := Option.some.inj h
      exact Sends.done (by omega)

/-- **The loop ends**: every round sends at least one byte. -/
theorem exists_sendLoop (hc : 1 ≤ outChunkSize) {fuel : ℕ} {p : ℤ} (hp : p ≤ payload.length)
    (hfuel : payload.length - p < fuel) :
    ∃ cs, sendLoop header outChunkSize payload fuel p = some cs := by
  induction fuel generalizing p with
  | zero => omega
  | succ fuel ih =>
    rw [sendLoop]
    split
    · obtain ⟨cs, hcs⟩ :=
        ih (p := p + min (payload.length - p) outChunkSize) (by omega) (by omega)
      dsimp only
      exact ⟨_, by rw [hcs, Option.map_some]⟩
    · exact ⟨[], rfl⟩

theorem exists_sendChunks (hc : 1 ≤ outChunkSize) :
    ∃ cs, sendChunks header outChunkSize payload = some cs :=
  exists_sendLoop hc (by omega) (by omega)

end Loop

end SmartStreaming
