import SmartStreaming.Rtmp.Chunk.Wire
import SmartStreaming.Rtmp.Chunk.Send

/-!
# Rtmp/Chunk/Interleave — interleaved chunk streams are received as they were sent

Messages cut into chunks by `sendChunks`, the chunks of different chunk streams interleaved in any
way, come back from `recv_interlaced_message` whole, each once, in the order of their last chunks.

* `Carries s k chunk` — the chunk stream holds the first `k` bytes of the message `s`.
* `holds_recvHeader_c0`, `holds_recvHeader_c3`, `holds_recvPayload` — what the two halves of a call
  do to it.
* `Awaits` — a chunk stream and the chunks still to come on it; `holds_recvChunk` receives one.
-/

namespace SmartStreaming

open Machinery Comp RtmpProtocolHandler

/-! ## What is sent -/

/-- A message as it is sent: not empty, of a length of 24 bits, with a timestamp that needs no
extension. -/
structure SentMessage where
  timestamp : BitVec 32
  messageType : BitVec 8
  streamId : BitVec 32
  payload : Bytes
  timestamp_lt : timestamp.toNat < rtmpExtendedTimestamp
  payload_ne : payload ≠ []
  payload_lt : payload.length < 2 ^ 24

/-- The header `send_packet` fills in for the message on the chunk stream `cid`. -/
def SentMessage.header (s : SentMessage) (cid : ℤ) : MessageHeader where
  payloadLength := s.payload.length
  messageType := s.messageType
  streamId := s.streamId
  timestamp := s.timestamp.toNat
  perferCid := cid

/-- A chunk on the wire, and the message it is the last chunk of. -/
structure Chunk where
  bytes : Bytes
  last : Option SentMessage

/-- The chunks of one message; the last one completes it. -/
def tagLast (s : SentMessage) : List Bytes → List Chunk
  | [] => []
  | [b] => [⟨b, some s⟩]
  | b :: b' :: bs => ⟨b, none⟩ :: tagLast s (b' :: bs)

/-- The chunks of the message `s` on the chunk stream `cid`. -/
def messageChunks (outChunkSize cid : ℤ) (s : SentMessage) : List Chunk :=
  tagLast s ((sendChunks (s.header cid) outChunkSize s.payload).getD [])

/-- **An interleaving** of the chunks of the messages `msgs cid` of each chunk stream `cid`: each
chunk comes with its chunk stream, and on each chunk stream in that stream's order. -/
structure Interleaving (outChunkSize : ℤ) (msgs : ℤ → List SentMessage) (l : List (ℤ × Chunk)) :
    Prop where
  cid_mem : ∀ x ∈ l, 2 ≤ x.1 ∧ x.1 ≤ 63
  order : ∀ cid, 2 ≤ cid → cid ≤ 63 →
    (l.filter fun x => x.1 = cid).map Prod.snd
      = (msgs cid).flatMap (messageChunks outChunkSize cid)

/-- The message `m` is the message `s` as it was sent. -/
structure SentMessage.Received (s : SentMessage) (m : RtmpMessage) : Prop where
  payload : m.payload = some s.payload
  size : m.size = s.payload.length
  payloadLength : m.header.payloadLength = s.payload.length
  messageType : m.header.messageType = s.messageType
  timestamp : m.header.timestamp = s.timestamp.toNat
  streamId : m.header.streamId = s.streamId

/-- What a call returns for a chunk: the message the chunk completes, or nothing. -/
inductive Returns : Option RtmpMessage → Chunk → Prop
  | nothing (b : Bytes) : Returns none ⟨b, none⟩
  | message {m : RtmpMessage} {s : SentMessage} (b : Bytes) (h : s.Received m) :
      Returns (some m) ⟨b, some s⟩

/-! ## Bytes of integers -/

theorem toNat_ofInt_of_lt {n : ℕ} (h : n < 2 ^ 24) : (BitVec.ofInt 32 (n : ℤ)).toNat = n := by
  rw [BitVec.toNat_ofInt]
  norm_num at h ⊢
  omega

/-- Integers of any widths have the bytes of their value. -/
theorem byteAt_congr {w w' : ℕ} {v : BitVec w} {v' : BitVec w'} (h : v.toNat = v'.toNat) (i : ℕ) :
    byteAt v i = byteAt v' i := by
  rw [byteAt, byteAt, h]

namespace SentMessage

variable (s : SentMessage)

theorem timestamp_lt' : s.timestamp.toNat < 2 ^ 24 := by
  have h := s.timestamp_lt
  rw [rtmpExtendedTimestamp] at h
  omega

/-- The eleven bytes of the message header of the first chunk. -/
def headerBytes : Bytes :=
  let len := BitVec.ofInt 32 (s.payload.length : ℤ)
  [byteAt s.timestamp 2, byteAt s.timestamp 1, byteAt s.timestamp 0,
    byteAt len 2, byteAt len 1, byteAt len 0, s.messageType,
    byteAt s.streamId 0, byteAt s.streamId 1, byteAt s.streamId 2, byteAt s.streamId 3]

/-- The message header of the first chunk. -/
def fields : MessageFields :=
  .type0 (s.timestamp.setWidth 24) (BitVec.ofNat 24 s.payload.length) s.messageType s.streamId

theorem toNat_timestamp : (s.timestamp.setWidth 24).toNat = s.timestamp.toNat := by
  rw [BitVec.toNat_setWidth, Nat.mod_eq_of_lt s.timestamp_lt']

theorem toNat_length : (BitVec.ofNat 24 s.payload.length).toNat = s.payload.length := by
  rw [BitVec.toNat_ofNat, Nat.mod_eq_of_lt s.payload_lt]

theorem bytes_fields : s.fields.bytes = s.headerBytes := by
  have htime := byteAt_congr s.toNat_timestamp
  have hlen := byteAt_congr (s.toNat_length.trans (toNat_ofInt_of_lt s.payload_lt).symm)
  rw [fields, MessageFields.bytes, beThree, beThree]
  simp only [htime, hlen]
  rfl

theorem extendedTimestampBytes_eq_nil : extendedTimestampBytes s.timestamp = [] := by
  have h := s.timestamp_lt
  rw [extendedTimestampBytes, if_neg (by omega)]

theorem ofInt_timestamp : BitVec.ofInt 32 (s.timestamp.toNat : ℤ) = s.timestamp :=
  BitVec.eq_of_toNat_eq (toNat_ofInt_of_lt s.timestamp_lt')

/-- The header of the first chunk. -/
theorem chunkHeader_zero (cid : ℤ) :
    chunkHeader (s.header cid) 0 = (0x00 ||| BitVec.ofInt 8 (cid % 64)) :: s.headerBytes := by
  have h := s.timestamp_lt
  rw [chunkHeader, if_pos rfl, header, chunkHeaderC0, if_neg (by decide)]
  dsimp only
  rw [s.ofInt_timestamp, if_pos h, s.extendedTimestampBytes_eq_nil]
  rfl

/-- The header of the following chunks. -/
theorem chunkHeader_pos (cid : ℤ) {p : ℤ} (hp : p ≠ 0) :
    chunkHeader (s.header cid) p = [0xC0 ||| BitVec.ofInt 8 (cid % 64)] := by
  rw [chunkHeader, if_neg hp, header, chunkHeaderC3, if_neg (by decide)]
  dsimp only
  rw [s.ofInt_timestamp, s.extendedTimestampBytes_eq_nil, List.append_nil]

end SentMessage

/-! ## What is received -/

/-- The chunk stream holds the first `k` bytes of the message `s`, and its header. -/
structure Carries (s : SentMessage) (k : ℕ) (chunk : RtmpChunkStream) : Prop where
  payloadLength : chunk.header.payloadLength = s.payload.length
  messageType : chunk.header.messageType = s.messageType
  timestamp : chunk.header.timestamp = s.timestamp.toNat
  streamId : chunk.header.streamId = s.streamId
  notExtended : chunk.extendedTimestamp = false
  msgCount_pos : 0 < chunk.msgCount
  msg : ∃ m, chunk.msg = some m ∧ m.size = k
    ∧ ((k = 0 ∧ m.payload = none)
      ∨ ∃ p : Bytes, m.payload = some p ∧ p.length = s.payload.length
        ∧ p.take k = s.payload.take k)

section Receive

variable {σ : Type} {src : ByteSource σ} {rest : σ → Bytes} {F : Fault → Prop}

/-- The first byte of a chunk names the format and the chunk stream. -/
theorem basicHeader_byte (fmt : Fin 4) (cid : Fin 64) :
    BitVec.ofNat 8 (64 * fmt) ||| BitVec.ofInt 8 ((cid : ℤ) % 64)
      = BitVec.ofNat 2 fmt ++ BitVec.ofNat 6 cid := by
  revert fmt cid
  decide

theorem holds_readBasicHeader_of_cid {E : ℤ → σ → Prop} {Q : ℕ × ℤ → σ → Prop}
    (hsrc : src.Delivers rest) {io : σ} {cid : ℤ} (h₀ : 2 ≤ cid) (h₁ : cid ≤ 63) (fmt : Fin 4)
    {tail : Bytes}
    (hrest : rest io = (BitVec.ofNat 8 (64 * fmt) ||| BitVec.ofInt 8 (cid % 64)) :: tail)
    (hQ : ∀ io', rest io' = tail → Q (fmt, cid) io') : Holds F E Q (readBasicHeader src) io := by
  have hcast : (cid.toNat : ℤ) = cid := by omega
  have hid : (BitVec.ofNat 6 cid.toNat).toNat = cid.toNat := by
    rw [BitVec.toNat_ofNat, Nat.mod_eq_of_lt (by omega)]
  have hfmt : (BitVec.ofNat 2 fmt).toNat = fmt := by
    rw [BitVec.toNat_ofNat, Nat.mod_eq_of_lt fmt.isLt]
  have hbyte := basicHeader_byte fmt ⟨cid.toNat, by omega⟩
  simp only [hcast] at hbyte
  rw [hbyte] at hrest
  refine holds_readBasicHeader_bytes hsrc (.oneByte (BitVec.ofNat 6 cid.toNat) (by omega))
    (BitVec.ofNat 2 fmt) hrest fun io' hio' => ?_
  rw [hfmt, BasicHeader.cid, hid, hcast]
  exact hQ io' hio'

/-- After a header: the chunk stream carries `k` bytes of `s`, and the message has its header. -/
def Headed (s : SentMessage) (k : ℕ) (chunk : RtmpChunkStream) : Prop :=
  Carries s k chunk ∧ ∃ m, chunk.msg = some m ∧ m.header = chunk.header

theorem headed_first (s : SentMessage) {chunk : RtmpChunkStream} (hmsg : chunk.msg = none) :
    Headed s 0 (s.fields.headed chunk) := by
  have hlt := s.timestamp_lt'
  refine ⟨⟨congrArg Nat.cast s.toNat_length, rfl, ?_, rfl, rfl, Nat.succ_pos _, _, rfl, ?_,
    Or.inl ⟨rfl, ?_⟩⟩, _, rfl, rfl⟩
  · change ((s.timestamp.setWidth 24).toNat : ℤ) % 2 ^ 32 = s.timestamp.toNat
    rw [s.toNat_timestamp]
    omega
  · rw [hmsg]
    rfl
  · rw [hmsg]
    rfl

theorem headed_next {s : SentMessage} {k : ℕ} {chunk : RtmpChunkStream} (h : Carries s k chunk) :
    Headed s k (MessageFields.type3.headed chunk) := by
  obtain ⟨hlen, htype, htime, hid, hext, hcount, m, hm, hsize, hpayload⟩ := h
  have hlt := s.timestamp_lt'
  have hmod : chunk.header.timestamp % 2 ^ 32 = s.timestamp.toNat := by rw [htime]; omega
  simp only [MessageFields.headed, MessageFields.set, MessageFields.header, hm]
  exact ⟨⟨hlen, htype, hmod, hid, rfl, Nat.succ_pos _, _, rfl, hsize, hpayload⟩, _, rfl, rfl⟩

/-- **The header of a first chunk** starts the message. -/
theorem holds_recvHeader_c0 {E : ℤ → RtmpChunkStream × σ → Prop}
    {Q : PUnit → RtmpChunkStream × σ → Prop} (hsrc : src.Delivers rest) (fix : Bool)
    (ext : BitVec 32) (s : SentMessage) {chunk : RtmpChunkStream} {io : σ} {tail : Bytes}
    (hmsg : chunk.msg = none) (hrest : rest io = s.headerBytes ++ tail)
    (hQ : ∀ chunk' io', Headed s 0 chunk' → rest io' = tail → Q ⟨⟩ (chunk', io')) :
    Holds F E Q (readMessageHeader src fix ext 0) (chunk, io) := by
  have hnot : ¬ chunk.msg.isSome := by simp [hmsg]
  rw [← s.bytes_fields] at hrest
  refine holds_readMessageHeader_headed hsrc fix ext s.fields (fun _ => Or.inl rfl)
    (fun h => absurd h hnot) (fun h => absurd h hnot) ?_ nofun nofun hrest
    fun io' hio' => hQ _ io' (headed_first s hmsg) hio'
  rintro t ⟨⟩
  rw [s.toNat_timestamp]
  exact s.timestamp_lt

/-- **The header of a following chunk** changes nothing. -/
theorem holds_recvHeader_c3 {E : ℤ → RtmpChunkStream × σ → Prop}
    {Q : PUnit → RtmpChunkStream × σ → Prop} (hsrc : src.Delivers rest) (fix : Bool)
    (ext : BitVec 32) {s : SentMessage} {k : ℕ} {chunk : RtmpChunkStream} {io : σ} {tail : Bytes}
    (h : Carries s k chunk) (hrest : rest io = tail)
    (hQ : ∀ chunk' io', Headed s k chunk' → rest io' = tail → Q ⟨⟩ (chunk', io')) :
    Holds F E Q (readMessageHeader src fix ext 3) (chunk, io) := by
  have hcount := h.msgCount_pos
  have hlen := h.payloadLength
  refine holds_readMessageHeader_headed hsrc fix ext .type3 (fun hzero => by omega) (fun _ => ?_)
    (fun _ => nofun) nofun (fun _ => h.notExtended) (fun _ => by omega) hrest
    fun io' hio' => hQ _ io' (headed_next h) hio'
  decide

/-- Writing the next bytes of a prefix makes it longer. -/
theorem take_splice_append {mem bs : Bytes} {k : ℕ} (hk : k ≤ mem.length) :
    (splice mem k bs).take (k + bs.length) = mem.take k ++ bs := by
  have hlen : (mem.take k ++ bs).length = k + bs.length := by
    rw [List.length_append, List.length_take]
    omega
  rw [splice, ← hlen, List.take_left]

/-- **The payload of a chunk** adds its bytes to the message; the last ones hand it out. -/
theorem holds_recvPayload {E : ℤ → RtmpChunkStream × σ → Prop}
    {Q : Option RtmpMessage → RtmpChunkStream × σ → Prop} (hsrc : src.Delivers rest) {c : ℤ}
    (hc : 1 ≤ c) {s : SentMessage} {k : ℕ} (hk : k < s.payload.length) {chunk : RtmpChunkStream}
    {io : σ} {tail : Bytes} (h : Headed s k chunk)
    (hrest : rest io
      = (s.payload.drop k).take (min (s.payload.length - k : ℤ) c).toNat ++ tail)
    (hmore : ∀ n : ℕ, (n : ℤ) = min (s.payload.length - k : ℤ) c → k + n < s.payload.length →
      ∀ chunk' io', Carries s (k + n) chunk' → rest io' = tail → Q none (chunk', io'))
    (hlast : (s.payload.length : ℤ) = k + min (s.payload.length - k : ℤ) c →
      ∀ m chunk' io', s.Received m → chunk'.msg = none → rest io' = tail →
        Q (some m) (chunk', io')) :
    Holds F E Q (readMessagePayload src c) (chunk, io) := by
  obtain ⟨⟨hlen, htype, htime, hid, hext, hcount, m, hm, hsize, hpayload⟩, m', hm', hhdr⟩ := h
  obtain rfl : m = m' := Option.some.inj (hm.symm.trans hm')
  set n := (min (s.payload.length - k : ℤ) c).toNat with hn
  have hncast : (n : ℤ) = min (s.payload.length - k : ℤ) c := by omega
  set bs := (s.payload.drop k).take n with hbs
  have hbslen : bs.length = n := by rw [hbs, List.length_take, List.length_drop]; omega
  obtain ⟨p, hp, hplen, hptake⟩ : ∃ p : Bytes, (ensurePayload chunk m).payload = some p
      ∧ p.length = s.payload.length ∧ p.take k = s.payload.take k := by
    rcases hpayload with ⟨rfl, hnone⟩ | ⟨p, hp, hplen, hptake⟩
    · refine ⟨_, rfl, ?_, rfl⟩
      rw [hnone, Option.getD_none, RtmpMessage.createPayload, List.length_replicate, hlen,
        Int.toNat_natCast]
    · exact ⟨p, by rw [ensurePayload, hp, Option.getD_some], hplen, hptake⟩
  have hsplice : k + bs.length ≤ p.length := by omega
  have hnew : (splice p k bs).take (k + n) = s.payload.take (k + n) := by
    rw [← hbslen, take_splice_append (by omega), hptake, hbslen, hbs, ← List.take_add]
  have hnewlen : (splice p k bs).length = s.payload.length := by rw [length_splice hsplice, hplen]
  refine holds_readMessagePayload_of_pos hsrc hm (by omega) hp hsize
    (by rw [hlen, hbslen, hncast]) hsplice hrest (fun hdone io' hio' => ?_)
    fun hdone io' hio' => ?_
  · have hfull : splice p k bs = s.payload := by
      rw [show k + n = s.payload.length by omega] at hnew
      rwa [List.take_of_length_le (by omega), List.take_of_length_le (le_refl _)] at hnew
    refine hlast (by omega) _ _ _ ⟨by rw [hfull], by dsimp only; omega, ?_, ?_, ?_, ?_⟩ rfl hio'
    · exact (congrArg MessageHeader.payloadLength hhdr).trans hlen
    · exact (congrArg MessageHeader.messageType hhdr).trans htype
    · exact (congrArg MessageHeader.timestamp hhdr).trans htime
    · exact (congrArg MessageHeader.streamId hhdr).trans hid
  · rw [hbslen] at hdone ⊢
    exact hmore n hncast (by omega) _ _ ⟨hlen, htype, htime, hid, hext, hcount, _, rfl, rfl,
      Or.inr ⟨_, rfl, hnewlen, hnew⟩⟩ hio'

end Receive

/-! ## One chunk -/

/-- The chunks of a message are at least one. -/
theorem exists_sends {c : ℤ} (hc : 1 ≤ c) (cid : ℤ) (s : SentMessage) :
    ∃ b cs, messageChunks c cid s = tagLast s (b :: cs)
      ∧ Sends (s.header cid) c s.payload 0 (b :: cs) := by
  have hpos := List.length_pos_iff.2 s.payload_ne
  obtain ⟨cs, hcs⟩ : ∃ cs, sendChunks (s.header cid) c s.payload = some cs :=
    exists_sendChunks hc
  have hsends := sends_of_sendLoop hcs
  cases cs with
  | nil =>
    cases hsends
    omega
  | cons b cs => exact ⟨b, cs, by rw [messageChunks, hcs, Option.getD_some], hsends⟩

/-- **A chunk stream and the chunks still to come on it**: it is between two messages, or in the
middle of one. -/
inductive Awaits (c cid : ℤ) (chunk : RtmpChunkStream) : List Chunk → Prop
  | idle (ms : List SentMessage) (h : chunk.msg = none) :
      Awaits c cid chunk (ms.flatMap (messageChunks c cid))
  | midway {s : SentMessage} {k : ℕ} {cs : List Bytes} (ms : List SentMessage)
      (h : Carries s k chunk) (hk : 0 < k) (hlt : k < s.payload.length)
      (hs : Sends (s.header cid) c s.payload k cs) :
      Awaits c cid chunk (tagLast s cs ++ ms.flatMap (messageChunks c cid))

/-- The next chunk of a chunk stream, of a message of which `k` bytes have arrived. -/
theorem Awaits.exists_next {c cid : ℤ} (hc : 1 ≤ c) {chunk : RtmpChunkStream} {ch : Chunk}
    {r : List Chunk} (h : Awaits c cid chunk (ch :: r)) :
    ∃ (s : SentMessage) (k : ℕ) (b : Bytes) (cs : List Bytes) (ms : List SentMessage),
      k < s.payload.length ∧ Sends (s.header cid) c s.payload k (b :: cs)
      ∧ ch :: r = tagLast s (b :: cs) ++ ms.flatMap (messageChunks c cid)
      ∧ ((k = 0 ∧ chunk.msg = none) ∨ (0 < k ∧ Carries s k chunk)) := by
  generalize hr : ch :: r = q at h
  cases h with
  | idle ms hnone =>
    cases ms with
    | nil => cases hr
    | cons s ms =>
      obtain ⟨b, cs, hchunks, hsends⟩ := exists_sends hc cid s
      exact ⟨s, 0, b, cs, ms, List.length_pos_iff.2 s.payload_ne, hsends,
        by rw [List.flatMap_cons, hchunks], Or.inl ⟨rfl, hnone⟩⟩
  | midway ms hcarries hk hlt hs =>
    rename_i s k cs
    cases hs with
    | done h => omega
    | step h hs => exact ⟨s, k, _, _, ms, hlt, Sends.step h hs, rfl, Or.inr ⟨hk, hcarries⟩⟩

/-- What a header leaves behind, for a first chunk and for a following one. -/
theorem holds_recvHeader {σ : Type} {src : ByteSource σ} {rest : σ → Bytes} {F : Fault → Prop}
    {E : ℤ → σ → Prop} {Q : ℕ × ℤ → σ → Prop} (hsrc : src.Delivers rest) {cid : ℤ} (h₀ : 2 ≤ cid)
    (h₁ : cid ≤ 63) {s : SentMessage} {k : ℕ} {io : σ} {tail : Bytes}
    (hrest : rest io = chunkHeader (s.header cid) k ++ tail)
    (hfirst : k = 0 → ∀ io', rest io' = s.headerBytes ++ tail → Q (0, cid) io')
    (hnext : 0 < k → ∀ io', rest io' = tail → Q (3, cid) io') :
    Holds F E Q (readBasicHeader src) io := by
  rcases Nat.eq_zero_or_pos k with rfl | hk
  · rw [Nat.cast_zero, s.chunkHeader_zero] at hrest
    exact holds_readBasicHeader_of_cid hsrc h₀ h₁ 0 hrest (hfirst rfl)
  · rw [s.chunkHeader_pos cid (by omega)] at hrest
    exact holds_readBasicHeader_of_cid hsrc h₀ h₁ 3 hrest (hnext hk)

/-- What a call does to a handler whose chunk stream `cid` awaits the chunk `ch`: it returns what
the chunk completes, that chunk stream awaits the rest, and the others stay. -/
structure Took {σ : Type} (rest : σ → Bytes) (c cid : ℤ) (ch : Chunk) (r : List Chunk)
    (tail : Bytes) (h : RtmpProtocolHandler σ) (out : Option RtmpMessage)
    (h' : RtmpProtocolHandler σ) : Prop where
  returns : Returns out ch
  cache_length : h'.csCache.length = tmssPerfChunkStreamCache
  inChunkSize_eq : h'.inChunkSize = c
  rest_eq : rest h'.ioBuffer = tail
  awaits : ∃ chunk, h'.chunkStream cid = some chunk ∧ Awaits c cid chunk r
  others : ∀ cid', 0 ≤ cid' → cid' ≠ cid → h'.chunkStream cid' = h.chunkStream cid'

theorem took_of_chunk {σ : Type} {rest : σ → Bytes} {c cid : ℤ} {ch : Chunk} {r : List Chunk}
    {tail : Bytes} {h : RtmpProtocolHandler σ} {out : Option RtmpMessage} {chunk : RtmpChunkStream}
    {io io' : σ} (h₀ : 0 ≤ cid) (hlen : h.csCache.length = tmssPerfChunkStreamCache)
    (hc : h.inChunkSize = c) (hret : Returns out ch) (hio : rest io' = tail)
    (haw : Awaits c cid chunk r) :
    Took rest c cid ch r tail h out
      { setChunkStream { h with ioBuffer := io } cid chunk with ioBuffer := io' } := by
  have hget : ∀ cid', 0 ≤ cid' →
      (setChunkStream { h with ioBuffer := io } cid chunk).chunkStream cid'
        = if cid' = cid then some chunk else h.chunkStream cid' := fun cid' h₁ =>
    chunkStream_setChunkStream (h := { h with ioBuffer := io }) hlen h₀ h₁ chunk
  refine ⟨hret, (length_csCache_setChunkStream { h with ioBuffer := io } cid chunk).trans hlen,
    (inChunkSize_setChunkStream { h with ioBuffer := io } cid chunk).trans hc, hio,
    ⟨chunk, (hget cid h₀).trans (if_pos rfl), haw⟩,
    fun cid' h₁ hne => (hget cid' h₁).trans (if_neg hne)⟩

/-- **Receiving one chunk.** -/
theorem holds_recvChunk {σ : Type} {src : ByteSource σ} {rest : σ → Bytes}
    (hsrc : src.Delivers rest) {c cid : ℤ} (hc : 1 ≤ c) (h₀ : 2 ≤ cid) (h₁ : cid ≤ 63)
    (ext : BitVec 32) {h : RtmpProtocolHandler σ} {chunk : RtmpChunkStream} {ch : Chunk}
    {r : List Chunk} {tail : Bytes} (hlen : h.csCache.length = tmssPerfChunkStreamCache)
    (hsize : h.inChunkSize = c) (hget : h.chunkStream cid = some chunk)
    (haw : Awaits c cid chunk (ch :: r)) (hrest : rest h.ioBuffer = ch.bytes ++ tail) :
    Holds (fun _ => False) (fun _ _ => False) (Took rest c cid ch r tail h)
      (recvInterlacedMessage src ext) h := by
  subst hsize
  obtain ⟨s, k, b, cs, ms, hk, hsends, hchunks, hstate⟩ := haw.exists_next hc
  obtain ⟨hb, hnext⟩ : b = chunkHeader (s.header cid) k
      ++ (s.payload.drop k).take (min (s.payload.length - k : ℤ) h.inChunkSize).toNat
      ∧ Sends (s.header cid) h.inChunkSize s.payload
        (k + min (s.payload.length - k : ℤ) h.inChunkSize) cs := by
    cases hsends with
    | step hlt hs => exact ⟨by rw [Int.toNat_natCast], hs⟩
  have hbytes : ch.bytes = b := by
    cases cs <;> · rw [tagLast, List.cons_append, List.cons.injEq] at hchunks; rw [hchunks.1]
  rw [hbytes, hb, List.append_assoc] at hrest
  -- the payload, after either header
  have hpayload : ∀ chunk' (io io' : σ), Headed s k chunk' →
      rest io'
        = (s.payload.drop k).take (min (s.payload.length - k : ℤ) h.inChunkSize).toNat ++ tail →
      Holds (fun _ => False) (fun _ _ => False)
        (fun out st => Took rest h.inChunkSize cid ch r tail h out
          { setChunkStream { h with ioBuffer := io } cid st.1 with ioBuffer := st.2 })
        (readMessagePayload src h.inChunkSize) (chunk', io') := by
    intro chunk' io io' hchunk' hio'
    refine holds_recvPayload hsrc hc hk hchunk' hio' (fun n hn hlt chunk'' io'' hcar hrest'' => ?_)
      (fun hdone m chunk'' io'' hrecv hnone hrest'' => ?_)
    · obtain ⟨b', cs', rfl⟩ := hnext.exists_cons (by omega)
      rw [tagLast, List.cons_append, List.cons.injEq] at hchunks
      obtain ⟨rfl, rfl⟩ := hchunks
      rw [← hn, ← Nat.cast_add] at hnext
      exact took_of_chunk (by omega) hlen rfl (Returns.nothing b) hrest''
        (Awaits.midway ms hcar (by omega) hlt hnext)
    · obtain rfl := hnext.eq_nil (by omega)
      rw [tagLast, List.cons_append, List.cons.injEq] at hchunks
      obtain ⟨rfl, rfl⟩ := hchunks
      exact took_of_chunk (by omega) hlen rfl (Returns.message b hrecv) hrest''
        (Awaits.idle ms hnone)
  simp only [recvInterlacedMessage, holds_bind, holds_zoom]
  refine holds_recvHeader hsrc h₀ h₁ hrest (fun hzero io' hio' => ?_) (fun hpos io' hio' => ?_)
  · obtain ⟨-, hnone⟩ : k = 0 ∧ chunk.msg = none := by
      rcases hstate with h | h
      · exact h
      · omega
    simp only [cassert, if_pos (show cid ≥ 0 by omega), holds_pure, holds_get,
      show chunkStream { h with ioBuffer := io' } cid = some chunk from hget, holds_some, onChunk,
      holds_zoom, holds_bind]
    refine holds_recvHeader_c0 hsrc _ ext s hnone hio' fun chunk' io'' hchunk' hio'' => ?_
    exact hpayload chunk' io' io'' (by rw [hzero]; exact hchunk') hio''
  · obtain ⟨-, hcar⟩ : 0 < k ∧ Carries s k chunk := by
      rcases hstate with h | h
      · omega
      · exact h
    simp only [cassert, if_pos (show cid ≥ 0 by omega), holds_pure, holds_get,
      show chunkStream { h with ioBuffer := io' } cid = some chunk from hget, holds_some, onChunk,
      holds_zoom, holds_bind]
    exact holds_recvHeader_c3 hsrc _ ext hcar hio' fun chunk' io'' hchunk' hio'' =>
      hpayload chunk' io' io'' hchunk' hio''

/-! ## Whole runs -/

/-- The chunks of the chunk stream `cid` among the chunks `l`. -/
def onStream (cid : ℤ) (l : List (ℤ × Chunk)) : List Chunk :=
  (l.filter fun x => x.1 = cid).map Prod.snd

/-- **The state of a run with the chunks `l` still to come**: every chunk stream awaits its own. -/
structure Receiving {σ : Type} (rest : σ → Bytes) (c : ℤ) (tail : Bytes) (l : List (ℤ × Chunk))
    (h : RtmpProtocolHandler σ) : Prop where
  cache_length : h.csCache.length = tmssPerfChunkStreamCache
  inChunkSize_eq : h.inChunkSize = c
  rest_eq : rest h.ioBuffer = (l.map fun x => x.2.bytes).flatten ++ tail
  cid_mem : ∀ x ∈ l, 2 ≤ x.1 ∧ x.1 ≤ 63
  awaits : ∀ cid, 2 ≤ cid → cid ≤ 63 →
    ∃ chunk, h.chunkStream cid = some chunk ∧ Awaits c cid chunk (onStream cid l)

section Run

variable {σ : Type} {src : ByteSource σ} {rest : σ → Bytes} {c : ℤ} {tail : Bytes}

theorem onStream_cons_self (cid : ℤ) (ch : Chunk) (l : List (ℤ × Chunk)) :
    onStream cid ((cid, ch) :: l) = ch :: onStream cid l := by
  rw [onStream, List.filter_cons_of_pos (by simp), List.map_cons, onStream]

theorem onStream_cons_of_ne {cid cid' : ℤ} (h : cid' ≠ cid) (ch : Chunk) (l : List (ℤ × Chunk)) :
    onStream cid ((cid', ch) :: l) = onStream cid l := by
  rw [onStream, List.filter_cons_of_neg (by simpa using h), onStream]

/-- One call takes the first chunk to come. -/
theorem Receiving.step (hsrc : src.Delivers rest) (hc : 1 ≤ c) (ext : BitVec 32)
    {h : RtmpProtocolHandler σ} {x : ℤ × Chunk} {l : List (ℤ × Chunk)}
    (hr : Receiving rest c tail (x :: l) h) :
    Holds (fun _ => False) (fun _ _ => False)
      (fun out h' => Returns out x.2 ∧ Receiving rest c tail l h')
      (recvInterlacedMessage src ext) h := by
  obtain ⟨cid, ch⟩ := x
  obtain ⟨h₀, h₁⟩ := hr.cid_mem _ List.mem_cons_self
  obtain ⟨chunk, hget, haw⟩ := hr.awaits cid h₀ h₁
  rw [onStream_cons_self] at haw
  have hrest : rest h.ioBuffer = ch.bytes ++ ((l.map fun x => x.2.bytes).flatten ++ tail) := by
    rw [hr.rest_eq, List.map_cons, List.flatten_cons, List.append_assoc]
  refine (holds_recvChunk hsrc hc h₀ h₁ ext hr.cache_length hr.inChunkSize_eq hget haw hrest).imp
    (fun _ _ => id) fun out h' htook => ⟨htook.returns, htook.cache_length, htook.inChunkSize_eq,
      htook.rest_eq, fun y hy => hr.cid_mem y (List.mem_cons_of_mem _ hy), fun cid' h₂ h₃ => ?_⟩
  by_cases heq : cid' = cid
  · rw [heq]
    exact htook.awaits
  · obtain ⟨chunk', hget', haw'⟩ := hr.awaits cid' h₂ h₃
    rw [onStream_cons_of_ne (fun h => heq h.symm)] at haw'
    exact ⟨chunk', (htook.others cid' (by omega) heq).trans hget', haw'⟩

/-- As many calls as chunks to come take them all. -/
theorem Receiving.run (hsrc : src.Delivers rest) (hc : 1 ≤ c) {l : List (ℤ × Chunk)}
    {exts : List (BitVec 32)} (hexts : exts.length = l.length) {h : RtmpProtocolHandler σ}
    (hr : Receiving rest c tail l h) :
    Holds (fun _ => False) (fun _ _ => False)
      (fun outs h' => List.Forall₂ (fun out x => Returns out x.2) outs l
        ∧ Receiving rest c tail [] h')
      (exts.mapM (recvInterlacedMessage src)) h := by
  induction l generalizing exts h with
  | nil =>
    obtain rfl := List.length_eq_zero_iff.1 hexts
    exact ⟨List.Forall₂.nil, hr⟩
  | cons x l ih =>
    obtain ⟨ext, exts, rfl⟩ := List.exists_cons_of_length_pos (show 0 < exts.length by
      rw [hexts, List.length_cons]; omega)
    rw [List.mapM_cons, holds_bind]
    refine (hr.step hsrc hc ext).imp (fun _ _ => id) ?_
    rintro out h' ⟨hout, hr'⟩
    rw [holds_bind]
    refine (ih (Nat.succ.inj hexts) hr').imp (fun _ _ => id) ?_
    rintro outs h'' ⟨houts, hr''⟩
    exact ⟨List.Forall₂.cons hout houts, hr''⟩

theorem receiving_new {msgs : ℤ → List SentMessage} {l : List (ℤ × Chunk)}
    (hl : Interleaving c msgs l) {io : σ}
    (hio : rest io = (l.map fun x => x.2.bytes).flatten ++ tail)
    (fix : Bool) : Receiving rest c tail l (RtmpProtocolHandler.new io fix c) := by
  refine ⟨by simp [RtmpProtocolHandler.new], rfl, hio, hl.cid_mem, fun cid h₀ h₁ => ?_⟩
  rw [onStream, hl.order cid h₀ h₁]
  exact ⟨RtmpChunkStream.new cid, chunkStream_new io fix c (by omega), Awaits.idle _ rfl⟩

end Run

/-- The messages a chunk stream completes are its own. -/
theorem filterMap_last_tagLast (s : SentMessage) (b : Bytes) (cs : List Bytes) :
    (tagLast s (b :: cs)).filterMap Chunk.last = [s] := by
  induction cs generalizing b with
  | nil => rfl
  | cons b' cs ih => rw [tagLast, List.filterMap_cons_none rfl, ih]

theorem filterMap_last_messageChunks {c : ℤ} (hc : 1 ≤ c) (cid : ℤ) (ms : List SentMessage) :
    (ms.flatMap (messageChunks c cid)).filterMap Chunk.last = ms := by
  induction ms with
  | nil => rfl
  | cons s ms ih =>
    obtain ⟨b, cs, hchunks, -⟩ := exists_sends hc cid s
    rw [List.flatMap_cons, List.filterMap_append, ih, hchunks, filterMap_last_tagLast]
    rfl

/-- **Interleaved messages come back as they were sent**: over a source that delivers the chunks of
`l`, as many calls of `recv_interlaced_message` as there are chunks return, at each chunk that is
the last one of a message, that message, and nothing at the others; the messages so completed on a
chunk stream are the messages sent on it, in order, and the whole stream is consumed. -/
theorem interleaved_messages_received {σ : Type} (src : ByteSource σ) (rest : σ → Bytes)
    (hsrc : src.Delivers rest) (c : ℤ) (hc : 1 ≤ c) (msgs : ℤ → List SentMessage)
    (l : List (ℤ × Chunk)) (hl : Interleaving c msgs l) (io : σ) (tail : Bytes)
    (hio : rest io = (l.map fun x => x.2.bytes).flatten ++ tail) (fixTimestamp : Bool)
    (exts : List (BitVec 32)) (hexts : exts.length = l.length) :
    ∃ outs h, exts.mapM (recvInterlacedMessage src) (RtmpProtocolHandler.new io fixTimestamp c)
        = .ok (.ok outs, h)
      ∧ List.Forall₂ (fun out x => Returns out x.2) outs l
      ∧ (∀ cid, 2 ≤ cid → cid ≤ 63 → (onStream cid l).filterMap Chunk.last = msgs cid)
      ∧ rest h.ioBuffer = tail := by
  obtain ⟨outs, h, heq, hreturns, hafter⟩ :=
    (Receiving.run hsrc hc hexts (receiving_new hl hio fixTimestamp)).returns
  refine ⟨outs, h, heq, hreturns, fun cid h₀ h₁ => ?_, hafter.rest_eq⟩
  rw [onStream, hl.order cid h₀ h₁, filterMap_last_messageChunks hc]

/-! ## An instance -/

/-- Three bytes of audio. -/
def sampleAudio : SentMessage where
  timestamp := 5
  messageType := 8
  streamId := 1
  payload := [1, 2, 3]
  timestamp_lt := by decide
  payload_ne := by decide
  payload_lt := by norm_num

/-- A byte of video. -/
def sampleVideo : SentMessage where
  timestamp := 6
  messageType := 9
  streamId := 1
  payload := [7]
  timestamp_lt := by decide
  payload_ne := by decide
  payload_lt := by norm_num

def sampleMessages (cid : ℤ) : List SentMessage :=
  if cid = 7 then [sampleAudio] else if cid = 6 then [sampleVideo] else []

/-- The video between the two chunks of the audio, of two bytes each at most. -/
def sampleChunks : List (ℤ × Chunk) :=
  [(7, ⟨[7, 0, 0, 5, 0, 0, 3, 8, 1, 0, 0, 0, 1, 2], none⟩),
    (6, ⟨[6, 0, 0, 6, 0, 0, 1, 9, 1, 0, 0, 0, 7], some sampleVideo⟩),
    (7, ⟨[0xC7, 3], some sampleAudio⟩)]

theorem sampleChunks_interleaving : Interleaving 2 sampleMessages sampleChunks := by
  refine ⟨by simp [sampleChunks], fun cid _ _ => ?_⟩
  by_cases h₇ : cid = 7
  · subst h₇
    rfl
  · by_cases h₆ : cid = 6
    · subst h₆
      rfl
    · rw [sampleMessages, if_neg h₇, if_neg h₆, sampleChunks, List.filter_cons_of_neg,
        List.filter_cons_of_neg, List.filter_cons_of_neg]
      all_goals simp [Ne.symm h₇, Ne.symm h₆]

theorem interleaved_messages_received_sample :
    ∃ outs h, [0, 0, 0].mapM (recvInterlacedMessage ByteSource.ofBytes)
        (RtmpProtocolHandler.new (sampleChunks.map fun x => x.2.bytes).flatten true 2)
        = .ok (.ok outs, h)
      ∧ List.Forall₂ (fun out x => Returns out x.2) outs sampleChunks
      ∧ (∀ cid, 2 ≤ cid → cid ≤ 63 →
          (onStream cid sampleChunks).filterMap Chunk.last = sampleMessages cid)
      ∧ id h.ioBuffer = [] :=
  interleaved_messages_received ByteSource.ofBytes id ByteSource.ofBytes_delivers 2 (by decide)
    sampleMessages sampleChunks sampleChunks_interleaving _ [] (List.append_nil _).symm true
    [0, 0, 0] rfl

end SmartStreaming
