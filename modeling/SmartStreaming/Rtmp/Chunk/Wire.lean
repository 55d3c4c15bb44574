import SmartStreaming.Rtmp.Chunk.Invariant

/-!
# Rtmp/Chunk/Wire — chunks on the wire, and how a delivering source reads them

A chunk is a basic header, a message header of one of four formats and a piece of payload.  Over a
source that delivers what it is asked for, a header that is accepted and has no extended timestamp
sets the fields of its format (`holds_readMessageHeader_headed`), and a payload is stored behind
what has arrived of its message (`holds_readMessagePayload_of_pos`).
-/

namespace SmartStreaming

open Machinery Comp RtmpProtocolHandler

/-! ## Chunks on the wire -/

/-- The first one to three bytes of a chunk. -/
inductive BasicHeader
  /-- The chunk streams 2 to 63. -/
  | oneByte (id : BitVec 6) (h : 1 < id.toNat)
  /-- The chunk streams 64 to 319. -/
  | twoBytes (b : Byte)
  /-- The chunk streams 64 to 65599. -/
  | threeBytes (b₀ b₁ : Byte)

namespace BasicHeader

def cid : BasicHeader → ℤ
  | oneByte id _ => id.toNat
  | twoBytes b => 64 + b.toNat
  | threeBytes b₀ b₁ => 64 + b₀.toNat + b₁.toNat * 256

def bytes (fmt : BitVec 2) : BasicHeader → Bytes
  | oneByte id _ => [fmt ++ id]
  | twoBytes b => [fmt ++ (0 : BitVec 6), b]
  | threeBytes b₀ b₁ => [fmt ++ (1 : BitVec 6), b₀, b₁]

end BasicHeader

/-- The message header of a chunk, by its format. -/
inductive MessageFields
  | type0 (timestamp payloadLength : BitVec 24) (messageType : Byte) (streamId : BitVec 32)
  | type1 (timestampDelta payloadLength : BitVec 24) (messageType : Byte)
  | type2 (timestampDelta : BitVec 24)
  | type3
  deriving DecidableEq

/-- Three bytes, the most significant one first. -/
def beThree (v : BitVec 24) : Bytes := [byteAt v 2, byteAt v 1, byteAt v 0]

namespace MessageFields

def fmt : MessageFields → BitVec 2
  | type0 .. => 0
  | type1 .. => 1
  | type2 _ => 2
  | type3 => 3

/-- The three bytes for a timestamp, where there are any. -/
def timestampField : MessageFields → Option (BitVec 24)
  | type0 t .. => some t
  | type1 d .. => some d
  | type2 d => some d
  | type3 => none

def lengthField : MessageFields → Option (BitVec 24)
  | type0 _ n .. => some n
  | type1 _ n _ => some n
  | _ => none

def bytes : MessageFields → Bytes
  | type0 t n messageType streamId => beThree t ++ (beThree n ++ [messageType,
      byteAt streamId 0, byteAt streamId 1, byteAt streamId 2, byteAt streamId 3])
  | type1 d n messageType => beThree d ++ (beThree n ++ [messageType])
  | type2 d => beThree d
  | type3 => []

end MessageFields

/-- A chunk on the wire, and the call that receives it. -/
structure WireChunk where
  basic : BasicHeader
  fields : MessageFields
  payload : Bytes
  call : RecvCall

def WireChunk.bytes (chunk : WireChunk) : Bytes :=
  chunk.basic.bytes chunk.fields.fmt ++ chunk.fields.bytes ++ chunk.payload

/-- The source delivers the stream: `rest` is what is left of it, and a read of at most that many
bytes succeeds with the next ones. -/
structure ByteSource.Delivers {σ : Type} (src : ByteSource σ) (rest : σ → Bytes) : Prop where
  readBytes_eq : ∀ (s : σ) (n : ℤ), 0 ≤ n → n ≤ (rest s).length →
    (src.readBytes s n).1 = (errorSuccess, (rest s).take n.toNat)
  rest_eq : ∀ (s : σ) (n : ℤ), 0 ≤ n → n ≤ (rest s).length →
    rest (src.readBytes s n).2 = (rest s).drop n.toNat

theorem ByteSource.ofBytes_delivers : ByteSource.ofBytes.Delivers id :=
  ⟨fun bs n _ hn => by simp only [ofBytes, id_eq] at hn ⊢; rw [if_pos hn],
    fun bs n _ hn => by simp only [ofBytes, id_eq] at hn ⊢; rw [if_pos hn]⟩

/-! ## Bytes of the headers -/

theorem leBytes_three {w : ℕ} (v : BitVec w) :
    [byteAt v 0, byteAt v 1, byteAt v 2] = leBytes 3 v.toNat := by
  simp [leBytes, byteAt, Nat.div_div_eq_div_mul]

theorem leBytes_four (v : BitVec 32) :
    [byteAt v 0, byteAt v 1, byteAt v 2, byteAt v 3] = leBytes 4 v.toNat := by
  simp [leBytes, byteAt, Nat.div_div_eq_div_mul]

/-- Four bytes carry any integer of 32 bits. -/
theorem fromMemory_four (v : BitVec 32) :
    fromMemory 32 [byteAt v 0, byteAt v 1, byteAt v 2, byteAt v 3] = v := by
  have hlt := v.isLt
  rw [fromMemory, leBytes_four, leNat_leBytes, Nat.mod_eq_of_lt (by norm_num at hlt ⊢; exact hlt),
    BitVec.ofNat_toNat, BitVec.setWidth_eq]

theorem toNat_append_low (fmt : BitVec 2) (id : BitVec 6) :
    ((fmt ++ id : BitVec 8) &&& 0x3f).toNat = id.toNat := by
  revert fmt id
  decide +kernel

theorem toNat_append_high (fmt : BitVec 2) (id : BitVec 6) :
    (((fmt ++ id : BitVec 8) >>> 6) &&& 0x03).toNat = fmt.toNat := by
  revert fmt id
  decide +kernel

theorem leNat_beThree (v : BitVec 24) : leNat [byteAt v 0, byteAt v 1, byteAt v 2] = v.toNat := by
  have hlt := v.isLt
  rw [leBytes_three, leNat_leBytes, Nat.mod_eq_of_lt (by norm_num at hlt ⊢; exact hlt)]

theorem fromMemory_beThree (v : BitVec 24) :
    fromMemory 32 [byteAt v 0, byteAt v 1, byteAt v 2, 0] = v.setWidth 32 := by
  have hcast : leNat [byteAt v 0, byteAt v 1, byteAt v 2, 0]
      = leNat [byteAt v 0, byteAt v 1, byteAt v 2] := by simp [leNat]
  rw [fromMemory, hcast, leNat_beThree, BitVec.ofNat_toNat]

theorem toInt_setWidth (v : BitVec 24) : (v.setWidth 32).toInt = v.toNat := by
  rw [← fromMemory_beThree, toInt_fromMemory_three, leNat_beThree]

/-! ## A header -/

section Receive

variable {σ : Type} {src : ByteSource σ} {rest : σ → Bytes} {F : Fault → Prop}

/-- A read of the next bytes. -/
theorem holds_readIo {E : ℤ → σ → Prop} {Q : Bytes → σ → Prop} (hsrc : src.Delivers rest) {io : σ}
    {bs tail : Bytes} {n : ℤ} (hrest : rest io = bs ++ tail) (hn : bs.length = n)
    (hQ : ∀ io', rest io' = tail → Q bs io') : Holds F E Q (readIo src n) io := by
  have hle : n ≤ (rest io).length := by rw [hrest, List.length_append]; omega
  have hread := hsrc.readBytes_eq io n (by omega) hle
  have hdrop := hsrc.rest_eq io n (by omega) hle
  have hlen : n.toNat = bs.length := by omega
  rw [hrest, hlen, List.take_left] at hread
  rw [hrest, hlen, List.drop_left] at hdrop
  simp only [readIo, holds_bind, holds_get, hread, holds_put, holds_ite, holds_fail, holds_pure]
  exact ⟨fun hne => absurd rfl hne, fun _ => hQ _ hdrop⟩

/-- **The basic header** gives the format and the chunk stream, in each of its forms. -/
theorem holds_readBasicHeader_bytes {E : ℤ → σ → Prop} {Q : ℕ × ℤ → σ → Prop}
    (hsrc : src.Delivers rest) (basic : BasicHeader) (fmt : BitVec 2) {io : σ} {tail : Bytes}
    (hrest : rest io = basic.bytes fmt ++ tail)
    (hQ : ∀ io', rest io' = tail → Q (fmt.toNat, basic.cid) io') :
    Holds F E Q (readBasicHeader src) io := by
  rw [readBasicHeader, holds_bind]
  cases basic with
  | oneByte id h =>
    refine holds_readIo hsrc (show rest io = [_] ++ tail from hrest) rfl fun io' hio' => ?_
    simp only [List.getD_cons_zero, toNat_append_low, toNat_append_high]
    rw [if_pos (by omega), holds_pure]
    exact hQ io' hio'
  | twoBytes b =>
    refine holds_readIo hsrc (show rest io = [_] ++ ([b] ++ tail) from hrest) rfl
      fun io' hio' => ?_
    simp only [List.getD_cons_zero, toNat_append_low, toNat_append_high]
    rw [if_neg (by decide), if_pos (by decide), holds_bind]
    refine holds_readIo hsrc hio' rfl fun io'' hio'' => ?_
    rw [holds_pure]
    exact hQ io'' hio''
  | threeBytes b₀ b₁ =>
    refine holds_readIo hsrc (show rest io = [_] ++ ([b₀, b₁] ++ tail) from hrest) rfl
      fun io' hio' => ?_
    simp only [List.getD_cons_zero, toNat_append_low, toNat_append_high]
    rw [if_neg (by decide), if_neg (by decide), if_pos (by decide), holds_bind]
    refine holds_readIo hsrc hio' rfl fun io'' hio'' => ?_
    rw [holds_pure]
    exact hQ io'' hio''

/-- The fields of a header, in the header of the chunk stream. -/
def MessageFields.header (first : Bool) (h : MessageHeader) : MessageFields → MessageHeader
  | .type0 t n messageType streamId =>
    { h with
      timestamp := t.toNat
      timestampDelta := 0
      payloadLength := n.toNat
      messageType := messageType
      streamId := streamId }
  | .type1 d n messageType =>
    { h with
      timestamp := h.timestamp + d.toNat
      timestampDelta := d.setWidth 32
      payloadLength := n.toNat
      messageType := messageType }
  | .type2 d => { h with timestamp := h.timestamp + d.toNat, timestampDelta := d.setWidth 32 }
  | .type3 => if first then { h with timestamp := h.timestamp + h.timestampDelta.toInt } else h

/-- The chunk stream behind the fields of a header without an extended timestamp. -/
def MessageFields.set (fields : MessageFields) (first : Bool) (chunk : RtmpChunkStream) :
    RtmpChunkStream :=
  { chunk with
    header := fields.header first chunk.header
    extendedTimestamp := false
    extendTime := if fields.fmt = 3 then chunk.extendTime else 0 }

/-- The three bytes for a timestamp that is not extended. -/
theorem setTimestamp_beThree (fmt : ℕ) {v : BitVec 24}
    (hlt : (v.toNat : ℤ) < rtmpExtendedTimestamp) (more : Bytes) (chunk : RtmpChunkStream) :
    setTimestamp fmt (beThree v ++ more) chunk
      = { chunk with
          header := { chunk.header with
            timestamp := if fmt = 0 then v.toNat else chunk.header.timestamp + v.toNat
            timestampDelta := if fmt = 0 then 0 else v.setWidth 32 }
          extendedTimestamp := false
          extendTime := 0 } := by
  have hdelta : fromMemory 32 [(beThree v ++ more).getD 2 0, (beThree v ++ more).getD 1 0,
      (beThree v ++ more).getD 0 0, 0] = v.setWidth 32 := fromMemory_beThree v
  rw [setTimestamp]
  dsimp only
  rw [hdelta, toInt_setWidth, if_neg (by omega)]
  split_ifs <;> rfl

theorem payloadLengthOf_beThree (t n : BitVec 24) (more : Bytes) :
    payloadLengthOf (beThree t ++ (beThree n ++ more)) = n.toNat := by
  change (fromMemory 32 [byteAt n 0, byteAt n 1, byteAt n 2, 0]).toInt = _
  rw [fromMemory_beThree, toInt_setWidth]

theorem setLength_beThree (fmt : ℕ) (t n : BitVec 24) (messageType : Byte) (more : Bytes)
    (chunk : RtmpChunkStream) :
    setLength fmt (beThree t ++ (beThree n ++ (messageType :: more))) chunk
      = { chunk with
          header := { chunk.header with
            payloadLength := n.toNat
            messageType := messageType
            streamId := if fmt = 0 then
                fromMemory 32 [more.getD 0 0, more.getD 1 0, more.getD 2 0, more.getD 3 0]
              else chunk.header.streamId } } := by
  rw [setLength, payloadLengthOf_beThree]
  split_ifs <;> rfl

/-- The bytes of the header are read. -/
theorem holds_readHeaderBytes_fields {E : ℤ → RtmpChunkStream × σ → Prop}
    {Q : Bytes → RtmpChunkStream × σ → Prop} (hsrc : src.Delivers rest) (fields : MessageFields)
    {chunk : RtmpChunkStream} {io : σ} {tail : Bytes} (hrest : rest io = fields.bytes ++ tail)
    (hQ : ∀ io', rest io' = tail → Q fields.bytes (chunk, io')) :
    Holds F E Q (readHeaderBytes src fields.fmt.toNat) (chunk, io) := by
  have hread : ∀ n : ℤ, fields.bytes.length = n →
      Holds F E Q (onSource (readIo src n)) (chunk, io) := fun n hn => by
    rw [onSource, holds_zoom]
    exact holds_readIo hsrc hrest hn hQ
  cases fields with
  | type0 t n messageType streamId => exact hread 11 rfl
  | type1 d n messageType => exact hread 7 rfl
  | type2 d => exact hread 3 rfl
  | type3 => exact hQ io hrest

/-- The formats 0 and 1 also have a length. -/
theorem holds_readFields_of_le_one {E : ℤ → RtmpChunkStream × σ → Prop}
    {Q : PUnit → RtmpChunkStream × σ → Prop} {first : Bool} (fmt : ℕ) (hfmt : fmt ≤ 1)
    {t n : BitVec 24} {messageType : Byte} {more : Bytes} {chunk : RtmpChunkStream} {io : σ}
    (hlt : (t.toNat : ℤ) < rtmpExtendedTimestamp)
    (hsame : first = false → chunk.header.payloadLength = n.toNat)
    (hQ : Q ⟨⟩ ({ chunk with
      header := { chunk.header with
        timestamp := if fmt = 0 then t.toNat else chunk.header.timestamp + t.toNat
        timestampDelta := if fmt = 0 then 0 else t.setWidth 32
        payloadLength := n.toNat
        messageType := messageType
        streamId := if fmt = 0 then
            fromMemory 32 [more.getD 0 0, more.getD 1 0, more.getD 2 0, more.getD 3 0]
          else chunk.header.streamId }
      extendedTimestamp := false
      extendTime := 0 }, io)) :
    Holds F E Q (readFields first fmt (beThree t ++ (beThree n ++ (messageType :: more))))
      (chunk, io) := by
  have hsize : ¬ ((!first) = true ∧ chunk.header.payloadLength ≠ n.toNat) := by
    rintro ⟨hfirst, hne⟩
    exact hne (hsame (by simpa using hfirst))
  simp only [readFields, getChunk, setChunk, holds_bind, holds_get, holds_pure]
  rw [if_pos (by omega)]
  simp only [holds_bind, holds_put, setTimestamp_payloadLength, payloadLengthOf_beThree]
  rw [if_pos hfmt, if_neg hsize, setTimestamp_beThree fmt hlt, setLength_beThree]
  exact hQ

/-- **The fields of a header** without an extended timestamp. -/
theorem holds_readFields_set {E : ℤ → RtmpChunkStream × σ → Prop}
    {Q : PUnit → RtmpChunkStream × σ → Prop} (first : Bool) (fields : MessageFields)
    {chunk : RtmpChunkStream} {io : σ}
    (hsame : first = false → ∀ n ∈ fields.lengthField, chunk.header.payloadLength = n.toNat)
    (hlt : ∀ t ∈ fields.timestampField, (t.toNat : ℤ) < rtmpExtendedTimestamp)
    (hext : fields = .type3 → chunk.extendedTimestamp = false)
    (hQ : Q ⟨⟩ (fields.set first chunk, io)) :
    Holds F E Q (readFields first fields.fmt.toNat fields.bytes) (chunk, io) := by
  cases fields with
  | type0 t n messageType streamId =>
    have hid : fromMemory 32 [byteAt streamId 0, byteAt streamId 1, byteAt streamId 2,
      byteAt streamId 3] = streamId := fromMemory_four streamId
    refine holds_readFields_of_le_one 0 (Nat.zero_le 1) (hlt t rfl)
      (fun h => hsame h n rfl) ?_
    simp only [List.getD_cons_zero, List.getD_cons_succ, hid]
    exact hQ
  | type1 d n messageType =>
    exact holds_readFields_of_le_one 1 (le_refl 1) (hlt d rfl)
      (fun h => hsame h n rfl) hQ
  | type2 d =>
    have htime := setTimestamp_beThree 2 (hlt d rfl) [] chunk
    rw [List.append_nil] at htime
    change Holds F E Q (readFields first 2 (beThree d)) (chunk, io)
    simp only [readFields, getChunk, setChunk, holds_bind, holds_get, holds_pure]
    rw [if_pos (by decide)]
    simp only [holds_bind, holds_put]
    rw [if_neg (by decide), htime]
    exact hQ
  | type3 =>
    have hnot := hext rfl
    change Holds F E Q (readFields first 3 []) (chunk, io)
    simp only [readFields, getChunk, setChunk, holds_bind, holds_get, holds_pure]
    rw [if_neg (by decide), hnot]
    obtain ⟨cid, header, ext, msg, msgCount, extendTime⟩ := chunk
    obtain rfl : ext = false := hnot
    cases first with
    | true => exact hQ
    | false => exact hQ

/-- The end of a header. -/
theorem holds_finishHeader_of_msg {E : ℤ → RtmpChunkStream × σ → Prop}
    {Q : PUnit → RtmpChunkStream × σ → Prop} {chunk : RtmpChunkStream} {io : σ} {msg : RtmpMessage}
    (hmsg : chunk.msg = some msg) (hlen : 0 ≤ chunk.header.payloadLength)
    (hQ : Q ⟨⟩ ({ chunk with
      header := { chunk.header with timestamp := chunk.header.timestamp % 2 ^ 32 }
      msg := some { msg with
        header := { chunk.header with timestamp := chunk.header.timestamp % 2 ^ 32 } }
      msgCount := chunk.msgCount + 1 }, io)) :
    Holds F E Q finishHeader (chunk, io) := by
  simp only [finishHeader, getChunk, setChunk, cassert, holds_bind, holds_get, holds_pure,
    holds_put]
  rw [if_pos (show chunk.header.payloadLength ≥ 0 from hlen), holds_pure, hmsg, holds_some]
  exact hQ

/-- The chunk stream behind a header without an extended timestamp. -/
def MessageFields.headed (fields : MessageFields) (chunk : RtmpChunkStream) : RtmpChunkStream :=
  let set := fields.set chunk.msg.isNone chunk
  let header := { set.header with timestamp := set.header.timestamp % 2 ^ 32 }
  { set with
    header := header
    msg := some { chunk.msg.getD {} with header := header }
    msgCount := chunk.msgCount + 1 }

/-- **A header without an extended timestamp**, wherever it is accepted. -/
theorem holds_readMessageHeader_headed {E : ℤ → RtmpChunkStream × σ → Prop}
    {Q : PUnit → RtmpChunkStream × σ → Prop} (hsrc : src.Delivers rest) (fix : Bool)
    (ext : BitVec 32) (fields : MessageFields) {chunk : RtmpChunkStream} {io : σ} {tail : Bytes}
    (hfresh : chunk.msgCount = 0 → fields.fmt = 0 ∨ fields.fmt = 1)
    (hbegun : chunk.msg.isSome → fields.fmt ≠ 0)
    (hsame : chunk.msg.isSome → ∀ n ∈ fields.lengthField, chunk.header.payloadLength = n.toNat)
    (hlt : ∀ t ∈ fields.timestampField, (t.toNat : ℤ) < rtmpExtendedTimestamp)
    (hext : fields = .type3 → chunk.extendedTimestamp = false)
    (hlen : fields.lengthField = none → 0 ≤ chunk.header.payloadLength)
    (hrest : rest io = fields.bytes ++ tail)
    (hQ : ∀ io', rest io' = tail → Q ⟨⟩ (fields.headed chunk, io')) :
    Holds F E Q (readMessageHeader src fix ext fields.fmt.toNat) (chunk, io) := by
  have hzero : ¬ (chunk.msgCount = 0 ∧ fields.fmt.toNat ≠ 0 ∧ fields.fmt.toNat ≠ 1) := by
    rintro ⟨hcount, h₀, h₁⟩
    rcases hfresh hcount with h | h
    · exact h₀ (by rw [h]; rfl)
    · exact h₁ (by rw [h]; rfl)
  have hsome : ¬ (chunk.msg.isSome = true ∧ fields.fmt.toNat = 0) := by
    rintro ⟨hmsg, h⟩
    exact hbegun hmsg (BitVec.eq_of_toNat_eq h)
  simp only [readMessageHeader, getChunk, setChunk, holds_bind, holds_get, holds_pure]
  rw [if_neg hzero, if_neg hsome]
  simp only [holds_bind, holds_get, holds_put]
  refine holds_readHeaderBytes_fields hsrc fields hrest fun io' hio' => ?_
  refine holds_readFields_set _ fields (fun h => hsame (by simpa using h)) hlt hext ?_
  simp only [readExtended, getChunk, holds_bind, holds_get, holds_pure]
  rw [if_neg (by simp [MessageFields.set]), holds_pure]
  refine holds_finishHeader_of_msg rfl ?_ (hQ io' hio')
  cases fields with
  | type0 t n messageType streamId => exact Int.natCast_nonneg n.toNat
  | type1 d n messageType => exact Int.natCast_nonneg n.toNat
  | type2 d => exact hlen rfl
  | type3 =>
    rw [MessageFields.set, MessageFields.header]
    split <;> exact hlen rfl

/-! ## The payload -/

/-- **The payload of a chunk** is read behind the bytes that the message has already. -/
theorem holds_readMessagePayload_of_pos {E : ℤ → RtmpChunkStream × σ → Prop}
    {Q : Option RtmpMessage → RtmpChunkStream × σ → Prop} (hsrc : src.Delivers rest) {c : ℤ}
    {chunk : RtmpChunkStream} {io : σ} {m : RtmpMessage} {p bs tail : Bytes} {k : ℕ}
    (hm : chunk.msg = some m) (hpos : 0 < chunk.header.payloadLength)
    (hp : (ensurePayload chunk m).payload = some p) (hsize : m.size = k)
    (hbs : (bs.length : ℤ) = min (chunk.header.payloadLength - k) c)
    (hfit : k + bs.length ≤ p.length) (hrest : rest io = bs ++ tail)
    (hlast : chunk.header.payloadLength = k + bs.length → ∀ io', rest io' = tail →
      Q (some { m with payload := some (splice p k bs), size := k + bs.length })
        ({ chunk with msg := none }, io'))
    (hmore : chunk.header.payloadLength ≠ k + bs.length → ∀ io', rest io' = tail →
      Q none ({ chunk with
        msg := some { m with payload := some (splice p k bs), size := k + bs.length } }, io')) :
    Holds F E Q (readMessagePayload src c) (chunk, io) := by
  have hle : (bs.length : ℤ) ≤ (rest io).length := by rw [hrest, List.length_append]; omega
  have hread := hsrc.readBytes_eq io bs.length (by omega) hle
  have hdrop := hsrc.rest_eq io bs.length (by omega) hle
  rw [Int.toNat_natCast, hrest, List.take_left] at hread
  rw [Int.toNat_natCast, hrest, List.drop_left] at hdrop
  have hsize' : (ensurePayload chunk m).size = k := hsize
  have hstore : store p (k : ℤ) bs = some (splice p k bs) := by
    rw [store_eq_some (by omega) (by omega), Int.toNat_natCast]
  simp only [readMessagePayload, getChunk, setChunk, holds_bind, holds_get, holds_pure]
  rw [if_neg (by omega)]
  simp only [hm, holds_some, holds_bind, holds_get, holds_put, readPayloadBytes, hp]
  rw [show min (chunk.header.payloadLength - m.size) c = bs.length by rw [hsize, hbs], hsize',
    if_pos (by omega)]
  simp only [holds_bind, holds_get, hread, hstore, holds_some, holds_put]
  rw [if_neg (fun hne => hne rfl)]
  simp only [holds_pure, finishPayload, getChunk, setChunk, holds_bind, holds_get, holds_some]
  by_cases hdone : chunk.header.payloadLength = k + bs.length
  · rw [if_pos hdone]
    exact hlast hdone _ hdrop
  · rw [if_neg hdone]
    exact hmore hdone _ hdrop

end Receive

end SmartStreaming
