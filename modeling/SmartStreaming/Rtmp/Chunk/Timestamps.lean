import SmartStreaming.Rtmp.Chunk.Wire

/-!
# Rtmp/Chunk/Timestamps — the timestamps of a chunk stream add up

The three bytes that a header has for a timestamp are an absolute time in format 0 and an increment
in the formats 1 and 2; format 3 has none, and repeats the increment where it begins a message.
`StreamClock` says so in numbers without a bound, `recv_interlaced_message` keeps a timestamp and a
delta of 32 bits in the header of the chunk stream: what it hands out is the clock's timestamp
modulo `2^32` (`timestamps_follow_clock`), however the chunk streams are interleaved.

* `WireStream.Allows` — which chunks may come next on a chunk stream.
* `WireStream.Tracks` — the chunk stream of the handler is the one that the clock runs for.
-/

namespace SmartStreaming

open Machinery Comp RtmpProtocolHandler

/-! ## The clock of a chunk stream -/

/-- The timestamp of the last message that has begun, and the delta in force. -/
structure StreamClock where
  timestamp : ℕ := 0
  delta : ℕ := 0
  deriving DecidableEq

/-- **A message begins.** -/
def StreamClock.begin (clock : StreamClock) : MessageFields → StreamClock
  | .type0 t .. => { timestamp := t.toNat, delta := 0 }
  | .type1 d .. => { timestamp := clock.timestamp + d.toNat, delta := d.toNat }
  | .type2 d => { timestamp := clock.timestamp + d.toNat, delta := d.toNat }
  | .type3 => { timestamp := clock.timestamp + clock.delta, delta := clock.delta }

/-- A chunk stream as its chunks go by: `received` counts the bytes of the message that has begun
and is not complete. -/
structure WireStream where
  used : Bool := false
  clock : StreamClock := {}
  payloadLength : ℕ := 0
  received : ℕ := 0
  deriving DecidableEq

namespace WireStream

/-- The length in force behind a header. -/
def lengthAfter (st : WireStream) (fields : MessageFields) : ℕ :=
  (fields.lengthField.map BitVec.toNat).getD st.payloadLength

/-- The clock behind a header: it runs on where a message begins. -/
def clockAfter (st : WireStream) (fields : MessageFields) : StreamClock :=
  if st.received = 0 then st.clock.begin fields else st.clock

/-- **The chunk may come next**: the first one ever is of format 0, those within a message are of
format 3, no timestamp needs to be extended, and the payload is what is left of the message, or as
much as a chunk may have. -/
@[mk_iff]
structure Allows (st : WireStream) (chunk : WireChunk) : Prop where
  first : st.used = false → chunk.fields.fmt = 0
  continuation : st.received ≠ 0 → chunk.fields = .type3
  timestamp_lt : ∀ t ∈ chunk.fields.timestampField, (t.toNat : ℤ) < rtmpExtendedTimestamp
  payload : (chunk.payload.length : ℤ)
    = min (st.lengthAfter chunk.fields - st.received : ℤ) chunk.call.inChunkSize

instance (st : WireStream) (chunk : WireChunk) : Decidable (st.Allows chunk) :=
  have : Decidable (∀ t ∈ chunk.fields.timestampField, (t.toNat : ℤ) < rtmpExtendedTimestamp) :=
    Option.decidableForallMem _
  decidable_of_iff' _ (allows_iff st chunk)

/-- The chunk is the last one of its message. -/
abbrev Completes (st : WireStream) (chunk : WireChunk) : Prop :=
  st.received + chunk.payload.length = st.lengthAfter chunk.fields

/-- The chunk stream behind the chunk. -/
def next (st : WireStream) (chunk : WireChunk) : WireStream where
  used := true
  clock := st.clockAfter chunk.fields
  payloadLength := st.lengthAfter chunk.fields
  received := if st.Completes chunk then 0 else st.received + chunk.payload.length

/-- The timestamp of the message that the chunk completes. -/
def completed (st : WireStream) (chunk : WireChunk) : Option ℕ :=
  if st.Completes chunk then some (st.clockAfter chunk.fields).timestamp else none

end WireStream

/-- The chunk streams behind the chunk. -/
def nextStreams (streams : ℤ → WireStream) (chunk : WireChunk) : ℤ → WireStream := fun cid =>
  if cid = chunk.basic.cid then (streams cid).next chunk else streams cid

/-- **Interleaved chunk streams**: each chunk may come next on its own. -/
def Interleaved (streams : ℤ → WireStream) : List WireChunk → Prop
  | [] => True
  | chunk :: l => (streams chunk.basic.cid).Allows chunk ∧ Interleaved (nextStreams streams chunk) l

instance Interleaved.decidable :
    ∀ (streams : ℤ → WireStream) (l : List WireChunk), Decidable (Interleaved streams l)
  | _, [] => isTrue trivial
  | streams, chunk :: l =>
    have : Decidable (Interleaved (nextStreams streams chunk) l) := Interleaved.decidable _ l
    inferInstanceAs (Decidable (_ ∧ _))

/-- The timestamps of the messages, each where its last chunk stands. -/
def timestamps (streams : ℤ → WireStream) : List WireChunk → List (Option ℕ)
  | [] => []
  | chunk :: l =>
    (streams chunk.basic.cid).completed chunk :: timestamps (nextStreams streams chunk) l

/-! ## The state of a chunk stream -/

/-- The header of the chunk stream keeps the clock modulo `2^32`, and the length in force. -/
structure Clocked (clock : StreamClock) (payloadLength : ℕ) (chunk : RtmpChunkStream) : Prop where
  timestamp : chunk.header.timestamp = (clock.timestamp % 2 ^ 32 : ℕ)
  delta : chunk.header.timestampDelta.toInt = clock.delta
  length_eq : chunk.header.payloadLength = payloadLength
  notExtended : chunk.extendedTimestamp = false

/-- **The chunk stream of the handler follows `st`**: it keeps the clock, and the message that has
begun, if one has. -/
structure WireStream.Tracks (st : WireStream) (chunk : RtmpChunkStream) : Prop where
  clocked : Clocked st.clock st.payloadLength chunk
  msgCount_pos : st.used = true → 0 < chunk.msgCount
  idle : st.received = 0 → chunk.msg = none
  begun : st.received ≠ 0 →
    ∃ m, chunk.msg = some m ∧ m.size = st.received ∧ m.Partial st.payloadLength

/-- The chunk stream behind the header of a chunk, before its payload. -/
structure WireStream.Opened (st : WireStream) (fields : MessageFields) (chunk : RtmpChunkStream) :
    Prop where
  clocked : Clocked (st.clockAfter fields) (st.lengthAfter fields) chunk
  msgCount_pos : 0 < chunk.msgCount
  msg : ∃ m, chunk.msg = some m ∧ m.header = chunk.header ∧ m.size = st.received
    ∧ m.Partial (st.lengthAfter fields)

/-- The clock is kept in the header of the chunk stream. -/
theorem Clocked.withMsg {clock : StreamClock} {payloadLength : ℕ} {chunk : RtmpChunkStream}
    (h : Clocked clock payloadLength chunk) (msg : Option RtmpMessage) :
    Clocked clock payloadLength { chunk with msg := msg } :=
  ⟨h.timestamp, h.delta, h.length_eq, h.notExtended⟩

theorem WireStream.tracks_new (cid : ℤ) : WireStream.Tracks {} (RtmpChunkStream.new cid) :=
  ⟨⟨rfl, rfl, rfl, rfl⟩, (fun h => by cases h), fun _ => rfl, fun h => absurd rfl h⟩

/-- **A header runs the clock on** where it begins a message, and nowhere else. -/
theorem Clocked.headed {st : WireStream} {fields : MessageFields} {chunk : RtmpChunkStream}
    (h : Clocked st.clock st.payloadLength chunk)
    (hfirst : chunk.msg.isNone = decide (st.received = 0))
    (hcont : st.received ≠ 0 → fields = .type3) :
    Clocked (st.clockAfter fields) (st.lengthAfter fields) (fields.headed chunk) := by
  obtain ⟨htime, hdelta, hlen, hext⟩ := h
  by_cases hzero : st.received = 0
  · rw [WireStream.clockAfter, if_pos hzero]
    cases fields with
    | type0 t n messageType streamId =>
      refine ⟨?_, rfl, rfl, rfl⟩
      change (t.toNat : ℤ) % 2 ^ 32 = (t.toNat % 2 ^ 32 : ℕ)
      omega
    | type1 d n messageType =>
      refine ⟨?_, toInt_setWidth d, rfl, rfl⟩
      change (chunk.header.timestamp + d.toNat) % 2 ^ 32
        = ((st.clock.timestamp + d.toNat) % 2 ^ 32 : ℕ)
      omega
    | type2 d =>
      refine ⟨?_, toInt_setWidth d, hlen, rfl⟩
      change (chunk.header.timestamp + d.toNat) % 2 ^ 32
        = ((st.clock.timestamp + d.toNat) % 2 ^ 32 : ℕ)
      omega
    | type3 =>
      have hnone : chunk.msg.isNone = true := by rw [hfirst, hzero]; rfl
      simp only [MessageFields.headed, MessageFields.set, MessageFields.header, hnone, if_true]
      refine ⟨?_, hdelta, hlen, rfl⟩
      change (chunk.header.timestamp + chunk.header.timestampDelta.toInt) % 2 ^ 32
        = ((st.clock.timestamp + st.clock.delta) % 2 ^ 32 : ℕ)
      omega
  · obtain rfl := hcont hzero
    have hsome : chunk.msg.isNone = false := by rw [hfirst, decide_eq_false hzero]
    rw [WireStream.clockAfter, if_neg hzero]
    simp only [MessageFields.headed, MessageFields.set, MessageFields.header, hsome]
    refine ⟨?_, hdelta, hlen, rfl⟩
    change chunk.header.timestamp % 2 ^ 32 = (st.clock.timestamp % 2 ^ 32 : ℕ)
    omega

/-! ## One chunk -/

/-- What is handed out, if anything, has the timestamp of the clock modulo `2^32`. -/
def StampedMessage (msg : Option RtmpMessage) (time : Option ℕ) : Prop :=
  msg.map (fun m => m.header.timestamp) = time.map fun t => ((t % 2 ^ 32 : ℕ) : ℤ)

section Receive

variable {σ : Type} {src : ByteSource σ} {rest : σ → Bytes} {F : Fault → Prop}
variable {st : WireStream} {wire : WireChunk} {chunk : RtmpChunkStream}

theorem WireStream.Tracks.isNone_eq (h : st.Tracks chunk) :
    chunk.msg.isNone = decide (st.received = 0) := by
  by_cases hzero : st.received = 0
  · rw [h.idle hzero, decide_eq_true hzero]
    rfl
  · obtain ⟨m, hm, -⟩ := h.begun hzero
    rw [hm, decide_eq_false hzero]
    rfl

/-- **The header of a chunk that may come next.** -/
theorem holds_readMessageHeader_opened {E : ℤ → RtmpChunkStream × σ → Prop}
    {Q : PUnit → RtmpChunkStream × σ → Prop} (hsrc : src.Delivers rest) (fix : Bool)
    (ext : BitVec 32) (h : st.Tracks chunk) (hwire : st.Allows wire) {io : σ} {tail : Bytes}
    (hrest : rest io = wire.fields.bytes ++ tail)
    (hQ : ∀ chunk' io', st.Opened wire.fields chunk' → rest io' = tail → Q ⟨⟩ (chunk', io')) :
    Holds F E Q (readMessageHeader src fix ext wire.fields.fmt.toNat) (chunk, io) := by
  have hnone := h.isNone_eq
  have hbegun : chunk.msg.isSome → wire.fields = .type3 := fun hsome =>
    hwire.continuation fun hzero => by
      rw [h.idle hzero] at hsome
      cases hsome
  refine holds_readMessageHeader_headed hsrc fix ext wire.fields (fun hcount => ?_)
    (fun hsome => ?_) (fun hsome n hn => ?_) hwire.timestamp_lt (fun _ => h.clocked.notExtended) ?_
    hrest fun io' hio' =>
      hQ _ io' ⟨h.clocked.headed hnone hwire.continuation, Nat.succ_pos _, ?_⟩ hio'
  · cases hused : st.used with
    | false => exact Or.inl (hwire.first hused)
    | true =>
      have hpos := h.msgCount_pos hused
      omega
  · rw [hbegun hsome]
    decide
  · rw [hbegun hsome] at hn
    cases hn
  · rw [h.clocked.length_eq]
    exact fun _ => Int.natCast_nonneg _
  · refine ⟨_, rfl, rfl, ?_, ?_⟩
    · by_cases hzero : st.received = 0
      · rw [h.idle hzero, hzero]
        rfl
      · obtain ⟨m, hm, hsize, -⟩ := h.begun hzero
        rw [hm]
        exact hsize
    · by_cases hzero : st.received = 0
      · rw [h.idle hzero]
        exact RtmpMessage.partial_of_none rfl rfl _
      · obtain ⟨m, hm, -, hpart⟩ := h.begun hzero
        rw [hm, hwire.continuation hzero]
        exact hpart

/-- A message that is complete has the timestamp of the clock. -/
theorem WireStream.Opened.stamped (h : st.Opened wire.fields chunk) (hcompletes : st.Completes wire)
    {m : RtmpMessage} (hhdr : m.header = chunk.header) :
    StampedMessage (some m) (st.completed wire) := by
  rw [StampedMessage, WireStream.completed, if_pos hcompletes, Option.map_some, Option.map_some,
    hhdr, h.clocked.timestamp]

/-- Behind the last chunk of a message the chunk stream is idle. -/
theorem WireStream.Opened.tracks_none (h : st.Opened wire.fields chunk)
    (hcompletes : st.Completes wire) : (st.next wire).Tracks { chunk with msg := none } :=
  ⟨h.clocked.withMsg none, fun _ => h.msgCount_pos, fun _ => rfl,
    fun hne => absurd (if_pos hcompletes) hne⟩

/-- Behind the others it holds what has come of the message. -/
theorem WireStream.Opened.tracks_some (h : st.Opened wire.fields chunk)
    (hnot : ¬ st.Completes wire) (hpos : 0 < st.received + wire.payload.length) {m : RtmpMessage}
    (hsize : m.size = st.received + wire.payload.length)
    (hpart : m.Partial (st.lengthAfter wire.fields)) :
    (st.next wire).Tracks { chunk with msg := some m } := by
  have hreceived : (st.next wire).received = st.received + wire.payload.length := if_neg hnot
  refine ⟨h.clocked.withMsg _, fun _ => h.msgCount_pos, fun hzero => by omega, fun _ => ?_⟩
  exact ⟨m, rfl, by rw [hreceived, hsize, Nat.cast_add], hpart⟩

/-- **The payload of a chunk that may come next.** -/
theorem holds_readMessagePayload_next {E : ℤ → RtmpChunkStream × σ → Prop}
    {Q : Option RtmpMessage → RtmpChunkStream × σ → Prop} (hsrc : src.Delivers rest)
    (h : st.Opened wire.fields chunk) (hwire : st.Allows wire) {io : σ} {tail : Bytes}
    (hrest : rest io = wire.payload ++ tail)
    (hQ : ∀ msg chunk' io', StampedMessage msg (st.completed wire) →
      (st.next wire).Tracks chunk' → rest io' = tail → Q msg (chunk', io')) :
    Holds F E Q (readMessagePayload src wire.call.inChunkSize) (chunk, io) := by
  obtain ⟨m, hm, hhdr, hsize, hpart⟩ := h.msg
  have hlen := h.clocked.length_eq
  have hpayload := hwire.payload
  have hc := wire.call.one_le
  rcases Nat.eq_zero_or_pos (st.lengthAfter wire.fields) with hzero | hpos
  · -- an empty message
    have hnone : st.received = 0 := by
      rcases hpart with ⟨-, h₀⟩ | ⟨p, -, -, h₀, h₁⟩ <;> omega
    have hnil : wire.payload = [] := List.length_eq_zero_iff.1 (by omega)
    have hcompletes : st.Completes wire := by
      rw [WireStream.Completes, hnone, hnil, hzero]
      rfl
    rw [hnil, List.nil_append] at hrest
    simp only [readMessagePayload, getChunk, setChunk, holds_bind, holds_get, holds_pure]
    rw [if_pos (by omega)]
    simp only [holds_bind, holds_get, holds_put, holds_pure, hm]
    exact hQ _ _ io (h.stamped hcompletes hhdr) (h.tracks_none hcompletes) hrest
  · rw [← hlen] at hpart
    obtain ⟨p, hp, hplen, h₀, h₁⟩ := partial_ensurePayload hpart (by omega)
    refine holds_readMessagePayload_of_pos hsrc hm (by omega) hp hsize (by omega) (by omega) hrest
      (fun hdone io' hio' => ?_) fun hdone io' hio' => ?_
    · have hcompletes : st.Completes wire := by rw [WireStream.Completes]; omega
      exact hQ _ _ io' (h.stamped hcompletes hhdr) (h.tracks_none hcompletes) hio'
    · have hnot : ¬ st.Completes wire := by rw [WireStream.Completes]; omega
      have hmore : (st.received + wire.payload.length : ℤ) < st.lengthAfter wire.fields := by omega
      refine hQ _ _ io' ?_ (h.tracks_some hnot (by omega) rfl (Or.inr ⟨_, rfl, ?_, ?_, hmore⟩)) hio'
      · rw [StampedMessage, WireStream.completed, if_neg hnot]
        rfl
      · rw [length_splice (by omega), hplen, hlen]
      · exact add_nonneg (Int.natCast_nonneg _) (Int.natCast_nonneg _)

end Receive

/-! ## Whole runs -/

/-- What a call returns: it has received the chunk, and hands out the message of the timestamp
`time`, if there is one. -/
def Stamped (out : Except ℤ (Option RtmpMessage)) (time : Option ℕ) : Prop :=
  ∃ msg, out = .ok msg ∧ StampedMessage msg time

/-- **The state of a run with the chunks `l` still to come**: every chunk stream of the handler
follows the one that the clock runs for. -/
structure Following {σ : Type} (rest : σ → Bytes) (tail : Bytes) (streams : ℤ → WireStream)
    (l : List WireChunk) (h : RtmpProtocolHandler σ) : Prop where
  cache_length : h.csCache.length = tmssPerfChunkStreamCache
  rest_eq : rest h.ioBuffer = (l.map WireChunk.bytes).flatten ++ tail
  tracks : ∀ cid, 0 ≤ cid →
    ∃ chunk, h.chunkStream cid = some chunk ∧ (streams cid).Tracks chunk
  interleaved : Interleaved streams l

section Run

variable {σ : Type} {src : ByteSource σ} {rest : σ → Bytes} {tail : Bytes}

theorem BasicHeader.cid_nonneg (basic : BasicHeader) : 0 ≤ basic.cid := by
  cases basic <;> rw [BasicHeader.cid] <;> omega

/-- **One call receives the first chunk to come**, and hands out the message that it completes. -/
theorem Following.step (hsrc : src.Delivers rest) {streams : ℤ → WireStream} {wire : WireChunk}
    {l : List WireChunk} {h : RtmpProtocolHandler σ}
    (hf : Following rest tail streams (wire :: l) h) :
    Holds (fun _ => False) (fun _ _ => False)
      (fun out h' => Stamped out ((streams wire.basic.cid).completed wire)
        ∧ Following rest tail (nextStreams streams wire) l h')
      (wire.call.run src) h := by
  have hcid := wire.basic.cid_nonneg
  obtain ⟨hallows, hl⟩ := hf.interleaved
  obtain ⟨chunk, hget, htracks⟩ := hf.tracks _ hcid
  have hrest : rest h.ioBuffer = wire.basic.bytes wire.fields.fmt
      ++ (wire.fields.bytes ++ (wire.payload ++ ((l.map WireChunk.bytes).flatten ++ tail))) := by
    rw [hf.rest_eq, List.map_cons, List.flatten_cons, WireChunk.bytes]
    simp only [List.append_assoc]
  simp only [RecvCall.run, recvInterlacedMessage, holds_bind, holds_get, holds_put, holds_attempt,
    holds_zoom]
  refine holds_readBasicHeader_bytes hsrc wire.basic wire.fields.fmt hrest fun io hio => ?_
  simp only [cassert, if_pos (show wire.basic.cid ≥ 0 from hcid), holds_pure,
    show chunkStream { h with ioBuffer := io, inChunkSize := wire.call.inChunkSize } wire.basic.cid
      = some chunk from hget, holds_some, onChunk, holds_zoom, holds_bind]
  refine holds_readMessageHeader_opened hsrc _ _ htracks hallows hio
    fun chunk' io' hopened hio' => ?_
  refine holds_readMessagePayload_next hsrc hopened hallows hio'
    fun msg chunk'' io'' hstamped htracks' hio'' => ⟨⟨msg, rfl, hstamped⟩, ?_, hio'', ?_, hl⟩
  · exact (length_csCache_setChunkStream _ _ _).trans hf.cache_length
  · intro cid h₀
    have hset := chunkStream_setChunkStream
      (h := { h with ioBuffer := io, inChunkSize := wire.call.inChunkSize }) hf.cache_length hcid h₀
      chunk''
    by_cases heq : cid = wire.basic.cid
    · rw [if_pos heq] at hset
      exact ⟨chunk'', hset, by rw [nextStreams, if_pos heq, heq]; exact htracks'⟩
    · rw [if_neg heq] at hset
      obtain ⟨other, hother, hfollows⟩ := hf.tracks cid h₀
      exact ⟨other, hset.trans hother, by rw [nextStreams, if_neg heq]; exact hfollows⟩

/-- As many calls as chunks to come receive them all. -/
theorem Following.run (hsrc : src.Delivers rest) {l : List WireChunk} {streams : ℤ → WireStream}
    {h : RtmpProtocolHandler σ} (hf : Following rest tail streams l h) :
    Holds (fun _ => False) (fun _ _ => False)
      (fun outs h' => List.Forall₂ Stamped outs (timestamps streams l) ∧ rest h'.ioBuffer = tail)
      ((l.map WireChunk.call).mapM (RecvCall.run src)) h := by
  induction l generalizing streams h with
  | nil => exact ⟨List.Forall₂.nil, hf.rest_eq⟩
  | cons wire l ih =>
    rw [List.map_cons, List.mapM_cons, holds_bind]
    refine (hf.step hsrc).imp (fun _ _ => id) ?_
    rintro out h' ⟨hout, hf'⟩
    rw [holds_bind]
    refine (ih hf').imp (fun _ _ => id) ?_
    rintro outs h'' ⟨houts, hrest⟩
    exact ⟨List.Forall₂.cons hout houts, hrest⟩

theorem following_new {l : List WireChunk} (hl : Interleaved (fun _ => {}) l) {io : σ}
    (hio : rest io = (l.map WireChunk.bytes).flatten ++ tail) (fix : Bool) (inChunkSize : ℤ) :
    Following rest tail (fun _ => {}) l (RtmpProtocolHandler.new io fix inChunkSize) :=
  ⟨by simp [RtmpProtocolHandler.new], hio, fun cid h₀ =>
    ⟨_, chunkStream_new io fix inChunkSize h₀, WireStream.tracks_new cid⟩, hl⟩

end Run

/-- **The timestamps of received messages are the clock's**: over a source that delivers the chunks
of `l`, interleaved in any way that `Interleaved` allows, each call of `recv_interlaced_message`
returns; it hands out a message exactly where a chunk completes one, and the message has the
timestamp of the clock of its chunk stream modulo `2^32`, with and without `fix_rtmp_timestamp`. -/
theorem timestamps_follow_clock {σ : Type} (src : ByteSource σ) (rest : σ → Bytes)
    (hsrc : src.Delivers rest) (fixTimestamp : Bool) (inChunkSize : ℤ) (l : List WireChunk)
    (hl : Interleaved (fun _ => {}) l) (io : σ) (tail : Bytes)
    (hio : rest io = (l.map WireChunk.bytes).flatten ++ tail) :
    ∃ outs h, (l.map WireChunk.call).mapM (RecvCall.run src)
        (RtmpProtocolHandler.new io fixTimestamp inChunkSize) = .ok (.ok outs, h)
      ∧ List.Forall₂ Stamped outs (timestamps (fun _ => {}) l) ∧ rest h.ioBuffer = tail :=
  ((following_new hl hio fixTimestamp inChunkSize).run hsrc).returns

/-- The call that receives chunks of one byte at most. -/
def oneByteCall : RecvCall := ⟨1, le_refl 1, 0⟩

/-- Audio on the chunk stream 3 and empty messages on the chunk stream 69: a message of two chunks
at 10 ms, then one of each other format. -/
def sampleWire : List WireChunk :=
  [⟨.oneByte 3 (by decide), .type0 10 2 8 1, [1], oneByteCall⟩,
    ⟨.twoBytes 5, .type0 7 0 9 1, [], oneByteCall⟩,
    ⟨.oneByte 3 (by decide), .type3, [2], oneByteCall⟩,
    ⟨.oneByte 3 (by decide), .type1 5 1 8, [3], oneByteCall⟩,
    ⟨.threeBytes 5 0, .type2 4, [], oneByteCall⟩,
    ⟨.oneByte 3 (by decide), .type3, [4], oneByteCall⟩]

example : timestamps (fun _ => {}) sampleWire
    = [none, some 7, some 10, some 15, some 11, some 20] := by decide

theorem timestamps_follow_clock_sample :
    ∃ outs h, (sampleWire.map WireChunk.call).mapM (RecvCall.run ByteSource.ofBytes)
        (RtmpProtocolHandler.new (sampleWire.map WireChunk.bytes).flatten false 128)
        = .ok (.ok outs, h)
      ∧ List.Forall₂ Stamped outs (timestamps (fun _ => {}) sampleWire) ∧ id h.ioBuffer = [] :=
  timestamps_follow_clock ByteSource.ofBytes id ByteSource.ofBytes_delivers false 128 sampleWire
    (by decide) _ [] (List.append_nil _).symm

end SmartStreaming
