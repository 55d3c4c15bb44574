import SmartStreaming.Base.Io.IOBuffer
import SmartStreaming.Rtmp.Chunk.Recv

/-!
# Rtmp/Chunk/Fragments — receiving a chunk through an `IOBuffer`

The readers of `recv_interlaced_message` compare what `read_bytes` returns with `error_success`, and
`IOBuffer::read_bytes` returns the number of bytes it delivered.  So the first byte that arrives is
an error (`recv_fails_at_first_byte`), whatever the chunk and however it is cut into reads.
-/

namespace SmartStreaming

open Machinery Comp

variable {σ : Type}

/-- A connection that never fails: it hands out what is `left` of a stream, at least a byte and at
most `n` of them when it is asked for `n`. -/
structure Connection (σ : Type) extends IReader σ where
  left : σ → Bytes
  lawful : toIReader.Lawful
  pos : ∀ s n, 1 ≤ n → left s ≠ [] → 1 ≤ (read s n).1.1
  left_eq : ∀ s n, 0 ≤ n → left s = (read s n).1.2 ++ left (read s n).2

namespace IOBuffer

/-- What has arrived and is not delivered, and what has not arrived. -/
def unread (conn : Connection σ) (io : IOBuffer σ) : Bytes :=
  io.buffer.content ++ conn.left io.reader

/-- The buffer as the `io_buffer` of a handler.  `read_bytes` has a result wherever the buffer is
valid (`holds_readBytes_one`), and `seek_read` always. -/
def source (reader : IReader σ) : ByteSource (IOBuffer σ) where
  readBytes io n :=
    match IOBuffer.readBytes reader n io with
    | .ok (.ok out, io') => (out, io')
    | .ok (.error code, io') => ((code, []), io')
    | .error _ => ((errorBufferRead, []), io)
  seekRead io n :=
    match onBuffer (Buffer.seekRead n) io with
    | .ok (_, io') => io'
    | .error _ => io

/-! ## One byte -/

section OneByte

variable {conn : Connection σ} {io : IOBuffer σ}

theorem holds_callReader_bind {α : Type} {F : Fault → Prop} {E : ℤ → IOBuffer σ → Prop}
    {Q : α → IOBuffer σ → Prop} (reader : IReader σ) (n : ℤ)
    (f : ℤ × Bytes → Comp Fault (IOBuffer σ) ℤ α) (io : IOBuffer σ) :
    Holds F E Q (callReader reader n >>= f) io
      ↔ Holds F E Q (f (reader.read io.reader n).1)
          { io with reader := (reader.read io.reader n).2 } := by
  rw [callReader, holds_bind, holds_bind, holds_get]
  exact Iff.rfl

/-- Nothing is read when nothing is asked for. -/
theorem read_zero (conn : Connection σ) (s : σ) :
    (conn.read s 0).1.1 = 0 ∧ (conn.read s 0).1.2 = [] := by
  have hlen := conn.lawful.length_eq s 0 (le_refl 0)
  have hle := conn.lawful.le s 0 (le_refl 0)
  have hnil : (conn.read s 0).1.2.length = 0 := by omega
  exact ⟨by omega, List.length_eq_zero_iff.1 hnil⟩

/-- A cache with room for a byte has room where it stores next, when it is empty. -/
theorem continuousWriteLeft_pos {b : Buffer} (hb : b.Valid) (hsize : 2 ≤ b.size)
    (hempty : b.readLeft = 0) : 1 ≤ b.continuousWriteLeft := by
  have hroom := Buffer.readLeft_add_writeLeft hb
  have hlt := hb.wpos_lt
  unfold Buffer.continuousWriteLeft
  split <;> omega

/-- **One byte of a stream that has not ended is read**, from the cache or from the connection. -/
theorem holds_readBytes_one (hb : io.buffer.Valid) (hcache : 2 ≤ io.buffer.size ∨ io.noCache = true)
    (hunread : io.unread conn ≠ []) :
    Holds (fun _ => False) (fun _ _ => False) (fun out _ => out.1 = 1)
      (IOBuffer.readBytes conn.toIReader 1) io := by
  have hread := Buffer.readLeft_nonneg hb
  have hlen := Buffer.length_content hb
  rw [IOBuffer.readBytes, holds_bind, holds_onBuffer]
  refine holds_of_run (readFromCache_eq hb Int.one_nonneg) ?_
  dsimp only
  rw [holds_bind, holds_get, holds_ite]
  rcases hread.eq_or_lt with hempty | hfull
  · -- the cache is empty, so there is something left on the connection
    have hnil : io.buffer.content = [] := Buffer.content_eq_nil_of_readLeft hempty.symm
    have hleft : conn.left io.reader ≠ [] := by rwa [unread, hnil, List.nil_append] at hunread
    rw [← hempty, min_eq_right Int.one_nonneg, Buffer.skip_zero hb, sub_zero]
    refine ⟨fun _ => ?_, fun hno => ?_⟩
    · have hpos := conn.pos io.reader 1 (le_refl 1) hleft
      have hle := conn.lawful.le io.reader 1 Int.one_nonneg
      rw [holds_callReader_bind]
      change 0 + (conn.read io.reader 1).1.1 = 1
      omega
    · have hroom := continuousWriteLeft_pos hb (hcache.resolve_right hno) hempty.symm
      have hpos := conn.pos io.reader _ hroom hleft
      have hbs := conn.lawful.length_eq io.reader io.buffer.continuousWriteLeft (by omega)
      have hle := conn.lawful.le io.reader io.buffer.continuousWriteLeft (by omega)
      rw [holds_ite]
      refine ⟨fun h => absurd h one_ne_zero, fun _ => ?_⟩
      rw [holds_callReader_bind]
      dsimp only
      have hroom' : ((conn.read io.reader io.buffer.continuousWriteLeft).1.2.length : ℤ)
          ≤ io.buffer.continuousWriteLeft := by omega
      obtain ⟨b₁, b₂, r, hstore, hseek, happ⟩ := fill_eq hb hroom'
      rw [holds_bind, holds_onBuffer]
      refine holds_of_run hstore ?_
      rw [holds_ite]
      refine ⟨fun hneg => by omega, fun _ => ?_⟩
      rw [holds_bind, holds_onBuffer, ← hbs]
      refine holds_of_run hseek ?_
      rw [holds_bind, holds_onBuffer]
      refine holds_of_run (readFromCache_eq happ.valid Int.one_nonneg) ?_
      have hcount := happ.readLeft_eq hb
      change 0 + min 1 b₂.readLeft = 1
      omega
  · rw [min_eq_left (by omega), sub_self]
    refine ⟨fun _ => ?_, fun _ => ?_⟩
    · rw [holds_callReader_bind]
      change 1 + (conn.read io.reader 0).1.1 = 1
      rw [(read_zero conn _).1]
      rfl
    · rw [holds_ite]
      exact ⟨fun _ => rfl, fun h => absurd rfl h⟩

end OneByte

/-! ## A cache without room -/

section NoRoom

variable {conn : Connection σ} {rest : Bytes}

/-- The cache has one slot, which a ring keeps free, and is not turned off; `rest` is unread. -/
structure Stuck (conn : Connection σ) (rest : Bytes) (io : IOBuffer σ) : Prop where
  valid : io.buffer.Valid
  size_eq : io.buffer.size = 1
  noCache : io.noCache = false
  unread_eq : io.unread conn = rest

/-- Storing nothing. -/
theorem storeAtWcurrent_nil {b : Buffer} (hb : b.Valid) :
    storeAtWcurrent [] b = .ok (.ok ⟨⟩, b) := by
  have hlt := hb.wpos_lt
  have hle := hb.size_le
  have hstore : store b.buf b.wpos [] = some (splice b.buf b.wpos.toNat []) :=
    store_eq_some hb.wpos_nonneg (by rw [List.length_nil]; omega)
  have hsame : splice b.buf b.wpos.toNat [] = b.buf := by simp [splice]
  rw [hsame] at hstore
  rw [storeAtWcurrent, run_get_bind, hstore, run_some_bind, run_put]

theorem readFromCache_of_empty {b : Buffer} (h : b.readLeft = 0) (len : ℤ) :
    readFromCache len b = .ok (.ok ([], 0), b) := by
  rw [readFromCache, run_get_bind, h, if_neg (lt_irrefl 0), run_pure]

theorem Stuck.readLeft_eq {io : IOBuffer σ} (h : Stuck conn rest io) : io.buffer.readLeft = 0 := by
  have hnonneg := Buffer.readLeft_nonneg h.valid
  have hlt := Buffer.readLeft_lt h.valid
  have hsize := h.size_eq
  omega

/-- A read of nothing. -/
theorem Stuck.callReader {io : IOBuffer σ} (h : Stuck conn rest io) :
    Stuck conn rest { io with reader := (conn.read io.reader 0).2 } := by
  refine ⟨h.valid, h.size_eq, h.noCache, ?_⟩
  have hleft := conn.left_eq io.reader 0 (le_refl 0)
  rw [(read_zero conn io.reader).2, List.nil_append] at hleft
  rw [← h.unread_eq, unread, unread, hleft]

/-- **Nothing gets through it.** -/
theorem Stuck.readBytes {io : IOBuffer σ} (h : Stuck conn rest io) (n : ℤ) :
    Holds (fun _ => False) (fun _ _ => False) (fun _ io' => Stuck conn rest io')
      (IOBuffer.readBytes conn.toIReader n) io := by
  obtain ⟨hc₀, -, hc₂⟩ := Buffer.continuousWriteLeft_bounds h.valid
  have hroom := Buffer.readLeft_add_writeLeft h.valid
  have hempty := h.readLeft_eq
  have hsize := h.size_eq
  have hno : io.buffer.continuousWriteLeft = 0 := by omega
  rw [IOBuffer.readBytes, holds_bind, holds_onBuffer]
  refine holds_of_run (readFromCache_of_empty hempty n) ?_
  dsimp only
  rw [holds_bind, holds_get, holds_ite]
  refine ⟨fun hcache => absurd (h.noCache.symm.trans hcache) Bool.false_ne_true, fun _ => ?_⟩
  rw [holds_ite]
  refine ⟨fun _ => h, fun _ => ?_⟩
  rw [holds_callReader_bind, hno]
  dsimp only
  rw [(read_zero conn io.reader).1, (read_zero conn io.reader).2, holds_bind, holds_onBuffer]
  refine holds_of_run (storeAtWcurrent_nil h.valid) ?_
  rw [holds_ite]
  refine ⟨fun hneg => absurd hneg (lt_irrefl 0), fun _ => ?_⟩
  rw [holds_bind, holds_onBuffer]
  refine holds_of_run (Buffer.seekWrite_of_le _ (le_refl 0)) ?_
  rw [holds_bind, holds_onBuffer]
  exact holds_of_run (readFromCache_of_empty hempty _) h.callReader

theorem Stuck.source_read {io : IOBuffer σ} (h : Stuck conn rest io) (n : ℤ) :
    Stuck conn rest ((source conn.toIReader).readBytes io n).2 := by
  obtain ⟨_, _, hrun, hread⟩ := (h.readBytes n).returns
  simp only [source, hrun]
  exact hread

theorem Stuck.source_seek {io : IOBuffer σ} (h : Stuck conn rest io) (n : ℤ) :
    Stuck conn rest ((source conn.toIReader).seekRead io n) := by
  have hempty := h.readLeft_eq
  have hrun : onBuffer (Buffer.seekRead n) io = .ok (.ok errorBufferRead, io) := by
    rw [onBuffer, zoom, Buffer.seekRead_refused io.buffer (fun hn => by omega)]
  simp only [source, hrun]
  exact h

end NoRoom

end IOBuffer

/-! ## The handler -/

namespace RtmpProtocolHandler

variable {src : ByteSource σ}

/-- A first read that reports a number other than `error_success` ends the call with it. -/
theorem recv_fails_of_first_read {h : RtmpProtocolHandler σ} {code : ℤ}
    (hread : (src.readBytes h.ioBuffer 1).1.1 = code) (hcode : code ≠ errorSuccess)
    (ext : BitVec 32) : ∃ h', recvInterlacedMessage src ext h = .ok (.error code, h') := by
  have hio : readIo src 1 h.ioBuffer = .ok (.error code, (src.readBytes h.ioBuffer 1).2) := by
    rw [readIo, run_get_bind]
    dsimp only
    rw [run_put_bind, run_ite, hread, if_pos hcode]
    rfl
  have hbasic :
      readBasicHeader src h.ioBuffer = .ok (.error code, (src.readBytes h.ioBuffer 1).2) :=
    run_bind_error hio
  refine ⟨{ h with ioBuffer := (src.readBytes h.ioBuffer 1).2 }, run_bind_error ?_⟩
  rw [zoom, hbasic]

/-! ### What the source keeps, the call keeps -/

/-- A property of the source that its operations keep. -/
structure SourceKeeps (src : ByteSource σ) (P : σ → Prop) : Prop where
  read : ∀ io n, P io → P (src.readBytes io n).2
  seek : ∀ io n, P io → P (src.seekRead io n)

section SourceKeeps

variable {P : σ → Prop}

theorem keeps_readIo (hsrc : SourceKeeps src P) (n : ℤ) : Keeps P (readIo src n) := by
  refine Keeps.get_bind fun io hio => ?_
  exact (keeps_put (hsrc.read io n hio)).bind fun _ => (keeps_fail _).ite (keeps_pure _)

theorem keeps_readBasicHeader (hsrc : SourceKeeps src P) : Keeps P (readBasicHeader src) := by
  refine (keeps_readIo hsrc 1).bind fun b => ?_
  refine (keeps_pure _).ite (.ite ?_ (.ite ?_ (keeps_stop _)))
  · exact (keeps_readIo hsrc 1).bind fun _ => keeps_pure _
  · exact (keeps_readIo hsrc 2).bind fun _ => keeps_pure _

/-- Calls on a chunk stream and the source. -/
def KeepsSource {α : Type} (P : σ → Prop) (f : OnChunk σ α) : Prop :=
  Keeps (fun s : RtmpChunkStream × σ => P s.2) f

theorem keepsSource_setChunk (chunk : RtmpChunkStream) : KeepsSource P (setChunk chunk) :=
  Keeps.get_bind fun _ hs => keeps_put hs

theorem keepsSource_getChunk : KeepsSource P (getChunk (σ := σ)) :=
  Keeps.get_bind fun _ _ => keeps_pure _

theorem keepsSource_onSource {α : Type} {f : Comp Fault σ ℤ α} (hf : Keeps P f) :
    KeepsSource P (onSource f) :=
  hf.zoom (fun _ => id) fun _ _ _ => id

theorem keepsSource_readHeaderBytes (hsrc : SourceKeeps src P) (fmt : ℕ) :
    KeepsSource P (readHeaderBytes src fmt) :=
  Keeps.ite (keepsSource_onSource (keeps_readIo hsrc _)) (keeps_pure _)

theorem keepsSource_readFields (isFirst : Bool) (fmt : ℕ) (data : Bytes) :
    KeepsSource P (readFields (σ := σ) isFirst fmt data) := by
  refine keepsSource_getChunk.bind fun chunk => Keeps.ite ?_ (Keeps.ite ?_ (keeps_pure _))
  · refine (keepsSource_setChunk _).bind fun _ => Keeps.ite (Keeps.ite (keeps_fail _) ?_)
      (keeps_pure _)
    exact keepsSource_setChunk _
  · exact keepsSource_setChunk _

theorem keepsSource_readExtended (hsrc : SourceKeeps src P) (fix isFirst : Bool) (fmt : ℕ)
    (ext : BitVec 32) : KeepsSource P (readExtended src fix isFirst fmt ext) := by
  refine keepsSource_getChunk.bind fun chunk => Keeps.ite ?_ (keeps_pure _)
  refine (keepsSource_setChunk _).bind fun _ => Keeps.ite ?_ (keeps_pure _)
  exact keepsSource_onSource (Keeps.get_bind fun io hio => keeps_put (hsrc.seek io (-4) hio))

theorem keepsSource_finishHeader : KeepsSource P (finishHeader (σ := σ)) := by
  refine keepsSource_getChunk.bind fun chunk => ?_
  refine Keeps.bind (Keeps.ite (keeps_pure _) (keeps_stop _)) fun _ => ?_
  exact (keeps_ofOption _ _).bind fun _ => keepsSource_setChunk _

theorem keepsSource_readMessageHeader (hsrc : SourceKeeps src P) (fix : Bool) (ext : BitVec 32)
    (fmt : ℕ) : KeepsSource P (readMessageHeader src fix ext fmt) := by
  refine keepsSource_getChunk.bind fun chunk => ?_
  refine Keeps.ite (keeps_fail _) (Keeps.ite (keeps_fail _) ?_)
  refine (keepsSource_setChunk _).bind fun _ =>
    (keepsSource_readHeaderBytes hsrc fmt).bind fun data => ?_
  exact (keepsSource_readFields _ fmt data).bind fun _ =>
    (keepsSource_readExtended hsrc fix _ fmt ext).bind fun _ => keepsSource_finishHeader

theorem keepsSource_readPayloadBytes (hsrc : SourceKeeps src P) (msg : RtmpMessage) (n : ℤ) :
    KeepsSource P (readPayloadBytes src msg n) := by
  refine (keeps_ofOption _ _).bind fun payload => Keeps.ite ?_ (keeps_stop _)
  refine Keeps.get_bind fun s hs => (keeps_ofOption _ _).bind fun payload => ?_
  refine Keeps.bind (keeps_put (hsrc.read s.2 n hs)) fun _ => ?_
  exact Keeps.ite (keeps_fail _) (keeps_pure _)

theorem keepsSource_finishPayload (payloadSize : ℤ) :
    KeepsSource P (finishPayload (σ := σ) payloadSize) := by
  refine keepsSource_getChunk.bind fun chunk => (keeps_ofOption _ _).bind fun msg => Keeps.ite ?_ ?_
  · exact (keepsSource_setChunk _).bind fun _ => keeps_pure _
  · exact (keepsSource_setChunk _).bind fun _ => keeps_pure _

theorem keepsSource_readMessagePayload (hsrc : SourceKeeps src P) (inChunkSize : ℤ) :
    KeepsSource P (readMessagePayload src inChunkSize) := by
  refine keepsSource_getChunk.bind fun chunk => Keeps.ite ?_ ?_
  · exact (keepsSource_setChunk _).bind fun _ => keeps_pure _
  · refine (keeps_ofOption _ _).bind fun msg => (keepsSource_setChunk _).bind fun _ => ?_
    exact (keepsSource_readPayloadBytes hsrc _ _).bind fun _ => keepsSource_finishPayload _

/-- **Whatever the operations of the source keep, receiving keeps.** -/
theorem keeps_recvInterlacedMessage (hsrc : SourceKeeps src P) (ext : BitVec 32) :
    Keeps (fun h : RtmpProtocolHandler σ => P h.ioBuffer) (recvInterlacedMessage src ext) := by
  refine ((keeps_readBasicHeader hsrc).zoom (fun _ => id) fun _ _ _ => id).bind fun basic => ?_
  refine Keeps.bind (Keeps.ite (keeps_pure _) (keeps_stop _)) fun _ => ?_
  refine Keeps.get_bind fun h hh => (keeps_ofOption _ _).bind fun chunk => ?_
  refine Keeps.zoom (P := fun s : RtmpChunkStream × σ => P s.2) ?_ (fun _ => id) fun _ _ _ => id
  exact (keepsSource_readMessageHeader hsrc _ ext _).bind fun _ =>
    keepsSource_readMessagePayload hsrc _

end SourceKeeps

/-! ## A chunk of a stream -/

/-- What receiving a chunk is for: success, and just the chunk is consumed. -/
def ReceivesChunk (conn : Connection σ) (ext : BitVec 32) (h : RtmpProtocolHandler (IOBuffer σ))
    (tail : Bytes) : Prop :=
  ∃ msg h', recvInterlacedMessage (IOBuffer.source conn.toIReader) ext h = .ok (.ok msg, h')
    ∧ h'.ioBuffer.unread conn = tail

/-- The call ends with the number of bytes it has read, one, as its error code. -/
theorem recv_fails_at_first_byte {conn : Connection σ} {h : RtmpProtocolHandler (IOBuffer σ)}
    (hbuffer : h.ioBuffer.buffer.Valid)
    (hcache : 2 ≤ h.ioBuffer.buffer.size ∨ h.ioBuffer.noCache = true)
    (hunread : h.ioBuffer.unread conn ≠ []) (ext : BitVec 32) :
    ∃ h', recvInterlacedMessage (IOBuffer.source conn.toIReader) ext h = .ok (.error 1, h') := by
  refine recv_fails_of_first_read ?_ (by decide) ext
  obtain ⟨_, _, hrun, hread⟩ := (IOBuffer.holds_readBytes_one hbuffer hcache hunread).returns
  simp only [IOBuffer.source, hrun]
  exact hread

/-- **No chunk is received**: whatever it is and however the connection cuts the stream, the first
byte read is taken for an error. -/
theorem no_chunk_received (conn : Connection σ) (ext : BitVec 32)
    (h : RtmpProtocolHandler (IOBuffer σ)) (hbuffer : h.ioBuffer.buffer.Valid)
    (chunk tail : Bytes) (hchunk : chunk ≠ [])
    (hstream : h.ioBuffer.unread conn = chunk ++ tail) :
    ¬ ReceivesChunk conn ext h tail := by
  rintro ⟨msg, h', hrun, htail⟩
  by_cases hcache : 2 ≤ h.ioBuffer.buffer.size ∨ h.ioBuffer.noCache = true
  · have hne : h.ioBuffer.unread conn ≠ [] := by
      rw [hstream]
      exact List.append_ne_nil_of_left_ne_nil hchunk tail
    obtain ⟨h'', hfail⟩ := recv_fails_at_first_byte hbuffer hcache hne ext
    rw [hfail] at hrun
    cases hrun
  · -- a cache without room delivers nothing, and consumes nothing
    obtain ⟨hsmall, hno⟩ := not_or.1 hcache
    have hpos := hbuffer.size_pos
    have hstuck : IOBuffer.Stuck conn (chunk ++ tail) h.ioBuffer :=
      ⟨hbuffer, by omega, Bool.eq_false_iff.2 hno, hstream⟩
    have hsrc : SourceKeeps (IOBuffer.source conn.toIReader)
        (IOBuffer.Stuck conn (chunk ++ tail)) :=
      ⟨fun _ n hio => hio.source_read n, fun _ n hio => hio.source_seek n⟩
    have hkeeps := keeps_recvInterlacedMessage hsrc ext h hstuck
    have hsame := (hkeeps.elim_ok hrun).unread_eq
    rw [htail] at hsame
    have hlen := congrArg List.length hsame
    rw [List.length_append] at hlen
    exact hchunk (List.length_eq_zero_iff.1 (by omega))

/-- A connection that hands out what is left of a stream, at most three bytes at a time. -/
def dribbling : Connection Bytes where
  toIReader := dribble
  left := id
  lawful := dribble_lawful
  pos s n hn hs := by
    have hlen := List.length_pos_of_ne_nil hs
    change 1 ≤ ((s.take (min n 3).toNat).length : ℤ)
    rw [List.length_take]
    simp only [id_eq] at hlen
    omega
  left_eq s n _ := (List.take_append_drop _ s).symm

/-- A peer sends `Set Chunk Size` with 4096, on the chunk stream 2. -/
def setChunkSizeChunk : Bytes := [0x02, 0, 0, 0, 0, 0, 4, 1, 0, 0, 0, 0, 0, 0, 0x10, 0]

/-- A handler whose connection is about to deliver that chunk. -/
def beforeSetChunkSize : RtmpProtocolHandler (IOBuffer Bytes) :=
  .new (IOBuffer.new setChunkSizeChunk (Buffer.new (List.replicate 64 0) 64)) false 128

theorem no_chunk_received_setChunkSize : ¬ ReceivesChunk dribbling 0 beforeSetChunkSize [] :=
  no_chunk_received dribbling 0 beforeSetChunkSize
    (Buffer.valid_new (by decide) (by decide)) setChunkSizeChunk [] (by decide)
    (by rw [IOBuffer.unread]; rfl)

/-- The call that receives it ends with the code 1. -/
theorem setChunkSize_chunk_refused :
    beforeSetChunkSize.ioBuffer.unread dribbling = setChunkSizeChunk
    ∧ (∃ h', recvInterlacedMessage (IOBuffer.source dribbling.toIReader) 0 beforeSetChunkSize
      = .ok (.error 1, h'))
    ∧ ¬ ReceivesChunk dribbling 0 beforeSetChunkSize [] := by
  have hrun : ∃ h', recvInterlacedMessage (IOBuffer.source dribbling.toIReader) 0
      beforeSetChunkSize = .ok (.error 1, h') := ⟨_, rfl⟩
  refine ⟨rfl, hrun, ?_⟩
  rintro ⟨msg, h', hok, -⟩
  obtain ⟨h'', hfail⟩ := hrun
  rw [hfail] at hok
  cases hok

end RtmpProtocolHandler

end SmartStreaming
