import SmartStreaming.Machinery.Mirror
import SmartStreaming.Rtmp.Chunk.Invariant

/-!
# Rtmp/Chunk/Retry — a call that has failed is made again

A read that fails takes nothing from the source, but `recv_interlaced_message` reads several times:
what it has read before, and what it has written into the chunk stream, is not put back.  Only where
the first read of the call fails is everything as it was (`preserved_iff`).  A run all of whose
failing calls fail there hands out what the run without them does (`mirrors_recvInterlacedMessage`,
`retry_iff_first_read_fails`).
-/

namespace SmartStreaming

open Machinery Comp

/-! ## Sources that fail now and then -/

/-- `src` is the source `calm`, except that its reads fail now and then and take nothing then.
`V` shows the calm source at the same place, `rest` the bytes that it has left. -/
structure ByteSource.Resumes {σ τ : Type} (src : ByteSource σ) (calm : ByteSource τ) (V : σ → τ)
    (rest : τ → Bytes) : Prop where
  readBytes_eq : ∀ s n, (src.readBytes s n).1.1 = errorSuccess →
    calm.readBytes (V s) n = ((src.readBytes s n).1, V (src.readBytes s n).2)
  unread : ∀ s n, (src.readBytes s n).1.1 ≠ errorSuccess → V (src.readBytes s n).2 = V s
  seekRead_eq : ∀ s n, V (src.seekRead s n) = calm.seekRead (V s) n
  taken : ∀ t n, 0 ≤ n → (calm.readBytes t n).1.1 = errorSuccess →
    ((rest (calm.readBytes t n).2).length : ℤ) + n = (rest t).length

/-- The source with a timeout at each read that the list says. -/
def ByteSource.interrupted {σ : Type} (src : ByteSource σ) : ByteSource (σ × List Bool) where
  readBytes := fun s n =>
    if s.2.headD false then ((errorSocketTimeout, []), (s.1, s.2.tail))
    else ((src.readBytes s.1 n).1, ((src.readBytes s.1 n).2, s.2.tail))
  seekRead := fun s n => (src.seekRead s.1 n, s.2)

theorem ByteSource.interrupted_ofBytes : ofBytes.interrupted.Resumes ofBytes Prod.fst id := by
  refine ⟨fun s n hret => ?_, fun s n hret => ?_, fun _ _ => rfl, fun bs n hn hret => ?_⟩
  · simp only [interrupted] at hret ⊢
    split at hret
    · exact absurd (show errorSocketTimeout = errorSuccess from hret) (by decide)
    · rw [if_neg ‹_›]
  · simp only [interrupted] at hret ⊢
    split at hret
    · rw [if_pos ‹_›]
    · rw [if_neg ‹_›]
      simp only [ofBytes] at hret ⊢
      split at hret
      · exact absurd rfl hret
      · rw [if_neg ‹_›]
  · simp only [ofBytes, id_eq] at hret ⊢
    split at hret
    · rw [if_pos ‹_›, List.length_drop]
      omega
    · exact absurd (show errorSocketRead = errorSuccess from hret) (by decide)

namespace RtmpProtocolHandler

variable {σ τ : Type} {src : ByteSource σ} {calm : ByteSource τ} {V : σ → τ} {rest : τ → Bytes}

/-- A read returns its bytes, or the code of the source. -/
theorem run_readIo (src : ByteSource σ) (n : ℤ) (io : σ) : readIo src n io
    = if (src.readBytes io n).1.1 ≠ errorSuccess
      then .ok (.error (src.readBytes io n).1.1, (src.readBytes io n).2)
      else .ok (.ok (src.readBytes io n).1.2, (src.readBytes io n).2) := by
  rw [readIo, run_get_bind]
  change (if (src.readBytes io n).1.1 ≠ errorSuccess then _ else _ : Comp Fault σ ℤ Bytes) _ = _
  rw [run_ite]
  rfl

/-! ## What returns without the failures -/

theorem mirrors_readIo (hsrc : src.Resumes calm V rest) (n : ℤ) :
    Mirrors V (readIo src n) (readIo calm n) := by
  intro s bs s' hrun
  rw [run_readIo] at hrun ⊢
  split at hrun
  · cases hrun
  · have hret := not_not.1 ‹_›
    cases hrun
    rw [hsrc.readBytes_eq s n hret, if_neg (not_not.2 hret)]

theorem mirrors_readBasicHeader (hsrc : src.Resumes calm V rest) :
    Mirrors V (readBasicHeader src) (readBasicHeader calm) := by
  refine (mirrors_readIo hsrc 1).bind fun bs => ?_
  refine Mirrors.ite (fun _ => mirrors_pure _) fun _ => Mirrors.ite (fun _ => ?_) fun _ => ?_
  · exact (mirrors_readIo hsrc 1).bind fun _ => mirrors_pure _
  · refine Mirrors.ite (fun _ => ?_) fun _ => mirrors_stop _ _
    exact (mirrors_readIo hsrc 2).bind fun _ => mirrors_pure _

section OnChunk

/-- The chunk stream with the calm source. -/
abbrev onCalm (V : σ → τ) (s : RtmpChunkStream × σ) : RtmpChunkStream × τ := (s.1, V s.2)

theorem mirrors_getChunk : Mirrors (onCalm V) (getChunk (σ := σ)) getChunk :=
  Mirrors.get_bind fun s => mirrors_pure s.1

theorem mirrors_setChunk (chunk : RtmpChunkStream) :
    Mirrors (onCalm V) (setChunk (σ := σ) chunk) (setChunk chunk) :=
  Mirrors.get_bind fun _ => mirrors_put rfl

theorem mirrors_onSource {α : Type} {f : Comp Fault σ ℤ α} {g : Comp Fault τ ℤ α}
    (h : Mirrors V f g) : Mirrors (onCalm V) (onSource f) (onSource g) :=
  h.zoom (fun _ => rfl) fun _ _ => rfl

theorem mirrors_readHeaderBytes (hsrc : src.Resumes calm V rest) (fmt : ℕ) :
    Mirrors (onCalm V) (readHeaderBytes src fmt) (readHeaderBytes calm fmt) :=
  Mirrors.ite (fun _ => mirrors_onSource (mirrors_readIo hsrc _)) fun _ => mirrors_pure _

theorem mirrors_readFields (isFirst : Bool) (fmt : ℕ) (data : Bytes) :
    Mirrors (onCalm V) (readFields (σ := σ) isFirst fmt data) (readFields isFirst fmt data) := by
  refine mirrors_getChunk.bind fun chunk => Mirrors.ite (fun _ => ?_) fun _ => ?_
  · refine (mirrors_setChunk _).bind fun _ => Mirrors.ite (fun _ => ?_) fun _ => mirrors_pure _
    exact Mirrors.ite (fun _ => mirrors_fail _ _) fun _ => mirrors_setChunk _
  · exact Mirrors.ite (fun _ => mirrors_setChunk _) fun _ => mirrors_pure _

theorem mirrors_readExtended (hsrc : src.Resumes calm V rest) (fix isFirst : Bool) (fmt : ℕ)
    (ext : BitVec 32) : Mirrors (onCalm V) (readExtended src fix isFirst fmt ext)
      (readExtended calm fix isFirst fmt ext) := by
  refine mirrors_getChunk.bind fun chunk => Mirrors.ite (fun _ => ?_) fun _ => mirrors_pure _
  refine (mirrors_setChunk _).bind fun _ => Mirrors.ite (fun _ => ?_) fun _ => mirrors_pure _
  exact mirrors_onSource (Mirrors.get_bind fun s => mirrors_put (hsrc.seekRead_eq s (-4)))

theorem mirrors_finishHeader : Mirrors (onCalm V) (finishHeader (σ := σ)) finishHeader := by
  refine mirrors_getChunk.bind fun chunk => ?_
  refine (Mirrors.ite (fun _ => mirrors_pure _) fun _ => mirrors_stop _ _).bind fun _ => ?_
  exact (mirrors_ofOption _ _).bind fun _ => mirrors_setChunk _

theorem mirrors_readMessageHeader (hsrc : src.Resumes calm V rest) (fix : Bool) (ext : BitVec 32)
    (fmt : ℕ) : Mirrors (onCalm V) (readMessageHeader src fix ext fmt)
      (readMessageHeader calm fix ext fmt) := by
  refine mirrors_getChunk.bind fun chunk => Mirrors.ite (fun _ => mirrors_fail _ _) fun _ => ?_
  refine Mirrors.ite (fun _ => mirrors_fail _ _) fun _ => (mirrors_setChunk _).bind fun _ => ?_
  refine (mirrors_readHeaderBytes hsrc fmt).bind fun data => ?_
  refine (mirrors_readFields _ fmt data).bind fun _ => ?_
  exact (mirrors_readExtended hsrc fix _ fmt ext).bind fun _ => mirrors_finishHeader

theorem mirrors_readPayloadBytes (hsrc : src.Resumes calm V rest) (msg : RtmpMessage) (n : ℤ) :
    Mirrors (onCalm V) (readPayloadBytes src msg n) (readPayloadBytes calm msg n) := by
  refine (mirrors_ofOption _ _).bind fun payload => Mirrors.ite (fun _ => ?_) fun _ =>
    mirrors_stop _ _
  refine Mirrors.get_bind fun s => ?_
  obtain ⟨chunk, io⟩ := s
  dsimp only
  by_cases hret : (src.readBytes io n).1.1 = errorSuccess
  · rw [hsrc.readBytes_eq io n hret]
    refine (mirrors_ofOption _ _).bind fun payload => (mirrors_put rfl).bind fun _ => ?_
    exact Mirrors.ite (fun _ => mirrors_fail _ _) fun _ => mirrors_pure _
  · -- a read that fails ends the call
    intro s a s' hrun
    obtain ⟨payload, s₁, -, hrun⟩ := run_bind_eq_ok hrun
    obtain ⟨_, s₂, -, hrun⟩ := run_bind_eq_ok hrun
    rw [if_pos hret] at hrun
    cases hrun

theorem mirrors_finishPayload (payloadSize : ℤ) :
    Mirrors (onCalm V) (finishPayload (σ := σ) payloadSize) (finishPayload payloadSize) := by
  refine mirrors_getChunk.bind fun chunk => (mirrors_ofOption _ _).bind fun msg => ?_
  refine Mirrors.ite (fun _ => ?_) fun _ => ?_
  · exact (mirrors_setChunk _).bind fun _ => mirrors_pure _
  · exact (mirrors_setChunk _).bind fun _ => mirrors_pure _

theorem mirrors_readMessagePayload (hsrc : src.Resumes calm V rest) (inChunkSize : ℤ) :
    Mirrors (onCalm V) (readMessagePayload src inChunkSize)
      (readMessagePayload calm inChunkSize) := by
  refine mirrors_getChunk.bind fun chunk => Mirrors.ite (fun _ => ?_) fun _ => ?_
  · exact (mirrors_setChunk _).bind fun _ => mirrors_pure _
  · refine (mirrors_ofOption _ _).bind fun msg => (mirrors_setChunk _).bind fun _ => ?_
    exact (mirrors_readPayloadBytes hsrc _ _).bind fun _ => mirrors_finishPayload _

end OnChunk

/-- The handler with the calm source. -/
def calmed (V : σ → τ) (h : RtmpProtocolHandler σ) : RtmpProtocolHandler τ where
  ioBuffer := V h.ioBuffer
  chunkStreams := h.chunkStreams
  csCache := h.csCache
  fixRtmpTimestamp := h.fixRtmpTimestamp
  inChunkSize := h.inChunkSize

theorem calmed_setChunkStream (h : RtmpProtocolHandler σ) (cid : ℤ) (chunk : RtmpChunkStream)
    (io : σ) : calmed V { h.setChunkStream cid chunk with ioBuffer := io }
      = { (calmed V h).setChunkStream cid chunk with ioBuffer := V io } := by
  unfold setChunkStream
  split <;> rfl

/-- **A call that returns does the same without the failures.** -/
theorem mirrors_recvInterlacedMessage (hsrc : src.Resumes calm V rest) (ext : BitVec 32) :
    Mirrors (calmed V) (recvInterlacedMessage src ext) (recvInterlacedMessage calm ext) := by
  have hbasic := mirrors_readBasicHeader hsrc
  refine (hbasic.zoom (W := calmed V) (fun _ => rfl) fun _ _ => rfl).bind fun out => ?_
  obtain ⟨fmt, cid⟩ := out
  refine (Mirrors.ite (fun _ => mirrors_pure _) fun _ => mirrors_stop _ _).bind fun _ => ?_
  refine Mirrors.get_bind fun h => (mirrors_ofOption _ _).bind fun chunk => ?_
  refine Mirrors.zoom (V := onCalm V) ?_ (fun _ => rfl) ?_
  · refine (mirrors_readMessageHeader hsrc _ ext fmt).bind fun _ => ?_
    exact mirrors_readMessagePayload hsrc _
  · exact fun s h => calmed_setChunkStream h cid s.1 s.2

/-! ## What a call that fails leaves -/

/-- Fewer bytes are left. -/
def Less (V : σ → τ) (rest : τ → Bytes) (io' io : σ) : Prop :=
  (rest (V io')).length < (rest (V io)).length

/-- A read that returns has taken its bytes, one that fails has taken none. -/
theorem holds_readIo_taken (hsrc : src.Resumes calm V rest) {n : ℤ} (hn : 0 ≤ n) (io : σ) :
    Holds (fun _ => True)
      (fun _ io' => (src.readBytes io n).1.1 ≠ errorSuccess ∧ rest (V io') = rest (V io))
      (fun _ io' => ((rest (V io')).length : ℤ) + n = (rest (V io)).length)
      (readIo src n) io := by
  simp only [readIo, holds_bind, holds_get, holds_put, holds_ite, holds_fail, holds_pure]
  refine ⟨fun hret => ⟨hret, by rw [hsrc.unread io n hret]⟩, fun hok => ?_⟩
  have hret := not_not.1 hok
  have hcalm := hsrc.readBytes_eq io n hret
  have htaken := hsrc.taken (V io) n hn (by rw [hcalm]; exact hret)
  rwa [hcalm] at htaken

theorem holds_readIo_less (hsrc : src.Resumes calm V rest) {n : ℤ} (hn : 0 ≤ n) {io₀ io : σ}
    (h : Less V rest io io₀) :
    Holds (fun _ => True) (fun _ io' => Less V rest io' io₀) (fun _ io' => Less V rest io' io₀)
      (readIo src n) io := by
  refine (holds_readIo_taken hsrc hn io).imp (fun _ io' hio' => ?_) fun _ io' hio' => ?_
  · rw [Less, hio'.2]
    exact h
  · unfold Less at h ⊢
    omega

/-- Behind its first read a basic header has taken something. -/
theorem holds_readBasicHeader_taken (hsrc : src.Resumes calm V rest) {io : σ}
    (hfirst : (src.readBytes io 1).1.1 = errorSuccess) :
    Holds (fun _ => True) (fun _ io' => Less V rest io' io)
      (fun out io' => Less V rest io' io ∧ 0 ≤ out.2) (readBasicHeader src) io := by
  rw [readBasicHeader, holds_bind]
  refine (holds_readIo_taken hsrc zero_le_one io).imp (fun _ _ h => absurd hfirst h.1) ?_
  intro bs io₁ htaken
  have hless : Less V rest io₁ io := by
    unfold Less
    omega
  simp only [holds_ite, holds_bind, holds_pure, holds_stop]
  refine ⟨fun hcid => ⟨hless, by omega⟩, fun _ => ⟨fun _ => ?_, fun _ => ⟨fun _ => ?_, fun _ =>
    trivial⟩⟩⟩
  · exact (holds_readIo_less hsrc zero_le_one hless).imp (fun _ _ => id) fun _ _ h =>
      ⟨h, by positivity⟩
  · exact (holds_readIo_less hsrc zero_le_two hless).imp (fun _ _ => id) fun _ _ h =>
      ⟨h, by positivity⟩

theorem setTimestamp_msgCount (fmt : ℕ) (data : Bytes) (chunk : RtmpChunkStream) :
    (setTimestamp fmt data chunk).msgCount = chunk.msgCount := by
  unfold setTimestamp
  dsimp only
  split_ifs <;> rfl

theorem setLength_msgCount (fmt : ℕ) (data : Bytes) (chunk : RtmpChunkStream) :
    (setLength fmt data chunk).msgCount = chunk.msgCount := by
  unfold setLength
  dsimp only
  split_ifs <;> rfl

/-- `k` headers have been read on the chunk stream. -/
def Counted (k : ℕ) (s : RtmpChunkStream × σ) : Prop := s.1.msgCount = k

variable {k : ℕ}

theorem keeps_getChunk_bind {α : Type} {g : RtmpChunkStream → OnChunk σ α}
    (hg : ∀ chunk, chunk.msgCount = k → Keeps (Counted k) (g chunk)) :
    Keeps (Counted k) (getChunk >>= g) := by
  intro s hs
  exact hg s.1 hs s hs

theorem keeps_setChunk {chunk : RtmpChunkStream} (h : chunk.msgCount = k) :
    Keeps (Counted (σ := σ) k) (setChunk chunk) :=
  Keeps.get_bind fun _ _ => keeps_put h

/-- Setting the fields leaves the source and the count. -/
theorem holds_readFields_counted (isFirst : Bool) (fmt : ℕ) (data : Bytes)
    (s : RtmpChunkStream × σ) :
    Holds (fun _ => True) (fun _ s' => s'.2 = s.2) (fun _ s' => Counted s.1.msgCount s')
      (readFields isFirst fmt data) s := by
  simp only [readFields, getChunk, setChunk, holds_bind, holds_get, holds_pure, holds_put,
    holds_ite, holds_fail]
  refine ⟨fun _ => ⟨fun _ => ⟨fun _ => trivial, fun _ => ?_⟩, fun _ => ?_⟩, fun _ => ?_⟩
  · exact (setLength_msgCount fmt data _).trans (setTimestamp_msgCount fmt data s.1)
  · exact setTimestamp_msgCount fmt data s.1
  · exact ⟨fun _ => rfl, fun _ => rfl⟩

theorem holds_readExtended_counted (fix isFirst : Bool) (fmt : ℕ) (ext : BitVec 32)
    (s : RtmpChunkStream × σ) :
    Holds (fun _ => True) (fun _ _ => False) (fun _ s' => Counted s.1.msgCount s')
      (readExtended src fix isFirst fmt ext) s := by
  simp only [readExtended, getChunk, setChunk, onSource, holds_bind, holds_get, holds_pure,
    holds_put, holds_ite, holds_zoom]
  exact ⟨fun _ => ⟨fun _ => rfl, fun _ => rfl⟩, fun _ => rfl⟩

/-- Reading the payload counts no header. -/
theorem keeps_readMessagePayload_counted (inChunkSize : ℤ) :
    Keeps (Counted k) (readMessagePayload src inChunkSize) := by
  refine keeps_getChunk_bind fun chunk hk => Keeps.ite ?_ ?_
  · exact Keeps.bind (keeps_setChunk hk) fun _ => keeps_pure _
  · refine (keeps_ofOption _ _).bind fun msg => Keeps.bind (keeps_setChunk hk) fun _ => ?_
    refine Keeps.bind ?_ fun _ => keeps_getChunk_bind fun chunk' hk' => ?_
    · refine (keeps_ofOption _ _).bind fun payload => Keeps.ite ?_ (keeps_stop _)
      refine Keeps.get_bind fun s hs => (keeps_ofOption _ _).bind fun payload => ?_
      exact Keeps.bind (keeps_put hs) fun _ => Keeps.ite (keeps_fail _) (keeps_pure _)
    · refine (keeps_ofOption _ _).bind fun msg => Keeps.ite ?_ ?_
      · exact Keeps.bind (keeps_setChunk hk') fun _ => keeps_pure _
      · exact Keeps.bind (keeps_setChunk hk') fun _ => keeps_pure _

/-- A header is counted when it has been read; one that is not read has given nothing back. -/
theorem holds_readMessageHeader_counted (hsrc : src.Resumes calm V rest) (fix : Bool)
    (ext : BitVec 32) (fmt : ℕ) (s : RtmpChunkStream × σ) :
    Holds (fun _ => True) (fun _ s' => (rest (V s'.2)).length ≤ (rest (V s.2)).length)
      (fun _ s' => Counted (s.1.msgCount + 1) s') (readMessageHeader src fix ext fmt) s := by
  simp only [readMessageHeader, getChunk, setChunk, holds_bind, holds_get, holds_pure, holds_put,
    holds_ite, holds_fail]
  refine ⟨fun _ => le_refl _, fun _ => ⟨fun _ => le_refl _, fun _ => ?_⟩⟩
  have hbytes : Holds (fun _ => True)
      (fun _ s' => (rest (V s'.2)).length ≤ (rest (V s.2)).length)
      (fun _ s' => (rest (V s'.2)).length ≤ (rest (V s.2)).length ∧ Counted s.1.msgCount s')
      (readHeaderBytes src fmt)
      ({ s.1 with msg := some (s.1.msg.getD {}) }, s.2) := by
    rw [readHeaderBytes, holds_ite, onSource, holds_zoom]
    refine ⟨fun hpos => ?_, fun _ => ⟨le_refl _, rfl⟩⟩
    refine (holds_readIo_taken hsrc hpos.le s.2).imp (fun _ io' h => ?_) fun _ io' h => ?_
    · rw [h.2]
    · exact ⟨by dsimp only; omega, rfl⟩
  refine hbytes.imp (fun _ _ => id) fun data s₁ h₁ => ?_
  refine (holds_readFields_counted _ fmt data s₁).imp (fun _ s' h => ?_) fun _ s₂ h₂ => ?_
  · rw [h]
    exact h₁.1
  refine (holds_readExtended_counted fix _ fmt ext s₂).imp (fun _ _ h => h.elim) ?_
  intro _ s₃ h₃
  simp only [finishHeader, getChunk, setChunk, cassert, holds_bind, holds_get, holds_pure,
    holds_put, holds_ite, holds_stop]
  refine ⟨fun _ => ?_, fun _ => trivial⟩
  cases s₃.1.msg with
  | none => trivial
  | some msg => exact congrArg (· + 1) (h₃.trans (h₂.trans h₁.2))

/-- **What a call that fails should leave**: every chunk stream as it was, and all the bytes that it
has taken. -/
structure Preserved (V : σ → τ) (rest : τ → Bytes) (h h' : RtmpProtocolHandler σ) : Prop where
  chunkStream_eq : ∀ cid, 0 ≤ cid → h'.chunkStream cid = h.chunkStream cid
  rest_eq : rest (V h'.ioBuffer) = rest (V h.ioBuffer)

theorem preserved_inChunkSize {h h' : RtmpProtocolHandler σ} {c : ℤ} :
    Preserved V rest { h with inChunkSize := c } h' ↔ Preserved V rest h h' :=
  ⟨fun hpres => ⟨hpres.chunkStream_eq, hpres.rest_eq⟩,
    fun hpres => ⟨hpres.chunkStream_eq, hpres.rest_eq⟩⟩

/-- The first read of a call, that of the first byte of the basic header, fails. -/
def FirstReadFails (src : ByteSource σ) (h : RtmpProtocolHandler σ) : Prop :=
  (src.readBytes h.ioBuffer 1).1.1 ≠ errorSuccess

/-- A call whose first read fails ends there. -/
theorem run_recvInterlacedMessage_of_first {h : RtmpProtocolHandler σ}
    (hfirst : FirstReadFails src h) (ext : BitVec 32) : recvInterlacedMessage src ext h
      = .ok (.error (src.readBytes h.ioBuffer 1).1.1,
        { h with ioBuffer := (src.readBytes h.ioBuffer 1).2 }) := by
  have hread : readIo src 1 h.ioBuffer
      = .ok (.error (src.readBytes h.ioBuffer 1).1.1, (src.readBytes h.ioBuffer 1).2) := by
    rw [run_readIo]
    exact if_pos hfirst
  have hbasic : readBasicHeader src h.ioBuffer
      = .ok (.error (src.readBytes h.ioBuffer 1).1.1, (src.readBytes h.ioBuffer 1).2) :=
    run_bind_error hread
  exact run_bind_error (run_zoom_ok hbasic)

/-- Behind its first read a call that fails does not leave everything as it was: bytes are gone, or
a header has been counted. -/
theorem holds_not_preserved (hsrc : src.Resumes calm V rest) (ext : BitVec 32)
    {h : RtmpProtocolHandler σ} (hfirst : ¬ FirstReadFails src h) :
    Holds (fun _ => True) (fun _ h' => ¬ Preserved V rest h h') (fun _ _ => True)
      (recvInterlacedMessage src ext) h := by
  have hless : ∀ h' : RtmpProtocolHandler σ, Less V rest h'.ioBuffer h.ioBuffer →
      ¬ Preserved V rest h h' := by
    intro h' hlt hpres
    rw [Less, hpres.rest_eq] at hlt
    exact lt_irrefl _ hlt
  simp only [recvInterlacedMessage, holds_bind, holds_zoom]
  refine (holds_readBasicHeader_taken hsrc (not_not.1 hfirst)).imp (fun _ io hio => hless _ hio) ?_
  rintro ⟨fmt, cid⟩ io ⟨hio, hcid⟩
  dsimp only at hcid ⊢
  simp only [cassert, if_pos (show cid ≥ 0 from hcid), holds_pure, holds_get, onChunk]
  cases hget : ({ h with ioBuffer := io } : RtmpProtocolHandler σ).chunkStream cid with
  | none => trivial
  | some chunk =>
    rw [holds_some, holds_zoom, holds_bind]
    refine (holds_readMessageHeader_counted hsrc _ ext fmt (chunk, io)).imp (fun _ s hs => ?_) ?_
    · exact hless _ (lt_of_le_of_lt hs hio)
    · intro _ s hs
      refine (keeps_readMessagePayload_counted h.inChunkSize s hs).imp (fun _ s' hs' => ?_)
        fun _ _ _ => trivial
      intro hpres
      have hset := chunkStream_setChunkStream_of_some hget s'.1
      have hsame := (hset.symm.trans (hpres.chunkStream_eq cid hcid)).trans hget
      have hcount : s'.1.msgCount = chunk.msgCount + 1 := hs'
      rw [Option.some.inj hsame] at hcount
      omega

/-- **A call that fails leaves everything as it was where its first read fails, and only there.** -/
theorem preserved_iff (hsrc : src.Resumes calm V rest) {ext : BitVec 32}
    {h h' : RtmpProtocolHandler σ} {code : ℤ}
    (hrun : recvInterlacedMessage src ext h = .ok (.error code, h')) :
    Preserved V rest h h' ↔ FirstReadFails src h := by
  by_cases hfirst : FirstReadFails src h
  · rw [run_recvInterlacedMessage_of_first hfirst] at hrun
    cases hrun
    refine iff_of_true ⟨fun _ _ => rfl, ?_⟩ hfirst
    exact congrArg rest (hsrc.unread h.ioBuffer 1 hfirst)
  · refine iff_of_false ?_ hfirst
    have hholds := holds_not_preserved hsrc ext hfirst
    rwa [Holds, hrun] at hholds

/-! ## Runs -/

/-- Every call of the run that fails leaves what `P` says of the states before and after it. -/
def Failing (P : RtmpProtocolHandler σ → RtmpProtocolHandler σ → Prop) (src : ByteSource σ) :
    List RecvCall → RtmpProtocolHandler σ → Prop
  | [], _ => True
  | call :: calls, h => ∀ out h', RecvCall.run src call h = .ok (.ok out, h') →
      (∀ code, out = .error code → P h h') ∧ Failing P src calls h'

/-- The calls of a run that return, with what they hand out. -/
def returned (calls : List RecvCall) (outs : List (Except ℤ (Option RtmpMessage))) :
    List (RecvCall × Except ℤ (Option RtmpMessage)) :=
  (calls.zip outs).filter fun x => x.2.isOk

/-- **A run delivers what it would without the failures**: the calls that return hand out over the
calm source what they hand out, and reach the same state, but for the chunk size in force. -/
def DeliversAgain (src : ByteSource σ) (calm : ByteSource τ) (V : σ → τ) (calls : List RecvCall)
    (h : RtmpProtocolHandler σ) : Prop :=
  ∀ outs h', calls.mapM (RecvCall.run src) h = .ok (.ok outs, h') →
    ∃ c, ((returned calls outs).map Prod.fst).mapM (RecvCall.run calm) (calmed V h)
      = .ok (.ok ((returned calls outs).map Prod.snd), { calmed V h' with inChunkSize := c })

/-- The call of a run. -/
theorem recv_of_run {call : RecvCall} {h h' : RtmpProtocolHandler σ}
    {out : Except ℤ (Option RtmpMessage)}
    (hrun : RecvCall.run src call h = .ok (.ok out, h')) :
    recvInterlacedMessage src call.ext { h with inChunkSize := call.inChunkSize }
      = .ok (out, h') :=
  run_of_attempt hrun

/-- A call of a run that returns does the same without the failures. -/
theorem calm_run_of_ok (hsrc : src.Resumes calm V rest) {call : RecvCall}
    {h h' : RtmpProtocolHandler σ} {out : Option RtmpMessage}
    (hrun : RecvCall.run src call h = .ok (.ok (.ok out), h')) :
    RecvCall.run calm call (calmed V h) = .ok (.ok (.ok out), calmed V h') := by
  have hrecv := recv_of_run hrun
  exact run_attempt (mirrors_recvInterlacedMessage hsrc call.ext _ out h' hrecv)

/-- A call of a run whose first read fails leaves the calm handler as it was. -/
theorem calmed_of_first (hsrc : src.Resumes calm V rest) {call : RecvCall}
    {h h' : RtmpProtocolHandler σ} {code : ℤ} (hfirst : FirstReadFails src h)
    (hrun : RecvCall.run src call h = .ok (.ok (.error code), h')) :
    calmed V h' = { calmed V h with inChunkSize := call.inChunkSize } := by
  have hfirst' : FirstReadFails src { h with inChunkSize := call.inChunkSize } := hfirst
  have hrecv := recv_of_run hrun
  rw [run_recvInterlacedMessage_of_first hfirst'] at hrecv
  cases hrecv
  rw [calmed, calmed, hsrc.unread h.ioBuffer 1 hfirst]

/-- **Where every failure is one of a first read, the run delivers what it would without them.** -/
theorem calm_run_of_first (hsrc : src.Resumes calm V rest) {calls : List RecvCall}
    {h : RtmpProtocolHandler σ} (hfirst : Failing (fun h _ => FirstReadFails src h) src calls h)
    (c₀ : ℤ) {outs : List (Except ℤ (Option RtmpMessage))} {h' : RtmpProtocolHandler σ}
    (hrun : calls.mapM (RecvCall.run src) h = .ok (.ok outs, h')) :
    ∃ c, ((returned calls outs).map Prod.fst).mapM (RecvCall.run calm)
        { calmed V h with inChunkSize := c₀ }
      = .ok (.ok ((returned calls outs).map Prod.snd), { calmed V h' with inChunkSize := c }) := by
  induction calls generalizing h c₀ outs with
  | nil =>
    cases hrun
    exact ⟨c₀, rfl⟩
  | cons call calls ih =>
    rw [List.mapM_cons] at hrun
    obtain ⟨out, h₁, hcall, hrun⟩ := run_bind_eq_ok hrun
    obtain ⟨outs₁, h₂, hcalls, hrun⟩ := run_bind_eq_ok hrun
    cases hrun
    obtain ⟨hfail, hrest⟩ := hfirst out h₁ hcall
    cases out with
    | error code =>
      have hcalm := calmed_of_first hsrc (hfail code rfl) hcall
      obtain ⟨c, hc⟩ := ih hrest c₀ hcalls
      rw [hcalm] at hc
      exact ⟨c, hc⟩
    | ok out =>
      obtain ⟨c, hc⟩ := ih hrest h₁.inChunkSize hcalls
      refine ⟨c, ?_⟩
      have hcalm : RecvCall.run calm call { calmed V h with inChunkSize := c₀ }
          = .ok (.ok (.ok out), calmed V h₁) := calm_run_of_ok hsrc hcall
      have hreturned : returned (call :: calls) (.ok out :: outs₁)
          = (call, .ok out) :: returned calls outs₁ := rfl
      rw [hreturned, List.map_cons, List.mapM_cons, run_bind_ok hcalm]
      exact (run_bind_ok hc).trans rfl

theorem Failing.congr {P Q : RtmpProtocolHandler σ → RtmpProtocolHandler σ → Prop}
    (hPQ : ∀ call h h' code, RecvCall.run src call h = .ok (.ok (.error code), h') →
      (P h h' ↔ Q h h')) (calls : List RecvCall) (h : RtmpProtocolHandler σ) :
    Failing P src calls h ↔ Failing Q src calls h := by
  induction calls generalizing h with
  | nil => exact Iff.rfl
  | cons call calls ih =>
    refine forall₃_congr fun out h' hrun => and_congr (forall₂_congr fun code hcode => ?_) (ih h')
    subst hcode
    exact hPQ call h h' code hrun

/-- **A run is retried safely if and only if every call that fails does so at its first read**: then
each of them leaves the chunk streams and the source as they were, and the others hand out what they
do without the failures. -/
theorem retry_iff_first_read_fails (hsrc : src.Resumes calm V rest) (calls : List RecvCall)
    (h : RtmpProtocolHandler σ) :
    Failing (Preserved V rest) src calls h ∧ DeliversAgain src calm V calls h
      ↔ Failing (fun h _ => FirstReadFails src h) src calls h := by
  have hiff : Failing (Preserved V rest) src calls h
      ↔ Failing (fun h _ => FirstReadFails src h) src calls h := by
    refine Failing.congr (fun call h h' code hrun => ?_) calls h
    have hpreserved := preserved_iff hsrc (recv_of_run hrun)
    exact preserved_inChunkSize.symm.trans hpreserved
  refine ⟨fun hpres => hiff.1 hpres.1, fun hfirst => ⟨hiff.2 hfirst, ?_⟩⟩
  intro outs h' hrun
  exact calm_run_of_first hsrc hfirst h.inChunkSize hrun

/-- Audio of one byte, in one chunk. -/
def audioChunk : Bytes := [3, 0, 0, 5, 0, 0, 1, 8, 1, 0, 0, 0, 7]

/-- The handler before the audio, with a timeout at each read of the list. -/
def beforeAudio (timeouts : List Bool) : RtmpProtocolHandler (Bytes × List Bool) :=
  .new (audioChunk, timeouts) true 128

def audioCall : RecvCall := ⟨128, by decide, 0⟩

/-- The first read of the first call runs into a timeout. -/
theorem retry_iff_first_read_fails_audio :
    Failing (Preserved Prod.fst id) ByteSource.ofBytes.interrupted [audioCall, audioCall]
        (beforeAudio [true])
      ∧ DeliversAgain ByteSource.ofBytes.interrupted ByteSource.ofBytes Prod.fst
        [audioCall, audioCall] (beforeAudio [true])
      ↔ Failing (fun h _ => FirstReadFails ByteSource.ofBytes.interrupted h)
        ByteSource.ofBytes.interrupted [audioCall, audioCall] (beforeAudio [true]) :=
  retry_iff_first_read_fails ByteSource.interrupted_ofBytes _ _

/-- **A timeout at the second read loses the first byte of the chunk**: the next call takes the
message header for a basic header, where the message would have been handed out. -/
theorem timeout_loses_basic_header :
    (∃ h₁ h₂, RecvCall.run ByteSource.ofBytes.interrupted audioCall (beforeAudio [false, true])
          = .ok (.ok (.error errorSocketTimeout), h₁)
        ∧ h₁.ioBuffer.1 = audioChunk.tail
        ∧ RecvCall.run ByteSource.ofBytes.interrupted audioCall h₁
          = .ok (.ok (.error errorSocketRead), h₂))
      ∧ (∃ m h₁, RecvCall.run ByteSource.ofBytes audioCall
            (calmed Prod.fst (beforeAudio [false, true])) = .ok (.ok (.ok (some m)), h₁)
          ∧ m.payload = some [7])
      ∧ ¬ Failing (Preserved Prod.fst id) ByteSource.ofBytes.interrupted [audioCall, audioCall]
        (beforeAudio [false, true]) := by
  refine ⟨⟨_, _, rfl, rfl, rfl⟩, ⟨_, _, rfl, ?_⟩, fun hfailing => ?_⟩
  · decide
  · have hpres := (hfailing _ _ rfl).1 _ rfl
    have hrest := congrArg List.length hpres.rest_eq
    exact absurd hrest (by decide)

end RtmpProtocolHandler

end SmartStreaming
