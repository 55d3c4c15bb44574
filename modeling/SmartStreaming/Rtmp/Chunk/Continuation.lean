import SmartStreaming.Rtmp.Chunk.Retry

/-!
# Rtmp/Chunk/Continuation — the header of a message while its chunks come

A chunk that continues a message may have a header of the formats 1, 2 or 3, and its fields go into
the one header that the chunk stream has.  `KeepsHeader` says which of them leave the fields that
the first chunk has established: only those that repeat the type and add nothing to the timestamp.
Other messages may come in between (`Receiving`), and the message that is complete has the header of
the chunk stream.
-/

namespace SmartStreaming

open Machinery Comp

/-- The fields that a message has from its first chunk. -/
structure SameFields (a b : MessageHeader) : Prop where
  timestamp : a.timestamp = b.timestamp
  messageType : a.messageType = b.messageType
  payloadLength : a.payloadLength = b.payloadLength
  streamId : a.streamId = b.streamId

theorem SameFields.trans {a b c : MessageHeader} (h : SameFields a b) (h' : SameFields b c) :
    SameFields a c :=
  ⟨h.timestamp.trans h'.timestamp, h.messageType.trans h'.messageType,
    h.payloadLength.trans h'.payloadLength, h.streamId.trans h'.streamId⟩

theorem SameFields.symm {a b : MessageHeader} (h : SameFields a b) : SameFields b a :=
  ⟨h.timestamp.symm, h.messageType.symm, h.payloadLength.symm, h.streamId.symm⟩

namespace RtmpProtocolHandler

variable {σ : Type} {src : ByteSource σ}

/-! ## The header of a chunk -/

/-- The three bytes of timestamp in a header of the formats 0, 1 and 2. -/
def threeBytes (data : Bytes) : ℕ := leNat [data.getD 2 0, data.getD 1 0, data.getD 0 0]

/-- The chunk has an extended timestamp. -/
def Extends (fmt : ℕ) (data : Bytes) (chunk : RtmpChunkStream) : Prop :=
  if fmt ≤ 2 then rtmpExtendedTimestamp ≤ (threeBytes data : ℤ) else chunk.extendedTimestamp

instance (fmt : ℕ) (data : Bytes) (chunk : RtmpChunkStream) : Decidable (Extends fmt data chunk) :=
  inferInstanceAs (Decidable (if fmt ≤ 2 then _ ≤ _ else chunk.extendedTimestamp = true))

/-- **The chunk leaves the header of the message as it is**: it repeats the type, and it adds
nothing to the timestamp; an extended timestamp is taken for that of the message only where this is
zero and the handler does not fix timestamps. -/
def KeepsHeader (fixRtmpTimestamp : Bool) (ext : BitVec 32) (fmt : ℕ) (data : Bytes)
    (chunk : RtmpChunkStream) : Prop :=
  (fmt = 1 → data.getD 6 0 = chunk.header.messageType)
    ∧ if Extends fmt data chunk then
        fixRtmpTimestamp ∨ chunk.header.timestamp ≠ 0 ∨ ext = 0
      else fmt ≤ 2 → threeBytes data = 0

/-- The chunk stream behind the fields of a chunk that continues a message. -/
def fieldsSet (fmt : ℕ) (data : Bytes) (chunk : RtmpChunkStream) : RtmpChunkStream :=
  if fmt ≤ 2 then
    if fmt ≤ 1 then setLength fmt data (setTimestamp fmt data chunk)
    else setTimestamp fmt data chunk
  else chunk

/-- …and behind its extended timestamp. -/
def extendedSet (fix : Bool) (fmt : ℕ) (ext : BitVec 32) (chunk : RtmpChunkStream) :
    RtmpChunkStream :=
  if chunk.extendedTimestamp then (setExtended fix false fmt ext chunk).1 else chunk

/-- **The header behind a chunk that continues a message.** -/
def headerAfter (fix : Bool) (ext : BitVec 32) (fmt : ℕ) (data : Bytes)
    (chunk : RtmpChunkStream) : MessageHeader :=
  let header := (extendedSet fix fmt ext (fieldsSet fmt data chunk)).header
  { header with timestamp := header.timestamp % 2 ^ 32 }

section Fields

variable {fmt : ℕ} {data : Bytes} {chunk : RtmpChunkStream}

theorem toInt_delta (data : Bytes) :
    (fromMemory 32 [data.getD 2 0, data.getD 1 0, data.getD 0 0, 0]).toInt = threeBytes data :=
  toInt_fromMemory_three _ _ _

theorem threeBytes_lt (data : Bytes) : threeBytes data < 2 ^ 24 := leNat_three_lt _ _ _

/-- The timestamp delta that the three bytes set. -/
def delta (data : Bytes) : BitVec 32 :=
  fromMemory 32 [data.getD 2 0, data.getD 1 0, data.getD 0 0, 0]

theorem setTimestamp_of_le (h : rtmpExtendedTimestamp ≤ (threeBytes data : ℤ)) :
    setTimestamp fmt data chunk
      = { chunk with
          header := { chunk.header with timestampDelta := delta data }
          extendedTimestamp := true } := by
  unfold setTimestamp
  dsimp only
  rw [toInt_delta, if_pos (show (threeBytes data : ℤ) ≥ rtmpExtendedTimestamp from h), delta]

theorem setTimestamp_of_lt (h : (threeBytes data : ℤ) < rtmpExtendedTimestamp) (hfmt : fmt ≠ 0) :
    setTimestamp fmt data chunk
      = { chunk with
          header := { chunk.header with
            timestamp := chunk.header.timestamp + threeBytes data, timestampDelta := delta data }
          extendedTimestamp := false
          extendTime := 0 } := by
  unfold setTimestamp
  dsimp only
  rw [toInt_delta, if_neg (not_le.2 h), if_neg hfmt, delta]

/-- A handler that fixes timestamps keeps that of the message. -/
theorem setExtended_of_fix (ext : BitVec 32) :
    (setExtended true false fmt ext chunk).1.header = chunk.header := by
  simp [setExtended]

/-- The others keep it where it is there and the extended timestamp is not the same. -/
theorem setExtended_of_not_fix (ext : BitVec 32) :
    (setExtended false false fmt ext chunk).1.header
      = if 0 < (BitVec.ofInt 32 chunk.header.timestamp).toNat
            ∧ BitVec.ofInt 32 chunk.header.timestamp ≠ ext then chunk.header
        else { chunk.header with timestamp := ext.toNat } := by
  simp [setExtended]

/-- **An extended timestamp changes that of the message only where this is zero.** -/
theorem setExtended_timestamp_iff (fix : Bool) (ext : BitVec 32) {t : ℤ}
    (ht : chunk.header.timestamp = t) (h₀ : 0 ≤ t) (h₁ : t < 2 ^ 32) :
    (setExtended fix false fmt ext chunk).1.header.timestamp % 2 ^ 32 = t
      ↔ fix ∨ t ≠ 0 ∨ ext = 0 := by
  subst ht
  cases fix with
  | true =>
    rw [setExtended_of_fix]
    exact iff_of_true (by omega) (Or.inl rfl)
  | false =>
    have hnat : ((BitVec.ofInt 32 chunk.header.timestamp).toNat : ℤ) = chunk.header.timestamp := by
      rw [BitVec.toNat_ofInt]
      omega
    have hlt := ext.isLt
    rw [setExtended_of_not_fix]
    by_cases hzero : chunk.header.timestamp = 0
    · -- the extended timestamp is taken
      have hnot : ¬ 0 < (BitVec.ofInt 32 chunk.header.timestamp).toNat := by omega
      have hext : ext = 0 ↔ ext.toNat = 0 := BitVec.toNat_eq
      rw [if_neg fun h => hnot h.1, hzero, hext]
      simp only [Bool.false_eq_true, ne_eq, not_true_eq_false, false_or]
      omega
    · refine iff_of_true ?_ (Or.inr (Or.inl hzero))
      by_cases hsame : BitVec.ofInt 32 chunk.header.timestamp = ext
      · rw [if_neg fun h => h.2 hsame, ← hsame]
        dsimp only
        omega
      · rw [if_pos ⟨by omega, hsame⟩]
        omega

/-- The other fields are not changed by an extended timestamp. -/
theorem setExtended_other (fix : Bool) (ext : BitVec 32) :
    (setExtended fix false fmt ext chunk).1.header
      = { chunk.header with
          timestamp := (setExtended fix false fmt ext chunk).1.header.timestamp } := by
  cases fix with
  | true => rw [setExtended_of_fix]
  | false =>
    rw [setExtended_of_not_fix]
    split <;> rfl

/-- The length of a chunk that continues a message is the one it has. -/
theorem setLength_of_ne (hfmt : fmt ≠ 0)
    (hlen : payloadLengthOf data = chunk.header.payloadLength) :
    setLength fmt data chunk
      = { chunk with header := { chunk.header with messageType := data.getD 6 0 } } := by
  rw [setLength, if_neg hfmt, hlen]

/-- **The fields of a chunk that continues a message** set its type, and its timestamp where they
have one. -/
theorem fieldsSet_eq (hfmt : fmt ≠ 0)
    (hlen : fmt ≤ 1 → payloadLengthOf data = chunk.header.payloadLength) :
    ∃ timestampDelta extendTime, fieldsSet fmt data chunk
      = { chunk with
          header := { chunk.header with
            timestamp := chunk.header.timestamp
              + if fmt ≤ 2 ∧ ¬ Extends fmt data chunk then (threeBytes data : ℤ) else 0
            timestampDelta := timestampDelta
            messageType := if fmt = 1 then data.getD 6 0 else chunk.header.messageType }
          extendedTimestamp := decide (Extends fmt data chunk)
          extendTime := extendTime } := by
  have hsame : fmt ≤ 1 → payloadLengthOf data
      = (setTimestamp fmt data chunk).header.payloadLength := fun hone =>
    (hlen hone).trans (setTimestamp_payloadLength fmt data chunk).symm
  by_cases htwo : fmt ≤ 2
  · have hextends : Extends fmt data chunk ↔ rtmpExtendedTimestamp ≤ (threeBytes data : ℤ) := by
      rw [Extends, if_pos htwo]
    by_cases hle : rtmpExtendedTimestamp ≤ (threeBytes data : ℤ)
    · have hyes := hextends.2 hle
      refine ⟨delta data, chunk.extendTime, ?_⟩
      by_cases hone : fmt = 1
      · rw [fieldsSet, if_pos htwo, if_pos hone.le, setLength_of_ne hfmt (hsame hone.le),
          setTimestamp_of_le hle]
        subst hone
        simp [hyes]
      · rw [fieldsSet, if_pos htwo, if_neg (by omega), setTimestamp_of_le hle]
        simp [hyes, hone]
    · have hno := mt hextends.1 hle
      refine ⟨delta data, 0, ?_⟩
      by_cases hone : fmt = 1
      · rw [fieldsSet, if_pos htwo, if_pos hone.le, setLength_of_ne hfmt (hsame hone.le),
          setTimestamp_of_lt (not_le.1 hle) hfmt]
        subst hone
        simp [hno]
      · rw [fieldsSet, if_pos htwo, if_neg (by omega), setTimestamp_of_lt (not_le.1 hle) hfmt]
        simp [hno, htwo, hone]
  · refine ⟨chunk.header.timestampDelta, chunk.extendTime, ?_⟩
    have hextends : Extends fmt data chunk ↔ chunk.extendedTimestamp = true := by
      rw [Extends, if_neg htwo]
    rw [fieldsSet, if_neg htwo]
    simp [hextends, htwo, show fmt ≠ 1 by omega]

/-- What the extended timestamp, or the three bytes, make of the timestamp. -/
theorem headerAfter_eq (fix : Bool) (ext : BitVec 32) (hfmt : fmt ≠ 0)
    (hlen : fmt ≤ 1 → payloadLengthOf data = chunk.header.payloadLength)
    (h₀ : 0 ≤ chunk.header.timestamp) (h₁ : chunk.header.timestamp < 2 ^ 32) :
    ∃ timestampDelta timestamp, headerAfter fix ext fmt data chunk
        = { chunk.header with
            timestamp := timestamp
            timestampDelta := timestampDelta
            messageType := if fmt = 1 then data.getD 6 0 else chunk.header.messageType }
      ∧ (timestamp = chunk.header.timestamp
        ↔ if Extends fmt data chunk then fix ∨ chunk.header.timestamp ≠ 0 ∨ ext = 0
          else fmt ≤ 2 → threeBytes data = 0) := by
  obtain ⟨timestampDelta, extendTime, hset⟩ := fieldsSet_eq hfmt hlen
  have hlt := threeBytes_lt data
  rw [headerAfter, extendedSet, hset]
  by_cases hext : Extends fmt data chunk
  · rw [if_pos (decide_eq_true hext), setExtended_other, if_pos hext]
    refine ⟨_, _, rfl, ?_⟩
    refine setExtended_timestamp_iff fix ext ?_ h₀ h₁
    dsimp only
    rw [if_neg fun h => h.2 hext, add_zero]
  · rw [if_neg (by simp [hext]), if_neg hext]
    refine ⟨_, _, rfl, ?_⟩
    dsimp only
    split
    · rename_i htwo
      have hmod : (chunk.header.timestamp + threeBytes data) % 2 ^ 32 = chunk.header.timestamp
          ↔ threeBytes data = 0 := by omega
      rw [hmod]
      exact ⟨fun h _ => h, fun h => h htwo.1⟩
    · rename_i hnot
      exact iff_of_true (by omega) fun htwo => absurd ⟨htwo, hext⟩ hnot

/-- **The header behind a chunk that continues a message has the fields from before exactly where
the chunk keeps them.** -/
theorem headerAfter_iff (fix : Bool) (ext : BitVec 32) (hfmt : fmt ≠ 0)
    (hlen : fmt ≤ 1 → payloadLengthOf data = chunk.header.payloadLength)
    (h₀ : 0 ≤ chunk.header.timestamp) (h₁ : chunk.header.timestamp < 2 ^ 32) :
    SameFields (headerAfter fix ext fmt data chunk) chunk.header
      ↔ KeepsHeader fix ext fmt data chunk := by
  obtain ⟨timestampDelta, timestamp, hafter, hiff⟩ := headerAfter_eq fix ext hfmt hlen h₀ h₁
  rw [hafter, KeepsHeader, ← hiff]
  refine ⟨fun hsame => ⟨fun hone => ?_, hsame.timestamp⟩, fun hkeep => ⟨hkeep.2, ?_, rfl, rfl⟩⟩
  · have htype := hsame.messageType
    rwa [if_pos hone] at htype
  · dsimp only
    split
    · exact hkeep.1 ‹_›
    · rfl

end Fields

/-! ## The code -/

/-- The bytes of the message header that the source gives. -/
def headerBytes (src : ByteSource σ) (fmt : ℕ) (io : σ) : Bytes :=
  if mhSize fmt > 0 then (src.readBytes io (mhSize fmt)).1.2 else []

/-- Between its header and its payload, and between its chunks: the message has the header of the
chunk stream, with a timestamp of 32 bits. -/
structure Begun (chunk : RtmpChunkStream) : Prop where
  msg : ∃ m, chunk.msg = some m ∧ m.header = chunk.header
  timestamp_nonneg : 0 ≤ chunk.header.timestamp
  timestamp_lt : chunk.header.timestamp < 2 ^ 32

theorem holds_readHeaderBytes_eq (fmt : ℕ) (s : RtmpChunkStream × σ) :
    Holds (fun _ => True) (fun _ _ => True)
      (fun data s' => data = headerBytes src fmt s.2 ∧ s'.1 = s.1) (readHeaderBytes src fmt) s := by
  simp only [readHeaderBytes, onSource, readIo, holds_ite, holds_zoom, holds_bind, holds_get,
    holds_put, holds_fail, holds_pure, headerBytes]
  refine ⟨fun hpos => ⟨fun _ => trivial, fun _ => ?_⟩, fun hpos => ?_⟩
  · rw [if_pos hpos]
    exact ⟨rfl, trivial⟩
  · rw [if_neg hpos]
    exact ⟨rfl, trivial⟩

/-- The fields that a continued message accepts. -/
theorem holds_readFields_continued (fmt : ℕ) (data : Bytes) (s : RtmpChunkStream × σ) :
    Holds (fun _ => True) (fun _ _ => True)
      (fun _ s' => s'.1 = fieldsSet fmt data s.1
        ∧ (fmt ≤ 1 → payloadLengthOf data = s.1.header.payloadLength))
      (readFields false fmt data) s := by
  simp only [readFields, getChunk, setChunk, holds_bind, holds_get, holds_pure, holds_put,
    holds_ite, holds_fail, fieldsSet]
  refine ⟨fun htwo => ⟨fun hone => ⟨fun _ => trivial, fun hsame => ?_⟩, fun hone => ?_⟩,
    fun htwo => ⟨fun hfirst => absurd hfirst.1 (by decide), fun _ => ?_⟩⟩
  · rw [if_pos htwo, if_pos hone]
    refine ⟨rfl, fun _ => ?_⟩
    have hlen := not_not.1 fun hne => hsame ⟨rfl, hne⟩
    rw [← hlen, setTimestamp_payloadLength]
  · rw [if_pos htwo, if_neg hone]
    exact ⟨rfl, fun h => absurd h hone⟩
  · rw [if_neg htwo]
    exact ⟨rfl, fun h => absurd (h.trans one_le_two) htwo⟩

theorem holds_readExtended_continued (fix : Bool) (fmt : ℕ) (ext : BitVec 32)
    (s : RtmpChunkStream × σ) :
    Holds (fun _ => True) (fun _ _ => True) (fun _ s' => s'.1 = extendedSet fix fmt ext s.1)
      (readExtended src fix false fmt ext) s := by
  simp only [readExtended, getChunk, setChunk, onSource, holds_bind, holds_get, holds_pure,
    holds_put, holds_ite, holds_zoom, extendedSet]
  refine ⟨fun hext => ⟨fun _ => ?_, fun _ => ?_⟩, fun hext => ?_⟩
  · rw [if_pos hext]
  · rw [if_pos hext]
  · rw [if_neg hext]

/-- The end of a header. -/
theorem holds_finishHeader_begun (s : RtmpChunkStream × σ) :
    Holds (fun _ => True) (fun _ _ => True)
      (fun _ s' => Begun s'.1 ∧ s'.1.header
        = { s.1.header with timestamp := s.1.header.timestamp % 2 ^ 32 })
      finishHeader s := by
  simp only [finishHeader, getChunk, setChunk, cassert, holds_bind, holds_get, holds_pure,
    holds_put, holds_ite, holds_stop]
  refine ⟨fun _ => ?_, fun _ => trivial⟩
  cases s.1.msg with
  | none => trivial
  | some m =>
    refine ⟨⟨⟨_, rfl, rfl⟩, ?_, ?_⟩, trivial⟩
    · exact Int.emod_nonneg _ (by decide)
    · exact Int.emod_lt_of_pos _ (by decide)

/-- **A header that begins or continues a message leaves it begun.** -/
theorem holds_readMessageHeader_begun (fix : Bool) (ext : BitVec 32) (fmt : ℕ)
    (s : RtmpChunkStream × σ) :
    Holds (fun _ => True) (fun _ _ => True) (fun _ s' => Begun s'.1)
      (readMessageHeader src fix ext fmt) s := by
  simp only [readMessageHeader, holds_bind, holds_ite, holds_fail]
  refine (holds_true _ s).imp (fun _ _ => id) fun chunk s₁ _ => ⟨fun _ => trivial, fun _ =>
    ⟨fun _ => trivial, fun _ => ?_⟩⟩
  refine (holds_true _ s₁).imp (fun _ _ => id) fun _ s₂ _ => ?_
  refine (holds_true _ s₂).imp (fun _ _ => id) fun data s₃ _ => ?_
  refine (holds_true _ s₃).imp (fun _ _ => id) fun _ s₄ _ => ?_
  refine (holds_true _ s₄).imp (fun _ _ => id) fun _ s₅ _ => ?_
  exact (holds_finishHeader_begun s₅).imp (fun _ _ => id) fun _ _ h => h.1

/-- **A header that continues a message.** -/
theorem holds_readMessageHeader_continued (fix : Bool) (ext : BitVec 32) (fmt : ℕ)
    (s : RtmpChunkStream × σ) {m : RtmpMessage} (hmsg : s.1.msg = some m) :
    Holds (fun _ => True) (fun _ _ => True)
      (fun _ s' => fmt ≠ 0 ∧ (fmt ≤ 1 → payloadLengthOf (headerBytes src fmt s.2)
          = s.1.header.payloadLength)
        ∧ s'.1.header = headerAfter fix ext fmt (headerBytes src fmt s.2) s.1)
      (readMessageHeader src fix ext fmt) s := by
  have hsame : { s.1 with msg := some (s.1.msg.getD {}) : RtmpChunkStream } = s.1 := by
    rw [hmsg, Option.getD_some, ← hmsg]
  simp only [readMessageHeader, getChunk, setChunk, holds_bind, holds_get, holds_pure, holds_put,
    holds_ite, holds_fail]
  refine ⟨fun _ => trivial, fun _ => ⟨fun _ => trivial, fun hfmt => ?_⟩⟩
  rw [hsame, hmsg, Option.isNone_some]
  rw [hmsg, Option.isSome_some] at hfmt
  refine (holds_readHeaderBytes_eq fmt _).imp (fun _ _ => id) ?_
  rintro data s₁ ⟨rfl, hs₁⟩
  refine (holds_readFields_continued fmt _ s₁).imp (fun _ _ => id) ?_
  rintro - s₂ ⟨hs₂, hlen⟩
  refine (holds_readExtended_continued fix fmt ext s₂).imp (fun _ _ => id) fun _ s₃ hs₃ => ?_
  refine (holds_finishHeader_begun s₃).imp (fun _ _ => id) fun _ s₄ hs₄ => ?_
  rw [hs₁] at hs₂ hlen
  refine ⟨fun hzero => hfmt ⟨rfl, hzero⟩, hlen, ?_⟩
  rw [hs₄.2, hs₃, hs₂]
  rfl

theorem Begun.withMsg {chunk : RtmpChunkStream} (h : Begun chunk) {m : RtmpMessage}
    (hm : m.header = chunk.header) : Begun { chunk with msg := some m } :=
  ⟨⟨m, rfl, hm⟩, h.timestamp_nonneg, h.timestamp_lt⟩

theorem holds_readPayloadBytes_header {msg : RtmpMessage} (n : ℤ) {chunk : RtmpChunkStream}
    {io : σ} (h : Begun chunk) (hmsg : msg.header = chunk.header) :
    Holds (fun _ => True) (fun _ _ => True)
      (fun _ s' => s'.1.header = chunk.header ∧ Begun s'.1) (readPayloadBytes src msg n)
      (chunk, io) := by
  rw [readPayloadBytes, holds_bind]
  cases msg.payload with
  | none => trivial
  | some payload =>
    rw [holds_some, holds_ite]
    refine ⟨fun _ => ?_, fun _ => trivial⟩
    simp only [holds_bind, holds_get]
    refine (holds_true _ (chunk, io)).imp (fun _ _ => id) fun payload' s₁ _ => ?_
    simp only [holds_put, holds_ite, holds_fail, holds_pure]
    exact ⟨fun _ => trivial, fun _ => ⟨trivial, h.withMsg hmsg⟩⟩

/-- **The payload leaves the header**, and what is handed out has it. -/
theorem holds_readMessagePayload_header (inChunkSize : ℤ) (s : RtmpChunkStream × σ)
    (h : Begun s.1) :
    Holds (fun _ => True) (fun _ _ => True)
      (fun out s' => s'.1.header = s.1.header ∧ (out = none → Begun s'.1)
        ∧ ∀ m, out = some m → m.header = s.1.header)
      (readMessagePayload src inChunkSize) s := by
  obtain ⟨m, hm, hheader⟩ := h.msg
  simp only [readMessagePayload, getChunk, setChunk, holds_bind, holds_get, holds_pure, holds_put,
    holds_ite, hm, holds_some]
  refine ⟨fun _ => ⟨trivial, fun hnone => (by cases hnone), fun m' hm' => ?_⟩, fun _ => ?_⟩
  · rwa [← Option.some.inj hm']
  · have hready : (ensurePayload s.1 m).header = s.1.header := hheader
    refine (holds_readPayloadBytes_header _ (h.withMsg hready) hready).imp (fun _ _ => id) ?_
    rintro - s₁ ⟨hheader₁, h₁⟩
    obtain ⟨m₁, hm₁, hmsg₁⟩ := h₁.msg
    simp only [finishPayload, getChunk, setChunk, holds_bind, holds_get, holds_pure, holds_put,
      holds_ite, hm₁, holds_some]
    refine ⟨fun _ => ⟨hheader₁, fun hnone => (by cases hnone), fun m' hm' => ?_⟩, fun _ =>
      ⟨hheader₁, fun _ => h₁.withMsg hmsg₁, fun m' hm' => by cases hm'⟩⟩
    rw [← Option.some.inj hm']
    exact hmsg₁.trans hheader₁

/-- A chunk leaves its message begun, or hands it out with the header of the chunk stream. -/
theorem holds_chunk_begun (fix : Bool) (ext : BitVec 32) (fmt : ℕ) (inChunkSize : ℤ)
    (s : RtmpChunkStream × σ) :
    Holds (fun _ => True) (fun _ _ => True)
      (fun out s' => (out = none → Begun s'.1) ∧ ∀ m, out = some m → m.header = s'.1.header)
      (do readMessageHeader src fix ext fmt; readMessagePayload src inChunkSize) s := by
  rw [holds_bind]
  refine (holds_readMessageHeader_begun fix ext fmt s).imp (fun _ _ => id) fun _ s₁ hbegun => ?_
  refine (holds_readMessagePayload_header inChunkSize s₁ hbegun).imp (fun _ _ => id) ?_
  rintro out s₂ ⟨hheader, hbegun₂, hout⟩
  exact ⟨hbegun₂, fun m hm => (hout m hm).trans hheader.symm⟩

/-- **A chunk that continues a message leaves the fields of its header exactly where it keeps
them.** -/
theorem holds_chunk_continued (fix : Bool) (ext : BitVec 32) (fmt : ℕ) (inChunkSize : ℤ)
    (s : RtmpChunkStream × σ) (h : Begun s.1) :
    Holds (fun _ => True) (fun _ _ => True)
      (fun _ s' => SameFields s'.1.header s.1.header
        ↔ KeepsHeader fix ext fmt (headerBytes src fmt s.2) s.1)
      (do readMessageHeader src fix ext fmt; readMessagePayload src inChunkSize) s := by
  obtain ⟨m, hm, -⟩ := h.msg
  rw [holds_bind]
  refine ((holds_readMessageHeader_continued fix ext fmt s hm).and
    (holds_readMessageHeader_begun fix ext fmt s)).imp (fun _ _ => id) ?_
  rintro - s₁ ⟨⟨hfmt, hlen, hheader⟩, hbegun₁⟩
  refine (holds_readMessagePayload_header inChunkSize s₁ hbegun₁).imp (fun _ _ => id) ?_
  rintro out s₂ ⟨hheader₂, -, -⟩
  rw [hheader₂, hheader]
  exact headerAfter_iff fix ext hfmt hlen h.timestamp_nonneg h.timestamp_lt

/-! ## A call -/

/-- The next chunk has a header of the format `fmt` with the bytes `data`, on the chunk stream
`cid`. -/
def NextHeader (src : ByteSource σ) (io : σ) (fmt : ℕ) (cid : ℤ) (data : Bytes) : Prop :=
  ∃ io', readBasicHeader src io = .ok (.ok (fmt, cid), io') ∧ data = headerBytes src fmt io'

theorem NextHeader.cid_nonneg {io : σ} {fmt : ℕ} {cid : ℤ} {data : Bytes}
    (h : NextHeader src io fmt cid data) : 0 ≤ cid := by
  obtain ⟨io', hbasic, -⟩ := h
  exact (holds_readBasicHeader io).elim_ok hbasic

section Call

variable {h h' : RtmpProtocolHandler σ} {call : RecvCall} {fmt : ℕ} {cid cid' : ℤ} {data : Bytes}

/-- A call that returns is the reading of the next chunk on its chunk stream. -/
theorem recv_next {io' : σ} {chunk : RtmpChunkStream} {out : Option RtmpMessage}
    {Q : Option RtmpMessage → RtmpChunkStream × σ → Prop}
    (hbasic : readBasicHeader src h.ioBuffer = .ok (.ok (fmt, cid), io'))
    (hget : h.chunkStream cid = some chunk)
    (hrun : RecvCall.run src call h = .ok (.ok (.ok out), h'))
    (hQ : Holds (fun _ => True) (fun _ _ => True) Q (do
      readMessageHeader src h.fixRtmpTimestamp call.ext fmt
      readMessagePayload src call.inChunkSize) (chunk, io')) :
    ∃ s, Q out s ∧ h'.chunkStream cid = some s.1 := by
  have hcid : 0 ≤ cid := (holds_readBasicHeader h.ioBuffer).elim_ok hbasic
  have hget' : ({ h with inChunkSize := call.inChunkSize, ioBuffer := io' }
      : RtmpProtocolHandler σ).chunkStream cid = some chunk := hget
  have hholds : Holds (fun _ => True) (fun _ _ => True)
      (fun out h' => ∃ s, Q out s ∧ h'.chunkStream cid = some s.1)
      (recvInterlacedMessage src call.ext) { h with inChunkSize := call.inChunkSize } := by
    simp only [recvInterlacedMessage, holds_bind, holds_zoom]
    refine holds_of_run hbasic ?_
    simp only [cassert, if_pos (show cid ≥ 0 from hcid), holds_pure, holds_get, hget', holds_some,
      onChunk, holds_zoom]
    refine hQ.imp (fun _ _ => id) fun out s hs => ⟨s, hs, ?_⟩
    exact chunkStream_setChunkStream_of_some hget' s.1
  exact hholds.elim_ok (recv_of_run hrun)

/-- A call leaves the other chunk streams. -/
theorem chunkStream_of_next_ne {r : Except ℤ (Option RtmpMessage)}
    (hnext : NextHeader src h.ioBuffer fmt cid' data) (h₀ : 0 ≤ cid) (hne : cid ≠ cid')
    (hrun : RecvCall.run src call h = .ok (.ok r, h')) :
    h'.chunkStream cid = h.chunkStream cid := by
  have hcid' := hnext.cid_nonneg
  obtain ⟨io', hbasic, -⟩ := hnext
  have hholds : Holds (fun _ => True) (fun _ h' => h'.chunkStream cid = h.chunkStream cid)
      (fun _ h' => h'.chunkStream cid = h.chunkStream cid)
      (recvInterlacedMessage src call.ext) { h with inChunkSize := call.inChunkSize } := by
    simp only [recvInterlacedMessage, holds_bind, holds_zoom]
    refine holds_of_run hbasic ?_
    simp only [cassert, if_pos (show cid' ≥ 0 from hcid'), holds_pure, holds_get, onChunk]
    cases hget : ({ h with inChunkSize := call.inChunkSize, ioBuffer := io' }
        : RtmpProtocolHandler σ).chunkStream cid' with
    | none => trivial
    | some chunk =>
      rw [holds_some, holds_zoom]
      have hleft : ∀ s : RtmpChunkStream × σ,
          (({ h with inChunkSize := call.inChunkSize, ioBuffer := io' }
            : RtmpProtocolHandler σ).setChunkStream cid' s.1).chunkStream cid
            = h.chunkStream cid := fun s => chunkStream_setChunkStream_of_ne hcid' h₀ hne s.1
      exact (holds_true _ _).imp (fun _ s _ => hleft s) fun _ s _ => hleft s
  exact hholds.elim_state (P := fun h' => h'.chunkStream cid = h.chunkStream cid)
    (recv_of_run hrun)

end Call

/-! ## Runs -/

/-- **A message that is being received**: its first chunk has established `header`, each of its
chunks since has kept it, and chunks of other chunk streams have come in between; `out` is what the
last of its chunks has handed out. -/
inductive Continuing (src : ByteSource σ) (cid : ℤ) (header : MessageHeader) :
    Option RtmpMessage → RtmpProtocolHandler σ → Prop
  | first {h h' : RtmpProtocolHandler σ} {call : RecvCall} {fmt : ℕ} {data : Bytes}
      {chunk chunk' : RtmpChunkStream} {out : Option RtmpMessage}
      (next : NextHeader src h.ioBuffer fmt cid data) (get : h.chunkStream cid = some chunk)
      (fresh : chunk.msg = none) (run : RecvCall.run src call h = .ok (.ok (.ok out), h'))
      (get' : h'.chunkStream cid = some chunk') (established : chunk'.header = header) :
      Continuing src cid header out h'
  | continued {h h' : RtmpProtocolHandler σ} {call : RecvCall} {fmt : ℕ} {data : Bytes}
      {chunk : RtmpChunkStream} {out : Option RtmpMessage}
      (previous : Continuing src cid header none h) (next : NextHeader src h.ioBuffer fmt cid data)
      (get : h.chunkStream cid = some chunk)
      (keeps : KeepsHeader h.fixRtmpTimestamp call.ext fmt data chunk)
      (run : RecvCall.run src call h = .ok (.ok (.ok out), h')) : Continuing src cid header out h'
  | other {h h' : RtmpProtocolHandler σ} {call : RecvCall} {fmt : ℕ} {cid' : ℤ} {data : Bytes}
      {out : Option RtmpMessage} {r : Except ℤ (Option RtmpMessage)}
      (previous : Continuing src cid header out h)
      (next : NextHeader src h.ioBuffer fmt cid' data) (ne : cid ≠ cid')
      (run : RecvCall.run src call h = .ok (.ok r, h')) : Continuing src cid header out h'

/-- The message that is handed out, if one is, and the chunk stream have the fields of `header`. -/
structure CarriesHeader (cid : ℤ) (header : MessageHeader) (out : Option RtmpMessage)
    (h : RtmpProtocolHandler σ) : Prop where
  message : ∀ m, out = some m → SameFields m.header header
  chunkStream : ∀ chunk, h.chunkStream cid = some chunk → SameFields chunk.header header

section Step

variable {h h' : RtmpProtocolHandler σ} {call : RecvCall} {fmt : ℕ} {cid : ℤ} {data : Bytes}
variable {chunk : RtmpChunkStream} {out : Option RtmpMessage}

/-- A call that returns leaves the message begun, or hands it out with the header of its chunk
stream. -/
theorem begun_step (hnext : NextHeader src h.ioBuffer fmt cid data)
    (hget : h.chunkStream cid = some chunk)
    (hrun : RecvCall.run src call h = .ok (.ok (.ok out), h')) :
    ∃ chunk', h'.chunkStream cid = some chunk' ∧ (out = none → Begun chunk')
      ∧ ∀ m, out = some m → m.header = chunk'.header := by
  obtain ⟨io', hbasic, -⟩ := hnext
  obtain ⟨s, hs, hget'⟩ := recv_next hbasic hget hrun (holds_chunk_begun _ _ _ _ _)
  exact ⟨s.1, hget', hs⟩

/-- **A call on a message that has begun leaves the fields of its header exactly where the next
chunk keeps them.** -/
theorem continued_step (hnext : NextHeader src h.ioBuffer fmt cid data)
    (hget : h.chunkStream cid = some chunk) (hbegun : Begun chunk)
    (hrun : RecvCall.run src call h = .ok (.ok (.ok out), h')) {chunk' : RtmpChunkStream}
    (hget' : h'.chunkStream cid = some chunk') :
    SameFields chunk'.header chunk.header
      ↔ KeepsHeader h.fixRtmpTimestamp call.ext fmt data chunk := by
  obtain ⟨io', hbasic, rfl⟩ := hnext
  obtain ⟨s, hs, hs'⟩ := recv_next hbasic hget hrun (holds_chunk_continued _ _ _ _ _ hbegun)
  rwa [Option.some.inj (hget'.symm.trans hs')]

end Step

/-- The chunk stream of a message that is being received. -/
structure Established (cid : ℤ) (header : MessageHeader) (out : Option RtmpMessage)
    (h : RtmpProtocolHandler σ) : Prop where
  cid_nonneg : 0 ≤ cid
  message : ∀ m, out = some m → SameFields m.header header
  chunkStream : ∃ chunk, h.chunkStream cid = some chunk ∧ SameFields chunk.header header
    ∧ (out = none → Begun chunk)

/-- **The header that the first chunk has established stays.** -/
theorem Continuing.established {cid : ℤ} {header : MessageHeader} {out : Option RtmpMessage}
    {h : RtmpProtocolHandler σ} (hrecv : Continuing src cid header out h) :
    Established cid header out h := by
  induction hrecv with
  | first next get fresh run get' established =>
    obtain ⟨chunk', hget', hbegun, hout⟩ := begun_step next get run
    obtain rfl := Option.some.inj (hget'.symm.trans get')
    subst established
    refine ⟨next.cid_nonneg, fun m hm => ?_, _, get', ⟨rfl, rfl, rfl, rfl⟩, hbegun⟩
    rw [hout m hm]
    exact ⟨rfl, rfl, rfl, rfl⟩
  | continued previous next get keeps run ih =>
    obtain ⟨chunk, hget, hfields, hbegun⟩ := ih.chunkStream
    obtain rfl := Option.some.inj (hget.symm.trans get)
    obtain ⟨chunk', hget', hbegun', hout⟩ := begun_step next get run
    have hsame := (continued_step next get (hbegun rfl) run hget').2 keeps
    refine ⟨ih.cid_nonneg, fun m hm => ?_, chunk', hget', hsame.trans hfields, hbegun'⟩
    rw [hout m hm]
    exact hsame.trans hfields
  | other previous next ne run ih =>
    obtain ⟨chunk, hget, hfields, hbegun⟩ := ih.chunkStream
    have hleft := chunkStream_of_next_ne next ih.cid_nonneg ne run
    exact ⟨ih.cid_nonneg, ih.message, chunk, hleft.trans hget, hfields, hbegun⟩

/-- **A complete message carries the header that its first chunk has established, exactly as long as
the chunks that continue it keep that header**: it does where all of them do, and the next one
leaves the fields of the header if and only if it does. -/
theorem continuation_carries_header_iff (src : ByteSource σ) (cid : ℤ) (header : MessageHeader)
    (out : Option RtmpMessage) (h : RtmpProtocolHandler σ)
    (hrecv : Continuing src cid header out h) :
    CarriesHeader cid header out h
      ∧ (out = none → ∀ call fmt data chunk out' h', NextHeader src h.ioBuffer fmt cid data →
        h.chunkStream cid = some chunk → RecvCall.run src call h = .ok (.ok (.ok out'), h') →
        (CarriesHeader cid header out' h'
          ↔ KeepsHeader h.fixRtmpTimestamp call.ext fmt data chunk)) := by
  obtain ⟨hcid, hmessage, chunk, hget, hfields, hbegun⟩ := hrecv.established
  refine ⟨⟨hmessage, fun chunk' hget' => ?_⟩, ?_⟩
  · rwa [← Option.some.inj (hget.symm.trans hget')]
  intro hnone call fmt data chunk₀ out' h' hnext hget₀ hrun
  obtain rfl := Option.some.inj (hget.symm.trans hget₀)
  obtain ⟨chunk', hget', hbegun', hout⟩ := begun_step hnext hget hrun
  have hiff := continued_step hnext hget (hbegun hnone) hrun hget'
  refine ⟨fun hcarries => hiff.1 ?_, fun hkeeps => ?_⟩
  · exact (hcarries.chunkStream chunk' hget').trans hfields.symm
  · have hsame := (hiff.2 hkeeps).trans hfields
    refine ⟨fun m hm => ?_, fun chunk₁ hget₁ => ?_⟩
    · rwa [hout m hm]
    · rwa [← Option.some.inj (hget'.symm.trans hget₁)]

/-! ## Two chunks of audio -/

/-- The header that the first chunk establishes. -/
def threeByteHeader : MessageHeader where
  payloadLength := 3
  messageType := 8
  streamId := 1
  timestamp := 5
  perferCid := 3

/-- The handler before the audio of three bytes, in chunks of two bytes at most. -/
def beforeTwoChunks (second : Bytes) : RtmpProtocolHandler Bytes :=
  .new ([3, 0, 0, 5, 0, 0, 3, 8, 1, 0, 0, 0, 7, 7] ++ second) true 2

/-- …and before its second chunk. -/
def beforeSecondChunk (second : Bytes) : RtmpProtocolHandler Bytes :=
  (RtmpProtocolHandler.new second true 2).setChunkStream 3
    { cid := 3
      header := threeByteHeader
      msg := some { header := threeByteHeader, size := 2, payload := some [7, 7, 0] }
      msgCount := 1 }

def twoByteCall : RecvCall := ⟨2, by decide, 0⟩

/-- The first chunk establishes the header, whatever the second one is. -/
theorem continuing_of_run {second : Bytes}
    (hnext : NextHeader ByteSource.ofBytes (beforeTwoChunks second).ioBuffer 0 3
      [0, 0, 5, 0, 0, 3, 8, 1, 0, 0, 0])
    (hrun : RecvCall.run ByteSource.ofBytes twoByteCall (beforeTwoChunks second)
      = .ok (.ok (.ok none), beforeSecondChunk second)) :
    Continuing ByteSource.ofBytes 3 threeByteHeader none (beforeSecondChunk second) :=
  .first hnext rfl rfl hrun rfl rfl

theorem continuation_carries_header_iff_format3 :
    CarriesHeader 3 threeByteHeader none (beforeSecondChunk [0xC3, 7])
      ∧ ((none : Option RtmpMessage) = none → ∀ call fmt data chunk out' h',
        NextHeader ByteSource.ofBytes (beforeSecondChunk [0xC3, 7]).ioBuffer fmt 3 data →
        (beforeSecondChunk [0xC3, 7]).chunkStream 3 = some chunk →
        RecvCall.run ByteSource.ofBytes call (beforeSecondChunk [0xC3, 7])
          = .ok (.ok (.ok out'), h') →
        (CarriesHeader 3 threeByteHeader out' h'
          ↔ KeepsHeader (beforeSecondChunk [0xC3, 7]).fixRtmpTimestamp call.ext fmt data chunk)) :=
  continuation_carries_header_iff ByteSource.ofBytes 3 threeByteHeader none _
    (continuing_of_run ⟨_, rfl, rfl⟩ rfl)

/-- **A second chunk of format 2 adds to the timestamp, one of format 1 changes the type**: the
message that is handed out has neither the timestamp nor the type of its first chunk. -/
theorem continuation_changes_header :
    (Continuing ByteSource.ofBytes 3 threeByteHeader none (beforeSecondChunk [0x83, 0, 0, 4, 7])
        ∧ ∃ m h', RecvCall.run ByteSource.ofBytes twoByteCall (beforeSecondChunk [0x83, 0, 0, 4, 7])
            = .ok (.ok (.ok (some m)), h')
          ∧ m.header.timestamp = 9 ∧ ¬ SameFields m.header threeByteHeader)
      ∧ Continuing ByteSource.ofBytes 3 threeByteHeader none
          (beforeSecondChunk [0x43, 0, 0, 0, 0, 0, 3, 9, 7])
        ∧ ∃ m h', RecvCall.run ByteSource.ofBytes twoByteCall
            (beforeSecondChunk [0x43, 0, 0, 0, 0, 0, 3, 9, 7]) = .ok (.ok (.ok (some m)), h')
          ∧ m.header.messageType = 9 ∧ ¬ SameFields m.header threeByteHeader := by
  refine ⟨⟨continuing_of_run ⟨_, rfl, rfl⟩ rfl, _, _, rfl, ?_, fun hsame => ?_⟩,
    continuing_of_run ⟨_, rfl, rfl⟩ rfl, _, _, rfl, ?_, fun hsame => ?_⟩
  · decide
  · exact absurd hsame.timestamp (by decide)
  · decide
  · exact absurd hsame.messageType (by decide)

end RtmpProtocolHandler

end SmartStreaming
