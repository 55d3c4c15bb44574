import SmartStreaming.Base.Io.BufferEcho
import SmartStreaming.Rtmp.Packet.Safety
import SmartStreaming.Rtmp.Packet.Sizes
import SmartStreaming.Rtmp.Amf.Utf8

/-!
# Rtmp/Packet/RoundTrip — what `encode_packet` appended, decoded

The encoder and the decoder of a class make the same calls in the same order, each an echo of the
other (`Buffer.Echoes`).  The fields that may be left out come last: they are left out where they
have the value that a fresh packet has, which is what a decoder with nothing left to read returns.
-/

namespace SmartStreaming

open Machinery Comp Buffer

/-! ## Scalars -/

section Scalars

variable {R : Bytes → Prop}

theorem echoes_byte (v : BitVec 8) : Echoes R 1 (write1byte v) read1byte v := by
  rw [write1byte_eq_writeInt, read1byte_eq_readInt]
  exact echoes_int v.isLt

theorem echoes_word16 (v : BitVec 16) : Echoes R 2 (write2bytes v) read2bytes v := by
  rw [write2bytes_eq_writeInt, read2bytes_eq_readInt]
  exact echoes_int v.isLt

theorem echoes_word32 (v : BitVec 32) : Echoes R 4 (write4bytes v) read4bytes v := by
  rw [write4bytes_eq_writeInt, read4bytes_eq_readInt]
  exact echoes_int v.isLt

theorem echoes_word64 (v : BitVec 64) : Echoes R 8 (write8bytes v) read8bytes v := by
  rw [write8bytes_eq_writeInt, read8bytes_eq_readInt]
  exact echoes_int v.isLt

/-- A check that is passed. -/
theorem restores_ensure {p : Prop} [Decidable p] (hp : p) (code : ℤ) (c : Bytes) :
    Restores (ensure p code) ⟨⟩ c c := by
  rw [ensure, if_pos hp]
  exact restores_pure _ _

theorem echoes_amf0Marker (marker : Byte) :
    Echoes R 1 (amf0WriteMarker marker) (amf0ReadMarker marker) ⟨⟩ :=
  ((((echoes_byte marker).andThen (fun rest => restores_ensure rfl _ rest)).readerRequires
    (by decide) (le_refl 1) _).writerReturns _).writerRequires _ _

theorem grows_amf0WriteMarker (marker : Byte) : Grows (amf0WriteMarker marker) := by
  intro b hb
  rw [amf0WriteMarker, requireRead, holds_bind, holds_bind, holds_get, holds_ensure]
  refine ⟨fun _ => ?_, fun _ => trivial⟩
  rw [holds_bind, write1byte_eq_writeInt]
  refine (holds_writeInt hb 1 marker.toNat).imp (fun _ _ => id) ?_
  rintro _ b' ⟨e, happ, hlen⟩
  refine ⟨e, happ, ?_⟩
  rintro rfl
  cases hlen

/-- The strings of the protocol: not empty, and of a length that is a positive `int16_t`. -/
structure FitsUtf8 (value : Bytes) : Prop where
  ne_nil : value ≠ []
  length_le : value.length ≤ 32767

theorem echoes_amf0Utf8 {value : Bytes} (h : FitsUtf8 value) (old : Bytes) :
    Echoes R (Amf0Size.utf8 value) (amf0WriteUtf8 value) (amf0ReadUtf8 old) value := by
  have hpos := List.length_pos_of_ne_nil h.ne_nil
  have hle := h.length_le
  have hlen : (BitVec.ofNat 16 value.length).toInt = value.length := by
    rw [toInt_utf8Length (by omega), if_pos (by omega)]
  refine (((echoes_word16 _).bind fun _ => ?_).readerRequires (by decide)
    (by omega) _).writerRequires _ _
  rw [if_neg (by omega), if_neg (by omega), hlen]
  exact ((echoes_writeBytes h.ne_nil _).writerReturns _).writerRequires _ _

theorem echoes_amf0String {value : Bytes} (h : FitsUtf8 value) (old : Bytes) :
    Echoes R (Amf0Size.str value) (amf0WriteString value) (amf0ReadString old) value :=
  (echoes_amf0Marker _).bind fun _ => echoes_amf0Utf8 h old

theorem echoes_amf0Number (value : Double) :
    Echoes R Amf0Size.number (amf0WriteNumber value) amf0ReadNumber value :=
  (echoes_amf0Marker _).bind fun _ => (((echoes_word64 value).readerRequires (by decide)
    (le_refl 8) _).writerReturns _).writerRequires _ _

theorem grows_amf0WriteString (value : Bytes) : Grows (amf0WriteString value) :=
  (grows_amf0WriteMarker _).bind fun _ => writes_amf0WriteUtf8 value

theorem grows_amf0WriteNumber (value : Double) : Grows (amf0WriteNumber value) :=
  (grows_amf0WriteMarker _).bind fun _ => (writes_requireRead 8 _).bind fun _ =>
    (writes_write8bytes value).bind fun _ => writes_pure _

end Scalars

/-! ## What the classes share -/

section Shared

variable {R : Bytes → Prop}

theorem echoes_encodeWord (v : BitVec 32) : Echoes R 4 (encodeWord v) decodeWord v :=
  (((echoes_word32 v).readerRequires (by decide) (le_refl 4) _).writerReturns _).writerRequires _ _

/-- **The name and the transaction id of a command.** -/
theorem echoes_encodeCommand {accepts : Bytes → Bool} {commandName : Bytes}
    (haccepts : accepts commandName = true) (h : FitsUtf8 commandName) (old : Bytes)
    (transactionId : Double) :
    Echoes R (Amf0Size.str commandName + Amf0Size.number)
      (encodeCommand commandName transactionId) (decodeCommand accepts old)
      (commandName, transactionId) := by
  refine (echoes_amf0String h old).bind fun _ => ?_
  rw [ensure, if_pos haccepts, pure_bind]
  exact (echoes_amf0Number transactionId).andThen fun rest => restores_pure _ rest

/-- The commands with a `null` object. -/
theorem echoes_nullCommand {α : Type} {accepts : Bytes → Bool}
    {commandName : Bytes} {n : ℤ} {f : Stream PUnit} {g : Bytes × Double → Stream α} {a : α}
    (haccepts : accepts commandName = true) (h : FitsUtf8 commandName) (old : Bytes)
    (transactionId : Double) (hfg : Echoes R n f (g (commandName, transactionId)) a) :
    Echoes R (Amf0Size.str commandName + Amf0Size.number + Amf0Size.null + n)
      (do
        encodeCommand commandName transactionId
        amf0WriteNull
        f)
      (do
        let command ← decodeCommand accepts old
        amf0ReadNull
        g command) a := by
  rw [add_assoc]
  exact (echoes_encodeCommand haccepts h old transactionId).bind fun _ =>
    (echoes_amf0Marker _).bind fun _ => hfg

/-- A field that may be left out, and is not. -/
theorem echoes_unlessEmpty {α γ : Type} {n : ℤ} {f : Stream γ} {g : Stream α} {a : α}
    (h : Echoes R n f g a) (hf : Grows f) (value : α) : Echoes R n f (unlessEmpty value g) a := by
  refine h.of_nonempty hf ?_ ?_
  · intro c rest hc hg
    exact Via.get_bind (fun _ hb => if_neg (mt hb.readEmpty_iff.1 hc)) hg
  · intro c hc hg
    exact Via.get_bind (fun _ hb => if_neg (mt hb.readEmpty_iff.1 hc)) hg

/-- With nothing left to read the old value stays. -/
theorem restores_unlessEmpty {α : Type} (value : α) (g : Stream α) :
    Restores (unlessEmpty value g) value [] [] :=
  Via.get_bind (fun _ hb => if_pos (hb.readEmpty_iff.2 rfl)) (restores_pure value [])

/-- Fields that are left out at the end. -/
theorem echoes_leftOut {α γ : Type} {g : Stream α} {a : α} (c : γ) (h : Restores g a [] []) :
    Echoes Nothing 0 (pure c) g a := by
  intro b hb
  refine ⟨[], Appended.refl hb, le_refl _, Or.inl ⟨rfl, ?_⟩⟩
  rintro _ rfl
  exact h

end Shared

/-! ## The classes -/

/-- A number that is neither zero nor a NaN equals only itself. -/
theorem Double.eq_iff {y : Double} (hnan : y.isNaN = false) (hzero : y.magnitude ≠ 0) (x : Double) :
    x.eq y = true ↔ x = y := by
  constructor
  · intro h
    rw [Double.eq, decide_eq_true_eq] at h
    obtain ⟨-, -, hkey⟩ := h
    have hx := x.isLt
    have hy := y.isLt
    simp only [key, magnitude, BitVec.msb_eq_decide, decide_eq_true_eq] at hkey hzero
    refine BitVec.eq_of_toNat_eq ?_
    split at hkey <;> split at hkey <;> omega
  · rintro rfl
    rw [Double.eq, decide_eq_true_eq]
    simp [hnan]

namespace RtmpPlayPacket

variable (p : RtmpPlayPacket)

theorem duration_eq (h : p.sendsDuration = false) : p.duration = Double.minusOne := by
  rw [sendsDuration, decide_eq_false_iff_not, not_or, not_not] at h
  exact (Double.eq_iff rfl (by decide) _).1 h.1

theorem start_eq (h : p.sendsStart = false) : p.start = Double.minusTwo := by
  rw [sendsStart, decide_eq_false_iff_not, not_or, not_not] at h
  exact (Double.eq_iff rfl (by decide) _).1 h.1

/-- The optional fields as `encode_packet` writes them, `reset` being true. -/
theorem echoes_options (hreset : p.reset = true) (p' : Double → Double → RtmpPlayPacket)
    (hp' : p' p.start p.duration = p) :
    Echoes Nothing ((if p.sendsStart then Amf0Size.number else 0)
        + ((if p.sendsDuration then Amf0Size.number else 0) + (if ¬ p.reset then Amf0Size.boolean
          else 0)))
      (do
        onlyIf p.sendsStart (amf0WriteNumber p.start)
        onlyIf p.sendsDuration (amf0WriteNumber p.duration)
        onlyIf (¬ p.reset) (amf0WriteBoolean p.reset))
      (do
        let start ← unlessEmpty Double.minusTwo amf0ReadNumber
        let duration ← unlessEmpty Double.minusOne amf0ReadNumber
        unlessEmpty (p' start duration) (p' start duration).decodeReset) p := by
  have hend : Restores (unlessEmpty (p' p.start p.duration) (p' p.start p.duration).decodeReset) p
      [] [] := by
    have hleft := restores_unlessEmpty (p' p.start p.duration)
      (p' p.start p.duration).decodeReset
    rwa [hp'] at hleft ⊢
  have hnumber : ∀ v old : Double, Echoes Anything Amf0Size.number (amf0WriteNumber v)
      (unlessEmpty old amf0ReadNumber) v := fun v old =>
    echoes_unlessEmpty (echoes_amf0Number v) (grows_amf0WriteNumber v) old
  have hnone : ∀ old : Double, Restores (unlessEmpty old amf0ReadNumber) old [] [] :=
    fun old => restores_unlessEmpty old amf0ReadNumber
  simp only [onlyIf, hreset, not_true_eq_false, if_false]
  cases hd : p.sendsDuration with
  | true =>
    have hs : p.sendsStart = true := by
      rw [sendsStart, decide_eq_true_eq]
      exact Or.inr hd
    rw [hs, if_pos rfl, if_pos rfl]
    exact (hnumber _ _).bind fun _ => (hnumber _ _).bind fun c => echoes_leftOut c hend
  | false =>
    have hduration := p.duration_eq hd
    have hrest : Restores (unlessEmpty Double.minusOne amf0ReadNumber >>= fun duration =>
        unlessEmpty (p' p.start duration) (p' p.start duration).decodeReset) p [] [] :=
      (hnone _).bind (by rw [← hduration]; exact hend)
    cases hs : p.sendsStart with
    | true =>
      rw [if_pos rfl, if_neg Bool.false_ne_true]
      exact (hnumber _ _).bind fun _ => echoes_leftOut PUnit.unit hrest
    | false =>
      have hstart := p.start_eq hs
      rw [if_neg Bool.false_ne_true]
      exact echoes_leftOut PUnit.unit ((hnone _).bind (by rw [← hstart]; exact hrest))

theorem echoes_encodePacket {p : RtmpPlayPacket} (hname : p.commandName = rtmpAmf0CommandPlay)
    (hstream : FitsUtf8 p.streamName) (hreset : p.reset = true) :
    Echoes Nothing p.getSize p.encodePacket (decode {}) p := by
  have hfits : FitsUtf8 p.commandName := by rw [hname]; exact ⟨by decide, by decide⟩
  have hoptions := p.echoes_options hreset
    (fun start duration => { p with start := start, duration := duration }) rfl
  rw [getSize, add_assoc, add_assoc, add_assoc]
  refine echoes_nullCommand (by rw [hname]; rfl) hfits _ _ ?_
  refine (echoes_amf0String hstream _).bind fun _ => ?_
  obtain ⟨commandName, transactionId, streamName, start, duration, reset⟩ := p
  obtain rfl : reset = true := hreset
  exact hoptions

end RtmpPlayPacket

namespace RtmpUserControlPacket

variable {R : Bytes → Prop}

/-- One byte carries what is a signed byte. -/
theorem signExtend_setWidth {x : BitVec 32} (h₀ : -128 ≤ x.toInt) (h₁ : x.toInt ≤ 127) :
    (x.setWidth 8).signExtend 32 = x := by
  have hlt := x.isLt
  refine BitVec.eq_of_toInt_eq ?_
  rw [BitVec.toInt_signExtend_of_le (by decide), BitVec.toInt_setWidth, Int.bmod_def]
  rw [BitVec.toInt_eq_toNat_cond] at h₀ h₁ ⊢
  split at h₀ <;> split at h₁ <;> split <;> omega

theorem echoes_eventData {p : RtmpUserControlPacket}
    (h : p.eventType = srcPCUCFmsEvent0 → -128 ≤ p.eventData.toInt ∧ p.eventData.toInt ≤ 127) :
    Echoes R (if p.eventType = srcPCUCFmsEvent0 then 1 else 4) p.encodeEventData
      (decodeEventData p.eventType) p.eventData := by
  unfold encodeEventData decodeEventData
  split
  · rename_i hevent
    have hback := signExtend_setWidth (h hevent).1 (h hevent).2
    refine Echoes.writerReturns (Echoes.readerRequires ?_ (by decide) (le_refl 1) _) _
    refine (echoes_byte _).andThen fun rest => ?_
    rw [hback]
    exact restores_pure _ rest
  · exact ((echoes_word32 _).readerRequires (by decide) (le_refl 4) _).writerReturns _

theorem echoes_extraData {p : RtmpUserControlPacket}
    (h : p.eventType ≠ srcPCUCSetBufferLength → p.extraData = 0) :
    Echoes R (if p.eventType = srcPCUCSetBufferLength then 4 else 0)
      (onlyIf (p.eventType = srcPCUCSetBufferLength) (do
        let _ ← write4bytes p.extraData))
      (decodeExtraData {} p.eventType) p.extraData := by
  unfold onlyIf decodeExtraData
  split
  · exact ((echoes_word32 _).readerRequires (by decide) (le_refl 4) _).writerReturns _
  · rename_i hevent
    rw [h hevent]
    exact echoes_pure _ _

theorem echoes_encodePacket {p : RtmpUserControlPacket}
    (hdata : p.eventType = srcPCUCFmsEvent0 → -128 ≤ p.eventData.toInt ∧ p.eventData.toInt ≤ 127)
    (hextra : p.eventType ≠ srcPCUCSetBufferLength → p.extraData = 0) :
    Echoes R p.getSize p.encodePacket (decode {}) p := by
  have hsize : 2 ≤ p.getSize := by
    rw [getSize]
    split <;> split <;> omega
  refine Echoes.writerRequires (Echoes.readerRequires ?_ (by decide) hsize _) _ _
  rw [getSize, add_assoc]
  refine (echoes_word16 p.eventType).bind fun _ => (echoes_eventData hdata).bind fun _ => ?_
  exact (echoes_extraData hextra).andThen fun rest => restores_pure p rest

end RtmpUserControlPacket

namespace RtmpPacket

/-- The packets of the ten classes that are encoded and decoded, as their decoders accept them. -/
def Decodable : RtmpPacket → Prop
  | setWindowAckSize _ | setChunkSize _ | acknowledgement _ => True
  | userControl p =>
    (p.eventType = srcPCUCFmsEvent0 → -128 ≤ p.eventData.toInt ∧ p.eventData.toInt ≤ 127)
      ∧ (p.eventType ≠ srcPCUCSetBufferLength → p.extraData = 0)
  | createStream p => p.commandName = rtmpAmf0CommandCreateStream
  | createStreamRes p => p.commandName = rtmpAmf0CommandResult
  | fmleStart p => p.commandName ∈ [rtmpAmf0CommandReleaseStream, rtmpAmf0CommandFcPublish,
      rtmpAmf0CommandUnpublish] ∧ FitsUtf8 p.streamName
  | fmleStartRes p => p.commandName = rtmpAmf0CommandResult
  | publish p =>
    p.commandName = rtmpAmf0CommandPublish ∧ FitsUtf8 p.streamName ∧ FitsUtf8 p.type
  | play p => p.commandName = rtmpAmf0CommandPlay ∧ FitsUtf8 p.streamName ∧ p.reset = true
  | _ => False

/-- **Each class decodes what it encodes.** -/
theorem echoes_encodePacket {p q : RtmpPacket} (hp : p.Decodable) (hq : q.Fresh)
    (hclass : q.ctorIdx = p.ctorIdx) : Echoes Nothing p.getSize p.encodePacket q.decode p := by
  cases p with
  | setWindowAckSize p =>
    cases q <;> try cases hclass
    exact ((echoes_encodeWord _).andThen fun rest => restores_pure p rest).map setWindowAckSize
  | setChunkSize p =>
    cases q <;> try cases hclass
    exact ((echoes_encodeWord _).andThen fun rest => restores_pure p rest).map setChunkSize
  | acknowledgement p =>
    cases q <;> try cases hclass
    exact ((echoes_encodeWord _).andThen fun rest => restores_pure p rest).map acknowledgement
  | userControl p =>
    cases q <;> try cases hclass
    obtain rfl := hq
    exact (RtmpUserControlPacket.echoes_encodePacket hp.1 hp.2).map userControl
  | createStream p =>
    cases q <;> try cases hclass
    have hname : p.commandName = rtmpAmf0CommandCreateStream := hp
    have hfits : FitsUtf8 p.commandName := hname ▸ ⟨by decide, by decide⟩
    exact ((echoes_encodeCommand (by rw [hname]; rfl) hfits _ _).bind fun _ =>
      (echoes_amf0Marker _).andThen fun rest => restores_pure p rest).map createStream
  | createStreamRes p =>
    cases q <;> try cases hclass
    have hname : p.commandName = rtmpAmf0CommandResult := hp
    have hfits : FitsUtf8 p.commandName := hname ▸ ⟨by decide, by decide⟩
    exact (echoes_nullCommand (by rw [hname]; rfl) hfits _ _
      ((echoes_amf0Number _).andThen fun rest => restores_pure p rest)).map createStreamRes
  | fmleStart p =>
    cases q <;> try cases hclass
    have hfits : FitsUtf8 p.commandName := by
      have hname := hp.1
      simp only [List.mem_cons, List.not_mem_nil, or_false] at hname
      rcases hname with h | h | h <;> exact h ▸ ⟨by decide, by decide⟩
    exact (echoes_nullCommand (decide_eq_true hp.1) hfits _ _
      ((echoes_amf0String hp.2 _).andThen fun rest => restores_pure p rest)).map fmleStart
  | fmleStartRes p =>
    cases q <;> try cases hclass
    have hname : p.commandName = rtmpAmf0CommandResult := hp
    have hfits : FitsUtf8 p.commandName := hname ▸ ⟨by decide, by decide⟩
    exact (echoes_nullCommand (by rw [hname]; rfl) hfits _ _
      ((echoes_amf0Marker _).andThen fun rest => restores_pure p rest)).map fmleStartRes
  | publish p =>
    cases q <;> try cases hclass
    have hname : p.commandName = rtmpAmf0CommandPublish := hp.1
    have hfits : FitsUtf8 p.commandName := hname ▸ ⟨by decide, by decide⟩
    have htype := echoes_unlessEmpty (echoes_amf0String (R := Nothing) hp.2.2 (text "live"))
      (grows_amf0WriteString p.type) (text "live")
    obtain rfl := hq
    refine Echoes.map publish ?_
    rw [getSize, RtmpPublishPacket.getSize, add_assoc]
    exact echoes_nullCommand (by rw [hname]; rfl) hfits _ _ ((echoes_amf0String hp.2.1 _).bind
      fun _ => htype.andThen fun rest => restores_pure p rest)
  | play p =>
    cases q <;> try cases hclass
    obtain rfl := hq
    exact (RtmpPlayPacket.echoes_encodePacket hp.1 hp.2.1 hp.2.2).map play
  | _ => exact hp.elim

end RtmpPacket

/-- **Decoding what a success of `encode_packet` appended restores the packet exactly if there was
room for all of it**; a string that does not fit is left out without an error. -/
theorem encoded_packet_restored_iff (p q : RtmpPacket) (hp : p.Decodable) (hq : q.Fresh)
    (hclass : q.ctorIdx = p.ctorIdx) (b b' : Buffer) (hb : b.Valid)
    (hrun : p.encodePacket b = .ok (.ok ⟨⟩, b')) (e : Bytes) (he : b'.content = b.content ++ e) :
    (∀ d, Shows d e → ∃ d', q.decode d = .ok (.ok p, d') ∧ d'.readEmpty = true)
      ↔ p.getSize ≤ b.writeLeft :=
  (RtmpPacket.echoes_encodePacket hp hq hclass).restored_iff hb hrun he

/-- The request to play the stream `a`, on the wire. -/
def playBytes : Bytes :=
  [0x02, 0x00, 0x04] ++ text "play" ++ [0x00, 0, 0, 0, 0, 0, 0, 0, 0] ++ [0x05]
    ++ [0x02, 0x00, 0x01] ++ text "a"

theorem encoded_packet_restored_iff_play :
    (∀ d, Shows d playBytes → ∃ d', (RtmpPacket.play {}).decode d
        = .ok (.ok (.play { streamName := text "a" }), d') ∧ d'.readEmpty = true)
      ↔ (RtmpPacket.play { streamName := text "a" }).getSize
        ≤ (⟨List.replicate 32 7, 10, 0, 32⟩ : Buffer).writeLeft := by
  refine encoded_packet_restored_iff (.play { streamName := text "a" }) (.play {})
    ⟨rfl, ⟨by decide, by decide⟩, rfl⟩ rfl rfl ⟨List.replicate 32 7, 10, 0, 32⟩
    ⟨List.replicate 10 7 ++ playBytes ++ [7], 31, 0, 32⟩ ?_ ?_ playBytes ?_
  · constructor <;> decide
  · decide +kernel
  · decide +kernel

/-- The request to release the stream `abc`, without the bytes of its last string. -/
def cutReleaseBytes : Bytes :=
  [0x02, 0x00, 0x0d] ++ text "releaseStream" ++ [0x00, 0, 0, 0, 0, 0, 0, 0, 0] ++ [0x05]
    ++ [0x02, 0x00, 0x03]

/-- **A stream name that does not fit is left out, and `encode_packet` succeeds**; what it appended
is not decoded. -/
theorem unfit_name_left_out :
    (RtmpPacket.fmleStart { streamName := text "abc" }).Decodable
    ∧ (RtmpPacket.fmleStart { streamName := text "abc" }).encodePacket
        ⟨List.replicate 47 7, 16, 0, 47⟩
        = .ok (.ok ⟨⟩, ⟨List.replicate 16 7 ++ cutReleaseBytes ++ [7, 7], 45, 0, 47⟩)
    ∧ (⟨List.replicate 16 7 ++ cutReleaseBytes ++ [7, 7], 45, 0, 47⟩ : Buffer).content
        = (⟨List.replicate 47 7, 16, 0, 47⟩ : Buffer).content ++ cutReleaseBytes
    ∧ Shows ⟨cutReleaseBytes ++ [0], 29, 0, 30⟩ cutReleaseBytes
    ∧ (RtmpPacket.fmleStart {}).decode.failure ⟨cutReleaseBytes ++ [0], 29, 0, 30⟩
        = some errorRtmpAmf0Decode := by
  refine ⟨⟨by decide, by decide, by decide⟩, ?_, ?_, ⟨?_, ?_⟩, ?_⟩
  · decide +kernel
  · decide +kernel
  · constructor <;> decide
  · decide +kernel
  · decide +kernel

end SmartStreaming
