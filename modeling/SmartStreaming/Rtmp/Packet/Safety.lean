import SmartStreaming.Rtmp.Amf.Progress
import SmartStreaming.Rtmp.Packet.Dispatch

/-!
# Rtmp/Packet/Safety — decoding a packet from any bytes

`decode` of a fresh packet of any class and `do_decode_message` for any message type and requests
stop the program nowhere, but for an `onStatus` whose object has no `"code"`; how they end depends
on the readable bytes alone.
-/

namespace SmartStreaming

open Machinery Comp Buffer

/-! ## Accessors and shared parts -/

namespace Amf0Any

theorem exists_of_isObject :
    ∀ {v : Amf0Any}, v.isObject = true → ∃ properties, v = object properties
  | object properties, _ => ⟨properties, rfl⟩

theorem exists_of_isEcmaArray : ∀ {v : Amf0Any}, v.isEcmaArray = true →
    ∃ properties count, v = ecmaArray properties count
  | ecmaArray properties count, _ => ⟨properties, count, rfl⟩

theorem exists_of_isString : ∀ {v : Amf0Any}, v.isString = true → ∃ value, v = string value
  | string value, _ => ⟨value, rfl⟩

theorem exists_of_isBoolean : ∀ {v : Amf0Any}, v.isBoolean = true → ∃ value, v = boolean value
  | boolean value, _ => ⟨value, rfl⟩

theorem exists_of_isNumber : ∀ {v : Amf0Any}, v.isNumber = true → ∃ value, v = number value
  | number value, _ => ⟨value, rfl⟩

/-- `value->read(stream)` of a value as its class constructs it. -/
theorem safe_readFrom {v : Amf0Any} (hv : Fresh v) : Safe v.readFrom := by
  intro c
  have hread : Reads (Taken c.length) (v.read (readAny (c.length + 1)) (c.length + 1)) c :=
    reads_read (fun c' h => reads_readAny _ h) hv (Nat.le_succ _)
  refine Via.get_bind (fun b hb => ?_) (hread.imp fun _ _ _ => trivial)
  rw [hb.readLeft_eq, Int.toNat_natCast]

theorem fresh_object : Fresh (object []) := by
  simp [Fresh]

end Amf0Any

open Amf0Any

theorem safe_amf0ReadMarker (required : Byte) : Safe (amf0ReadMarker required) :=
  safe_of_reads fun _ => reads_amf0ReadMarker required

theorem safe_amf0ReadString (value : Bytes) : Safe (amf0ReadString value) :=
  safe_of_reads fun _ => reads_amf0ReadString value

theorem safe_amf0ReadNumber : Safe amf0ReadNumber := safe_of_reads fun _ => reads_amf0ReadNumber

theorem safe_amf0ReadAny : Safe amf0ReadAny := safe_of_reads reads_amf0ReadAny

theorem safe_decodeCommand (accepts : Bytes → Bool) (commandName : Bytes) :
    Safe (decodeCommand accepts commandName) :=
  (safe_amf0ReadString commandName).bind fun _ => (safe_ensure _ _).bind fun _ =>
    safe_amf0ReadNumber.bind fun _ => safe_pure _

theorem safe_unlessEmpty {α : Type} {value : α} {f : Stream α} (hf : Safe f) :
    Safe (unlessEmpty value f) := by
  intro c
  by_cases h : c = []
  · exact Via.get_bind (fun b hb => if_pos (hb.readEmpty_iff.2 h)) (Via.pure trivial)
  · exact Via.get_bind (fun b hb => if_neg (mt hb.readEmpty_iff.1 h)) (hf c)

theorem safe_readPointer : Safe (readPointer (some (object []))) := by
  change Safe (pure (object []) >>= readFrom)
  rw [pure_bind]
  exact safe_readFrom fresh_object

theorem safe_discoverAndRead : Safe discoverAndRead := by
  intro c
  refine reads_discovery.seq fun v c' hv => ?_
  rcases hv with ⟨rfl, _⟩ | ⟨hv, _⟩
  · refine Via.get_bind (fun b hb => rfl) ?_
    exact reads_amf0ReadObjectEof.seq fun _ _ _ => Via.pure trivial
  · exact safe_readFrom hv c'

theorem safe_toObject {v : Amf0Any} (h : v.isObject = true) : Safe v.toObject := by
  obtain ⟨properties, rfl⟩ := exists_of_isObject h
  exact safe_pure _

theorem safe_decodeWord : Safe decodeWord :=
  safe_requireRead fun _ h => (reads_read4bytes h).imp fun _ _ _ => trivial

theorem safe_amf0ReadBoolean : Safe amf0ReadBoolean := safe_of_reads fun _ => reads_amf0ReadBoolean

/-! ## The classes -/

theorem RtmpConnectAppPacket.safe_decode : Safe (decode {}) := by
  refine (safe_decodeCommand _ _).bind fun _ => safe_readPointer.bind fun _ => ?_
  refine safe_unlessEmpty (safe_discoverAndRead.bind fun any => ?_)
  exact Safe.ite (fun h => (safe_toObject h).bind fun _ => safe_pure _) fun _ => safe_pure _

theorem RtmpConnectAppResPacket.safe_decode : Safe (decode {}) := by
  refine (safe_decodeCommand _ _).bind fun _ => Safe.bind (safe_unlessEmpty ?_) fun _ =>
    safe_readPointer.bind fun _ => safe_pure _
  refine safe_amf0ReadAny.bind fun any => ?_
  exact Safe.ite (fun h => (safe_toObject h).bind fun _ => safe_pure _) fun _ => safe_pure _

theorem safe_attempt {α : Type} {f : Stream α} (hf : Safe f) : Safe (attempt f) :=
  fun c => Via.attempt ((hf c).mono (fun _ => id) (fun _ _ _ => trivial) fun _ _ _ => trivial)

theorem RtmpPlayPacket.safe_decodeReset (p : RtmpPlayPacket) : Safe p.decodeReset := by
  refine (safe_attempt safe_amf0ReadAny).bind ?_
  rintro (_ | resetValue)
  · exact safe_fail _
  · refine Safe.ite (fun h => ?_) fun _ => Safe.ite (fun h => ?_) fun _ => safe_fail _
    · obtain ⟨value, rfl⟩ := exists_of_isBoolean h
      exact (safe_pure value).bind fun _ => safe_pure _
    · obtain ⟨value, rfl⟩ := exists_of_isNumber h
      exact (safe_pure value).bind fun _ => safe_pure _

theorem RtmpPlayPacket.safe_decode (p : RtmpPlayPacket) : Safe p.decode :=
  (safe_decodeCommand _ _).bind fun _ => (safe_amf0ReadMarker _).bind fun _ =>
    (safe_amf0ReadString _).bind fun _ => (safe_unlessEmpty safe_amf0ReadNumber).bind fun _ =>
      (safe_unlessEmpty safe_amf0ReadNumber).bind fun _ =>
        safe_unlessEmpty (safe_decodeReset _)

theorem RtmpUserControlPacket.safe_decode (p : RtmpUserControlPacket) : Safe p.decode := by
  have hdata : ∀ eventType, Safe (decodeEventData eventType) := by
    intro eventType
    refine Safe.ite (fun _ => ?_) fun _ => ?_
    · exact safe_requireRead fun _ h => (reads_read1byte h).seq fun _ _ _ => Via.pure trivial
    · exact safe_requireRead fun _ h => (reads_read4bytes h).imp fun _ _ _ => trivial
  have hextra : ∀ eventType, Safe (p.decodeExtraData eventType) := by
    intro eventType
    refine Safe.ite (fun _ => ?_) fun _ => safe_pure _
    exact safe_requireRead fun _ h => (reads_read4bytes h).imp fun _ _ _ => trivial
  refine safe_requireRead fun _ h => (reads_read2bytes h).seq fun eventType c' _ => ?_
  exact (hdata eventType).bind (fun _ => (hextra eventType).bind fun _ => safe_pure _) c'

theorem RtmpPausePacket.safe_decode (p : RtmpPausePacket) : Safe p.decode :=
  (safe_decodeCommand _ _).bind fun _ => (safe_amf0ReadMarker _).bind fun _ =>
    safe_amf0ReadBoolean.bind fun _ => safe_amf0ReadNumber.bind fun _ => safe_pure _

theorem RtmpOnMetaDataPacket.safe_copyArray (metadata : Amf0Any) (arr : UnSortedHashtable) :
    Safe (copyArray (some metadata) arr) := by
  induction arr generalizing metadata with
  | nil => exact safe_pure _
  | cons elem arr ih =>
    obtain ⟨key, value⟩ := elem
    change Safe (pure metadata >>= fun object : Amf0Any =>
      copyArray (some (object.set key (some value.copy))) arr)
    rw [pure_bind]
    exact ih _

theorem RtmpOnMetaDataPacket.safe_decode : Safe (decode {}) := by
  refine Safe.bind ?_ fun name => safe_amf0ReadAny.bind fun any => ?_
  · refine (safe_amf0ReadString _).bind fun name => ?_
    exact Safe.ite (fun _ => safe_amf0ReadString _) fun _ => safe_pure _
  · refine Safe.ite (fun h => ?_) fun _ => Safe.ite (fun h => ?_) fun _ => safe_pure _
    · exact (safe_toObject h).bind fun _ => safe_pure _
    · obtain ⟨properties, count, rfl⟩ := exists_of_isEcmaArray h
      refine (safe_pure (ecmaArray properties count)).bind fun arr => ?_
      exact (safe_copyArray _ _).bind fun _ => safe_pure _

theorem RtmpBandwidthPacket.safe_decode : Safe (decode {}) := by
  refine (safe_decodeCommand _ _).bind fun _ => (safe_amf0ReadMarker _).bind fun _ => ?_
  refine Safe.bind ?_ fun _ => safe_pure _
  exact Safe.ite (fun _ => safe_readPointer.bind fun _ => safe_pure _) fun _ => safe_pure _

theorem RtmpCallPacket.safe_decode (p : RtmpCallPacket) : Safe p.decode :=
  (safe_decodeCommand _ _).bind fun _ => safe_discoverAndRead.bind fun _ =>
    (safe_unlessEmpty (safe_discoverAndRead.bind fun _ => safe_pure _)).bind fun _ => safe_pure _

/-- What `decode` of a fresh packet reads before it looks for the `"code"`. -/
def RtmpOnStatusCallPacket.readParts : Stream (Bytes × Double × Amf0Any) := do
  let (commandName, transactionId) ←
    decodeCommand (· = rtmpAmf0CommandOnStatus) rtmpAmf0CommandOnStatus
  ensure (transactionId.eq Double.zero) errorRtmpAmf0Decode
  amf0ReadNull
  let data ← readPointer (some (object []))
  return (commandName, transactionId, data)

/-- **From the bytes `c` an object without a `"code"` is read.** -/
def RtmpOnStatusCallPacket.LacksCode (c : Bytes) : Prop :=
  ∃ parts c', Ends Shows readParts c (.ok (.ok parts, c'))
    ∧ parts.2.2.getProperty (text "code") = none

theorem RtmpOnStatusCallPacket.decode_eq :
    decode {} = readParts >>= fun parts =>
      decodeStatus { commandName := parts.1, transactionId := parts.2.1, data := some parts.2.2 }
        parts.2.2 := by
  unfold decode readParts
  simp only [bind_assoc, pure_bind]

theorem RtmpOnStatusCallPacket.safe_readParts : Safe readParts :=
  (safe_decodeCommand _ _).bind fun _ => (safe_ensure _ _).bind fun _ =>
    (safe_amf0ReadMarker _).bind fun _ => safe_readPointer.bind fun _ => safe_pure _

theorem RtmpOnStatusCallPacket.via_decodeStatus (p : RtmpOnStatusCallPacket) (data : Amf0Any)
    (c : Bytes) :
    Via Shows (fun e => e = .nullPointer ∧ data.getProperty (text "code") = none)
      (fun _ _ => True) (fun _ _ => True) (p.decodeStatus data) c := by
  unfold decodeStatus
  cases data.getProperty (text "code") with
  | none => exact Via.bind (Via.stop ⟨rfl, rfl⟩)
  | some statusContent =>
    refine Via.bind (Via.pure ?_)
    refine Via.ite (fun h => ?_) fun _ => Via.pure trivial
    obtain ⟨value, rfl⟩ := exists_of_isString h
    exact Via.bind (Via.pure (Via.pure trivial))

/-- **A missing `"code"` is the one thing that stops this decoder**: `status_content` is not checked
before `is_string()` is asked of it. -/
theorem RtmpOnStatusCallPacket.via_decode (c : Bytes) :
    Via Shows (fun e => e = .nullPointer ∧ LacksCode c) (fun _ _ => True) (fun _ _ => True)
      (decode {}) c := by
  rw [decode_eq]
  have hparts : Via Shows (fun e => e = .nullPointer ∧ LacksCode c) (fun _ _ => True)
      (fun parts c' => Ends Shows readParts c (.ok (.ok parts, c'))) readParts c :=
    (safe_readParts c).ends.mono (fun _ => False.elim) (fun _ _ => id) fun _ _ => And.right
  refine hparts.seq fun parts c' hends => ?_
  exact (via_decodeStatus _ parts.2.2 c').mono
    (fun e he => ⟨he.1, parts, c', hends, he.2⟩) (fun _ _ => id) fun _ _ => id

/-- With nothing to read it fails at the first marker. -/
theorem RtmpOnStatusCallPacket.reads_decode_nil :
    Reads (fun _ _ => False) (decode {}) [] := by
  have hmarker : Reads (fun _ _ => False) (amf0ReadMarker rtmpAmf0String) [] :=
    (reads_amf0ReadMarker _).imp fun _ c' hc' => by simp at hc'
  exact Via.bind (Via.bind (Via.bind (hmarker.imp fun _ _ => False.elim)))

/-! ## Any class -/

namespace RtmpPacket

/-- A packet as the constructor of its class makes it, whatever the arguments. -/
def Fresh : RtmpPacket → Prop
  | base => True
  | connectApp p => p = {}
  | connectAppRes p => p = {}
  | setWindowAckSize p => p = {}
  | play p => p = {}
  | playRes p => p = {}
  | setChunkSize p => p = {}
  | setPeerBandwidth p => p = {}
  | userControl p => p = {}
  | createStream p => p = {}
  | createStreamRes p => ∃ transactionId streamId, p = { transactionId, streamId }
  | fmleStart p => p = {}
  | fmleStartRes p => ∃ transactionId, p = { transactionId }
  | publish p => p = {}
  | pause p => p = {}
  | onStatusCall p => p = {}
  | onMetaData p => p = {}
  | bandwidth p => p = {}
  | closeStream p => p = {}
  | call p => p = {}
  | callRes p => ∃ transactionId, p = { transactionId }
  | onCustomAmfData p => p = {}
  | acknowledgement p => p = {}

def isOnStatusCall : RtmpPacket → Bool
  | onStatusCall _ => true
  | _ => false

theorem safe_map {α β : Type} {f : Stream α} (g : α → β) (hf : Safe f) : Safe (g <$> f) :=
  fun c => (hf c).map g fun _ _ => id

/-- **Every class but one decodes any bytes.** -/
theorem safe_decode {p : RtmpPacket} (hp : p.Fresh) (hstatus : p.isOnStatusCall = false) :
    Safe p.decode := by
  cases p with
  | base => exact safe_fail _
  | connectApp p =>
    obtain rfl : p = {} := hp
    exact safe_map _ RtmpConnectAppPacket.safe_decode
  | connectAppRes p =>
    obtain rfl : p = {} := hp
    exact safe_map _ RtmpConnectAppResPacket.safe_decode
  | setWindowAckSize p => exact safe_map _ (safe_decodeWord.bind fun _ => safe_pure _)
  | play p => exact safe_map _ p.safe_decode
  | playRes p => exact safe_fail _
  | setChunkSize p => exact safe_map _ (safe_decodeWord.bind fun _ => safe_pure _)
  | setPeerBandwidth p => exact safe_fail _
  | userControl p => exact safe_map _ p.safe_decode
  | createStream p =>
    exact safe_map _ ((safe_decodeCommand _ _).bind fun _ => (safe_amf0ReadMarker _).bind fun _ =>
      safe_pure _)
  | createStreamRes p =>
    exact safe_map _ ((safe_decodeCommand _ _).bind fun _ => (safe_amf0ReadMarker _).bind fun _ =>
      safe_amf0ReadNumber.bind fun _ => safe_pure _)
  | fmleStart p =>
    exact safe_map _ ((safe_decodeCommand _ _).bind fun _ => (safe_amf0ReadMarker _).bind fun _ =>
      (safe_amf0ReadString _).bind fun _ => safe_pure _)
  | fmleStartRes p =>
    exact safe_map _ ((safe_decodeCommand _ _).bind fun _ => (safe_amf0ReadMarker _).bind fun _ =>
      (safe_amf0ReadMarker _).bind fun _ => safe_pure _)
  | publish p =>
    exact safe_map _ ((safe_decodeCommand _ _).bind fun _ => (safe_amf0ReadMarker _).bind fun _ =>
      (safe_amf0ReadString _).bind fun _ => (safe_unlessEmpty (safe_amf0ReadString _)).bind
        fun _ => safe_pure _)
  | pause p => exact safe_map _ p.safe_decode
  | onStatusCall p => exact absurd hstatus (by simp [isOnStatusCall])
  | onMetaData p =>
    obtain rfl : p = {} := hp
    exact safe_map _ RtmpOnMetaDataPacket.safe_decode
  | bandwidth p =>
    obtain rfl : p = {} := hp
    exact safe_map _ RtmpBandwidthPacket.safe_decode
  | closeStream p =>
    exact safe_map _ ((safe_decodeCommand _ _).bind fun _ => (safe_amf0ReadMarker _).bind fun _ =>
      safe_pure _)
  | call p => exact safe_map _ p.safe_decode
  | callRes p => exact safe_fail _
  | onCustomAmfData p => exact safe_map _ ((safe_amf0ReadString _).bind fun _ => safe_pure _)
  | acknowledgement p => exact safe_map _ (safe_decodeWord.bind fun _ => safe_pure _)

end RtmpPacket

/-! ## `do_decode_message` -/

/-- Both ways back to the beginning leave nothing to read. -/
theorem reads_restart (header : MessageHeader) (c : Bytes) :
    Reads (fun _ c' => c' = []) (restart header) c := by
  refine Via.bind (via_reset ?_)
  refine Via.onlyIf (fun _ => Via.bind (via_seekRead 1 fun _ c' hc' => Via.pure ?_)) fun _ => rfl
  exact List.length_eq_zero_iff.1 (Nat.le_zero.1 hc')

theorem safe_skipAmf3 (header : MessageHeader) : Safe (skipAmf3 header) := by
  intro c
  have hskip : Safe (seekRead 1 >>= fun _ => pure PUnit.unit) := fun c =>
    Via.bind (via_seekRead 1 fun _ _ _ => Via.pure trivial)
  by_cases h : header.isAmf3Command = true ∧ 1 ≤ c.length
  · refine Via.get_bind (fun b hb => if_pos ⟨h.1, hb.readRequire_iff.2 ?_⟩) (hskip c)
    omega
  · refine Via.get_bind (fun b hb => if_neg fun hand => h ⟨hand.1, ?_⟩) (Via.pure trivial)
    exact Nat.cast_le.1 (hb.readRequire_iff.1 hand.2).2

theorem reads_decodeAs (p : RtmpPacket) (hp : p.Fresh) (hstatus : p.isOnStatusCall = false)
    (c : Bytes) : Reads (fun q _ => q.isSome = true) (decodeAs p) c :=
  (RtmpPacket.safe_decode hp hstatus c).seq fun _ _ _ => Via.pure rfl

/-- A dropped failure leaves a plain packet. -/
theorem reads_decodeOrDrop {p : RtmpPacket} {c : Bytes} (h : Reads (fun _ _ => True) p.decode c) :
    Reads (fun _ _ => True) (decodeOrDrop p) c := by
  refine Via.bind (Via.attempt (h.mono (fun _ => id) ?_ ?_))
  · rintro x c' _
    exact Via.pure trivial
  · rintro packet c' _
    exact Via.pure trivial

/-- **A command is decoded from nothing**: `restart` has emptied the buffer. -/
theorem reads_doDecodeCommand (header : MessageHeader) (command : Bytes)
    (packet : Option RtmpPacket) :
    Reads (fun _ _ => True) (doDecodeCommand header command packet) [] := by
  have has : ∀ p : RtmpPacket, p.Fresh → p.isOnStatusCall = false →
      Reads (fun _ _ => True) (decodeAs p) [] := fun p hp h =>
    (reads_decodeAs p hp h []).imp fun _ _ _ => trivial
  have hstatus : Reads (fun _ _ => True) (decodeOrDrop (.onStatusCall {})) [] :=
    reads_decodeOrDrop (RtmpOnStatusCallPacket.reads_decode_nil.map _ fun _ _ => False.elim)
  unfold doDecodeCommand
  refine Via.ite (fun _ => has _ rfl rfl) fun _ => Via.ite (fun _ => has _ rfl rfl) fun _ => ?_
  refine Via.ite (fun _ => has _ rfl rfl) fun _ => Via.ite (fun _ => has _ rfl rfl) fun _ => ?_
  refine Via.ite (fun _ => has _ rfl rfl) fun _ => Via.ite (fun _ => has _ rfl rfl) fun _ => ?_
  refine Via.ite (fun _ => has _ rfl rfl) fun _ => Via.ite (fun _ => has _ rfl rfl) fun _ => ?_
  refine Via.ite (fun _ => hstatus) fun _ => Via.ite (fun _ => has _ rfl rfl) fun _ => ?_
  refine Via.ite (fun _ => has _ rfl rfl) fun _ => Via.ite (fun _ => has _ rfl rfl) fun _ => ?_
  refine Via.ite (fun _ => has _ rfl rfl) fun _ => Via.ite (fun _ => ?_) fun _ => Via.pure trivial
  exact reads_decodeOrDrop (RtmpPacket.safe_decode (p := .onCustomAmfData {}) rfl rfl [])

theorem reads_decodeResponseTo (requestName c : Bytes) :
    Reads (fun q _ => q.isSome = true) (decodeResponseTo requestName) c := by
  unfold decodeResponseTo
  refine Via.ite (fun _ => ?_) fun _ =>
    Via.ite (fun _ => ?_) fun _ => Via.ite (fun _ => ?_) fun _ => ?_
  · exact reads_decodeAs (.connectAppRes {}) rfl rfl c
  · exact reads_decodeAs (.createStreamRes _) ⟨_, _, rfl⟩ rfl c
  · exact reads_decodeAs (.fmleStartRes _) ⟨_, rfl⟩ rfl c
  · exact Via.fail trivial

theorem reads_decodeAmf (requests : Requests) (header : MessageHeader)
    (packet : Option RtmpPacket) (c : Bytes) :
    Reads (fun q _ => q.isSome = true) (decodeAmf requests header packet) c := by
  refine (safe_skipAmf3 header c).seq fun _ c₁ _ => ?_
  refine (safe_amf0ReadString [] c₁).seq fun command c₂ _ => Via.ite (fun _ => ?_) fun _ => ?_
  · refine (safe_amf0ReadNumber c₂).seq fun transactionId c₃ _ => ?_
    refine (reads_restart header c₃).seq fun _ c₄ _ => ?_
    cases requests.find transactionId with
    | none => exact Via.fail trivial
    | some requestName => exact reads_decodeResponseTo requestName c₄
  · refine (reads_restart header c₂).seq ?_
    rintro _ c₃ rfl
    exact (reads_doDecodeCommand header command packet).seq fun _ _ _ => Via.pure rfl

/-- The types whose messages are decoded; the others are dropped. -/
def MessageHeader.isDecoded (h : MessageHeader) : Bool :=
  h.isAmf || h.isUserControlMessage || h.isWindowAckledgementSize || h.isSetChunkSize

/-- **`do_decode_message` on any bytes**: a message of a decoded type gives an error or a packet, a
message of another type gives no packet. -/
theorem reads_doDecodeMessage (requests : Requests) (header : MessageHeader)
    (packet : Option RtmpPacket) (c : Bytes) :
    Reads (fun q _ => if header.isDecoded then q.isSome = true else q = packet)
      (doDecodeMessage requests header packet) c := by
  have hpacket : ∀ {f : Stream (Option RtmpPacket)}, header.isDecoded = true →
      Reads (fun q _ => q.isSome = true) f c →
      Reads (fun q _ => if header.isDecoded then q.isSome = true else q = packet) f c :=
    fun hd hf => hf.imp fun q _ hq => by rwa [if_pos hd]
  refine Via.ite (fun h => hpacket ?_ (reads_decodeAmf requests header packet c)) fun h₁ => ?_
  · simp [MessageHeader.isDecoded, h]
  refine Via.ite (fun h => hpacket ?_ (reads_decodeAs (.userControl {}) rfl rfl c)) fun h₂ => ?_
  · simp [MessageHeader.isDecoded, h]
  refine Via.ite (fun h => hpacket ?_ (reads_decodeAs (.setWindowAckSize {}) rfl rfl c))
    fun h₃ => ?_
  · simp [MessageHeader.isDecoded, h]
  refine Via.ite (fun h => hpacket ?_ (reads_decodeAs (.setChunkSize {}) rfl rfl c))
    fun h₄ => Via.pure ?_
  · simp [MessageHeader.isDecoded, h]
  · rw [if_neg (by simp [MessageHeader.isDecoded, h₁, h₂, h₃, h₄])]

/-- **No bytes of the peer stop a decoder**, wherever they lie in the ring, but for those from which
`RtmpOnStatusCallPacket::decode` reads an object without a `"code"`; a decoded message is an error
or a packet, a dropped one is neither. -/
theorem any_bytes_decoded :
    (∀ p : RtmpPacket, p.Fresh → ∀ c : Bytes,
      Via Shows (fun e => e = .nullPointer ∧ p.isOnStatusCall = true
          ∧ RtmpOnStatusCallPacket.LacksCode c)
        (fun _ _ => True) (fun _ _ => True) p.decode c)
    ∧ ∀ (requests : Requests) (header : MessageHeader) (c : Bytes),
      Via Shows (fun _ => False) (fun _ _ => True)
        (fun q _ => if header.isDecoded then q.isSome = true else q = none)
        (doDecodeMessage requests header none) c := by
  refine ⟨fun p hp c => ?_, fun requests header c => reads_doDecodeMessage requests header none c⟩
  by_cases hstatus : p.isOnStatusCall = true
  · cases p with
    | onStatusCall p =>
      obtain rfl : p = {} := hp
      refine ((RtmpOnStatusCallPacket.via_decode c).map RtmpPacket.onStatusCall
        fun _ _ => id).mono (fun _ he => ⟨he.1, rfl, he.2⟩) (fun _ _ => id) fun _ _ => id
    | _ => exact absurd hstatus (by simp [RtmpPacket.isOnStatusCall])
  · exact (RtmpPacket.safe_decode hp (Bool.not_eq_true _ ▸ hstatus) c).mono
      (fun _ => False.elim) (fun _ _ => id) fun _ _ => id

/-- An `onStatus` cut off after its name, and a user control message cut off after its type. -/
theorem any_bytes_decoded_cut :
    Via Shows (fun e => e = .nullPointer ∧ (RtmpPacket.onStatusCall {}).isOnStatusCall = true
        ∧ RtmpOnStatusCallPacket.LacksCode ([0x02, 0x00, 0x08] ++ text "onStatus"))
      (fun _ _ => True) (fun _ _ => True) (RtmpPacket.onStatusCall {}).decode
      ([0x02, 0x00, 0x08] ++ text "onStatus")
    ∧ Via Shows (fun _ => False) (fun _ _ => True)
      (fun q _ => if (MessageHeader.isDecoded { messageType := rtmpMsgUserControlMessage })
        then q.isSome = true else q = none)
      (doDecodeMessage [] { messageType := rtmpMsgUserControlMessage } none) [0x00, 0x03] :=
  ⟨any_bytes_decoded.1 (.onStatusCall {}) rfl _, any_bytes_decoded.2 [] _ _⟩

/-- **An audio message gives neither an error nor a packet**, and an `onStatus` whose object has no
`"code"` stops the program. -/
theorem neither_error_nor_packet :
    doDecodeMessage [] { messageType := 8 } none ⟨[0xaf, 0x01, 0x21, 0x00], 3, 0, 4⟩
      = .ok (.ok none, ⟨[0xaf, 0x01, 0x21, 0x00], 3, 0, 4⟩)
    ∧ (RtmpPacket.onStatusCall {}).decode.fault ⟨[0x02, 0x00, 0x08] ++ text "onStatus"
        ++ [0x00, 0, 0, 0, 0, 0, 0, 0, 0, 0x05, 0x03, 0x00], 22, 0, 23⟩ = some .nullPointer := by
  refine ⟨rfl, ?_⟩
  decide +kernel

end SmartStreaming
