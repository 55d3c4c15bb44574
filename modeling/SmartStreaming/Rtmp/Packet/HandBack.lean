import SmartStreaming.Rtmp.Packet.Safety

/-!
# Rtmp/Packet/HandBack — what `do_decode_message` hands back for commands and data

`Buffer::reset`, which is called to go back to the beginning of the payload, forgets the payload
(`reads_restart`).  A response is then decoded from nothing and fails; any other command ends as the
plain packet it is replaced by.
-/

namespace SmartStreaming

open Machinery Comp Buffer

/-- With nothing to read a command fails at its first marker. -/
theorem reads_decodeCommand_nil (accepts : Bytes → Bool) (commandName : Bytes) :
    Reads (fun _ _ => False) (decodeCommand accepts commandName) [] := by
  have hmarker : Reads (fun _ _ => False) (amf0ReadMarker rtmpAmf0String) [] :=
    (reads_amf0ReadMarker _).imp fun _ c' hc' => by simp at hc'
  exact Via.bind (Via.bind (hmarker.imp fun _ _ => False.elim))

/-- A decoder that begins with a command decodes nothing from nothing. -/
theorem reads_command_nil {α : Type} {Q : α → Bytes → Prop} (accepts : Bytes → Bool)
    (commandName : Bytes) (f : Bytes × Double → Stream α) :
    Reads Q (decodeCommand accepts commandName >>= f) [] :=
  (reads_decodeCommand_nil accepts commandName).seq fun _ _ => False.elim

/-- The response classes, decoded from nothing. -/
theorem reads_decodeResponseTo_nil (requestName : Bytes) :
    Reads (fun _ _ => False) (decodeResponseTo requestName) [] := by
  unfold decodeResponseTo
  refine Via.ite (fun _ => ?_) fun _ => Via.ite (fun _ => ?_) fun _ => Via.ite (fun _ => ?_)
    fun _ => Via.fail trivial
  · exact Via.bind (Via.map _ (reads_command_nil _ _ _) fun _ _ => False.elim)
  · exact Via.bind (Via.map _ (reads_command_nil _ _ _) fun _ _ => False.elim)
  · exact Via.bind (Via.map _ (reads_command_nil _ _ _) fun _ _ => False.elim)

/-- **A command or data message gives an error or a plain packet**, whatever its bytes. -/
theorem reads_decodeAmf_base (requests : Requests) (header : MessageHeader)
    (packet : Option RtmpPacket) (c : Bytes) :
    Reads (fun q _ => q = some .base) (decodeAmf requests header packet) c := by
  refine (safe_skipAmf3 header c).seq fun _ c₁ _ => ?_
  refine (safe_amf0ReadString [] c₁).seq fun command c₂ _ => Via.ite (fun _ => ?_) fun _ => ?_
  · refine (safe_amf0ReadNumber c₂).seq fun transactionId c₃ _ => ?_
    refine (reads_restart header c₃).seq ?_
    rintro _ c₄ rfl
    cases requests.find transactionId with
    | none => exact Via.fail trivial
    | some requestName =>
      exact (reads_decodeResponseTo_nil requestName).imp fun _ _ => False.elim
  · refine (reads_restart header c₂).seq ?_
    rintro _ c₃ rfl
    exact (reads_doDecodeCommand header command packet).seq fun _ _ _ => Via.pure rfl

/-- **No packet of any class is handed back for a command or data message**: every call on a buffer
that shows the payload fails or ends with a plain packet. -/
theorem no_packet_handed_back (requests : Requests) (header : MessageHeader)
    (hamf : header.isAmf0Command = true ∨ header.isAmf0Data = true) (packet : Option RtmpPacket)
    (payload : Bytes) (b : Buffer) (hb : Shows b payload) (p : RtmpPacket) (hp : p ≠ .base) :
    ¬ ∃ b', doDecodeMessage requests header packet b = .ok (.ok (some p), b') := by
  rintro ⟨b', hrun⟩
  have his : header.isAmf = true := by
    rw [MessageHeader.isAmf]
    rcases hamf with h | h <;> simp [h]
  rw [doDecodeMessage, if_pos his] at hrun
  obtain ⟨c', -, hbase⟩ :=
    ((reads_decodeAmf_base requests header packet payload).holds hb).elim_ok hrun
  exact hp (Option.some.inj hbase)

/-- The command `createStream` with transaction id 2, in a buffer that holds nothing else. -/
def createStreamPayload : Bytes :=
  [0x02, 0x00, 0x0c] ++ text "createStream" ++ [0x00, 0x40, 0, 0, 0, 0, 0, 0, 0, 0x05]

def createStreamBuffer : Buffer := ⟨createStreamPayload ++ [0], 25, 0, 26⟩

theorem shows_createStreamBuffer : Shows createStreamBuffer createStreamPayload := by
  refine ⟨?_, by decide +kernel⟩
  constructor <;> decide

theorem no_packet_handed_back_createStream :
    ¬ ∃ b', doDecodeMessage [] { messageType := rtmpMsgAMF0CommandMessage } none createStreamBuffer
      = .ok (.ok (some (.createStream {})), b') :=
  no_packet_handed_back [] _ (Or.inl rfl) none createStreamPayload _ shows_createStreamBuffer _
    (by intro h; cases h)

/-- **A `createStream` request is not decoded**, although its class decodes the payload; nor is the
response to one. -/
theorem createStream_not_decoded :
    (∃ b', (RtmpPacket.createStream {}).decode createStreamBuffer
        = .ok (.ok (.createStream {}), b') ∧ b'.readEmpty = true)
    ∧ (doDecodeMessage [] { messageType := rtmpMsgAMF0CommandMessage } none).failure
        createStreamBuffer = some errorRtmpAmf0Decode
    ∧ (doDecodeMessage [(Double.two, rtmpAmf0CommandCreateStream)]
        { messageType := rtmpMsgAMF0CommandMessage } none).failure
        ⟨[0x02, 0x00, 0x07] ++ text "_result" ++ [0x00, 0x40, 0, 0, 0, 0, 0, 0, 0, 0x05]
          ++ [0x00, 0x3f, 0xf0, 0, 0, 0, 0, 0, 0] ++ [0], 29, 0, 30⟩
        = some errorRtmpAmf0Decode := by
  refine ⟨⟨_, rfl, by decide +kernel⟩, ?_, ?_⟩
  · decide +kernel
  · decide +kernel

end SmartStreaming
