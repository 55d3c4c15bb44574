import SmartStreaming.Rtmp.Chunk.Invariant
import SmartStreaming.Rtmp.Control

/-!
# Rtmp/Expect — `recv_packet` and `expect_packet`: no packet is ever handed out

`recv_packet(pkt)` receives chunks until one completes a message that is not empty, and hands the
message to `on_recv_message`; `expect_packet` receives packets until one has the type it is asked
for.  Only a control message is decoded to a packet, and none of them can be: a call of
`recv_packet` that succeeds leaves its argument as it is, and `expect_packet` goes on until the
source or a message fails.
-/

namespace SmartStreaming

open Machinery Comp

namespace RtmpSession

variable {σ : Type}

/-! ## Receiving packets -/

/-- `recv_interlaced_message(msg)`. -/
def recvInterlacedMessage (src : ByteSource σ) (ext : BitVec 32) : Call σ (Option RtmpMessage) :=
  zoom toRtmpProtocolHandler (fun p h => { h with toRtmpProtocolHandler := p })
    (RtmpProtocolHandler.recvInterlacedMessage src ext)

/-- `recv_packet(pkt)`, and the extended timestamps of the chunks that are still to come: there is
one for every chunk that is received. -/
def recvPacket (src : ByteSource σ) (getRecvBytes : σ → BitVec 64) (pkt : Option RtmpPacket) :
    List (BitVec 32) → Call σ (Option RtmpPacket × List (BitVec 32))
  | [] => stop .outOfFuel
  | ext :: exts => do
    match ← recvInterlacedMessage src ext with
    | none => recvPacket src getRecvBytes pkt exts
    | some msg =>
      if msg.size ≤ 0 ∨ msg.header.payloadLength ≤ 0 then
        recvPacket src getRecvBytes pkt exts
      else
        let pkt ← onRecvMessage getRecvBytes msg pkt
        return (pkt, exts)

/-- `expect_packet<T>(packet)`, for the packets that `dynamic_pointer_cast<T>` accepts. -/
def expectPacket (src : ByteSource σ) (getRecvBytes : σ → BitVec 64) (isT : RtmpPacket → Bool) :
    ℕ → List (BitVec 32) → Call σ (RtmpPacket × List (BitVec 32))
  | 0, _ => stop .outOfFuel
  | fuel + 1, exts => do
    let (rtmpPacket, exts) ← recvPacket src getRecvBytes none exts
    match rtmpPacket.filter isT with
    | none => expectPacket src getRecvBytes isT fuel exts
    | some pkt => return (pkt, exts)

/-- A call on a session. -/
inductive PacketCall
  | recvPacket (exts : List (BitVec 32))
  | expectPacket (isT : RtmpPacket → Bool) (fuel : ℕ) (exts : List (BitVec 32))

/-- The call, its code kept as a value: a caller may go on after an error.  The result is the packet
that the caller is given, if any. -/
def PacketCall.run (src : ByteSource σ) (getRecvBytes : σ → BitVec 64) :
    PacketCall → Call σ (Except ℤ (Option RtmpPacket))
  | recvPacket exts => attempt do
    return (← RtmpSession.recvPacket src getRecvBytes none exts).1
  | expectPacket isT fuel exts => attempt do
    return some (← RtmpSession.expectPacket src getRecvBytes isT fuel exts).1

/-! ## What a message leaves -/

/-- What holds between two calls: the chunk streams are as `recv_interlaced_message` keeps them, and
control messages have changed nothing. -/
structure Ready (c : Control) (h : RtmpSession σ) : Prop where
  inv : h.toRtmpProtocolHandler.Inv
  control_eq : h.control = c

section Receive

variable {src : ByteSource σ} {c : Control} {h : RtmpSession σ}

/-- Receiving a chunk does not touch the chunk size. -/
theorem keeps_inChunkSize (ext : BitVec 32) (n : ℤ) :
    Comp.Keeps (fun p : RtmpProtocolHandler σ => p.inChunkSize = n)
      (RtmpProtocolHandler.recvInterlacedMessage src ext) := by
  rw [RtmpProtocolHandler.recvInterlacedMessage]
  refine Comp.Keeps.bind
    (Comp.Keeps.zoom (keeps_true _) (fun _ _ => trivial) fun _ _ hp _ => hp) ?_
  intro header
  refine Comp.Keeps.bind (Comp.Keeps.ite (keeps_pure _) (keeps_stop _)) fun _ => ?_
  refine Comp.Keeps.get_bind fun p _ => (keeps_ofOption _ _).bind fun chunk => ?_
  refine Comp.Keeps.zoom (keeps_true _) (fun _ _ => trivial) fun s p hp _ => ?_
  exact (RtmpProtocolHandler.inChunkSize_setChunkStream p header.2 s.1).trans hp

/-- **Receiving a chunk keeps the session ready**, wherever it fails. -/
theorem holds_recvInterlacedMessage (hsrc : src.Lawful) (ext : BitVec 32) (h₀ : Ready c h) :
    Holds (fun _ => False) (fun _ h' => Ready c h') (fun _ h' => Ready c h')
      (recvInterlacedMessage src ext) h := by
  have hready : ∀ p : RtmpProtocolHandler σ, p.Inv → p.inChunkSize = h.inChunkSize →
      Ready c { h with toRtmpProtocolHandler := p } := by
    intro p hp hn
    refine ⟨hp, ?_⟩
    rw [← h₀.control_eq, control, control, hn]
  rw [recvInterlacedMessage, holds_zoom]
  refine ((RtmpProtocolHandler.holds_recvInterlacedMessage hsrc ext h₀.inv).keeps
    (keeps_inChunkSize ext h.inChunkSize) rfl).imp ?_ ?_
  · rintro _ p ⟨hp, hn⟩
    exact hready p hp hn
  · rintro _ p ⟨⟨hp, -⟩, hn⟩
    exact hready p hp hn

/-- A response to the bytes received is queued, or cannot be sent. -/
theorem holds_response (getRecvBytes : σ → BitVec 64) (h₀ : Ready c h) :
    Holds (fun _ => False) (fun _ h' => Ready c h') (fun _ h' => Ready c h')
      (responseAcknowledgementMessage getRecvBytes) h := by
  obtain ⟨hinv, hc⟩ := h₀
  simp only [responseAcknowledgementMessage, respond, holds_bind, holds_get, holds_ite, holds_pure,
    holds_put]
  refine ⟨fun _ => ⟨hinv, hc⟩, fun _ => ⟨fun _ => ⟨hinv, hc⟩, fun _ =>
    ⟨fun _ => ⟨hinv, hc⟩, fun _ => ?_⟩⟩⟩
  refine (holds_sendAcknowledgement _ _).imp ?_ fun _ _ => False.elim
  rintro _ h' ⟨-, rfl⟩
  exact ⟨hinv, hc⟩

/-- **A message leaves the packet as it is**: a control message fails, any other is not decoded. -/
theorem holds_onRecvMessage_packet (getRecvBytes : σ → BitVec 64) (msg : RtmpMessage)
    (packet : Option RtmpPacket) (h₀ : Ready c h) :
    Holds (fun _ => False) (fun _ h' => Ready c h') (fun out h' => out = packet ∧ Ready c h')
      (onRecvMessage getRecvBytes msg packet) h := by
  rw [onRecvMessage, holds_bind]
  refine (holds_response getRecvBytes h₀).imp (fun _ _ => id) fun _ h' h₁ => ?_
  rw [holds_ite]
  refine ⟨fun hmsg => ?_, fun _ => ⟨rfl, h₁⟩⟩
  rw [holds_bind]
  exact holds_decodePayload hmsg packet h' h₁

/-- **A packet that is received is the one that was there before.** -/
theorem holds_recvPacket (hsrc : src.Lawful) (getRecvBytes : σ → BitVec 64)
    (pkt : Option RtmpPacket) (exts : List (BitVec 32)) (h₀ : Ready c h) :
    Holds (fun e => e = .outOfFuel) (fun _ h' => Ready c h')
      (fun out h' => out.1 = pkt ∧ Ready c h') (recvPacket src getRecvBytes pkt exts) h := by
  induction exts generalizing h with
  | nil => exact rfl
  | cons ext exts ih =>
    rw [recvPacket, holds_bind]
    refine (holds_recvInterlacedMessage hsrc ext h₀).mono (fun _ => False.elim) (fun _ _ => id) ?_
    rintro (_ | msg) h₁ h₁'
    · exact ih h₁'
    · dsimp only
      rw [holds_ite]
      refine ⟨fun _ => ih h₁', fun _ => ?_⟩
      rw [holds_bind]
      exact (holds_onRecvMessage_packet getRecvBytes msg pkt h₁').mono (fun _ => False.elim)
        (fun _ _ => id) fun _ _ => id

/-- **No packet is the expected one.** -/
theorem holds_expectPacket (hsrc : src.Lawful) (getRecvBytes : σ → BitVec 64)
    (isT : RtmpPacket → Bool) (fuel : ℕ) (exts : List (BitVec 32)) (h₀ : Ready c h) :
    Holds (fun e => e = .outOfFuel) (fun _ h' => Ready c h') (fun _ _ => False)
      (expectPacket src getRecvBytes isT fuel exts) h := by
  induction fuel generalizing exts h with
  | zero => exact rfl
  | succ fuel ih =>
    rw [expectPacket, holds_bind]
    refine (holds_recvPacket hsrc getRecvBytes none exts h₀).imp (fun _ _ => id) ?_
    rintro ⟨packet, exts'⟩ h₁ ⟨rfl, h₁'⟩
    exact ih exts' h₁'

/-- What a caller gets: an error, or success with no packet. -/
def NoPacket (out : Except ℤ (Option RtmpPacket)) : Prop := ∀ pkt, out ≠ .ok (some pkt)

theorem noPacket_error (code : ℤ) : NoPacket (.error code) := fun _ hout => by cases hout

theorem noPacket_none : NoPacket (.ok none) := fun _ hout => by cases hout

theorem PacketCall.refines (hsrc : src.Lawful) (getRecvBytes : σ → BitVec 64)
    (call : PacketCall) :
    Refines (fun _ _ e => e = .outOfFuel) (fun h (_ : Unit) => Ready c h)
      (fun _ _ out _ => NoPacket out) (PacketCall.run src getRecvBytes) call := by
  intro h _ h₀
  cases call with
  | recvPacket exts =>
    simp only [PacketCall.run, holds_attempt, holds_bind, holds_pure]
    refine (holds_recvPacket hsrc getRecvBytes none exts h₀).imp ?_ ?_
    · exact fun code h' h₁ => ⟨(), noPacket_error code, h₁⟩
    · rintro ⟨packet, exts'⟩ h' ⟨rfl, h₁⟩
      exact ⟨(), noPacket_none, h₁⟩
  | expectPacket isT fuel exts =>
    simp only [PacketCall.run, holds_attempt, holds_bind, holds_pure]
    refine (holds_expectPacket hsrc getRecvBytes isT fuel exts h₀).imp ?_ fun _ _ => False.elim
    exact fun code h' h₁ => ⟨(), noPacket_error code, h₁⟩

end Receive

/-- A session over `io` that has received nothing yet. -/
def new (io : σ) (fixTimestamp : Bool) (inChunkSize : ℤ) (autoResponseWhenRecv : Bool) :
    RtmpSession σ where
  toRtmpProtocolHandler := .new io fixTimestamp inChunkSize
  inAckSize := {}
  inBufferLength := 0
  requests := []
  autoResponseWhenRecv := autoResponseWhenRecv
  manualResponseQueue := []

/-- **No packet is ever handed out**: whatever the peer sends and however it is read, no call of a
run of `recv_packet` and `expect_packet` gives its caller a packet, and the chunk size, the window
and the buffer length stay what they were; the run stays inside the allocations, and stops only
where there are no more chunks. -/
theorem no_packet_received (src : ByteSource σ) (hsrc : src.Lawful) (getRecvBytes : σ → BitVec 64)
    (io : σ) (fixTimestamp : Bool) (inChunkSize : ℤ) (hc : 1 ≤ inChunkSize)
    (autoResponse : Bool) (calls : List PacketCall) :
    calls.mapM (PacketCall.run src getRecvBytes) (new io fixTimestamp inChunkSize autoResponse)
        = .error .outOfFuel
      ∨ ∃ outs h, calls.mapM (PacketCall.run src getRecvBytes)
          (new io fixTimestamp inChunkSize autoResponse) = .ok (.ok outs, h)
        ∧ (∀ out ∈ outs, NoPacket out) ∧ h.control = ⟨inChunkSize, 0, 0⟩ := by
  have hready : Ready ⟨inChunkSize, 0, 0⟩ (new io fixTimestamp inChunkSize autoResponse) :=
    ⟨RtmpProtocolHandler.inv_new io fixTimestamp hc, rfl⟩
  have hrun := Refines.mapM_const (fun call (_ : call ∈ calls) =>
    PacketCall.refines hsrc getRecvBytes call) hready (q := ())
  rcases hrun.stops_or_returns with ⟨e, heq, rfl⟩ | ⟨outs, h, heq, _, hruns, h₁⟩
  · exact Or.inl heq
  · exact Or.inr ⟨outs, h, heq, hruns.forall_mem (P := NoPacket) fun _ _ _ _ => id, h₁.control_eq⟩

/-- A message of one byte, and the announcement of chunks of 4096 bytes. -/
def announcement : Bytes :=
  [3, 0, 0, 0, 0, 0, 1, 9, 1, 0, 0, 0, 7, 2, 0, 0, 0, 0, 0, 4, 1, 0, 0, 0, 0, 0, 0, 16, 0]

/-- A caller that receives the message, and then waits for any packet. -/
def waiting : List PacketCall := [.recvPacket [0], .expectPacket (fun _ => true) 1 [0]]

theorem no_packet_received_announcement :
    waiting.mapM (PacketCall.run ByteSource.ofBytes fun _ => 0) (new announcement true 128 true)
        = .error .outOfFuel
      ∨ ∃ outs h, waiting.mapM (PacketCall.run ByteSource.ofBytes fun _ => 0)
          (new announcement true 128 true) = .ok (.ok outs, h)
        ∧ (∀ out ∈ outs, NoPacket out) ∧ h.control = ⟨128, 0, 0⟩ :=
  no_packet_received ByteSource.ofBytes ByteSource.ofBytes_lawful (fun _ => 0) announcement true 128
    (by decide) true waiting

end RtmpSession

end SmartStreaming
