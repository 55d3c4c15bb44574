import SmartStreaming.Cache.Live
import SmartStreaming.Format.Ingest

/-!
# Cache/Relay — the bytes of an origin on their way to the viewers

    client->request ──on_ingest──▸ RawDeMux ──packets──▸ Live
          fetch_stream ──────────▸

The input of `Cache/Live` reads through a `RawDeMux`, which makes a packet of all that its buffer
holds.  `bytes_relayed`: each client has been sent a contiguous piece of the bytes that have come
from the origin, and what a client at work is still to be sent is in one of three places.
-/

namespace SmartStreaming

open Machinery Comp

/-! ## What the live channel has been given -/

namespace Live

variable {inputType : Ref → EInputType} {s s' : Live} {op : Op} {now ret : ℤ}

theorem produced_endInterleave (now : ℤ) (s : Live) :
    (s.endInterleave now).produced = s.produced := by
  unfold endInterleave
  split <;> rfl

theorem produced_readReturns (packet : Option Bytes) (now : ℤ) (s : Live) :
    (s.readReturns errorSuccess packet now).produced = s.produced ++ packet.toList := by
  unfold readReturns
  rw [if_neg (not_not.2 rfl)]
  cases packet with
  | none => exact (produced_endInterleave now s).trans (List.append_nil _).symm
  | some packet =>
    dsimp only
    split
    · exact produced_endInterleave now _
    · rfl

theorem produced_channelEnds (h : s.channelEnds inputType now = .ok s') :
    s'.produced = s.produced := by
  obtain ⟨viewers, -, rfl⟩ := exists_of_map_eq_ok h
  rfl

theorem produced_convey {packet : Bytes} (h : s.convey inputType packet = .ok s') :
    s'.produced = s.produced := by
  obtain ⟨viewers, -, rfl⟩ := exists_of_map_eq_ok h
  rfl

theorem produced_turn (h : s.turn inputType now = .ok s') : s'.produced = s.produced := by
  unfold turn at h
  split at h
  · exact produced_channelEnds h
  · split at h
    · exact produced_channelEnds h
    · split at h
      · cases h
        rfl
      · exact produced_convey h

theorem produced_wake (h : s.wake inputType now = .ok s') : s'.produced = s.produced := by
  unfold wake at h
  split at h
  · exact produced_channelEnds h
  · split at h
    · cases h
    · exact produced_convey h

/-- **Only a read brings packets.** -/
theorem produced_step (hop : ∀ ret packet now, op ≠ .read ret packet now)
    (h : s.step inputType op = .ok s') : s'.produced = s.produced := by
  cases op with
  | read ret packet now => exact absurd rfl (hop ret packet now)
  | stopConn =>
    cases h
    rfl
  | turn now =>
    rw [step] at h
    split at h
    · exact produced_turn h
    · cases h
      rfl
  | wake now =>
    rw [step] at h
    split at h
    · exact produced_wake h
    · cases h
      rfl
  | viewer vop =>
    cases vop with
    | dispatch packet =>
      cases h
      rfl
    | onStop =>
      cases h
      rfl
    | _ =>
      simp only [step] at h
      obtain ⟨viewers, -, rfl⟩ := exists_of_map_eq_ok h
      rfl

end Live

/-! ## The steps -/

/-- A live channel, the demux that its input reads through, and the bytes that have come to it. -/
structure Relay where
  live : Live
  demux : RawDeMux
  arrived : Bytes

namespace Relay

/-- The `in_buf` of `init_input`, of 8 KiB. -/
def inBuf : Bytes := List.replicate (1024 * 8) 0

def inBufSize : ℤ := 1024 * 8

/-- `init_input`, and the head of the data that `client->request` gives to `on_ingest`: what the
demux has taken of it, and the demux. -/
def ingest (contentLength : ℤ) (dataHeader : Bytes) :
    Except Fault (Except ℤ (Bytes × Option Bytes) × RawDeMux) :=
  (RawDeMux.Feed.ingest contentLength dataHeader).call (RawDeMux.new inBuf inBufSize)

/-- After `Channel::run` has probed the input. -/
def start (write : Ref → Bytes → Bytes → ℤ × Bytes) (ref : Ref) (arrived : Bytes)
    (demux : RawDeMux) : Relay :=
  ⟨Live.start write ref, demux, arrived⟩

/-- What happens next: `handle_input`, to which `read_packet` has given `received`, returns; or
anything else. -/
inductive Op
  | read (received : Received) (now : ℤ)
  | other (op : Live.Op)

section Source

variable (inputType : Ref → EInputType)

/-- The loop of `cycle_interleave`, from its call of `handle_input` to the next one. -/
def readInput (received : Received) (now : ℤ) (s : Relay) : Except Fault Relay :=
  (RawDeMux.handleInput received s.demux).map fun out =>
    { live := match out.1 with
        | .ok (ret, packet) => s.live.readReturns ret packet now
        | .error ret => s.live.readReturns ret none now
      demux := out.2
      arrived := s.arrived ++ RawDeMux.delivered received s.demux }

/-- One step. -/
def step (s : Relay) : Op → Except Fault Relay
  | .read received now => if s.live.input.co.Alive then s.readInput received now else .ok s
  | .other (.read _ _ _) => .ok s
  | .other op => (s.live.step inputType op).map fun live => { s with live }

/-- The state after a sequence of steps. -/
def run (s : Relay) : List Op → Except Fault Relay
  | [] => .ok s
  | op :: ops => (s.step inputType op).bind fun s => run s ops

end Source

/-! ## The invariant -/

/-- **The invariant**: what has arrived is in the packets or still in the demux. -/
structure Inv (s : Relay) : Prop where
  live : s.live.Inv
  valid : s.demux.buffer.Valid
  arrived : s.live.produced.flatten ++ s.demux.buffer.content = s.arrived

variable {inputType : Ref → EInputType} {s s' : Relay} {now : ℤ}

/-- A read turns what has arrived with it into a packet, with what the demux held. -/
theorem Inv.exists_readInput (h : s.Inv) (received : Received) (now : ℤ) :
    ∃ s', s.readInput received now = .ok s' ∧ s'.Inv := by
  obtain ⟨b, hrun, hb, hnil, -⟩ := RawDeMux.handleInput_eq h.valid received
  generalize hpacket : (if RawDeMux.offered received s.demux = [] then none
    else some (RawDeMux.offered received s.demux)) = packet at hrun
  have hbytes : packet.toList.flatten
      = s.demux.buffer.content ++ RawDeMux.delivered received s.demux := by
    subst hpacket
    split
    · rename_i hoffered
      exact hoffered.symm
    · exact List.flatten_singleton
  refine ⟨⟨s.live.readReturns errorSuccess packet now, _, _⟩, by rw [readInput, hrun]; rfl,
    h.live.readReturns errorSuccess packet now, hb, ?_⟩
  rw [Live.produced_readReturns, List.flatten_append, hbytes, hnil, List.append_nil,
    ← List.append_assoc, h.arrived]

/-- Any other step leaves the demux alone. -/
theorem Inv.setLive (h : s.Inv) {live : Live} (hlive : live.Inv)
    (hproduced : live.produced = s.live.produced) : Inv { s with live } where
  live := hlive
  valid := h.valid
  arrived := by
    change live.produced.flatten ++ s.demux.buffer.content = s.arrived
    rw [hproduced, h.arrived]

theorem step_other {op : Live.Op} (hop : ∀ ret packet now, op ≠ .read ret packet now) :
    s.step inputType (.other op)
      = (s.live.step inputType op).map fun live => { s with live } := by
  cases op with
  | read ret packet now => exact absurd rfl (hop ret packet now)
  | _ => rfl

/-- **One step.** -/
theorem Inv.exists_step (h : s.Inv) (inputType : Ref → EInputType) (op : Op) :
    (∃ s', s.step inputType op = .ok s' ∧ s'.Inv)
      ∨ s.step inputType op = .error .deadBlock ∧ (∃ now, op = .other (.wake now))
        ∧ s.live.moved = true := by
  cases op with
  | read received now =>
    rw [step]
    split
    · exact .inl (h.exists_readInput received now)
    · exact .inl ⟨s, rfl, h⟩
  | other op =>
    by_cases hop : ∃ ret packet now, op = .read ret packet now
    · obtain ⟨ret, packet, now, rfl⟩ := hop
      exact .inl ⟨s, rfl, h⟩
    · have hother : ∀ ret packet now, op ≠ .read ret packet now := by
        rintro ret packet now rfl
        exact hop ⟨ret, packet, now, rfl⟩
      rw [step_other hother]
      rcases h.live.exists_step inputType op with ⟨live, hstep, hlive⟩ | ⟨hstep, ⟨now, rfl⟩, hmoved⟩
      · refine .inl ⟨_, by rw [hstep]; rfl, h.setLive hlive (Live.produced_step hother hstep)⟩
      · exact .inr ⟨by rw [hstep]; rfl, ⟨now, rfl⟩, hmoved⟩

/-- The run ends where `fetch` has been waiting, and its inputs have been changed meanwhile. -/
def EndsAtFetch (inputType : Ref → EInputType) (s : Relay) (ops : List Op) : Prop :=
  ∃ before now behind s', ops = before ++ .other (.wake now) :: behind
    ∧ s.run inputType before = .ok s' ∧ s'.live.moved = true

theorem run_cons_of_ok {op : Op} (hstep : s.step inputType op = .ok s') (ops : List Op) :
    s.run inputType (op :: ops) = s'.run inputType ops := by
  rw [run, hstep]
  rfl

/-- A run. -/
theorem Inv.exists_run (h : s.Inv) (inputType : Ref → EInputType) (ops : List Op) :
    (∃ s', s.run inputType ops = .ok s' ∧ s'.Inv)
      ∨ s.run inputType ops = .error .deadBlock ∧ s.EndsAtFetch inputType ops := by
  induction ops generalizing s with
  | nil => exact .inl ⟨s, rfl, h⟩
  | cons op ops ih =>
    rcases h.exists_step inputType op with ⟨s₁, hstep, h₁⟩ | ⟨hstep, ⟨now, rfl⟩, hmoved⟩
    · rw [run_cons_of_ok hstep]
      rcases ih h₁ with hok | ⟨hrun, before, now, behind, s', rfl, hbefore, hmoved⟩
      · exact .inl hok
      · refine .inr ⟨hrun, op :: before, now, behind, s', rfl, ?_, hmoved⟩
        rw [run_cons_of_ok hstep, hbefore]
    · refine .inr ⟨?_, [], now, ops, s, rfl, rfl, hmoved⟩
      rw [run, hstep]
      rfl

/-! ## The bytes of a client -/

/-- **What a client may have been sent** of the bytes that have arrived. -/
inductive SentOf (arrived : Bytes) : Bytes → Prop
  | nothing : SentOf arrived []
  | notFound : SentOf arrived (RawMux.statusText 404)
  | piece (bytes : Bytes) (infix_arrived : bytes <:+: arrived) :
      SentOf arrived (RawMux.statusText 200 ++ bytes)

/-- What is on its way to a client: the queue of its output, the queue of the input, the demux. -/
def pending (output : Ref) (s : Relay) : Bytes :=
  (s.live.viewers.fanout.queues output).queue.flatten ++ s.live.input.queue.queue.flatten
    ++ s.demux.buffer.content

/-- What has been dispatched comes first of what has arrived. -/
theorem Inv.dispatched (h : s.Inv) :
    (s.live.viewers.history.filterMap Fanout.Op.packet).flatten
      ++ (s.live.input.queue.queue.flatten ++ s.demux.buffer.content) = s.arrived := by
  rw [← List.append_assoc, ← List.flatten_append, h.live.relayed, h.arrived]

theorem Inv.sentOf (h : s.Inv) (output : Ref) :
    SentOf s.arrived (s.live.viewers.outputs output).mux.client := by
  have hheard : s.live.viewers.fanout.taken output
      ++ (s.live.viewers.fanout.queues output).queue
      = Fanout.heardBy output s.live.viewers.history := h.live.viewers.serves.heard output
  have hwindow : Fanout.heardBy output s.live.viewers.history
      <:+: s.live.viewers.history.filterMap Fanout.Op.packet :=
    (Fanout.window_hear output s.live.viewers.history h.live.nodup).infix_packets
  have hdispatched : (s.live.viewers.history.filterMap Fanout.Op.packet).flatten <+: s.arrived :=
    h.dispatched ▸ List.prefix_append _ _
  have hreceived := (h.live.viewers.served output).received
    (hheard ▸ List.prefix_append _ _ : _ <+: Fanout.heardBy output s.live.viewers.history)
  generalize (s.live.viewers.outputs output).mux.client = client at hreceived ⊢
  cases hreceived with
  | nothing => exact .nothing
  | notFound => exact .notFound
  | packets packets hprefix =>
    exact .piece _ ((List.IsInfix.trans hprefix.isInfix hwindow).flatten.trans hdispatched.isInfix)

/-- **Nothing is missing**: what a client at work has been sent and what is on its way to it end
what has arrived, as long as the channel has its output. -/
theorem Inv.nothing_missing (h : s.Inv) {output : Ref}
    (hin : output ∈ s.live.viewers.fanout.channel.outputQueue) :
    (s.live.viewers.fanout.taken output).flatten ++ s.pending output <:+ s.arrived := by
  have hheard : s.live.viewers.fanout.taken output
      ++ (s.live.viewers.fanout.queues output).queue
      = Fanout.heardBy output s.live.viewers.history := h.live.viewers.serves.heard output
  have hsuffix : Fanout.heardBy output s.live.viewers.history
      <:+ s.live.viewers.history.filterMap Fanout.Op.packet :=
    (Fanout.window_hear output s.live.viewers.history h.live.nodup).suffix_packets
      ((h.live.viewers.serves.mem_iff output).1 hin)
  obtain ⟨before, hbefore⟩ := hsuffix.flatten
  refine ⟨before, ?_⟩
  rw [← h.dispatched, ← hbefore, ← hheard, List.flatten_append, pending]
  simp only [List.append_assoc]

/-- The head of the data is taken as a whole if it fits, or not at all. -/
theorem exists_ingest (contentLength : ℤ) (dataHeader : Bytes) :
    ∃ demux, demux.buffer.Valid
      ∧ demux.buffer.content = (if dataHeader.length < inBufSize then dataHeader else [])
      ∧ ingest contentLength dataHeader = .ok (.ok (demux.buffer.content, none), demux) := by
  have hvalid : (RawDeMux.new inBuf inBufSize).buffer.Valid :=
    Buffer.valid_new (by decide) (by rw [inBuf, List.length_replicate]; decide)
  have hroom : (RawDeMux.new inBuf inBufSize).buffer.writeLeft = inBufSize - 1 := rfl
  obtain ⟨r, b, hrun, hb, hcontent⟩ :=
    RawDeMux.onIngest_content hvalid contentLength dataHeader
  have hnew : (RawDeMux.new inBuf inBufSize).buffer.content = [] := Buffer.content_new _ _
  have hr : r = errorSuccess ↔ dataHeader.length < inBufSize := by
    rw [RawDeMux.onIngest, run_get_bind, run_put_bind, run_ite, hroom] at hrun
    split at hrun
    · rename_i hlong
      cases hrun
      exact iff_of_false (by decide) (by omega)
    · rename_i hfits
      have hle : (dataHeader.length : ℤ) ≤ (RawDeMux.new inBuf inBufSize).buffer.writeLeft := by
        omega
      obtain ⟨w, b', hwrite, -⟩ := Buffer.exists_writeBytes hvalid hle
      have hwrite' : RawDeMux.onBuffer (Buffer.writeBytes dataHeader dataHeader.length)
          ⟨(RawDeMux.new inBuf inBufSize).buffer, contentLength⟩
          = .ok (.ok w, ⟨b', contentLength⟩) := RawDeMux.onBuffer_eq hwrite
      rw [run_bind_ok hwrite'] at hrun
      cases hrun
      exact iff_of_true rfl (by omega)
  rw [hnew, List.nil_append] at hcontent
  refine ⟨⟨b, contentLength⟩, hb, ?_, ?_⟩
  · simp only [hcontent, hr]
  · rw [ingest, RawDeMux.Feed.call, run_bind_ok hrun, run_pure, hcontent]

/-- **From the origin to the viewers, byte by byte.**  If the clients take every byte that they are
sent, then however the input, the channel and the outputs take their steps, each client has been
sent nothing, a bad status line, or a good one and behind it a contiguous piece of the bytes that
have arrived: those that the demux has taken of the head of the data, and those that its reads have
brought.  While an output is at work and the channel has it, nothing is missing between the two.
Unless `fetch` comes upon inputs that have been changed while it waited. -/
theorem bytes_relayed (inputType : Ref → EInputType) {write : Ref → Bytes → Bytes → ℤ × Bytes}
    (hwrite : ∀ output, RawMux.TakesAll (write output)) (ref : Ref) (contentLength : ℤ)
    (dataHeader : Bytes) (ops : List Op) :
    ∃ demux, ingest contentLength dataHeader = .ok (.ok (demux.buffer.content, none), demux)
      ∧ demux.buffer.content = (if dataHeader.length < inBufSize then dataHeader else [])
      ∧ ((∃ s, (start write ref demux.buffer.content demux).run inputType ops = .ok s
          ∧ ∀ output, SentOf s.arrived (s.live.viewers.outputs output).mux.client
            ∧ ((s.live.viewers.outputs output).co.Alive →
              output ∈ s.live.viewers.fanout.channel.outputQueue →
              ∃ packets, packets.flatten ++ s.pending output <:+ s.arrived
                ∧ (s.live.viewers.outputs output).mux.client
                  = if packets = [] then [] else RawMux.statusText 200 ++ packets.flatten))
        ∨ (start write ref demux.buffer.content demux).run inputType ops = .error .deadBlock
          ∧ (start write ref demux.buffer.content demux).EndsAtFetch inputType ops) := by
  obtain rfl : write = fun _ => RawMux.accept := funext fun output => (hwrite output).eq_accept
  obtain ⟨demux, hvalid, hcontent, hingest⟩ := exists_ingest contentLength dataHeader
  refine ⟨demux, hingest, hcontent, ?_⟩
  have hstart : (start (fun _ => RawMux.accept) ref demux.buffer.content demux).Inv :=
    ⟨Live.inv_start ref, hvalid, List.nil_append _⟩
  rcases hstart.exists_run inputType ops with ⟨s, hrun, h⟩ | hfault
  · refine .inl ⟨s, hrun, fun output => ⟨h.sentOf output, fun halive hin => ?_⟩⟩
    exact ⟨_, h.nothing_missing hin, h.live.viewers.client_eq halive⟩
  · exact .inr hfault

/-- A viewer comes, and two bytes behind the head. -/
def twoBytes : List Op :=
  [.other (.viewer .addOutput), .other (.viewer (.runOutput 0 true)), .read (.bytes (text "bc")) 0,
    .other (.turn 0), .other (.viewer (.round 0 0))]

theorem bytes_relayed_two :
    ∃ demux, ingest 3 (text "a") = .ok (.ok (demux.buffer.content, none), demux)
      ∧ demux.buffer.content = (if (text "a").length < inBufSize then text "a" else [])
      ∧ ((∃ s, (start (fun _ => RawMux.accept) 0 demux.buffer.content demux).run
            (fun _ => .origin) twoBytes = .ok s
          ∧ ∀ output, SentOf s.arrived (s.live.viewers.outputs output).mux.client
            ∧ ((s.live.viewers.outputs output).co.Alive →
              output ∈ s.live.viewers.fanout.channel.outputQueue →
              ∃ packets, packets.flatten ++ s.pending output <:+ s.arrived
                ∧ (s.live.viewers.outputs output).mux.client
                  = if packets = [] then [] else RawMux.statusText 200 ++ packets.flatten))
        ∨ (start (fun _ => RawMux.accept) 0 demux.buffer.content demux).run (fun _ => .origin)
            twoBytes = .error .deadBlock
          ∧ (start (fun _ => RawMux.accept) 0 demux.buffer.content demux).EndsAtFetch
            (fun _ => .origin) twoBytes) :=
  bytes_relayed _ (fun _ => RawMux.takesAll_accept) 0 3 (text "a") twoBytes

end Relay

end SmartStreaming
