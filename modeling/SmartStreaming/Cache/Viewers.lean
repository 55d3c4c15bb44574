import SmartStreaming.Cache.Dispatch
import SmartStreaming.Format.Flush

/-!
# Cache/Viewers — what the viewers of a channel are sent

The channel puts packets into the queues of its outputs; each output runs a loop of its own, which
takes a packet out of its queue and has its mux write it to the client.  `viewers_served`: in
whatever order they take their steps, a client is sent one status line at most, and behind a good
one the packets that were dispatched to it, in order and from the first one on.
-/

namespace SmartStreaming

open Machinery Comp

/-! ## The header of a mux -/

namespace RawMux

section Header

variable {ω α : Type} {sent : Bool} {size : ℤ} {written packet : Bytes}

theorem keeps_isSendHeader_onBuffer (f : Stream α) :
    Keeps (fun m : RawMux ω => m.isSendHeader = sent) (onBuffer f) :=
  Keeps.zoom (fun b _ => holds_true f b) (fun _ _ => trivial) fun _ _ h _ => h

theorem keeps_isSendHeader_writeOut (write : ω → Bytes → ℤ × ω) (n : ℤ) :
    Keeps (fun m : RawMux ω => m.isSendHeader = sent) (writeOut write n) := by
  refine Keeps.get_bind fun m hm => Keeps.bind (keeps_ofOption _ _) fun bs => ?_
  exact Keeps.bind (keeps_put hm) fun _ => keeps_pure _

theorem keeps_isSendHeader_flushWrite :
    Keeps (fun m : RawMux ω => m.isSendHeader = sent) flushWrite := by
  refine Keeps.get_bind fun m hm => ?_
  cases m.writePacketFunc with
  | none => exact keeps_pure _
  | some write =>
    refine Keeps.get_bind fun m hm => Keeps.bind (keeps_isSendHeader_writeOut write _) fun n => ?_
    refine Keeps.bind (keeps_isSendHeader_onBuffer _) fun _ => Keeps.bind ?_ fun _ => keeps_pure _
    refine Keeps.get_bind fun m hm => Keeps.ite ?_ (keeps_pure _)
    exact Keeps.bind (keeps_isSendHeader_writeOut write _) fun _ => keeps_isSendHeader_onBuffer _

theorem keeps_isSendHeader_writePacket (packet : Bytes) :
    Keeps (fun m : RawMux ω => m.isSendHeader = sent) (writePacket packet) :=
  Keeps.bind (keeps_isSendHeader_onBuffer _) fun _ =>
    Keeps.bind keeps_isSendHeader_flushWrite fun _ => keeps_pure _

/-- **Only `send_status` sends the header.** -/
theorem keeps_isSendHeader (packet : Bytes) :
    Keeps (fun m : RawMux ω => m.isSendHeader = sent) (handleOutput packet) := by
  refine Keeps.get_bind fun m hm => Keeps.ite ?_ (keeps_isSendHeader_writePacket packet)
  refine Keeps.bind keeps_isSendHeader_flushWrite fun _ => Keeps.get_bind fun m hm => ?_
  exact Keeps.ite (keeps_pure _) (keeps_isSendHeader_writePacket packet)

variable {m : RawMux Bytes}

theorem handleOutput_of_large (h : Idle size written m) (hlarge : size ≤ packet.length) :
    ∃ m', handleOutput packet m = .ok (.ok (-1), m') ∧ Idle size written m' := by
  have hroom := h.writeLeft_eq
  obtain ⟨m', hflush, hidle⟩ := flushWrite_eq h.valid h.size_eq h.accepts
    (by rw [h.content_eq, List.append_nil, h.client_eq])
  have hroom' := hidle.writeLeft_eq
  refine ⟨m', ?_, hidle⟩
  rw [handleOutput, run_get_bind, run_ite, if_pos (by omega), run_bind_ok hflush, run_get_bind,
    if_pos (by omega), run_pure]

theorem sendStatus_of_sent (h : m.isSendHeader = true) (status : ℤ) :
    sendStatus status m = .ok (.ok errorSuccess, m) := by
  rw [sendStatus, run_get_bind, h]
  rfl

theorem sendStatus_of_unsent (h : Idle size written m) (hsent : m.isSendHeader = false)
    (status : ℤ) :
    ∃ m', sendStatus status m = .ok (.ok errorSuccess, m') ∧ m'.isSendHeader = true
      ∧ Idle size (written ++ statusText status) m' := by
  have hclient : m.client ++ statusText status = written ++ statusText status := by rw [h.client_eq]
  refine ⟨{ m with client := m.client ++ statusText status, isSendHeader := true }, ?_, rfl,
    h.valid, h.content_eq, h.size_eq, h.accepts, hclient⟩
  rw [sendStatus, run_get_bind, run_ite, if_neg (by rw [hsent]; exact Bool.false_ne_true),
    sendHeader, run_get_bind, h.accepts]
  rfl

end Header

end RawMux

/-! ## An output and its loop -/

/-- The `out_buf` of `init_output`, of 16 KiB. -/
def outBuf : Bytes := List.replicate (1024 * 16) 0

def outBufSize : ℤ := 1024 * 16

/-- `class OutputHandler`, of a player: its mux, whose client keeps what it is sent, what `write` of
its connection does, and whether that has been stopped. -/
structure PlayOutput extends OutputHandler where
  mux : RawMux Bytes
  write : Bytes → Bytes → ℤ × Bytes
  connIsStop : Bool := false

namespace PlayOutput

/-- The output that `handle_play_stream` makes. -/
def new (write : Bytes → Bytes → ℤ × Bytes) : PlayOutput where
  mux := RawMux.new outBuf outBufSize (some write) []
  write := write

/-- `init_output`, which may be called again for an output that is at work. -/
def initOutput (o : PlayOutput) : PlayOutput :=
  { o with mux := { o.mux with
    buffer := Buffer.new outBuf outBufSize, writePacketFunc := some o.write } }

/-- What the loop of `cycle` does with a packet. -/
def play (packet : Bytes) : RawMux.Call Bytes ℤ := do
  let _ ← RawMux.sendStatus 200
  RawMux.handleOutput packet

/-- `on_thread_stop()`, for the handler and its connection. -/
def threadStop (o : PlayOutput) : PlayOutput :=
  { o with toOutputHandler := o.onThreadStop, connIsStop := true }

/-- The loop of `cycle` is to end. -/
def Stopped (o : PlayOutput) : Prop := o.isStop = true ∨ o.connIsStop = true

instance (o : PlayOutput) : Decidable o.Stopped := inferInstanceAs (Decidable (_ ∨ _))

end PlayOutput

/-- A channel with its outputs, which are those below `fresh`; the others are still to be made.
Beside them what has happened to the channel so far. -/
structure Viewers where
  fanout : Fanout Bytes
  outputs : Ref → PlayOutput
  fresh : Ref
  history : List (Fanout.Op Bytes)

namespace Viewers

/-- A new channel, to the outputs of which belong the connections that `write` describes. -/
def new (write : Ref → Bytes → Bytes → ℤ × Bytes) : Viewers :=
  ⟨Fanout.new, fun o => PlayOutput.new (write o), 0, []⟩

/-- What happens next: the channel dispatches a packet, initializes its outputs, stops or drops
them; a viewer comes, his output is run, his connection is stopped; an output goes through its loop
once, or its wait for a packet ends. -/
inductive Op
  | dispatch (packet : Option Bytes)
  | onInit
  | onStop
  | delAllOutput
  | addOutput
  | runOutput (output : Ref) (created : Bool)
  | stopConn (output : Ref)
  | round (output : Ref) (now : ℤ)
  | wake (output : Ref) (now : ℤ)

section Source

variable (inputType : Ref → EInputType)

def onFanout (op : Fanout.Op Bytes) (s : Viewers) : Viewers :=
  { s with fanout := s.fanout.step inputType op, history := s.history ++ [op] }

def setOutput (output : Ref) (o : PlayOutput) (s : Viewers) : Viewers :=
  { s with outputs := Function.update s.outputs output o }

/-- The thread of an output ends, and the output leaves the channel. -/
def threadStop (output : Ref) (now : ℤ) (s : Viewers) : Viewers :=
  (s.setOutput output (s.outputs output).threadStop).onFanout inputType (.delOutput output now)

/-- The loop of `cycle` after `dequeue`. -/
def afterDequeue (output : Ref) (now : ℤ) (s : Viewers) : Option Bytes → Except Fault Viewers
  | none => .ok (s.threadStop inputType output now)
  | some packet =>
    match PlayOutput.play packet (s.outputs output).mux with
    | .error e => .error e
    | .ok (.ok 0, mux) => .ok (s.setOutput output { s.outputs output with mux })
    | .ok (_, mux) =>
      .ok ((s.setOutput output { s.outputs output with mux }).threadStop inputType output now)

/-- The packet that `dequeue` would give. -/
def front (output : Ref) (s : Viewers) : Option Bytes := (s.fanout.queues output).dequeue.1.2

/-- The loop of `cycle`, once round or up to its wait for a packet. -/
def round (output : Ref) (now : ℤ) (s : Viewers) : Except Fault Viewers :=
  if (s.outputs output).Stopped then
    (RawMux.sendStatus 404 (s.outputs output).mux).map fun out =>
      (s.setOutput output { s.outputs output with mux := out.2 }).threadStop inputType output now
  else if s.front output = none then .ok (s.onFanout inputType (.dequeue output))
  else (s.onFanout inputType (.dequeue output)).afterDequeue inputType output now (s.front output)

/-- The loop after its wait. -/
def wake (output : Ref) (now : ℤ) (s : Viewers) : Except Fault Viewers :=
  (s.onFanout inputType (.wake output)).afterDequeue inputType output now (s.front output)

/-- One step. -/
def step (s : Viewers) : Op → Except Fault Viewers
  | .dispatch packet => .ok (s.onFanout inputType (.dispatch packet))
  | .onInit => .ok { s with
      outputs := forEach (fun _ => PlayOutput.initOutput) s.outputs s.fanout.channel.outputQueue }
  | .onStop => .ok { s with
      outputs := forEach (fun _ o => { o with isStop := true }) s.outputs
        s.fanout.channel.outputQueue }
  | .delAllOutput => .ok (s.onFanout inputType .delAllOutput)
  | .addOutput => .ok { s.onFanout inputType (.addOutput s.fresh) with fresh := s.fresh + 1 }
  | .runOutput output created => .ok
      (if output < s.fresh then
        s.setOutput output { s.outputs output with co := (s.outputs output).co.start created }
      else s)
  | .stopConn output => .ok
      (if output < s.fresh then s.setOutput output { s.outputs output with connIsStop := true }
      else s)
  | .round output now =>
    if (s.outputs output).co.Alive ∧ s.fanout.waiting output = false then
      s.round inputType output now
    else .ok s
  | .wake output now =>
    if (s.outputs output).co.Alive ∧ s.fanout.waiting output = true then
      s.wake inputType output now
    else .ok s

/-- The state after a sequence of steps. -/
def run (s : Viewers) : List Op → Except Fault Viewers
  | [] => .ok s
  | op :: ops => (s.step inputType op).bind fun s => run s ops

end Source

/-! ## What a client is sent -/

/-- **What a client may have been sent** of the packets `heard`: nothing, a bad status line, or a
good one with the first of the packets behind it. -/
inductive Received (heard : List Bytes) : Bytes → Prop
  | nothing : Received heard []
  | notFound : Received heard (RawMux.statusText 404)
  | packets (packets : List Bytes) (prefix_heard : packets <+: heard)
      (fits : ∀ packet ∈ packets, (packet.length : ℤ) < outBufSize) :
      Received heard (RawMux.statusText 200 ++ packets.flatten)

end Viewers

namespace PlayOutput

/-- The mux has written the header and the packets. -/
structure Written (m : RawMux Bytes) (packets : List Bytes) : Prop where
  header : m.isSendHeader = true
  idle : RawMux.Idle outBufSize (RawMux.statusText 200 ++ packets.flatten) m
  fits : ∀ packet ∈ packets, (packet.length : ℤ) < outBufSize

/-- The mux has been given the packets: it has written all of them, if there are any. -/
inductive Sent (m : RawMux Bytes) : List Bytes → Prop
  | nothing (header : m.isSendHeader = false) (idle : RawMux.Idle outBufSize [] m) : Sent m []
  | packets {packets : List Bytes} (ne_nil : packets ≠ []) (written : Written m packets) :
      Sent m packets

/-- The thread has ended, and a second `start` would do nothing. -/
def Ended (o : PlayOutput) : Prop := o.co.running = true ∧ o.co.ended = true

/-- **What an output has done with the packets that it has taken**: it has written them all; or it
has ended, at a packet too large for its buffer or before the first one. -/
inductive Served (o : PlayOutput) : List Bytes → Prop
  | going {taken : List Bytes} (sent : Sent o.mux taken) : Served o taken
  | dropped {taken : List Bytes} (packet : Bytes) (ended : o.Ended)
      (written : Written o.mux taken) : Served o (taken ++ [packet])
  | refused (ended : o.Ended) (client : o.mux.client = RawMux.statusText 404) : Served o []

section Play

variable {m : RawMux Bytes} {o o' : PlayOutput} {packets taken : List Bytes} {packet : Bytes}

theorem length_outBuf : outBufSize ≤ outBuf.length := by
  rw [outBuf, List.length_replicate]
  decide

theorem sent_new : Sent (PlayOutput.new RawMux.accept).mux [] :=
  .nothing rfl ⟨Buffer.valid_new (by decide) length_outBuf, Buffer.content_new _ _, rfl, rfl, rfl⟩

/-- Another buffer, as empty as the one before. -/
theorem idle_initOutput {written : Bytes} (hwrite : o.write = RawMux.accept)
    (h : RawMux.Idle outBufSize written o.mux) :
    RawMux.Idle outBufSize written o.initOutput.mux :=
  ⟨Buffer.valid_new (by decide) length_outBuf, Buffer.content_new _ _, rfl, congrArg some hwrite,
    h.client_eq⟩

theorem Written.initOutput (hwrite : o.write = RawMux.accept) (h : Written o.mux packets) :
    Written o.initOutput.mux packets :=
  ⟨h.header, idle_initOutput hwrite h.idle, h.fits⟩

theorem Sent.initOutput (hwrite : o.write = RawMux.accept) (h : Sent o.mux packets) :
    Sent o.initOutput.mux packets := by
  cases h with
  | nothing header idle => exact .nothing header (idle_initOutput hwrite idle)
  | packets hne written => exact .packets hne (written.initOutput hwrite)

theorem Served.initOutput (hwrite : o.write = RawMux.accept) (h : Served o taken) :
    Served o.initOutput taken := by
  cases h with
  | going sent => exact .going (sent.initOutput hwrite)
  | dropped packet ended written => exact .dropped packet ended (written.initOutput hwrite)
  | refused ended client => exact .refused ended client

/-- The mux of an output stays, and so does its end. -/
theorem Served.congr (h : Served o taken) (hmux : o'.mux = o.mux) (hended : o.Ended → o'.Ended) :
    Served o' taken := by
  cases h with
  | going sent => exact .going (hmux ▸ sent)
  | dropped packet ended written => exact .dropped packet (hended ended) (hmux ▸ written)
  | refused ended client => exact .refused (hended ended) (hmux ▸ client)

/-- An output at work has written all that it has taken. -/
theorem Served.sent (h : Served o taken) (halive : o.co.Alive) : Sent o.mux taken := by
  cases h with
  | going sent => exact sent
  | dropped packet ended written =>
    rw [Coroutine.Alive, ended.2] at halive
    exact absurd halive.2 (by decide)
  | refused ended client =>
    rw [Coroutine.Alive, ended.2] at halive
    exact absurd halive.2 (by decide)

/-- The header is written in front of the first packet. -/
theorem Sent.sendStatus (h : Sent m packets) :
    ∃ m', RawMux.sendStatus 200 m = .ok (.ok errorSuccess, m') ∧ Written m' packets := by
  cases h with
  | nothing header idle =>
    obtain ⟨m', hrun, hheader, hidle⟩ := RawMux.sendStatus_of_unsent idle header 200
    refine ⟨m', hrun, hheader, ?_, ?_⟩
    · rwa [List.flatten_nil, List.append_nil, ← List.nil_append (RawMux.statusText 200)]
    · exact fun _ h => absurd h List.not_mem_nil
  | packets _ written => exact ⟨m, RawMux.sendStatus_of_sent written.header 200, written⟩

/-- **A packet that fits is written**, behind the header. -/
theorem Sent.play_of_fits (h : Sent m packets) (hfits : (packet.length : ℤ) < outBufSize) :
    ∃ m', play packet m = .ok (.ok 0, m') ∧ Sent m' (packets ++ [packet]) := by
  obtain ⟨m₁, hstatus, hwritten⟩ := h.sendStatus
  obtain ⟨m₂, hpacket, hidle⟩ := RawMux.handleOutput_of_fits hwritten.idle hfits
  have hheader : m₂.isSendHeader = true :=
    (RawMux.keeps_isSendHeader packet m₁ hwritten.header).elim_state hpacket
  refine ⟨m₂, by rw [PlayOutput.play, run_bind_ok hstatus, hpacket], .packets (by simp) ?_⟩
  refine ⟨hheader, ?_, ?_⟩
  · rwa [List.flatten_append, List.flatten_singleton, ← List.append_assoc]
  · rintro p hp
    rcases List.mem_append.1 hp with hp | hp
    · exact hwritten.fits p hp
    · rwa [List.mem_singleton.1 hp]

/-- **A packet that is too large is refused**, with nothing but the header written. -/
theorem Sent.play_of_large (h : Sent m packets) (hlarge : outBufSize ≤ packet.length) :
    ∃ m', play packet m = .ok (.ok (-1), m') ∧ Written m' packets := by
  obtain ⟨m₁, hstatus, hwritten⟩ := h.sendStatus
  obtain ⟨m₂, hpacket, hidle⟩ := RawMux.handleOutput_of_large hwritten.idle hlarge
  have hheader : m₂.isSendHeader = true :=
    (RawMux.keeps_isSendHeader packet m₁ hwritten.header).elim_state hpacket
  exact ⟨m₂, by rw [PlayOutput.play, run_bind_ok hstatus, hpacket], hheader, hidle, hwritten.fits⟩

/-- The loop of an output that is stopped ends: its client gets the bad status, or nothing more. -/
theorem Sent.stop (h : Sent o.mux taken) (hrunning : o.co.running = true) :
    ∃ m', RawMux.sendStatus 404 o.mux = .ok (.ok errorSuccess, m')
      ∧ Served (threadStop { o with mux := m' }) taken := by
  cases h with
  | nothing header idle =>
    obtain ⟨m', hrun, -, hidle⟩ := RawMux.sendStatus_of_unsent idle header 404
    exact ⟨m', hrun, .refused ⟨hrunning, rfl⟩ hidle.client_eq⟩
  | packets hne written =>
    exact ⟨o.mux, RawMux.sendStatus_of_sent written.header 404, .going (.packets hne written)⟩

/-- What an output has done is what its client may have been sent. -/
theorem Served.received {heard : List Bytes} (h : Served o taken) (hheard : taken <+: heard) :
    Viewers.Received heard o.mux.client := by
  cases h with
  | going sent =>
    cases sent with
    | nothing header idle => exact idle.client_eq ▸ .nothing
    | packets hne written => exact written.idle.client_eq ▸ .packets taken hheard written.fits
  | dropped packet ended written =>
    rename_i taken
    exact written.idle.client_eq ▸
      .packets taken ((List.prefix_append _ _).trans hheard) written.fits
  | refused ended client => exact client ▸ .notFound

end Play

end PlayOutput

namespace Viewers

variable {inputType : Ref → EInputType} {s s' : Viewers} {output : Ref} {now : ℤ}

/-! ## Steps -/

/-- What the channel has put into the queues; a thread that is at work has been started, and every
client takes what it is sent. -/
structure Sound (s : Viewers) : Prop where
  serves : s.fanout.Serves (fun o => s.history.foldl (Fanout.Listener.hear o) {})
    (s.history.filterMap Fanout.Op.added)
  added_lt : ∀ o ∈ s.history.filterMap Fanout.Op.added, o < s.fresh
  running : ∀ o, (s.outputs o).co.Alive → (s.outputs o).co.running = true
  accepts : ∀ o, (s.outputs o).write = RawMux.accept

/-- **The invariant**: every output has served its client what it has taken. -/
structure Inv (s : Viewers) : Prop extends Sound s where
  served : ∀ o, (s.outputs o).Served (s.fanout.taken o)

theorem inv_new : Inv (new fun _ => RawMux.accept) where
  serves := Fanout.serves_new
  added_lt := fun _ h => absurd h List.not_mem_nil
  running := fun _ h => absurd h.1 Bool.false_ne_true
  accepts := fun _ => rfl
  served := fun _ => .going PlayOutput.sent_new

/-- A step of the channel that adds no output but, perhaps, a new one. -/
theorem Sound.onFanout (h : s.Sound) (op : Fanout.Op Bytes) {fresh : Ref} (hfresh : s.fresh ≤ fresh)
    (hnew : ∀ o, op.added = some o → s.fresh ≤ o ∧ o < fresh) :
    Sound { s.onFanout inputType op with fresh } := by
  have hadded : (s.history ++ [op]).filterMap Fanout.Op.added
      = s.history.filterMap Fanout.Op.added ++ op.added.toList := by
    rw [List.filterMap_append]
    cases hop : op.added <;> simp [hop]
  refine ⟨?_, ?_, h.running, h.accepts⟩
  · have hserves : (s.fanout.step inputType op).Serves _ _ := h.serves.step op fun o ho hmem =>
      absurd (h.added_lt o hmem) (not_lt.2 (hnew o ho).1)
    change Fanout.Serves _ (fun o => (s.history ++ [op]).foldl _ _)
      ((s.history ++ [op]).filterMap _)
    rw [hadded]
    simp only [List.foldl_append, List.foldl_cons, List.foldl_nil]
    exact hserves
  · change ∀ o ∈ (s.history ++ [op]).filterMap Fanout.Op.added, o < fresh
    rw [hadded]
    intro o ho
    rcases List.mem_append.1 ho with ho | ho
    · exact (h.added_lt o ho).trans_le hfresh
    · exact (hnew o (by simpa using ho)).2

/-- A step of the channel that adds no output. -/
theorem Sound.onFanout_of_none (h : s.Sound) {op : Fanout.Op Bytes} (hop : op.added = none) :
    Sound (s.onFanout inputType op) :=
  h.onFanout op le_rfl fun o ho => by rw [hop] at ho; cases ho

/-- Something happens to one output, which is started no other way than before. -/
theorem Sound.setOutput (h : s.Sound) {o' : PlayOutput}
    (hrunning : o'.co.Alive → o'.co.running = true) (hwrite : o'.write = (s.outputs output).write) :
    Sound (s.setOutput output o') := by
  refine ⟨h.serves, h.added_lt, fun o ho => ?_, fun o => ?_⟩
  · dsimp only [Viewers.setOutput] at ho ⊢
    by_cases heq : o = output
    · rw [heq, Function.update_self] at ho ⊢
      exact hrunning ho
    · rw [Function.update_of_ne heq] at ho ⊢
      exact h.running o ho
  · dsimp only [Viewers.setOutput]
    by_cases heq : o = output
    · rw [heq, Function.update_self, hwrite, h.accepts]
    · rw [Function.update_of_ne heq, h.accepts]

/-- Something happens to the outputs that the channel holds, which start no thread. -/
theorem Sound.forEach (h : s.Sound) (f : PlayOutput → PlayOutput)
    (hf : ∀ o, ((f o).co, (f o).write) = (o.co, o.write)) (refs : List Ref) :
    Sound { s with outputs := Machinery.forEach (fun _ => f) s.outputs refs } := by
  have hkeeps := @forEach_keeps Ref _ _ (fun _ => f) _ (fun o : PlayOutput => (o.co, o.write))
    (fun _ => hf) s.outputs refs
  refine ⟨h.serves, h.added_lt, fun o ho => ?_, fun o => ?_⟩
  · have hco := congrArg Prod.fst (hkeeps o)
    dsimp only at hco ho ⊢
    rw [hco] at ho ⊢
    exact h.running o ho
  · exact (congrArg Prod.snd (hkeeps o)).trans (h.accepts o)

theorem served_forEach (f : PlayOutput → PlayOutput) {taken : Ref → List Bytes}
    (hf : ∀ o packets, o.write = RawMux.accept → o.Served packets → (f o).Served packets)
    (hwrite : ∀ o, (f o).write = o.write) (refs : List Ref) {outputs : Ref → PlayOutput}
    (haccepts : ∀ o, (outputs o).write = RawMux.accept) (h : ∀ o, (outputs o).Served (taken o))
    (o : Ref) : (Machinery.forEach (fun _ => f) outputs refs o).Served (taken o) := by
  induction refs generalizing outputs with
  | nil => exact h o
  | cons ref refs ih =>
    refine ih (fun o => ?_) fun o => ?_
    · by_cases heq : o = ref
      · rw [heq, Function.update_self, hwrite, haccepts]
      · rw [Function.update_of_ne heq, haccepts]
    · by_cases heq : o = ref
      · rw [heq, Function.update_self]
        exact hf _ _ (haccepts ref) (h ref)
      · rw [Function.update_of_ne heq]
        exact h o

/-- The other outputs are as before. -/
theorem served_update (output : Ref) {outputs : Ref → PlayOutput} {taken : Ref → List Bytes}
    {o' : PlayOutput} {packets : List Bytes} (h : ∀ o, o ≠ output → (outputs o).Served (taken o))
    (ho : o'.Served packets) (o : Ref) :
    (Function.update outputs output o' o).Served (Function.update taken output packets o) := by
  by_cases heq : o = output
  · rw [heq, Function.update_self, Function.update_self]
    exact ho
  · rw [Function.update_of_ne heq, Function.update_of_ne heq]
    exact h o heq

/-- A thread ends. -/
theorem Inv.threadStop {o' : PlayOutput} (h : s.Sound)
    (hothers : ∀ o, o ≠ output → (s.outputs o).Served (s.fanout.taken o))
    (ho : o'.threadStop.Served (s.fanout.taken output))
    (hwrite : o'.write = (s.outputs output).write) :
    Inv ((s.setOutput output o').threadStop inputType output now) := by
  have houtput : ((s.setOutput output o').outputs output) = o' := Function.update_self ..
  have hstop : Sound ((s.setOutput output o').setOutput output o'.threadStop) := by
    refine ⟨h.serves, h.added_lt, fun o hal => ?_, fun o => ?_⟩
    · dsimp only [Viewers.setOutput] at hal ⊢
      by_cases heq : o = output
      · rw [heq, Function.update_self] at hal
        exact absurd (show true = false from hal.2) (by decide)
      · rw [Function.update_of_ne heq, Function.update_of_ne heq] at hal ⊢
        exact h.running o hal
    · dsimp only [Viewers.setOutput]
      by_cases heq : o = output
      · rw [heq, Function.update_self, PlayOutput.threadStop, hwrite, h.accepts]
      · rw [Function.update_of_ne heq, Function.update_of_ne heq, h.accepts]
  rw [Viewers.threadStop, houtput]
  refine ⟨hstop.onFanout_of_none rfl, ?_⟩
  change ∀ o, (Function.update (Function.update s.outputs output o') output o'.threadStop o).Served
    (s.fanout.taken o)
  rw [Function.update_idem]
  intro o
  have hself := served_update output hothers ho o
  rwa [Function.update_eq_self] at hself

/-- **The loop after `dequeue`**: the packet is written, or the thread ends. -/
theorem Inv.exists_afterDequeue (h : s.Sound) (halive : (s.outputs output).co.Alive)
    (hothers : ∀ o, o ≠ output → (s.outputs o).Served (s.fanout.taken o)) {taken : List Bytes}
    (hsent : PlayOutput.Sent (s.outputs output).mux taken) (packet : Option Bytes)
    (htaken : s.fanout.taken output = taken ++ packet.toList) :
    ∃ s', s.afterDequeue inputType output now packet = .ok s' ∧ s'.Inv := by
  have hrunning := h.running output halive
  cases packet with
  | none =>
    have hself : s.setOutput output (s.outputs output) = s := by
      rw [setOutput, Function.update_eq_self]
    refine ⟨_, rfl, ?_⟩
    rw [← hself]
    refine Inv.threadStop h hothers ?_ rfl
    rw [htaken, Option.toList_none, List.append_nil]
    exact .going hsent
  | some packet =>
    by_cases hfits : (packet.length : ℤ) < outBufSize
    · obtain ⟨m', hplay, hsent'⟩ := hsent.play_of_fits hfits
      refine ⟨s.setOutput output { s.outputs output with mux := m' }, ?_,
        h.setOutput (fun _ => hrunning) rfl, ?_⟩
      · rw [afterDequeue, hplay]
        rfl
      · intro o
        have hserved : PlayOutput.Served { s.outputs output with mux := m' } (taken ++ [packet]) :=
          .going hsent'
        have hgoing := served_update output hothers hserved o
        rw [Option.toList_some] at htaken
        rwa [← htaken, Function.update_eq_self] at hgoing
    · obtain ⟨m', hplay, hwritten⟩ := hsent.play_of_large (not_lt.1 hfits)
      have hserved : (PlayOutput.threadStop { s.outputs output with mux := m' }).Served
          (s.fanout.taken output) := by
        rw [htaken]
        exact .dropped packet ⟨hrunning, rfl⟩ hwritten
      exact ⟨_, by rw [afterDequeue, hplay]; rfl, Inv.threadStop h hothers hserved rfl⟩

/-- The packet at the front is taken. -/
theorem taken_dequeue (inputType : Ref → EInputType) {packet : Bytes}
    (h : s.front output = some packet) :
    (s.onFanout inputType (.dequeue output)).fanout.taken
      = Function.update s.fanout.taken output (s.fanout.taken output ++ [packet]) := by
  have hne : (s.fanout.queues output).queue ≠ [] := fun hnil => by
    rw [front, PacketQueue.dequeue, hnil] at h
    cases h
  change (s.fanout.startDequeue output).taken = _
  rw [Fanout.startDequeue, if_neg hne]
  exact congrArg (fun p => Function.update s.fanout.taken output (s.fanout.taken output ++ p))
    (congrArg Option.toList h)

/-- There is nothing to be taken, and the output waits. -/
theorem taken_dequeue_of_none (inputType : Ref → EInputType) (h : s.front output = none) :
    (s.onFanout inputType (.dequeue output)).fanout.taken = s.fanout.taken := by
  have hnil : (s.fanout.queues output).queue = [] := by
    rw [front, PacketQueue.dequeue] at h
    split at h
    · assumption
    · cases h
  change (s.fanout.startDequeue output).taken = _
  rw [Fanout.startDequeue, if_pos hnil]

theorem taken_wake (inputType : Ref → EInputType) (h : s.fanout.waiting output = true) :
    (s.onFanout inputType (.wake output)).fanout.taken
      = Function.update s.fanout.taken output
        (s.fanout.taken output ++ (s.front output).toList) := by
  change (if s.fanout.waiting output then s.fanout.finishDequeue output else s.fanout).taken = _
  rw [if_pos h]
  rfl

theorem Inv.exists_round (h : s.Inv) (halive : (s.outputs output).co.Alive) :
    ∃ s', s.round inputType output now = .ok s' ∧ s'.Inv := by
  have hsent := (h.served output).sent halive
  have hothers : ∀ o, o ≠ output → (s.outputs o).Served (s.fanout.taken o) := fun o _ => h.served o
  rw [round]
  by_cases hstop : (s.outputs output).Stopped
  · obtain ⟨m', hstatus, hserved⟩ := hsent.stop (h.running output halive)
    rw [if_pos hstop, hstatus]
    exact ⟨_, rfl, Inv.threadStop h.toSound hothers hserved rfl⟩
  · rw [if_neg hstop]
    rcases hfront : s.front output with _ | packet
    · rw [if_pos rfl]
      refine ⟨_, rfl, h.toSound.onFanout_of_none rfl, ?_⟩
      rw [taken_dequeue_of_none inputType hfront]
      exact h.served
    · rw [if_neg (by simp)]
      have htaken := taken_dequeue inputType hfront
      refine Inv.exists_afterDequeue (h.toSound.onFanout_of_none rfl) halive (fun o ho => ?_)
        hsent _ ?_
      · rw [htaken, Function.update_of_ne ho]
        exact h.served o
      · rw [htaken, Function.update_self]
        rfl

theorem Inv.exists_wake (h : s.Inv) (halive : (s.outputs output).co.Alive)
    (hwaiting : s.fanout.waiting output = true) :
    ∃ s', s.wake inputType output now = .ok s' ∧ s'.Inv := by
  have hsent := (h.served output).sent halive
  have htaken := taken_wake inputType hwaiting
  refine Inv.exists_afterDequeue (h.toSound.onFanout_of_none rfl) halive (fun o ho => ?_) hsent _ ?_
  · rw [htaken, Function.update_of_ne ho]
    exact h.served o
  · rw [htaken, Function.update_self]

theorem running_start (created : Bool) (co : Coroutine) : (co.start created).running = true := by
  rw [Coroutine.start]
  split
  · assumption
  · rfl

/-- What happens to the outputs and leaves their muxes alone. -/
theorem Inv.setOutput (h : s.Inv) {o' : PlayOutput}
    (hrunning : o'.co.Alive → o'.co.running = true) (hwrite : o'.write = (s.outputs output).write)
    (hserved : ∀ packets, (s.outputs output).Served packets → o'.Served packets) :
    Inv (s.setOutput output o') := by
  refine ⟨h.toSound.setOutput hrunning hwrite, fun o => ?_⟩
  have hself := served_update output (fun o _ => h.served o) (hserved _ (h.served output)) o
  rwa [Function.update_eq_self] at hself

/-- **One step** goes on serving. -/
theorem Inv.exists_step (inputType : Ref → EInputType) (h : s.Inv) (op : Op) :
    ∃ s', s.step inputType op = .ok s' ∧ s'.Inv := by
  cases op with
  | dispatch packet =>
    refine ⟨_, rfl, h.toSound.onFanout_of_none rfl, ?_⟩
    cases packet <;> exact h.served
  | onInit =>
    refine ⟨_, rfl, h.toSound.forEach PlayOutput.initOutput (fun _ => rfl) _, ?_⟩
    exact served_forEach PlayOutput.initOutput (fun _ _ hwrite ho => ho.initOutput hwrite)
      (fun _ => rfl) _ h.accepts h.served
  | onStop =>
    refine ⟨_, rfl, h.toSound.forEach (fun o => { o with isStop := true }) (fun _ => rfl) _, ?_⟩
    exact served_forEach (fun o => { o with isStop := true }) (fun _ _ _ ho => ho.congr rfl id)
      (fun _ => rfl) _ h.accepts h.served
  | delAllOutput => exact ⟨_, rfl, h.toSound.onFanout_of_none rfl, h.served⟩
  | addOutput =>
    refine ⟨_, rfl, h.toSound.onFanout _ (Nat.le_succ _) ?_, h.served⟩
    intro o ho
    cases ho
    exact ⟨le_rfl, Nat.lt_succ_self _⟩
  | runOutput output created =>
    refine ⟨_, rfl, ?_⟩
    split
    · refine h.setOutput (fun _ => running_start _ _) rfl fun _ ho => ho.congr rfl ?_
      rintro ⟨hrunning, hended⟩
      have hco : (s.outputs output).co.start created = (s.outputs output).co := by
        rw [Coroutine.start, if_pos hrunning]
      rw [PlayOutput.Ended, hco]
      exact ⟨hrunning, hended⟩
    · exact h
  | stopConn output =>
    refine ⟨_, rfl, ?_⟩
    split
    · exact h.setOutput (h.running output) rfl fun _ ho => ho.congr rfl id
    · exact h
  | round output now =>
    rw [step]
    split
    · rename_i hgo
      exact h.exists_round hgo.1
    · exact ⟨s, rfl, h⟩
  | wake output now =>
    rw [step]
    split
    · rename_i hgo
      exact h.exists_wake hgo.1 hgo.2
    · exact ⟨s, rfl, h⟩

/-- A whole run. -/
theorem Inv.exists_run (inputType : Ref → EInputType) (h : s.Inv) (ops : List Op) :
    ∃ s', s.run inputType ops = .ok s' ∧ s'.Inv := by
  induction ops generalizing s with
  | nil => exact ⟨s, rfl, h⟩
  | cons op ops ih =>
    obtain ⟨s₁, hstep, h₁⟩ := h.exists_step inputType op
    obtain ⟨s', hrun, h'⟩ := ih h₁
    exact ⟨s', by rw [run, hstep]; exact hrun, h'⟩

/-- What a client at work has been sent. -/
theorem Inv.client_eq (h : s.Inv) {output : Ref} (halive : (s.outputs output).co.Alive) :
    (s.outputs output).mux.client = if s.fanout.taken output = [] then []
      else RawMux.statusText 200 ++ (s.fanout.taken output).flatten := by
  have hsent := (h.served output).sent halive
  rcases htaken : s.fanout.taken output with _ | ⟨packet, packets⟩
  · rw [htaken] at hsent
    cases hsent with
    | nothing header idle => exact idle.client_eq
    | packets hne _ => exact absurd rfl hne
  · rw [htaken] at hsent
    cases hsent with
    | packets _ written => rw [if_neg (List.cons_ne_nil _ _), written.idle.client_eq]

/-- **Viewers are served in order.**  If the clients take every byte that they are sent, then
however the channel, its outputs and the viewers take their steps, nothing goes wrong, and each
client has been sent nothing, a bad status line, or a good one and behind it the first of the
packets dispatched to its output.  While the output is at work, these are all but those still in
its queue. -/
theorem viewers_served (inputType : Ref → EInputType) {write : Ref → Bytes → Bytes → ℤ × Bytes}
    (hwrite : ∀ output, RawMux.TakesAll (write output)) (ops : List Op) :
    ∃ s, (new write).run inputType ops = .ok s ∧ ∀ output,
      Received (Fanout.heardBy output s.history) (s.outputs output).mux.client
      ∧ ((s.outputs output).co.Alive → ∃ packets,
          packets ++ (s.fanout.queues output).queue = Fanout.heardBy output s.history
          ∧ (s.outputs output).mux.client
            = if packets = [] then [] else RawMux.statusText 200 ++ packets.flatten) := by
  obtain rfl : write = fun _ => RawMux.accept := funext fun output => (hwrite output).eq_accept
  obtain ⟨s, hrun, h⟩ := inv_new.exists_run inputType ops
  refine ⟨s, hrun, fun output => ?_⟩
  have hheard : s.fanout.taken output ++ (s.fanout.queues output).queue
      = Fanout.heardBy output s.history := h.serves.heard output
  have hprefix : s.fanout.taken output <+: Fanout.heardBy output s.history :=
    hheard ▸ List.prefix_append _ _
  refine ⟨(h.served output).received hprefix, fun halive => ⟨_, hheard, h.client_eq halive⟩⟩

/-- A viewer is sent two packets; another one comes between them, and leaves before he is sent the
second one. -/
def twoViewers : List Op :=
  [.addOutput, .runOutput 0 true, .dispatch (some [1]), .addOutput, .runOutput 1 true,
    .dispatch (some [2]), .round 0 0, .stopConn 1, .round 1 0, .round 0 0]

theorem viewers_served_two :
    ∃ s, (new fun _ => RawMux.accept).run (fun _ => .origin) twoViewers = .ok s ∧ ∀ output,
      Received (Fanout.heardBy output s.history) (s.outputs output).mux.client
      ∧ ((s.outputs output).co.Alive → ∃ packets,
          packets ++ (s.fanout.queues output).queue = Fanout.heardBy output s.history
          ∧ (s.outputs output).mux.client
            = if packets = [] then [] else RawMux.statusText 200 ++ packets.flatten) :=
  viewers_served _ (fun _ => RawMux.takesAll_accept) twoViewers

end Viewers

end SmartStreaming
