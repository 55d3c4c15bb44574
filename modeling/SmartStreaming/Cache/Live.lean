import SmartStreaming.Cache.Viewers

/-!
# Cache/Live — from the origin of a channel to its viewers

    demux ──InputHandler::cycle──▸ queue of the input ──handle_cycle──▸ queues of the outputs
          ──OutputHandler::cycle──▸ clients

The input, the channel and the outputs run as coroutines, each of which gives way while it waits:
for the demux, for a packet of the input, for a packet of its own queue.  `live_relayed`: in
whatever order they take their steps, the packets that the channel dispatches are those that the
demux has made, in order, and each client has been sent a contiguous piece of them.
-/

namespace SmartStreaming

open Machinery

/-! ## What an output hears -/

namespace Fanout

variable {π : Type}

/-- The packet that a step dispatches. -/
def Op.packet : Op π → Option π
  | .dispatch packet => packet
  | _ => none

/-- What is heard by an output that has been added once at most: a piece of what has been
dispatched, up to its end while the output is attached. -/
structure Window (output : Ref) (ops : List (Op π)) (l : Listener π) : Prop where
  infix_packets : l.heard <:+: ops.filterMap Op.packet
  suffix_packets : l.attached = true → l.heard <:+ ops.filterMap Op.packet
  added : output ∉ ops.filterMap Op.added → l = {}

theorem filterMap_concat {α β : Type} (f : α → Option β) (l : List α) (a : α) :
    (l ++ [a]).filterMap f = l.filterMap f ++ (f a).toList := by
  rw [List.filterMap_append]
  cases h : f a <;> simp [h]

section Window

variable {output : Ref} {ops : List (Op π)} {l : Listener π}

/-- A step that dispatches nothing. -/
theorem Window.same (h : Window output ops l) {op : Op π} (hpacket : op.packet = none)
    {attached : Bool} (hattached : attached = true → l.attached = true) :
    Window output (ops ++ [op]) ⟨attached, l.heard⟩ := by
  have hpackets : (ops ++ [op]).filterMap Op.packet = ops.filterMap Op.packet := by
    rw [filterMap_concat, hpacket, Option.toList_none, List.append_nil]
  refine ⟨?_, fun hatt => ?_, fun hnew => ?_⟩
  · rw [hpackets]
    exact h.infix_packets
  · rw [hpackets]
    exact h.suffix_packets (hattached hatt)
  · rw [filterMap_concat, List.mem_append, not_or] at hnew
    have hl := h.added hnew.1
    subst hl
    cases attached
    · rfl
    · exact absurd (hattached rfl) Bool.false_ne_true

/-- A packet is heard while the output is attached. -/
theorem Window.dispatch (h : Window output ops l) (packet : π) :
    Window output (ops ++ [.dispatch (some packet)]) (l.hear output (.dispatch (some packet))) := by
  have hpackets : (ops ++ [Op.dispatch (some packet)]).filterMap Op.packet
      = ops.filterMap Op.packet ++ [packet] := filterMap_concat _ _ _
  have hadds : (ops ++ [Op.dispatch (some packet)]).filterMap Op.added = ops.filterMap Op.added :=
    (filterMap_concat _ _ _).trans (List.append_nil _)
  rw [Listener.hear]
  split
  · rename_i hatt
    obtain ⟨before, hbefore⟩ := h.suffix_packets hatt
    have hsuffix : l.heard ++ [packet] <:+ ops.filterMap Op.packet ++ [packet] :=
      ⟨before, by rw [← hbefore, List.append_assoc]⟩
    refine ⟨?_, fun _ => ?_, fun hnew => ?_⟩
    · rw [hpackets]
      exact hsuffix.isInfix
    · rw [hpackets]
      exact hsuffix
    · rw [hadds] at hnew
      rw [h.added hnew] at hatt
      exact absurd hatt Bool.false_ne_true
  · rename_i hatt
    refine ⟨?_, fun h => absurd h hatt, fun hnew => ?_⟩
    · rw [hpackets]
      exact h.infix_packets.trans (List.prefix_append _ _).isInfix
    · rw [hadds] at hnew
      exact h.added hnew

/-- An output that is attached has heard nothing before. -/
theorem Window.attach (h : Window output ops l) (hnew : output ∉ ops.filterMap Op.added) :
    Window output (ops ++ [.addOutput output]) { l with attached := true } := by
  rw [h.added hnew]
  refine ⟨List.nil_infix, fun _ => List.nil_suffix, fun hnot => ?_⟩
  rw [filterMap_concat] at hnot
  exact absurd (List.mem_append_right _ (List.mem_singleton_self output)) hnot

/-- **A window on what is dispatched.** -/
theorem window_hear (output : Ref) (ops : List (Op π)) (hnodup : (ops.filterMap Op.added).Nodup) :
    Window output ops (ops.foldl (Listener.hear output) {}) := by
  induction ops using List.reverseRecOn with
  | nil => exact ⟨List.nil_infix, fun _ => List.nil_suffix, fun _ => rfl⟩
  | append_singleton ops op ih =>
    rw [filterMap_concat, List.nodup_append] at hnodup
    have h := ih hnodup.1
    rw [List.foldl_append, List.foldl_cons, List.foldl_nil]
    generalize ops.foldl (Listener.hear output) {} = l at h
    cases op with
    | dispatch packet =>
      cases packet with
      | none => exact h.same rfl id
      | some packet => exact h.dispatch packet
    | addOutput o =>
      rw [Listener.hear]
      split
      · rename_i ho
        subst ho
        exact h.attach fun hmem => hnodup.2.2 o hmem o (List.mem_singleton_self o) rfl
      · exact h.same rfl id
    | delOutput o now =>
      rw [Listener.hear]
      split
      · exact h.same rfl fun hatt => absurd hatt Bool.false_ne_true
      · exact h.same rfl id
    | delAllOutput => exact h.same rfl fun hatt => absurd hatt Bool.false_ne_true
    | dequeue o => exact h.same rfl id
    | wake o => exact h.same rfl id

end Window

end Fanout

/-! ## The steps -/

/-- `class InputHandler` at work: how often its loop has come to an end, its queue, and whether its
connection has been stopped. -/
structure LiveInput extends InputHandler where
  connIsStop : Bool := false
  cnt : ℕ := 0
  queue : PacketQueue Bytes := {}

/-- The loop of `cycle_interleave` is to end. -/
def LiveInput.Stopped (input : LiveInput) : Prop := input.isStop = true ∨ input.connIsStop = true

instance (input : LiveInput) : Decidable input.Stopped := inferInstanceAs (Decidable (_ ∨ _))

/-- A channel that has been started, with its one input and its outputs; `waiting` and `moved` tell
whether `fetch` waits for a packet, and whether `input_queue` has been changed meanwhile.  Beside
them the packets that the demux has made. -/
structure Live where
  viewers : Viewers
  ref : Ref
  input : LiveInput
  co : Coroutine
  waiting : Bool := false
  moved : Bool := false
  produced : List Bytes := []

namespace Live

/-- After `Channel::run` has probed the input and started everything. -/
def start (write : Ref → Bytes → Bytes → ℤ × Bytes) (ref : Ref) : Live where
  viewers := { Viewers.new write with
    fanout := { Fanout.new with channel := { inputQueue := [ref], status := .start } } }
  ref := ref
  input := { inputType := .origin, client := true, status := .start, co := Coroutine.start true {} }
  co := Coroutine.start true {}

/-- What happens next: the demux returns from `handle_input`; the input's connection is stopped;
`handle_cycle` goes through its loop once, or its wait ends; something happens to the outputs. -/
inductive Op
  | read (ret : ℤ) (packet : Option Bytes) (now : ℤ)
  | stopConn
  | turn (now : ℤ)
  | wake (now : ℤ)
  | viewer (op : Viewers.Op)

section Source

variable (inputType : Ref → EInputType)

def setChannel (c : Channel) (s : Live) : Live :=
  { s with viewers := { s.viewers with fanout := { s.viewers.fanout with channel := c } } }

/-- `InputHandler::on_thread_stop()`. -/
def inputStops (now : ℤ) (s : Live) : Live :=
  { s.setChannel (s.viewers.fanout.channel.delInput now s.ref) with
    input := { s.input with toInputHandler := s.input.onThreadStop, connIsStop := true }
    moved := s.moved || decide (s.ref ∈ s.viewers.fanout.channel.inputQueue) }

/-- A `cycle_interleave` has come to its end.  The second one begins at an input that is started, so
that it goes to the head of its loop at once. -/
def endInterleave (now : ℤ) (s : Live) : Live :=
  if s.input.cnt = 0 ∧ ¬ s.input.Stopped then { s with input := { s.input with cnt := 1 } }
  else s.inputStops now

/-- The loop of `cycle_interleave`, from the return of `handle_input` to its next call. -/
def readReturns (ret : ℤ) (packet : Option Bytes) (now : ℤ) (s : Live) : Live :=
  if ret ≠ errorSuccess then s.endInterleave now
  else
    match packet with
    | none => s.endInterleave now
    | some packet =>
      let s' := { s with
        input := { s.input with queue := s.input.queue.enqueue packet }
        produced := s.produced ++ [packet] }
      if s.input.Stopped then s'.endInterleave now else s'

/-- The end of `handle_cycle` and `Channel::on_stop`. -/
def channelEnds (now : ℤ) (s : Live) : Except Fault Live :=
  (s.viewers.step inputType .onStop).map fun viewers =>
    let s' := { s with
      viewers
      input := if s.ref ∈ s.viewers.fanout.channel.inputQueue then { s.input with isStop := true }
        else s.input
      co := { s.co with running := false, ended := true }
      waiting := false }
    s'.setChannel { viewers.fanout.channel with status := .init, channelExitTime := now }

/-- The packet that `fetch` gets from the input is dispatched. -/
def convey (packet : Bytes) (s : Live) : Except Fault Live :=
  (s.viewers.step inputType (.dispatch (some packet))).map fun viewers =>
    { s with
      viewers
      input := { s.input with queue := s.input.queue.dequeue.2 }
      waiting := false }

/-- The loop of `handle_cycle`, once round or up to its wait for a packet. -/
def turn (now : ℤ) (s : Live) : Except Fault Live :=
  if s.viewers.fanout.channel.getIdleTime now > 5 * 1000 * 1000 then s.channelEnds inputType now
  else if s.viewers.fanout.channel.inputQueue = [] then s.channelEnds inputType now
  else
    match s.input.queue.dequeue.1.2 with
    | none => .ok { s with waiting := true, moved := false }
    | some packet => s.convey inputType packet

/-- The loop after its wait.  `fetch` cannot move its iterator on if the inputs have been
changed. -/
def wake (now : ℤ) (s : Live) : Except Fault Live :=
  match s.input.queue.dequeue.1.2 with
  | none => s.channelEnds inputType now
  | some packet => if s.moved then .error .deadBlock else s.convey inputType packet

/-- One step.  Only the channel dispatches packets and stops its outputs. -/
def step (s : Live) : Op → Except Fault Live
  | .read ret packet now => .ok (if s.input.co.Alive then s.readReturns ret packet now else s)
  | .stopConn => .ok { s with input := { s.input with connIsStop := true } }
  | .turn now => if s.co.Alive ∧ s.waiting = false then s.turn inputType now else .ok s
  | .wake now => if s.co.Alive ∧ s.waiting = true then s.wake inputType now else .ok s
  | .viewer (.dispatch _) => .ok s
  | .viewer .onStop => .ok s
  | .viewer op => (s.viewers.step inputType op).map fun viewers => { s with viewers }

/-- The state after a sequence of steps. -/
def run (s : Live) : List Op → Except Fault Live
  | [] => .ok s
  | op :: ops => (s.step inputType op).bind fun s => run s ops

end Source

end Live

/-! ## What the steps write down -/

namespace Viewers

/-- The packet that a step dispatches. -/
def Op.packet : Op → Option Bytes
  | .dispatch packet => packet
  | _ => none

/-- A step writes down what it dispatches, and at most one new output that it adds. -/
def Records (packets : List Bytes) (s s' : Viewers) : Prop :=
  ∃ more, s'.history = s.history ++ more ∧ more.filterMap Fanout.Op.packet = packets
    ∧ (more.filterMap Fanout.Op.added = [] ∨ more.filterMap Fanout.Op.added = [s.fresh])

/-- Nothing is dispatched and nothing is added. -/
def Quiet (s s' : Viewers) : Prop :=
  ∃ more, s'.history = s.history ++ more ∧ more.filterMap Fanout.Op.packet = []
    ∧ more.filterMap Fanout.Op.added = []

variable {inputType : Ref → EInputType} {s s' s'' : Viewers} {output : Ref} {now : ℤ}

theorem Quiet.records (h : Quiet s s') : Records [] s s' := by
  obtain ⟨more, hhistory, hpackets, hadded⟩ := h
  exact ⟨more, hhistory, hpackets, .inl hadded⟩

theorem Quiet.trans (h : Quiet s s') (h' : Quiet s' s'') : Quiet s s'' := by
  obtain ⟨more, hhistory, hpackets, hadded⟩ := h
  obtain ⟨more', hhistory', hpackets', hadded'⟩ := h'
  refine ⟨more ++ more', by rw [hhistory', hhistory, List.append_assoc], ?_, ?_⟩
  · rw [List.filterMap_append, hpackets, hpackets', List.append_nil]
  · rw [List.filterMap_append, hadded, hadded', List.append_nil]

theorem quiet_of_eq (h : s'.history = s.history) : Quiet s s' :=
  ⟨[], by rw [h, List.append_nil], rfl, rfl⟩

theorem quiet_threadStop (inputType : Ref → EInputType) (output : Ref) (now : ℤ) (s : Viewers) :
    Quiet s (s.threadStop inputType output now) := ⟨[.delOutput output now], rfl, rfl, rfl⟩

theorem quiet_afterDequeue {packet : Option Bytes}
    (h : s.afterDequeue inputType output now packet = .ok s') : Quiet s s' := by
  rw [afterDequeue.eq_def] at h
  split at h
  · cases h
    exact quiet_threadStop inputType output now s
  · split at h
    · cases h
    · cases h
      exact quiet_of_eq rfl
    · cases h
      exact Quiet.trans (quiet_of_eq rfl) (quiet_threadStop inputType output now _)

theorem quiet_round (h : s.round inputType output now = .ok s') : Quiet s s' := by
  rw [round] at h
  split at h
  · rcases hstatus : RawMux.sendStatus 404 (s.outputs output).mux with e | out
    · rw [hstatus] at h
      cases h
    · rw [hstatus] at h
      cases h
      exact Quiet.trans (quiet_of_eq rfl) (quiet_threadStop inputType output now _)
  · split at h
    · cases h
      exact ⟨[.dequeue output], rfl, rfl, rfl⟩
    · exact Quiet.trans ⟨[.dequeue output], rfl, rfl, rfl⟩ (quiet_afterDequeue h)

theorem quiet_wake (h : s.wake inputType output now = .ok s') : Quiet s s' :=
  Quiet.trans ⟨[.wake output], rfl, rfl, rfl⟩ (quiet_afterDequeue h)

/-- **What one step writes down.** -/
theorem records_step {op : Op} (h : s.step inputType op = .ok s') :
    Records op.packet.toList s s' := by
  cases op with
  | dispatch packet =>
    cases h
    refine ⟨[.dispatch packet], rfl, ?_, .inl rfl⟩
    cases packet <;> rfl
  | addOutput =>
    cases h
    exact ⟨[.addOutput s.fresh], rfl, rfl, .inr rfl⟩
  | delAllOutput =>
    cases h
    exact Quiet.records ⟨[.delAllOutput], rfl, rfl, rfl⟩
  | onInit =>
    cases h
    exact (quiet_of_eq rfl).records
  | onStop =>
    cases h
    exact (quiet_of_eq rfl).records
  | runOutput output created =>
    cases h
    refine (quiet_of_eq ?_).records
    split <;> rfl
  | stopConn output =>
    cases h
    refine (quiet_of_eq ?_).records
    split <;> rfl
  | round output now =>
    rw [step] at h
    split at h
    · exact (quiet_round h).records
    · cases h
      exact (quiet_of_eq rfl).records
  | wake output now =>
    rw [step] at h
    split at h
    · exact (quiet_wake h).records
    · cases h
      exact (quiet_of_eq rfl).records

/-- The channel changes, but not its outputs. -/
theorem Inv.setChannel (h : s.Inv) {c : Channel}
    (hc : c.outputQueue = s.fanout.channel.outputQueue) :
    Inv { s with fanout := { s.fanout with channel := c } } := by
  refine ⟨⟨⟨?_, ?_, ?_, h.serves.heard⟩, h.added_lt, h.running, h.accepts⟩, h.served⟩
  · change c.outputQueue.Nodup
    rw [hc]
    exact h.serves.nodup
  · intro o
    change o ∈ c.outputQueue ↔ _
    rw [hc]
    exact h.serves.mem_iff o
  · change ∀ o ∈ c.outputQueue, _
    rw [hc]
    exact h.serves.added

end Viewers

namespace Live

/-! ## The invariant -/

/-- **The invariant**: the channel has dispatched what the demux has made, but for what is still in
the queue of the input. -/
structure Inv (s : Live) : Prop where
  viewers : s.viewers.Inv
  nodup : (s.viewers.history.filterMap Fanout.Op.added).Nodup
  relayed : s.viewers.history.filterMap Fanout.Op.packet ++ s.input.queue.queue = s.produced

variable {inputType : Ref → EInputType} {s s' : Live} {now : ℤ} {packet : Bytes}

theorem inv_start (ref : Ref) : (start (fun _ => RawMux.accept) ref).Inv where
  viewers := Viewers.inv_new.setChannel rfl
  nodup := List.nodup_nil
  relayed := rfl

/-- What the demux has made and the queue of the input stay as they are. -/
theorem Inv.congr (h : s.Inv) (hviewers : s'.viewers.Inv)
    (hhistory : s'.viewers.history = s.viewers.history)
    (hqueue : s'.input.queue = s.input.queue) (hproduced : s'.produced = s.produced) : s'.Inv where
  viewers := hviewers
  nodup := by
    rw [hhistory]
    exact h.nodup
  relayed := by
    rw [hhistory, hqueue, hproduced]
    exact h.relayed

theorem Inv.endInterleave (h : s.Inv) (now : ℤ) : (s.endInterleave now).Inv := by
  unfold Live.endInterleave
  split
  · exact h.congr h.viewers rfl rfl rfl
  · have hviewers : (s.inputStops now).viewers.Inv := h.viewers.setChannel rfl
    exact h.congr hviewers rfl rfl rfl

/-- The demux has returned from a read. -/
theorem Inv.readReturns (h : s.Inv) (ret : ℤ) (packet : Option Bytes) (now : ℤ) :
    (s.readReturns ret packet now).Inv := by
  unfold Live.readReturns
  split
  · exact h.endInterleave now
  · cases packet with
    | none => exact h.endInterleave now
    | some packet =>
      have hread : Inv { s with
          input := { s.input with queue := s.input.queue.enqueue packet }
          produced := s.produced ++ [packet] } := by
        refine ⟨h.viewers, h.nodup, ?_⟩
        change _ ++ (s.input.queue.queue ++ [packet]) = s.produced ++ [packet]
        rw [← List.append_assoc, h.relayed]
      dsimp only
      split
      · exact hread.endInterleave now
      · exact hread

/-- The channel stops. -/
theorem Inv.exists_channelEnds (h : s.Inv) (inputType : Ref → EInputType) (now : ℤ) :
    ∃ s', s.channelEnds inputType now = .ok s' ∧ s'.Inv := by
  obtain ⟨viewers, hstep, hviewers⟩ := h.viewers.exists_step inputType .onStop
  refine ⟨_, by rw [channelEnds, hstep]; rfl, ?_⟩
  cases hstep
  refine h.congr (Viewers.Inv.setChannel hviewers rfl) rfl ?_ rfl
  change (if s.ref ∈ s.viewers.fanout.channel.inputQueue then { s.input with isStop := true }
    else s.input).queue = _
  split <;> rfl

/-- **A packet of the input is dispatched.** -/
theorem Inv.exists_convey (h : s.Inv) (inputType : Ref → EInputType)
    (hfront : s.input.queue.dequeue.1.2 = some packet) :
    ∃ s', s.convey inputType packet = .ok s' ∧ s'.Inv := by
  obtain ⟨viewers, hstep, hviewers⟩ := h.viewers.exists_step inputType (.dispatch (some packet))
  refine ⟨_, by rw [convey, hstep]; rfl, hviewers, ?_, ?_⟩
  · cases hstep
    change ((s.viewers.history ++ [Fanout.Op.dispatch (some packet)]).filterMap _).Nodup
    rw [Fanout.filterMap_concat]
    exact (List.append_nil _).symm ▸ h.nodup
  · cases hstep
    change (s.viewers.history ++ [Fanout.Op.dispatch (some packet)]).filterMap _
      ++ s.input.queue.dequeue.2.queue = s.produced
    have hqueue : s.input.queue.queue = packet :: s.input.queue.dequeue.2.queue := by
      rw [PacketQueue.dequeue] at hfront ⊢
      split at hfront
      · cases hfront
      · cases hfront
        assumption
    rw [Fanout.filterMap_concat, ← h.relayed, hqueue, List.append_assoc]
    rfl

/-- The channel takes a step, or finds its inputs changed. -/
theorem Inv.exists_wake (h : s.Inv) (inputType : Ref → EInputType) (now : ℤ) :
    (∃ s', s.wake inputType now = .ok s' ∧ s'.Inv)
      ∨ s.wake inputType now = .error .deadBlock ∧ s.moved = true := by
  unfold Live.wake
  split
  · exact .inl (h.exists_channelEnds inputType now)
  · rename_i packet hfront
    split
    · exact .inr ⟨rfl, ‹_›⟩
    · exact .inl (h.exists_convey inputType hfront)

theorem Inv.exists_turn (h : s.Inv) (inputType : Ref → EInputType) (now : ℤ) :
    ∃ s', s.turn inputType now = .ok s' ∧ s'.Inv := by
  unfold Live.turn
  split
  · exact h.exists_channelEnds inputType now
  · split
    · exact h.exists_channelEnds inputType now
    · split
      · exact ⟨_, rfl, h.congr h.viewers rfl rfl rfl⟩
      · rename_i packet hfront
        exact h.exists_convey inputType hfront

/-- The outputs take a step. -/
theorem Inv.exists_viewer (h : s.Inv) (inputType : Ref → EInputType) {op : Viewers.Op}
    (hop : op.packet = none) :
    ∃ viewers, s.viewers.step inputType op = .ok viewers ∧ Inv { s with viewers } := by
  obtain ⟨viewers, hstep, hviewers⟩ := h.viewers.exists_step inputType op
  obtain ⟨more, hhistory, hpackets, hadded⟩ := Viewers.records_step hstep
  refine ⟨viewers, hstep, hviewers, ?_, ?_⟩
  · change (viewers.history.filterMap _).Nodup
    rw [hhistory, List.filterMap_append]
    rcases hadded with hnone | hnew
    · rw [hnone, List.append_nil]
      exact h.nodup
    · rw [hnew, List.nodup_append]
      refine ⟨h.nodup, List.nodup_singleton _, ?_⟩
      rintro a ha b hb rfl
      rw [List.mem_singleton.1 hb] at ha
      exact lt_irrefl _ (h.viewers.added_lt _ ha)
  · change viewers.history.filterMap _ ++ s.input.queue.queue = s.produced
    rw [hhistory, List.filterMap_append, hpackets, hop, Option.toList_none, List.append_nil]
    exact h.relayed

/-- **One step.** -/
theorem Inv.exists_step (h : s.Inv) (inputType : Ref → EInputType) (op : Op) :
    (∃ s', s.step inputType op = .ok s' ∧ s'.Inv)
      ∨ s.step inputType op = .error .deadBlock ∧ (∃ now, op = .wake now) ∧ s.moved = true := by
  cases op with
  | read ret packet now =>
    refine .inl ⟨_, rfl, ?_⟩
    split
    · exact h.readReturns ret packet now
    · exact h
  | stopConn => exact .inl ⟨_, rfl, h.congr h.viewers rfl rfl rfl⟩
  | turn now =>
    rw [Live.step]
    split
    · exact .inl (h.exists_turn inputType now)
    · exact .inl ⟨s, rfl, h⟩
  | wake now =>
    rw [Live.step]
    split
    · exact (h.exists_wake inputType now).imp_right fun hfault => ⟨hfault.1, ⟨now, rfl⟩, hfault.2⟩
    · exact .inl ⟨s, rfl, h⟩
  | viewer op =>
    have hviewer : s.step inputType (.viewer op) = .ok s ∨ op.packet = none
        ∧ s.step inputType (.viewer op)
          = (s.viewers.step inputType op).map fun viewers => { s with viewers } := by
      cases op with
      | dispatch packet => exact .inl rfl
      | onStop => exact .inl rfl
      | _ => exact .inr ⟨rfl, rfl⟩
    rcases hviewer with hnothing | ⟨hop, hsame⟩
    · exact .inl ⟨s, hnothing, h⟩
    · obtain ⟨viewers, hstep, hinv⟩ := h.exists_viewer inputType hop
      exact .inl ⟨_, by rw [hsame, hstep]; rfl, hinv⟩

/-- The run ends where `fetch` has been waiting, and its inputs have been changed meanwhile. -/
def EndsAtFetch (inputType : Ref → EInputType) (s : Live) (ops : List Op) : Prop :=
  ∃ before now behind s', ops = before ++ .wake now :: behind
    ∧ s.run inputType before = .ok s' ∧ s'.moved = true

theorem run_cons_of_ok {op : Op} (hstep : s.step inputType op = .ok s') (ops : List Op) :
    s.run inputType (op :: ops) = s'.run inputType ops := by
  rw [run, hstep]
  rfl

/-- A run. -/
theorem Inv.exists_run (h : s.Inv) (inputType : Ref → EInputType) (ops : List Op) :
    (∃ s', s.run inputType ops = .ok s' ∧ s'.Inv)
      ∨ s.run inputType ops = .error .deadBlock ∧ s.EndsAtFetch inputType ops := by
  induction ops generalizing s with
  | nil => exact .inl ⟨s, rfl, h⟩
  | cons op ops ih =>
    rcases h.exists_step inputType op with ⟨s₁, hstep, h₁⟩ | ⟨hstep, ⟨now, rfl⟩, hmoved⟩
    · rw [run_cons_of_ok hstep]
      rcases ih h₁ with hok | ⟨hrun, before, now, behind, s', rfl, hbefore, hmoved⟩
      · exact .inl hok
      · refine .inr ⟨hrun, op :: before, now, behind, s', rfl, ?_, hmoved⟩
        rw [run_cons_of_ok hstep, hbefore]
    · refine .inr ⟨?_, [], now, ops, s, rfl, rfl, hmoved⟩
      rw [run, hstep]
      rfl

/-- **From the origin to the viewers.**  If the clients take every byte that they are sent, then
however the input, the channel and the outputs take their steps, the channel has dispatched the
first of the packets that the demux has made, all but those in the queue of the input; and each
client has been sent nothing, a bad status line, or a good one and behind it the first packets of a
contiguous piece of these.  Unless `fetch` comes upon inputs that have been changed while it
waited. -/
theorem live_relayed (inputType : Ref → EInputType) {write : Ref → Bytes → Bytes → ℤ × Bytes}
    (hwrite : ∀ output, RawMux.TakesAll (write output)) (ref : Ref) (ops : List Op) :
    (∃ s packets, (start write ref).run inputType ops = .ok s
      ∧ packets ++ s.input.queue.queue = s.produced
      ∧ ∀ output, ∃ window, window <:+: packets
        ∧ Viewers.Received window (s.viewers.outputs output).mux.client)
    ∨ (start write ref).run inputType ops = .error .deadBlock
      ∧ (start write ref).EndsAtFetch inputType ops := by
  obtain rfl : write = fun _ => RawMux.accept := funext fun output => (hwrite output).eq_accept
  rcases (inv_start ref).exists_run inputType ops with ⟨s, hrun, h⟩ | hfault
  · refine .inl ⟨s, _, hrun, h.relayed,
      fun output => ⟨Fanout.heardBy output s.viewers.history, ?_, ?_⟩⟩
    · exact (Fanout.window_hear output s.viewers.history h.nodup).infix_packets
    · have hheard : s.viewers.fanout.taken output ++ (s.viewers.fanout.queues output).queue
          = Fanout.heardBy output s.viewers.history := h.viewers.serves.heard output
      exact (h.viewers.served output).received (hheard ▸ List.prefix_append _ _)
  · exact .inr hfault

/-- Of two packets the second one is read after the viewer has come; the demux has no third one. -/
def twoPackets : List Op :=
  [.read 0 (some [1]) 0, .turn 0, .viewer .addOutput, .viewer (.runOutput 0 true),
    .read 0 (some [2]) 0, .turn 0, .viewer (.round 0 0), .read 0 none 0, .turn 0]

theorem live_relayed_two :
    (∃ s packets, (start (fun _ => RawMux.accept) 0).run (fun _ => .origin) twoPackets = .ok s
      ∧ packets ++ s.input.queue.queue = s.produced
      ∧ ∀ output, ∃ window, window <:+: packets
        ∧ Viewers.Received window (s.viewers.outputs output).mux.client)
    ∨ (start (fun _ => RawMux.accept) 0).run (fun _ => .origin) twoPackets = .error .deadBlock
      ∧ (start (fun _ => RawMux.accept) 0).EndsAtFetch (fun _ => .origin) twoPackets :=
  live_relayed _ (fun _ => RawMux.takesAll_accept) 0 twoPackets

end Live

end SmartStreaming
