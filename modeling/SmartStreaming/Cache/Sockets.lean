import SmartStreaming.Cache.OriginInputs
import SmartStreaming.Machinery.Holdings

/-!
# Cache/Sockets — the connections of a channel's origin inputs

Each input that pulls has a `TcpStreamConn` of its own.  `connect` sets its `client_fd` to null, and
to a new descriptor once it has worked; `close` gives back what `client_fd` points to, if
`is_connected` is set.  Nothing closes a connection before it connects again:

    connect works, the request is refused  -->  the next probe connects, and a descriptor is lost
    that one does not work                 -->  `is_connected` without a descriptor

`no_descriptor_lost` says in which runs of a channel no descriptor is lost.  The channel is not the
only owner of its inputs: one that was started is in `input_pool` until its coroutine has ended, and
outlives the channel where that never happens.
-/

namespace SmartStreaming

open Machinery

namespace InputHandler

/-- `input_pool` owns the input: from `run()` to `on_thread_stop()`, which never comes if the thread
could not be created. -/
def Pooled (input : InputHandler) : Prop := input.co.running = true ∧ input.co.ended = false

instance (input : InputHandler) : Decidable input.Pooled := inferInstanceAs (Decidable (_ ∧ _))

end InputHandler

/-- A channel, with `client_fd` and `is_connected` of the connection of each of its inputs. -/
structure Sockets where
  stream : PlayStream
  clientFd : Holdings Ref
  isConnected : Ref → Bool

namespace Sockets

/-- Before the first request; every connection is a `TcpStreamConn(nullptr)`. -/
def new : Sockets where
  stream := .new
  clientFd := .new
  isConnected _ := false

/-! ## Connections -/

/-- `connect` up to its wait. -/
def connect (input : Ref) (s : Sockets) : Sockets :=
  { s with clientFd := s.clientFd.forget input }

/-- `connect` after its wait, when it has worked. -/
def connected (input : Ref) (s : Sockets) : Sockets :=
  { s with
    clientFd := s.clientFd.acquire input
    isConnected := Function.update s.isConnected input true }

/-- `close()`, where `st_netfd_close` returns `closed`. -/
def close (closed : ℤ) (input : Ref) (s : Sockets) : Except Fault Sockets :=
  if s.isConnected input = false then .ok s
  else
    match s.clientFd.holds input with
    | none => .error .nullPointer
    | some _ =>
      if closed ≠ 0 then .ok s
      else .ok { s with
        clientFd := s.clientFd.release input
        isConnected := Function.update s.isConnected input false }

/-- Each of these inputs closes its connection. -/
def closeAll (inputs : List Ref) (s : Sockets) : Except Fault Sockets :=
  inputs.foldlM (fun s input => s.close 0 input) s

/-- The inputs that only the channel owns are destroyed with it, and close their connections. -/
def destroy (s : Sockets) : Except Fault Sockets :=
  s.closeAll (s.stream.channel.inputQueue.filter fun input => ¬ (s.stream.inputs input).Pooled)

/-! ## Steps -/

/-- What happens next: a step of the channel, in which `st_netfd_close` returns `closed` if it is
called, or a `connect` that the coroutine of an input itself begins, or that has worked. -/
inductive Event
  | stream (e : PlayStream.Event) (closed : ℤ)
  | connects (input : Ref)
  | connected (input : Ref)

/-- The request of a step. -/
def output (stream : PlayStream) : PlayStream.Event → Option Ref
  | .arrive _ => some stream.fresh
  | .resume output _ _ => some output
  | _ => none

/-- The input that a request waits for, in `connect` or behind it. -/
def waitsFor (wait : Wait) (stream : PlayStream) (output : Ref) : Option Ref :=
  (stream.suspended output).bind fun frame =>
    if frame.wait = wait then some frame.input else none

/-- What a step of the channel does to the connections first; an input that ends has not been
stopped before, so that `on_thread_stop` closes its connection. -/
def before (closed : ℤ) (s : Sockets) : PlayStream.Event → Except Fault Sockets
  | .resume output ret _ =>
    match waitsFor .connect s.stream output with
    | some input => .ok (if ret = errorSuccess then s.connected input else s)
    | none => .ok s
  | .inputEnds input _ =>
    if (s.stream.inputs input).co.Alive then s.close closed input else .ok s
  | _ => .ok s

/-- What it does to them last: a request may have come to its next `connect`. -/
def after (output : Option Ref) (s : Sockets) : Sockets :=
  match output.bind (waitsFor .connect s.stream) with
  | some input => s.connect input
  | none => s

/-- The coroutine of the input probes its origin by itself. -/
def Probes (input : InputHandler) : Prop :=
  input.co.Alive ∧ input.inputType = .origin ∧ input.status = .init

instance (input : InputHandler) : Decidable (Probes input) := inferInstanceAs (Decidable (_ ∧ _))

/-- One step. -/
def step (s : Sockets) : Event → Except Fault Sockets
  | .stream e closed =>
    (s.before closed e).bind fun t =>
      (s.stream.step e).map fun out => after (output s.stream e) { t with stream := out.1 }
  | .connects input => .ok (if Probes (s.stream.inputs input) then s.connect input else s)
  | .connected input => .ok (if Probes (s.stream.inputs input) then s.connected input else s)

/-- The state after a sequence of steps. -/
def run (s : Sockets) : List Event → Except Fault Sockets
  | [] => .ok s
  | e :: events => (s.step e).bind fun s => run s events

end Sockets

/-! ## What a step of the channel leaves alone -/

namespace PlayStream

variable {s s' s'' : PlayStream} {out : Outcome} {output input : Ref} {ret now : ℤ}

/-- From `s` to `s'` inputs have been probed, started and stopped, and none has been added. -/
structure Keeps (s s' : PlayStream) : Prop where
  client : ∀ i, (s'.inputs i).client = (s.inputs i).client
  status : ∀ i, (s'.inputs i).status = .init → (s.inputs i).status = .init
  queue : s'.channel.inputQueue = s.channel.inputQueue
  fresh : s'.fresh = s.fresh
  moved : s'.moved = s.moved

/-- The inputs are the same. -/
theorem Keeps.of_eq (hinputs : s'.inputs = s.inputs)
    (hqueue : s'.channel.inputQueue = s.channel.inputQueue) (hfresh : s'.fresh = s.fresh)
    (hmoved : s'.moved = s.moved) : Keeps s s' := by
  refine ⟨fun i => ?_, fun i => ?_, hqueue, hfresh, hmoved⟩ <;> rw [hinputs]
  exact id

theorem Keeps.trans (h : Keeps s s') (h' : Keeps s' s'') : Keeps s s'' where
  client i := (h'.client i).trans (h.client i)
  status i hi := h.status i (h'.status i hi)
  queue := h'.queue.trans h.queue
  fresh := h'.fresh.trans h.fresh
  moved := h'.moved.trans h.moved

theorem keeps_setStatus (heap : Ref → InputHandler) (i : Ref) :
    (Function.update heap input ((heap input).setStatus .start) i).client = (heap i).client
      ∧ ((Function.update heap input ((heap input).setStatus .start) i).status = .init →
        i ≠ input ∧ (heap i).status = .init) := by
  by_cases hi : i = input
  · rw [hi, Function.update_self]
    exact ⟨rfl, fun h => by cases h⟩
  · rw [Function.update_of_ne hi]
    exact ⟨rfl, fun h => ⟨hi, h⟩⟩

theorem keeps_probed : Keeps s (s.probed input) :=
  ⟨fun i => (keeps_setStatus s.inputs i).1, fun i h => ((keeps_setStatus s.inputs i).2 h).2,
    rfl, rfl, rfl⟩

/-- Calls that leave `client` and `status` alone. -/
theorem Keeps.of_forEach {f : Ref → InputHandler → InputHandler} {refs : List Ref}
    (hinputs : s'.inputs = forEach f s.inputs refs)
    (hclient : ∀ ref a, (f ref a).client = a.client)
    (hstatus : ∀ ref a, (f ref a).status = a.status)
    (hqueue : s'.channel.inputQueue = s.channel.inputQueue) (hfresh : s'.fresh = s.fresh)
    (hmoved : s'.moved = s.moved) : Keeps s s' := by
  refine ⟨fun i => ?_, fun i hi => ?_, hqueue, hfresh, hmoved⟩
  · rw [hinputs]
    exact forEach_keeps hclient s.inputs refs i
  · rw [hinputs] at hi
    exact (forEach_keeps hstatus s.inputs refs i).symm.trans hi

theorem keeps_onStop : Keeps s (s.onStop now) :=
  .of_forEach rfl (fun _ _ => rfl) (fun _ _ => rfl) rfl rfl rfl

theorem keeps_finishPlay : Keeps s (s.finishPlay out output ret) := by
  unfold finishPlay
  split
  · exact keeps_onStop.trans (.of_eq rfl rfl rfl rfl)
  · exact .of_eq rfl rfl rfl rfl

theorem keeps_finishRun : Keeps s (s.finishRun out).1 := by
  unfold finishRun
  split
  · exact .of_eq rfl rfl rfl rfl
  · exact .of_forEach rfl (fun _ _ => rfl) (fun _ _ => rfl) rfl rfl rfl

/-- The loop over the inputs, all of which have a client. -/
theorem exists_probeInputs (out : Outcome) (rest : List Ref) (k : ℕ)
    (hclient : ∀ i, (s.inputs i).client = true) :
    ∃ s' p, probeInputs out rest k s = .ok (s', p) ∧ Keeps s s' ∧ s'.suspended = s.suspended
      ∧ ∀ i next, p = .waits i next → i ∈ rest ∧ (s'.inputs i).status = .init := by
  induction rest generalizing s k with
  | nil => exact ⟨s, .done, rfl, .of_eq rfl rfl rfl rfl, rfl, fun i next h => by cases h⟩
  | cons input rest ih =>
    rw [probeInputs]
    split
    · exact ⟨s, _, rfl, .of_eq rfl rfl rfl rfl, rfl, fun i next h => by cases h⟩
    · split
      · rename_i hinit
        refine ⟨s, _, rfl, .of_eq rfl rfl rfl rfl, rfl, ?_⟩
        rintro i next ⟨⟩
        exact ⟨List.mem_cons_self, hinit.2⟩
      · obtain ⟨s', p, hrun, hkeeps, hsuspended, hwaits⟩ := ih (s := s.probed input) (k + 1)
          fun i => (keeps_probed.client i).trans (hclient i)
        rw [if_pos (hclient input), hrun]
        exact ⟨s', p, rfl, keeps_probed.trans hkeeps, hsuspended, fun i next hp =>
          ⟨List.mem_cons_of_mem _ (hwaits i next hp).1, (hwaits i next hp).2⟩⟩

/-- **What a request does** from `s` to `s'`: the others wait as before, and it may wait for the
`connect` of an input of the queue that has not been probed. -/
structure Requests (output : Ref) (s s' : PlayStream) : Prop extends Keeps s s' where
  others : ∀ o, o ≠ output → s'.suspended o = s.suspended o
  waits : ∀ frame, s'.suspended output = some frame → frame.wait = .connect
    ∧ frame.moved = s.moved
    ∧ frame.input ∈ s.channel.inputQueue ∧ (s'.inputs frame.input).status = .init

theorem requests_finishPlay (h : Keeps s s') (hsuspended : s'.suspended = s.suspended) :
    Requests output s (s'.finishPlay out output ret) where
  toKeeps := h.trans keeps_finishPlay
  others o ho := by rw [suspended_finishPlay, if_neg ho, hsuspended]
  waits frame hframe := by
    rw [suspended_finishPlay, if_pos rfl] at hframe
    cases hframe

/-- **The rest of `on_init`.** -/
theorem exists_continueInit (out : Outcome) (output : Ref) (next last : ℕ)
    (hclient : ∀ i, (s.inputs i).client = true) :
    ∃ s' r, continueInit out output next last s = .ok (s', r) ∧ Requests output s s' := by
  obtain ⟨t, p, hrun, hkeeps, hsuspended, hwaits⟩ :=
    exists_probeInputs out ((s.channel.inputQueue.take last).drop next) next hclient
  rw [continueInit, hrun]
  cases p with
  | done =>
    refine ⟨_, _, rfl, requests_finishPlay (hkeeps.trans keeps_finishRun) ?_⟩
    rw [← hsuspended, finishRun]
    split <;> rfl
  | failed ret => exact ⟨_, _, rfl, requests_finishPlay hkeeps hsuspended⟩
  | waits i k =>
    refine ⟨_, _, rfl, hkeeps.trans (.of_eq rfl rfl rfl rfl), fun o ho => ?_,
      fun frame hframe => ?_⟩
    · exact (Function.update_of_ne ho ..).trans (congrFun hsuspended o)
    · have hself : (t.suspend output ⟨i, k, last, .connect, t.moved⟩).suspended output
          = some ⟨i, k, last, .connect, t.moved⟩ := Function.update_self ..
      rw [hself] at hframe
      obtain rfl := Option.some.inj hframe
      obtain ⟨hmem, hinit⟩ := hwaits i k rfl
      exact ⟨rfl, hkeeps.moved, List.mem_of_mem_take (List.mem_of_mem_drop hmem), hinit⟩

end PlayStream

/-! ## Requests that come one by one -/

namespace Sockets

variable {s t : Sockets} {stream u : PlayStream} {out : Outcome} {output input : Ref} {ret now : ℤ}

/-- **Nothing has been lost**: an input has a descriptor exactly if it is connected, and one that
has not been probed has none unless its origin is about to answer.  While a request waits, the queue
is not moved. -/
structure Tidy (s : Sockets) : Prop where
  inv : s.stream.Inv
  client : ∀ i, (s.stream.inputs i).client = true
  lost : s.clientFd.lost = []
  connected : ∀ i, s.isConnected i = (s.clientFd.holds i).isSome
  closed : ∀ i, (s.stream.inputs i).status = .init →
    (∀ o, waitsFor .request s.stream o ≠ some i) → s.clientFd.holds i = none
  connecting : ∀ o i, waitsFor .connect s.stream o = some i → s.clientFd.holds i = none
  waits_lt : ∀ o frame, s.stream.suspended o = some frame → frame.input < s.stream.fresh
  moved : ∀ o frame, s.stream.suspended o = some frame → frame.moved = s.stream.moved
  unused : ∀ i, s.stream.fresh ≤ i → s.clientFd.holds i = none

theorem waitsFor_eq_some {wait : Wait} {i : Ref} : waitsFor wait stream output = some i
    ↔ ∃ frame, stream.suspended output = some frame ∧ frame.wait = wait ∧ frame.input = i := by
  rw [waitsFor, Option.bind_eq_some_iff]
  refine exists_congr fun frame => and_congr_right fun _ => ?_
  rw [Option.ite_none_right_eq_some, Option.some_inj]

theorem waitsFor_of_none {wait : Wait} (h : stream.suspended output = none) :
    waitsFor wait stream output = none := by
  rw [waitsFor, h]
  rfl

theorem after_of_none (h : waitsFor .connect s.stream output = none) :
    after (some output) s = s := by
  rw [after, Option.bind_some, h]

theorem after_of_some (h : waitsFor .connect s.stream output = some input) :
    after (some output) s = s.connect input := by
  rw [after, Option.bind_some, h]

theorem tidy_new : new.Tidy where
  inv := PlayStream.inv_new
  client _ := rfl
  lost := rfl
  connected _ := rfl
  closed _ _ _ := rfl
  connecting _ _ _ := rfl
  waits_lt _ _ h := by cases h
  moved _ _ h := by cases h
  unused _ _ := rfl

/-- A step of the channel that nobody waits for. -/
theorem Tidy.of_keeps (h : s.Tidy) (hinv : stream.Inv) (hkeeps : PlayStream.Keeps s.stream stream)
    (hsuspended : stream.suspended = s.stream.suspended) : Tidy { s with stream } := by
  have hwaits : ∀ wait o, waitsFor wait stream o = waitsFor wait s.stream o := by
    intro wait o
    rw [waitsFor, waitsFor, hsuspended]
  refine ⟨hinv, fun i => (hkeeps.client i).trans (h.client i), h.lost, h.connected, ?_, ?_, ?_, ?_,
    ?_⟩
  · intro i hi hnot
    exact h.closed i (hkeeps.status i hi) fun o => hwaits .request o ▸ hnot o
  · intro o i hi
    exact h.connecting o i (hwaits .connect o ▸ hi)
  · intro o frame hframe
    dsimp only at hframe ⊢
    rw [hsuspended] at hframe
    rw [hkeeps.fresh]
    exact h.waits_lt o frame hframe
  · intro o frame hframe
    dsimp only at hframe ⊢
    rw [hsuspended] at hframe
    rw [hkeeps.moved]
    exact h.moved o frame hframe
  · intro i hi
    exact h.unused i (hkeeps.fresh ▸ hi)

/-- **A request goes on**, in a channel in which nobody else waits and in which the inputs that have
not been probed have no descriptor. -/
theorem tidy_after (hinv : stream.Inv) (hclient : ∀ i, (u.inputs i).client = true)
    (hlost : t.clientFd.lost = []) (hconnected : ∀ i, t.isConnected i = (t.clientFd.holds i).isSome)
    (hclosed : ∀ i, (u.inputs i).status = .init → t.clientFd.holds i = none)
    (hunused : ∀ i, u.fresh ≤ i → t.clientFd.holds i = none)
    (hlt : ∀ i ∈ u.channel.inputQueue, i < u.fresh)
    (hquiet : ∀ o, o ≠ output → u.suspended o = none)
    (hstep : PlayStream.Requests output u stream) :
    Tidy (after (some output) { t with stream }) := by
  have hframe : ∀ o frame, stream.suspended o = some frame → frame.moved = u.moved
      ∧ frame.input < u.fresh ∧ t.clientFd.holds frame.input = none := by
    intro o frame ho
    by_cases heq : o = output
    · subst heq
      obtain ⟨-, hmoved, hmem, hinit⟩ := hstep.waits frame ho
      exact ⟨hmoved, hlt _ hmem, hclosed _ (hstep.status _ hinit)⟩
    · rw [hstep.others o heq, hquiet o heq] at ho
      cases ho
  have hafter : after (some output) { t with stream } = { t with stream } := by
    cases hi : waitsFor .connect stream output with
    | none => exact after_of_none hi
    | some i =>
      obtain ⟨frame, ho, -, rfl⟩ := waitsFor_eq_some.1 hi
      rw [after_of_some hi, connect, Holdings.forget_of_holds_none (hframe output frame ho).2.2]
  rw [hafter]
  refine ⟨hinv, fun i => (hstep.client i).trans (hclient i), hlost, hconnected, ?_, ?_, ?_, ?_, ?_⟩
  · intro i hi _
    exact hclosed i (hstep.status i hi)
  · intro o i hi
    obtain ⟨frame, ho, -, rfl⟩ := waitsFor_eq_some.1 hi
    exact (hframe o frame ho).2.2
  · intro o frame ho
    exact (hframe o frame ho).2.1.trans_eq hstep.fresh.symm
  · intro o frame ho
    exact (hframe o frame ho).1.trans hstep.moved.symm
  · intro i hi
    exact hunused i (hstep.fresh ▸ hi)

theorem step_stream {e : PlayStream.Event} {closed : ℤ} {r : Option ℤ}
    (hbefore : s.before closed e = .ok t) (hrun : s.stream.step e = .ok (stream, r)) :
    s.step (.stream e closed) = .ok (after (Sockets.output s.stream e) { t with stream }) := by
  rw [step, hbefore, hrun]
  rfl

/-- Nobody waits for the end of that wait. -/
theorem step_resume_of_none {closed : ℤ} (h : s.stream.suspended output = none) :
    s.step (.stream (.resume output ret out) closed) = .ok s := by
  have hrun : s.stream.step (.resume output ret out) = .ok (s.stream, none) := by
    rw [PlayStream.step, h]
  have hbefore : s.before closed (.resume output ret out) = .ok s := by
    rw [before, waitsFor_of_none h]
  rw [step_stream hbefore hrun, Sockets.output]
  exact congrArg _ (after_of_none (waitsFor_of_none h))

/-- A wait that ends with an error. -/
theorem step_resume_of_ne {frame : Frame} {closed : ℤ}
    (h : s.stream.suspended output = some frame) (hret : ret ≠ errorSuccess) :
    s.step (.stream (.resume output ret out) closed)
      = .ok { s with stream := s.stream.finishPlay out output ret } := by
  have hrun : s.stream.step (.resume output ret out)
      = .ok (s.stream.finishPlay out output ret, some ret) := by
    rw [PlayStream.step, h]
    exact if_pos hret
  have hbefore : s.before closed (.resume output ret out) = .ok s := by
    rw [before]
    split
    · rw [if_neg hret]
    · rfl
  have hnone : (s.stream.finishPlay out output ret).suspended output = none := by
    rw [PlayStream.suspended_finishPlay, if_pos rfl]
  rw [step_stream hbefore hrun, Sockets.output, after_of_none (waitsFor_of_none hnone)]

/-- A request waits for the answer now. -/
theorem waitsFor_suspend_request {next last moved : ℕ} (o : Ref)
    (h : o = output ∨ waitsFor .connect stream o = none) :
    waitsFor .connect (stream.suspend output ⟨input, next, last, .request, moved⟩) o = none := by
  by_cases ho : o = output
  · have hself : (stream.suspend output ⟨input, next, last, .request, moved⟩).suspended output
        = some ⟨input, next, last, .request, moved⟩ := Function.update_self ..
    rw [ho, waitsFor, hself]
    rfl
  · have hne : (stream.suspend output ⟨input, next, last, .request, moved⟩).suspended o
        = stream.suspended o := Function.update_of_ne ho ..
    rw [waitsFor, hne]
    exact h.resolve_left ho

/-- A `connect` that has worked. -/
theorem step_resume_connected {next last moved : ℕ} {closed : ℤ}
    (h : s.stream.suspended output = some ⟨input, next, last, .connect, moved⟩)
    (hclient : (s.stream.inputs input).client = true) :
    s.step (.stream (.resume output errorSuccess out) closed) = .ok { s.connected input with
      stream := s.stream.suspend output ⟨input, next, last, .request, moved⟩ } := by
  have hwaits : waitsFor .connect s.stream output = some input :=
    waitsFor_eq_some.2 ⟨_, h, rfl, rfl⟩
  have hbefore : s.before closed (.resume output errorSuccess out) = .ok (s.connected input) := by
    rw [before, hwaits]
    dsimp only
    rw [if_pos rfl]
  have hrun : s.stream.step (.resume output errorSuccess out)
      = .ok (s.stream.suspend output ⟨input, next, last, .request, moved⟩, none) := by
    rw [PlayStream.step, h]
    dsimp only
    rw [PlayStream.resume, if_neg (not_not.2 rfl), if_neg (not_not.2 hclient)]
  rw [step_stream hbefore hrun, Sockets.output]
  exact congrArg _ (after_of_none (waitsFor_suspend_request _ (.inl rfl)))

/-- A request that waits for no input any more. -/
theorem requests_runOutput : PlayStream.Requests output u (u.runOutput out output) where
  toKeeps := .of_eq rfl rfl rfl rfl
  others o ho := Function.update_of_ne ho ..
  waits frame hframe := by
    have hself : (u.runOutput out output).suspended output = none := Function.update_self ..
    rw [hself] at hframe
    cases hframe

/-- **An arrival** while nobody waits. -/
theorem Tidy.arrive (h : s.Tidy) (hq : s.stream.Quiet) (closed : ℤ) :
    ∃ s', s.step (.stream (.arrive out) closed) = .ok s' ∧ s'.Tidy := by
  have hclosed : ∀ i, (s.stream.inputs i).status = .init → s.clientFd.holds i = none := by
    intro i hi
    refine h.closed i hi fun o hwaits => ?_
    rw [waitsFor_of_none (hq o)] at hwaits
    cases hwaits
  by_cases hstart : s.stream.channel.status = .start
  · have hrun : s.stream.step (.arrive out)
        = .ok (s.stream.addOutput.runOutput out s.stream.fresh, none) := if_pos hstart
    refine ⟨_, step_stream rfl hrun, tidy_after (u := s.stream.addOutput)
      (h.inv.handlePlayStream hq hrun) h.client h.lost h.connected hclosed ?_ ?_ (fun o _ => hq o)
      requests_runOutput⟩
    · intro i hi
      exact h.unused i (Nat.le_of_succ_le hi)
    · intro i hi
      exact Nat.lt_succ_of_lt (h.inv.lt_fresh i hi)
  · have hnew : ∀ i, i ≠ s.stream.fresh + 1 →
        s.stream.addOutput.createOriginStream.inputs i = s.stream.inputs i :=
      fun i hi => Function.update_of_ne hi ..
    have hself : s.stream.addOutput.createOriginStream.inputs (s.stream.fresh + 1)
        = { inputType := .origin, client := true } := Function.update_self ..
    have hclient : ∀ i,
        ((s.stream.addOutput.createOriginStream.pushed out.moves).inputs i).client = true := by
      intro i
      rw [PlayStream.pushed]
      by_cases hi : i = s.stream.fresh + 1
      · rw [hi, hself]
      · rw [hnew i hi]
        exact h.client i
    obtain ⟨stream, r, hcontinue, hstep⟩ := PlayStream.exists_continueInit out s.stream.fresh 0
      (s.stream.channel.inputQueue.length + 1) hclient
    have hrun : s.stream.step (.arrive out) = .ok (stream, r) :=
      (if_neg hstart).trans hcontinue
    refine ⟨_, step_stream rfl hrun, tidy_after (h.inv.handlePlayStream hq hrun) hclient h.lost
      h.connected ?_ ?_ ?_ (fun o _ => hq o) hstep⟩
    · intro i hi
      by_cases heq : i = s.stream.fresh + 1
      · exact h.unused i (heq ▸ Nat.le_succ _)
      · rw [PlayStream.pushed, hnew i heq] at hi
        exact hclosed i hi
    · intro i hi
      exact h.unused i (Nat.le_of_succ_le (Nat.le_of_succ_le hi))
    · exact ((h.inv.inRequest_createOriginStream hq hstart).pushed out.moves).lt_fresh

/-- The `connect` of a request has worked. -/
theorem Tidy.answers (h : s.Tidy) {next last moved : ℕ}
    (hframe : s.stream.suspended output = some ⟨input, next, last, .connect, moved⟩)
    (hnone : s.clientFd.holds input = none) (hother : ∀ o, o ≠ output → s.stream.suspended o = none)
    (hinv : (s.stream.suspend output ⟨input, next, last, .request, moved⟩).Inv) :
    Tidy { s.connected input with
      stream := s.stream.suspend output ⟨input, next, last, .request, moved⟩ } := by
  have hself : (s.stream.suspend output ⟨input, next, last, .request, moved⟩).suspended output
      = some ⟨input, next, last, .request, moved⟩ := Function.update_self ..
  have hne : ∀ o, o ≠ output →
      (s.stream.suspend output ⟨input, next, last, .request, moved⟩).suspended o = none :=
    fun o ho => (Function.update_of_ne ho ..).trans (hother o ho)
  have hconnect : ∀ o, waitsFor .connect
      (s.stream.suspend output ⟨input, next, last, .request, moved⟩) o = none := by
    intro o
    refine waitsFor_suspend_request o (or_iff_not_imp_left.2 fun ho => ?_)
    exact waitsFor_of_none (hother o ho)
  have hlt : input < s.stream.fresh := h.waits_lt output _ hframe
  refine ⟨hinv, h.client, ?_, ?_, ?_, ?_, ?_, ?_, ?_⟩
  · change (s.clientFd.holds input).toList ++ s.clientFd.lost = []
    rw [hnone, h.lost]
    rfl
  · intro i
    change Function.update s.isConnected input true i = ((s.clientFd.acquire input).holds i).isSome
    by_cases hi : i = input
    · rw [hi, Function.update_self, Holdings.holds_acquire]
      rfl
    · rw [Function.update_of_ne hi, Holdings.holds_acquire_of_ne hi, h.connected]
  · intro i hi hnot
    have hi' : i ≠ input := by
      rintro rfl
      exact hnot output (waitsFor_eq_some.2 ⟨_, hself, rfl, rfl⟩)
    refine (Holdings.holds_acquire_of_ne hi').trans (h.closed i hi fun o ho => ?_)
    obtain ⟨frame, hsome, hwait, -⟩ := waitsFor_eq_some.1 ho
    by_cases heq : o = output
    · rw [heq, hframe] at hsome
      obtain rfl := Option.some.inj hsome
      cases hwait
    · rw [hother o heq] at hsome
      cases hsome
  · intro o i hi
    rw [show _ = _ from hconnect o] at hi
    cases hi
  · intro o frame ho
    by_cases heq : o = output
    · rw [heq, hself] at ho
      obtain rfl := Option.some.inj ho
      exact hlt
    · rw [hne o heq] at ho
      cases ho
  · intro o frame ho
    by_cases heq : o = output
    · rw [heq, hself] at ho
      obtain rfl := Option.some.inj ho
      exact h.moved output ⟨input, next, last, .connect, moved⟩ hframe
    · rw [hne o heq] at ho
      cases ho
  · intro i hi
    have hi' : i ≠ input := by
      rintro rfl
      exact absurd hlt (Nat.not_lt.2 hi)
    exact (Holdings.holds_acquire_of_ne hi').trans (h.unused i hi)

/-- **A wait that ends**; an origin that has been connected answers well. -/
theorem Tidy.resume (h : s.Tidy) (closed : ℤ)
    (hret : ∀ i, waitsFor .request s.stream output = some i → ret = errorSuccess) :
    ∃ s', s.step (.stream (.resume output ret out) closed) = .ok s' ∧ s'.Tidy := by
  cases hframe : s.stream.suspended output with
  | none => exact ⟨s, step_resume_of_none hframe, h⟩
  | some frame =>
    have hsome : s.stream.suspended output ≠ none := by
      rw [hframe]
      exact Option.some_ne_none frame
    have hother : ∀ o, o ≠ output → s.stream.suspended o = none := by
      intro o ho
      by_contra hne
      exact ho (h.inv.single o output hne hsome)
    obtain ⟨input, next, last, wait, moved⟩ := frame
    have hstep : ∀ {stream r}, s.stream.resume output ⟨input, next, last, wait, moved⟩ ret out
        = .ok (stream, r) → s.stream.step (.resume output ret out) = .ok (stream, r) := by
      intro stream r hresume
      rw [PlayStream.step, hframe]
      exact hresume
    -- no other input is about to be answered
    have hclosed : ∀ i, (s.stream.inputs i).status = .init → (wait = .request → i ≠ input) →
        s.clientFd.holds i = none := by
      intro i hi hne
      refine h.closed i hi fun o ho => ?_
      obtain ⟨frame, hsome, hwait, hinput⟩ := waitsFor_eq_some.1 ho
      by_cases heq : o = output
      · rw [heq, hframe] at hsome
        obtain rfl := Option.some.inj hsome
        exact hne hwait hinput.symm
      · rw [hother o heq] at hsome
        cases hsome
    cases wait with
    | connect =>
      have hwaits : waitsFor .connect s.stream output = some input :=
        waitsFor_eq_some.2 ⟨_, hframe, rfl, rfl⟩
      have hnone := h.connecting output input hwaits
      by_cases hret : ret = errorSuccess
      · subst hret
        have hresume : s.stream.resume output ⟨input, next, last, .connect, moved⟩ errorSuccess out
            = .ok (s.stream.suspend output ⟨input, next, last, .request, moved⟩, none) := by
          rw [PlayStream.resume, if_neg (not_not.2 rfl), if_neg (not_not.2 (h.client input))]
        exact ⟨_, step_resume_connected hframe (h.client input),
          h.answers hframe hnone hother (h.inv.resume hframe hresume)⟩
      · have hresume : s.stream.resume output ⟨input, next, last, .connect, moved⟩ ret out
            = .ok (s.stream.finishPlay out output ret, some ret) := if_pos hret
        have hfinish : PlayStream.Requests output s.stream (s.stream.finishPlay out output ret) :=
          PlayStream.requests_finishPlay (.of_eq rfl rfl rfl rfl) rfl
        have htidy := tidy_after (h.inv.resume hframe hresume) h.client h.lost h.connected
          (fun i hi => hclosed i hi fun h => by cases h) h.unused h.inv.lt_fresh hother hfinish
        rw [after_of_none (waitsFor_of_none (by rw [PlayStream.suspended_finishPlay, if_pos rfl]))]
          at htidy
        exact ⟨_, step_resume_of_ne hframe hret, htidy⟩
    | request =>
      have hwaits : waitsFor .request s.stream output = some input :=
        waitsFor_eq_some.2 ⟨_, hframe, rfl, rfl⟩
      have hbefore : s.before closed (.resume output ret out) = .ok s := by
        have hnot : waitsFor .connect s.stream output = none := by
          rw [waitsFor, hframe]
          rfl
        rw [before, hnot]
      have hclient : ∀ i, ((s.stream.probed input).inputs i).client = true := fun i =>
        (PlayStream.keeps_probed.client i).trans (h.client i)
      obtain ⟨stream, r, hcontinue, hrequests⟩ :=
        PlayStream.exists_continueInit out output next last hclient
      have hresume : s.stream.resume output ⟨input, next, last, .request, moved⟩ ret out
          = .ok (stream, r) := by
        have hmoved : moved = s.stream.moved := h.moved output _ hframe
        rw [PlayStream.resume, if_neg (not_not.2 (hret input hwaits)),
          if_neg (not_not.2 (h.client input))]
        exact (if_neg fun hne => hne.1 hmoved).trans hcontinue
      refine ⟨_, step_stream hbefore (hstep hresume), tidy_after (h.inv.resume hframe hresume)
        hclient h.lost h.connected ?_ h.unused h.inv.lt_fresh hother hrequests⟩
      intro i hi
      obtain ⟨hne, hinit⟩ := (PlayStream.keeps_setStatus s.stream.inputs i).2 hi
      exact hclosed i hinit fun _ => hne

/-- From `s` to `t` the connections of these inputs have been closed. -/
structure Closes (inputs : List Ref) (s t : Sockets) : Prop where
  stream : t.stream = s.stream
  closed : ∀ i ∈ inputs, t.clientFd.holds i = none
  others : ∀ i ∉ inputs, t.clientFd.holds i = s.clientFd.holds i
  lost : t.clientFd.lost = s.clientFd.lost
  connected : ∀ i, t.isConnected i = (t.clientFd.holds i).isSome

/-- What has no descriptor has none afterwards. -/
theorem Closes.holds_eq_none {inputs : List Ref} (h : Closes inputs s t) {i : Ref}
    (hi : s.clientFd.holds i = none) : t.clientFd.holds i = none := by
  by_cases hmem : i ∈ inputs
  · exact h.closed i hmem
  · exact (h.others i hmem).trans hi

/-- **`close`**, where exactly the inputs that are connected have a descriptor. -/
theorem exists_close (h : ∀ i, s.isConnected i = (s.clientFd.holds i).isSome) (input : Ref) :
    ∃ t, s.close 0 input = .ok t ∧ Closes [input] s t := by
  rw [close]
  have hinput := h input
  split
  · rename_i hnot
    rw [hnot, eq_comm, Option.isSome_eq_false_iff, Option.isNone_iff_eq_none] at hinput
    exact ⟨s, rfl, rfl, List.forall_mem_singleton.2 hinput, fun _ _ => rfl, rfl, h⟩
  · rename_i hnot
    rw [Bool.eq_true_of_not_eq_false hnot, eq_comm, Option.isSome_iff_exists] at hinput
    obtain ⟨r, hr⟩ := hinput
    rw [hr]
    refine ⟨_, if_neg (not_not.2 rfl), rfl, List.forall_mem_singleton.2 Holdings.holds_release,
      fun i hi => Holdings.holds_release_of_ne (List.ne_of_not_mem_cons hi), rfl, fun i => ?_⟩
    change Function.update s.isConnected input false i = ((s.clientFd.release input).holds i).isSome
    by_cases hi : i = input
    · rw [hi, Function.update_self, Holdings.holds_release]
      rfl
    · rw [Function.update_of_ne hi, Holdings.holds_release_of_ne hi, h]

/-- Several connections are closed. -/
theorem exists_closeAll (h : ∀ i, s.isConnected i = (s.clientFd.holds i).isSome)
    (inputs : List Ref) : ∃ t, s.closeAll inputs = .ok t ∧ Closes inputs s t := by
  induction inputs generalizing s with
  | nil => exact ⟨s, rfl, rfl, fun _ h => absurd h List.not_mem_nil, fun _ _ => rfl, rfl, h⟩
  | cons input inputs ih =>
    obtain ⟨u, hclose, hu⟩ := exists_close h input
    obtain ⟨t, hfold, ht⟩ := ih hu.connected
    refine ⟨t, ?_, ht.stream.trans hu.stream, fun i hi => ?_, fun i hi => ?_,
      ht.lost.trans hu.lost, ht.connected⟩
    · rw [closeAll, List.foldlM_cons, hclose]
      exact hfold
    · rcases List.mem_cons.1 hi with rfl | hi
      · exact ht.holds_eq_none (hu.closed i (List.mem_singleton_self i))
      · exact ht.closed i hi
    · rw [List.mem_cons, not_or] at hi
      rw [ht.others i hi.2, hu.others i (mt List.mem_singleton.1 hi.1)]

/-- **The coroutine of an input ends** and closes its connection. -/
theorem Tidy.inputEnds (h : s.Tidy) (halive : (s.stream.inputs input).co.Alive) :
    ∃ s', s.step (.stream (.inputEnds input now) 0) = .ok s' ∧ s'.Tidy := by
  have hrun : s.stream.step (.inputEnds input now) = .ok (s.stream.inputEnds input now, none) := by
    rw [PlayStream.step, if_pos halive]
  obtain ⟨t, hclose, ht⟩ := exists_close h.connected input
  have hbefore : s.before 0 (.inputEnds input now) = .ok t := by
    rw [before, if_pos halive, hclose]
  have hinputs : ∀ i, i ≠ input → (s.stream.inputEnds input now).inputs i = s.stream.inputs i :=
    fun i hi => Function.update_of_ne hi ..
  refine ⟨_, step_stream hbefore hrun, h.inv.inputEnds halive, fun i => ?_, ht.lost.trans h.lost,
    ht.connected, fun i hi hnot => ?_, fun o i hi => ?_, h.waits_lt, h.moved, fun i hi => ?_⟩
  · change ((s.stream.inputEnds input now).inputs i).client = true
    by_cases hi : i = input
    · have hself : (s.stream.inputEnds input now).inputs input
          = (s.stream.inputs input).onThreadStop := Function.update_self ..
      rw [hi, hself]
      exact h.client input
    · rw [hinputs i hi]
      exact h.client i
  · by_cases heq : i = input
    · exact ht.closed i (List.mem_singleton.2 heq)
    · refine ht.holds_eq_none (h.closed i ?_ hnot)
      rw [← hinputs i heq]
      exact hi
  · exact ht.holds_eq_none (h.connecting o i hi)
  · exact ht.holds_eq_none (h.unused i hi)

/-! ## Runs -/

/-- **The condition on a step**: a request arrives only while nobody waits in a probe, an origin
that has been connected answers well, `st_netfd_close` works, and no coroutine of an input connects
by itself. -/
def Event.Orderly (s : Sockets) : Event → Prop
  | .stream e closed => closed = 0 ∧ e.Alone s.stream ∧ ∀ output ret out,
      e = .resume output ret out → waitsFor .request s.stream output ≠ none → ret = errorSuccess
  | .connects _ => False
  | .connected _ => False

/-- All steps of a run are such. -/
def Orderly : List Event → Sockets → Prop
  | [], _ => True
  | e :: events, s => e.Orderly s ∧ ∀ s', s.step e = .ok s' → Orderly events s'

/-- One step. -/
theorem Tidy.step (h : s.Tidy) {e : Event} (he : e.Orderly s) :
    ∃ s', s.step e = .ok s' ∧ s'.Tidy := by
  cases e with
  | connects input => exact absurd he id
  | connected input => exact absurd he id
  | stream e closed =>
    obtain ⟨rfl, halone, hret⟩ := he
    have hkeeps : ∀ stream, s.stream.step e = .ok (stream, none) →
        Sockets.output s.stream e = none → s.before 0 e = .ok s →
        PlayStream.Keeps s.stream stream → stream.suspended = s.stream.suspended →
        ∃ s', s.step (.stream e 0) = .ok s' ∧ s'.Tidy := by
      intro stream hrun houtput hbefore hkeeps hsuspended
      refine ⟨_, step_stream hbefore hrun, ?_⟩
      rw [houtput]
      exact h.of_keeps (h.inv.step halone hrun) hkeeps hsuspended
    cases e with
    | arrive out => exact h.arrive halone 0
    | resume output ret out =>
      refine h.resume 0 fun i hi => hret output ret out rfl ?_
      rw [hi]
      exact Option.some_ne_none i
    | channelEnds now =>
      refine hkeeps _ rfl rfl rfl ?_ ?_
      · split
        · exact PlayStream.keeps_onStop.trans (.of_eq rfl rfl rfl rfl)
        · exact .of_eq rfl rfl rfl rfl
      · split <;> rfl
    | inputProbes input =>
      refine hkeeps _ rfl rfl rfl ?_ ?_
      · split
        · exact ⟨fun i => (PlayStream.keeps_setStatus s.stream.inputs i).1, fun i hi =>
            ((PlayStream.keeps_setStatus s.stream.inputs i).2 hi).2, rfl, rfl, rfl⟩
        · exact .of_eq rfl rfl rfl rfl
      · split <;> rfl
    | inputEnds input now =>
      by_cases halive : (s.stream.inputs input).co.Alive
      · exact h.inputEnds halive
      · refine hkeeps s.stream ?_ rfl ?_ (.of_eq rfl rfl rfl rfl) rfl
        · rw [PlayStream.step, if_neg halive]
        · rw [before, if_neg halive]
    | outputEnds output now =>
      refine hkeeps _ rfl rfl rfl ?_ ?_
      · split
        · exact .of_eq rfl Channel.inputQueue_delOutput rfl rfl
        · exact .of_eq rfl rfl rfl rfl
      · split <;> rfl

/-- A run. -/
theorem Tidy.run (h : s.Tidy) {events : List Event} (he : Orderly events s) :
    ∃ s', s.run events = .ok s' ∧ s'.Tidy := by
  induction events generalizing s with
  | nil => exact ⟨s, rfl, h⟩
  | cons e events ih =>
    obtain ⟨s₁, hstep, hs₁⟩ := h.step he.1
    obtain ⟨s₂, hrun, hs₂⟩ := ih hs₁ (he.2 s₁ hstep)
    refine ⟨s₂, ?_, hs₂⟩
    rw [Sockets.run, hstep]
    exact hrun

/-- **What the end of the channel gives back**: the inputs of its queue that nobody else owns lose
their descriptors with it, and the others when their coroutines end, in whatever order; those whose
coroutine could not be created keep theirs. -/
def GivesBack (s : Sockets) : Prop :=
  ∃ t, s.destroy = .ok t ∧ t.clientFd.lost = []
    ∧ (∀ i ∈ s.stream.channel.inputQueue, t.clientFd.holds i
      = if (s.stream.inputs i).Pooled then s.clientFd.holds i else none)
    ∧ ∀ ends : List Ref, (∀ i, i ∈ ends ↔ (s.stream.inputs i).co.Alive) →
      ∃ u, t.closeAll ends = .ok u ∧ u.clientFd.lost = []
        ∧ ∀ i ∈ s.stream.channel.inputQueue, u.clientFd.holds i
          = if (s.stream.inputs i).Pooled ∧ ¬ (s.stream.inputs i).co.Alive
            then s.clientFd.holds i else none

/-- The end of a channel in which exactly the inputs that are connected have a descriptor. -/
theorem givesBack (h : ∀ i, s.isConnected i = (s.clientFd.holds i).isSome)
    (hlost : s.clientFd.lost = []) : s.GivesBack := by
  obtain ⟨t, hdestroy, ht⟩ := exists_closeAll h
    (s.stream.channel.inputQueue.filter fun i => ¬ (s.stream.inputs i).Pooled)
  have hholds : ∀ i ∈ s.stream.channel.inputQueue, t.clientFd.holds i
      = if (s.stream.inputs i).Pooled then s.clientFd.holds i else none := by
    intro i hi
    split
    · rename_i hpooled
      exact ht.others i fun hmem => of_decide_eq_true (List.mem_filter.1 hmem).2 hpooled
    · rename_i hpooled
      exact ht.closed i (List.mem_filter.2 ⟨hi, decide_eq_true hpooled⟩)
  refine ⟨t, hdestroy, ht.lost.trans hlost, hholds, fun ends hends => ?_⟩
  obtain ⟨u, hclose, hu⟩ := exists_closeAll ht.connected ends
  refine ⟨u, hclose, hu.lost.trans (ht.lost.trans hlost), fun i hi => ?_⟩
  by_cases halive : (s.stream.inputs i).co.Alive
  · rw [if_neg fun hstuck => hstuck.2 halive]
    exact hu.closed i ((hends i).2 halive)
  · rw [hu.others i fun hmem => halive ((hends i).1 hmem), hholds i hi]
    exact if_congr (and_iff_left halive).symm rfl rfl

/-- **No descriptor is lost**, and nothing is closed that has none, in every run in which requests
come one by one and no origin refuses a request after it has been connected. -/
theorem no_descriptor_lost (events : List Event) (h : Orderly events new) :
    ∃ s, run new events = .ok s ∧ s.clientFd.lost = []
      ∧ (∀ i, s.isConnected i = (s.clientFd.holds i).isSome) ∧ s.GivesBack := by
  obtain ⟨s, hrun, hs⟩ := tidy_new.run h
  exact ⟨s, hrun, hs.lost, hs.connected, givesBack hs.connected hs.lost⟩

/-- A viewer whose origin is connected and answers. -/
def viewer : List Event :=
  [.stream (.arrive PlayStream.allWell) 0, .stream (.resume 0 0 PlayStream.allWell) 0,
    .stream (.resume 0 0 PlayStream.allWell) 0]

theorem orderly_viewer : Orderly viewer new := by
  have hresume : ∀ s, (Event.stream (.resume 0 0 PlayStream.allWell) 0).Orderly s := by
    refine fun s => ⟨rfl, trivial, fun output ret out he _ => ?_⟩
    cases he
    rfl
  have harrive : (Event.stream (.arrive PlayStream.allWell) 0).Orderly new :=
    ⟨rfl, fun _ => rfl, fun output ret out he => by cases he⟩
  exact ⟨harrive, fun _ _ => ⟨hresume _, fun _ _ => ⟨hresume _, fun _ _ => trivial⟩⟩⟩

theorem no_descriptor_lost_viewer :
    ∃ s, run new viewer = .ok s ∧ s.clientFd.lost = []
      ∧ (∀ i, s.isConnected i = (s.clientFd.holds i).isSome) ∧ s.GivesBack :=
  no_descriptor_lost viewer orderly_viewer

end Sockets

end SmartStreaming
