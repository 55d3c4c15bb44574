import SmartStreaming.Cache.Channel
import SmartStreaming.Machinery.Heap

/-!
# Cache/PlayStream — `handle_play_stream` on one channel

Requests for one channel key run as coroutines on one thread.  A request gives way to the others
while `InputHandler::probe` connects to the origin and while it waits for the origin's answer;
everything between two such points is one step.  Whatever the world decides in a step (return codes
of the format and of the thread library, the clock, the capacity of a vector) is an `Outcome`.
-/

namespace SmartStreaming

open Machinery

/-- Where a request waits inside `origin_start`. -/
inductive Wait
  | connect
  | request
  deriving DecidableEq

/-- A request that waits in `Channel::on_init`: the probed input, the position of the loop over
`input_queue` behind it, the end that the loop was begun with, and how often the queue had been
moved by then. -/
structure Frame where
  input : Ref
  next : ℕ
  last : ℕ
  wait : Wait
  moved : ℕ
  deriving DecidableEq

/-- What the calls out of the channel answer in one step, and whether a `push_back` moves
`input_queue` into a larger block, as it does when its own is full. -/
structure Outcome where
  initInput : Ref → ℤ
  initOutput : Ref → ℤ
  createInput : Ref → Bool
  createOutput : Bool
  createChannel : Bool
  now : ℤ
  moves : Bool

/-- The channel of a key, its handlers, and the requests that wait, each known by its output.
`moved` counts the moves of `input_queue`, after each of which no older iterator is valid. -/
structure PlayStream where
  channel : Channel
  co : Coroutine
  inputs : Ref → InputHandler
  outputs : Ref → OutputHandler
  suspended : Ref → Option Frame
  fresh : Ref
  moved : ℕ

namespace PlayStream

/-- A new channel. -/
def new : PlayStream where
  channel := {}
  co := {}
  inputs := fun _ => { inputType := .origin, client := true }
  outputs := fun _ => {}
  suspended := fun _ => none
  fresh := 0
  moved := 0

/-! ## `Channel::on_init` -/

/-- How far the loop over the inputs has come. -/
inductive Probing
  | done
  | failed (ret : ℤ)
  | waits (input : Ref) (next : ℕ)
  deriving DecidableEq

/-- The end of a successful `probe()`, and the context of the channel. -/
def probed (input : Ref) (s : PlayStream) : PlayStream :=
  { s with
    inputs := Function.update s.inputs input ((s.inputs input).setStatus .start)
    channel := { s.channel with inputContext := s.channel.inputContext.or (some input) } }

/-- The loop over the inputs, from the position `i` on. -/
def probeInputs (out : Outcome) : List Ref → ℕ → PlayStream → Except Fault (PlayStream × Probing)
  | [], _, s => .ok (s, .done)
  | input :: rest, i, s =>
    if out.initInput input ≠ errorSuccess then
      .ok (s, .failed (out.initInput input))
    else if (s.inputs input).inputType = .origin ∧ (s.inputs input).status = .init then
      .ok (s, .waits input (i + 1))
    else if (s.inputs input).client then
      probeInputs out rest (i + 1) (s.probed input)
    else
      .error .nullPointer

/-- The loop over the outputs: the first return code that is an error. -/
def initOutputs (out : Outcome) (s : PlayStream) : ℤ :=
  ((s.channel.outputQueue.map out.initOutput).find? (· ≠ errorSuccess)).getD errorSuccess

/-- The last loop of `on_init`. -/
def runInputs (out : Outcome) (s : PlayStream) : PlayStream :=
  { s with
    inputs := forEach (fun i => InputHandler.run (out.createInput i)) s.inputs
      s.channel.inputQueue }

/-! ## `Channel::run` and `handle_play_stream` -/

/-- `Channel::run` after a successful `on_init`. -/
def startChannel (out : Outcome) (s : PlayStream) : PlayStream × ℤ :=
  ({ s with
      channel := s.channel.setStatus .start
      co := s.co.start out.createChannel },
    s.co.startCode out.createChannel)

/-- `Channel::run` after the probes. -/
def finishRun (out : Outcome) (s : PlayStream) : PlayStream × ℤ :=
  if s.initOutputs out ≠ errorSuccess then (s, s.initOutputs out)
  else (s.runInputs out).startChannel out

/-- `Channel::on_stop`. -/
def onStop (now : ℤ) (s : PlayStream) : PlayStream :=
  { s with
    channel := { s.channel with status := .init, channelExitTime := now }
    inputs := forEach (fun _ => InputHandler.setStop) s.inputs s.channel.inputQueue
    outputs := forEach (fun _ => OutputHandler.setStop) s.outputs s.channel.outputQueue }

/-- `output->run()`, the end of a request. -/
def runOutput (out : Outcome) (output : Ref) (s : PlayStream) : PlayStream :=
  { s with
    outputs := Function.update s.outputs output ((s.outputs output).run out.createOutput)
    suspended := Function.update s.suspended output none }

/-- `handle_play_stream` after `Channel::run` has returned `ret`. -/
def finishPlay (out : Outcome) (output : Ref) (ret : ℤ) (s : PlayStream) : PlayStream :=
  (if ret ≠ errorSuccess then s.onStop out.now else s).runOutput out output

/-- The request waits. -/
def suspend (output : Ref) (frame : Frame) (s : PlayStream) : PlayStream :=
  { s with suspended := Function.update s.suspended output (some frame) }

/-- What a step does after the loop over the inputs: the state, and what `Channel::run` returns
if it does. -/
def afterProbing (out : Outcome) (output : Ref) (last : ℕ) :
    PlayStream × Probing → PlayStream × Option ℤ
  | (s, .waits input next) =>
    (s.suspend output ⟨input, next, last, .connect, s.moved⟩, none)
  | (s, .failed ret) => (s.finishPlay out output ret, some ret)
  | (s, .done) =>
    ((s.finishRun out).1.finishPlay out output (s.finishRun out).2, some (s.finishRun out).2)

/-- The loop over the inputs from position `next` on, and what follows it.  Behind the end of a
queue that has become shorter lie null pointers, which are skipped. -/
def continueInit (out : Outcome) (output : Ref) (next last : ℕ) (s : PlayStream) :
    Except Fault (PlayStream × Option ℤ) :=
  (probeInputs out ((s.channel.inputQueue.take last).drop next) next s).map
    (afterProbing out output last)

/-- The output that `handle_play_stream` adds to the channel. -/
def addOutput (s : PlayStream) : PlayStream :=
  { s with
    channel := s.channel.wakeUp.addOutput s.fresh
    outputs := Function.update s.outputs s.fresh {}
    fresh := s.fresh + 1 }

/-- `create_origin_stream`. -/
def createOriginStream (s : PlayStream) : PlayStream :=
  { s with
    channel := s.channel.addInput s.fresh
    inputs := Function.update s.inputs s.fresh { inputType := .origin, client := true }
    fresh := s.fresh + 1 }

/-- The `push_back` of `add_input` may have moved the queue. -/
def pushed (moves : Bool) (s : PlayStream) : PlayStream := { s with moved := s.moved + moves.toNat }

/-- **`handle_play_stream`** up to its first wait or its end. -/
def handlePlayStream (out : Outcome) (s : PlayStream) : Except Fault (PlayStream × Option ℤ) :=
  if s.channel.status = .start then
    .ok (s.addOutput.runOutput out s.fresh, none)
  else
    continueInit out s.fresh 0 (s.channel.inputQueue.length + 1)
      (s.addOutput.createOriginStream.pushed out.moves)

/-- **`origin_start` goes on**, now that its call has returned `ret`.  If the queue has been moved
meanwhile, the loop ends where it was to end anyway, or goes on in a block that is gone. -/
def resume (output : Ref) (frame : Frame) (ret : ℤ) (out : Outcome) (s : PlayStream) :
    Except Fault (PlayStream × Option ℤ) :=
  if ret ≠ errorSuccess then
    .ok (s.finishPlay out output ret, some ret)
  else if ¬ (s.inputs frame.input).client then
    .ok (s.finishPlay out output errorIngestNoClient, some errorIngestNoClient)
  else
    match frame.wait with
    | .connect =>
      .ok (s.suspend output { frame with wait := .request }, none)
    | .request =>
      if frame.moved ≠ s.moved ∧ frame.next < frame.last then .error .deadBlock
      else continueInit out output frame.next frame.last (s.probed frame.input)

/-! ## The steps -/

/-- What happens next: a request arrives, a wait inside `origin_start` ends, or a coroutine of the
channel, of an input or of an output makes its last step. -/
inductive Event
  | arrive (out : Outcome)
  | resume (output : Ref) (ret : ℤ) (out : Outcome)
  | channelEnds (now : ℤ)
  | inputProbes (input : Ref)
  | inputEnds (input : Ref) (now : ℤ)
  | outputEnds (output : Ref) (now : ℤ)

/-- `on_stop` at the end of the channel's coroutine, and `on_thread_stop`. -/
def channelEnds (now : ℤ) (s : PlayStream) : PlayStream :=
  { s.onStop now with co := { s.co with running := false, ended := true } }

/-- The coroutine of an input has probed its origin by itself. -/
def inputProbes (input : Ref) (s : PlayStream) : PlayStream :=
  { s with inputs := Function.update s.inputs input ((s.inputs input).setStatus .start) }

/-- `InputHandler::on_thread_stop`. -/
def inputEnds (input : Ref) (now : ℤ) (s : PlayStream) : PlayStream :=
  { s with
    channel := s.channel.delInput now input
    inputs := Function.update s.inputs input (s.inputs input).onThreadStop }

/-- `OutputHandler::on_thread_stop`. -/
def outputEnds (output : Ref) (now : ℤ) (s : PlayStream) : PlayStream :=
  { s with
    channel := s.channel.delOutput (fun i => (s.inputs i).inputType) now output
    outputs := Function.update s.outputs output (s.outputs output).onThreadStop }

/-- **One step**: the state it leaves, and what `Channel::run` returned in it, if it did. -/
def step (s : PlayStream) : Event → Except Fault (PlayStream × Option ℤ)
  | .arrive out => s.handlePlayStream out
  | .resume output ret out =>
    match s.suspended output with
    | none => .ok (s, none)
    | some frame => s.resume output frame ret out
  | .channelEnds now => .ok (if s.co.Alive then s.channelEnds now else s, none)
  | .inputProbes input => .ok (if (s.inputs input).co.Alive then s.inputProbes input else s, none)
  | .inputEnds input now =>
    .ok (if (s.inputs input).co.Alive then s.inputEnds input now else s, none)
  | .outputEnds output now =>
    .ok (if (s.outputs output).co.Alive then s.outputEnds output now else s, none)

end PlayStream

end SmartStreaming
