import SmartStreaming.Base.Defs

/-!
# Cache/Channel — `Channel` of `tmss_channel.cpp`, its inputs and its outputs

A channel holds references to the handlers that fill it and to those it feeds.  The handlers are
objects of their own, found in a heap (`Ref → InputHandler`); a coroutine is known by whether its
thread was created and has ended.
-/

namespace SmartStreaming

/-- What a `shared_ptr` points to. -/
abbrev Ref := ℕ

def errorIngestNoClient : ℤ := 13002

inductive EStatusChannel
  | init
  | start
  | kill
  deriving DecidableEq

inductive EInputType
  | publish
  | origin
  deriving DecidableEq

inductive EStatusSource
  | init
  | start
  deriving DecidableEq

/-! ## Coroutines -/

/-- `class ICoroutineHandler`: the flag `running`, and whether the thread of its `STCoroutine` was
created and has ended. -/
structure Coroutine where
  running : Bool := false
  started : Bool := false
  ended : Bool := false
  deriving DecidableEq

namespace Coroutine

/-- The thread has steps to make. -/
def Alive (co : Coroutine) : Prop := co.started = true ∧ co.ended = false

instance (co : Coroutine) : Decidable co.Alive := inferInstanceAs (Decidable (_ ∧ _))

/-- `start()`, where `created` tells whether `st_thread_create` works. -/
def start (created : Bool) (co : Coroutine) : Coroutine :=
  if co.running then co else ⟨true, created, false⟩

/-- What `start()` returns. -/
def startCode (created : Bool) (co : Coroutine) : ℤ :=
  if co.running ∨ created then errorSuccess else errorCothreadStart

end Coroutine

/-! ## Handlers -/

/-- `class InputHandler`; `client` is not null in an input that pulls from an origin. -/
structure InputHandler where
  inputType : EInputType
  client : Bool
  status : EStatusSource := .init
  isStop : Bool := false
  co : Coroutine := {}
  deriving DecidableEq

namespace InputHandler

def setStop (input : InputHandler) : InputHandler := { input with isStop := true }

/-- `run()`. -/
def run (created : Bool) (input : InputHandler) : InputHandler :=
  { input with co := input.co.start created }

def setStatus (status : EStatusSource) (input : InputHandler) : InputHandler :=
  { input with status }

/-- `on_thread_stop()`, for the handler itself; its flag `running` stays. -/
def onThreadStop (input : InputHandler) : InputHandler :=
  { input with status := .init, co := { input.co with ended := true } }

end InputHandler

/-- `class OutputHandler`. -/
structure OutputHandler where
  isStop : Bool := false
  co : Coroutine := {}
  deriving DecidableEq

namespace OutputHandler

def setStop (output : OutputHandler) : OutputHandler := { output with isStop := true }

/-- `run()`. -/
def run (created : Bool) (output : OutputHandler) : OutputHandler :=
  { output with co := output.co.start created }

/-- `on_thread_stop()`, for the handler itself. -/
def onThreadStop (output : OutputHandler) : OutputHandler :=
  { output with co := { output.co with ended := true } }

end OutputHandler

/-! ## The channel -/

/-- `class Channel`; `input_context` is that of the input it was taken from. -/
structure Channel where
  inputQueue : List Ref := []
  outputQueue : List Ref := []
  segmentCache : Option Ref := none
  inputContext : Option Ref := none
  idleAt : ℤ := -1
  channelExitTime : ℤ := -1
  status : EStatusChannel := .init
  deriving DecidableEq

namespace Channel

def wakeUp (c : Channel) : Channel := { c with idleAt := -1 }

def addInput (newInput : Ref) (c : Channel) : Channel :=
  { c.wakeUp with channelExitTime := -1, inputQueue := c.inputQueue ++ [newInput] }

/-- `del_input(input)` at the time `now`. -/
def delInput (now : ℤ) (input : Ref) (c : Channel) : Channel :=
  { c with
    inputQueue := c.inputQueue.erase input
    idleAt := if c.inputQueue.erase input = [] ∧ c.idleAt = -1 then now else c.idleAt }

def addOutput (newOutput : Ref) (c : Channel) : Channel :=
  { c.wakeUp with channelExitTime := -1, outputQueue := c.outputQueue ++ [newOutput] }

/-- `check_and_sleep()` at the time `now`. -/
def checkAndSleep (inputType : Ref → EInputType) (now : ℤ) (c : Channel) : Channel :=
  if c.idleAt = -1 ∧ c.outputQueue = [] ∧ c.segmentCache = none then
    if ∀ input ∈ c.inputQueue, inputType input ≠ .publish then { c with idleAt := now } else c
  else c

/-- `del_output(output)` at the time `now`. -/
def delOutput (inputType : Ref → EInputType) (now : ℤ) (output : Ref) (c : Channel) : Channel :=
  checkAndSleep inputType now { c with outputQueue := c.outputQueue.erase output }

def delAllOutput (c : Channel) : Channel := { c with outputQueue := [] }

def addSegemtCache (cache : Option Ref) (c : Channel) : Channel :=
  { c.wakeUp with channelExitTime := -1, segmentCache := cache }

/-- `del_segment_cache()` at the time `now`. -/
def delSegmentCache (inputType : Ref → EInputType) (now : ℤ) (c : Channel) : Channel :=
  checkAndSleep inputType now { c with segmentCache := none }

/-- `get_idle_time()` at the time `now`. -/
def getIdleTime (now : ℤ) (c : Channel) : ℤ := if c.idleAt > 0 then now - c.idleAt else -1

def setStatus (status : EStatusChannel) (c : Channel) : Channel := { c with status }

variable {c : Channel} {now : ℤ} {ref : Ref} {inputType : Ref → EInputType}

@[simp] theorem inputQueue_addInput : (addInput ref c).inputQueue = c.inputQueue ++ [ref] := rfl
@[simp] theorem status_addInput : (addInput ref c).status = c.status := rfl
@[simp] theorem inputQueue_delInput : (delInput now ref c).inputQueue = c.inputQueue.erase ref :=
  rfl
@[simp] theorem status_delInput : (delInput now ref c).status = c.status := rfl
@[simp] theorem inputQueue_addOutput : (addOutput ref c).inputQueue = c.inputQueue := rfl
@[simp] theorem outputQueue_addOutput :
    (addOutput ref c).outputQueue = c.outputQueue ++ [ref] := rfl
@[simp] theorem status_addOutput : (addOutput ref c).status = c.status := rfl

/-- Falling asleep changes the idle time only. -/
theorem exists_checkAndSleep (inputType : Ref → EInputType) (now : ℤ) (c : Channel) :
    ∃ idleAt, checkAndSleep inputType now c = { c with idleAt := idleAt } := by
  unfold checkAndSleep
  split
  · split <;> exact ⟨_, rfl⟩
  · exact ⟨_, rfl⟩

@[simp] theorem inputQueue_delOutput :
    (delOutput inputType now ref c).inputQueue = c.inputQueue := by
  obtain ⟨_, h⟩ := exists_checkAndSleep inputType now
    { c with outputQueue := c.outputQueue.erase ref }
  rw [delOutput, h]

@[simp] theorem outputQueue_delOutput :
    (delOutput inputType now ref c).outputQueue = c.outputQueue.erase ref := by
  obtain ⟨_, h⟩ := exists_checkAndSleep inputType now
    { c with outputQueue := c.outputQueue.erase ref }
  rw [delOutput, h]

@[simp] theorem status_delOutput : (delOutput inputType now ref c).status = c.status := by
  obtain ⟨_, h⟩ := exists_checkAndSleep inputType now
    { c with outputQueue := c.outputQueue.erase ref }
  rw [delOutput, h]

end Channel

end SmartStreaming
