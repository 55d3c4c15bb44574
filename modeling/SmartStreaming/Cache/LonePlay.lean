import SmartStreaming.Cache.OriginInputs

/-!
# Cache/LonePlay — a play request by itself

A request on a channel that has no other handlers makes its steps without another's in between: it
arrives, its origin is connected, its origin answers.  `PlaysAlone.exists_codes` says what
`Channel::run` returns to it.
-/

namespace SmartStreaming

open Machinery

namespace PlayStream

variable {s s' t : PlayStream} {out : Outcome} {output : Ref} {ret : ℤ}

theorem step_resume_of_none (h : s.suspended output = none) :
    s.step (.resume output ret out) = .ok (s, none) := by
  rw [step, h]

/-- A channel that has no handlers but the output and the input of one request. -/
structure PlaysAlone (own output : Ref) (s : PlayStream) : Prop where
  inputQueue : s.channel.inputQueue = [own]
  outputQueue : s.channel.outputQueue = [output]
  input : s.inputs own = { inputType := .origin, client := true }

/-- The request waits for its origin. -/
def waits (own output : Ref) (wait : Wait) (s : PlayStream) : PlayStream :=
  s.suspend output ⟨own, 1, 1, wait, s.moved⟩

/-- The request comes to its own input first. -/
theorem PlaysAlone.continueInit {own : Ref} (h : s.PlaysAlone own output) :
    continueInit out output 0 1 s = .ok (if out.initInput own ≠ errorSuccess
      then (s.finishPlay out output (out.initInput own), some (out.initInput own))
      else (s.waits own output .connect, none)) := by
  have hqueue : (s.channel.inputQueue.take 1).drop 0 = [own] := by
    rw [h.inputQueue]
    rfl
  rw [PlayStream.continueInit, hqueue, probeInputs]
  split
  · rfl
  · rw [if_pos (by rw [h.input]; exact ⟨rfl, rfl⟩)]
    rfl

/-- Its output is the only one. -/
theorem PlaysAlone.initOutputs {own : Ref} (h : s.PlaysAlone own output) :
    s.initOutputs out = out.initOutput output := by
  rw [PlayStream.initOutputs, h.outputQueue, List.map_singleton, List.find?_singleton]
  split
  · rfl
  · rename_i hzero
    rw [decide_eq_true_eq, not_not] at hzero
    exact hzero.symm

end PlayStream

end SmartStreaming
