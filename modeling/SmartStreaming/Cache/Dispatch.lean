import SmartStreaming.Cache.Channel
import SmartStreaming.Machinery.Heap

/-!
# Cache/Dispatch — from a channel to the queues of its outputs

`dispatch` puts a packet into the queue of every output of the channel; each output takes packets
out of its own queue.  An output takes them in a coroutine that gives way only while its queue is
empty, so that a `dequeue` that waits is finished by a step of its own.
-/

namespace SmartStreaming

open Machinery

def errorQueueIsEmpty : ℤ := 13101

/-- `class PacketQueue`. -/
structure PacketQueue (π : Type) where
  queue : List π := []

namespace PacketQueue

variable {π : Type}

def enqueue (packet : π) (q : PacketQueue π) : PacketQueue π := ⟨q.queue ++ [packet]⟩

theorem queue_iterate_enqueue (packet : π) (n : ℕ) (q : PacketQueue π) :
    ((enqueue packet)^[n] q).queue = q.queue ++ List.replicate n packet := by
  induction n with
  | zero => exact (List.append_nil _).symm
  | succ n ih =>
    rw [Function.iterate_succ_apply', enqueue, ih, List.replicate_succ', List.append_assoc]

/-- `dequeue` after its wait: the return code and the packet, and the queue that is left. -/
def dequeue (q : PacketQueue π) : (ℤ × Option π) × PacketQueue π :=
  match q.queue with
  | [] => ((errorQueueIsEmpty, none), q)
  | packet :: queue => ((errorSuccess, some packet), ⟨queue⟩)

end PacketQueue

/-- A channel, the packet queues of its outputs, the outputs that wait for a packet, and the
packets that each output has taken. -/
structure Fanout (π : Type) where
  channel : Channel
  queues : Ref → PacketQueue π
  waiting : Ref → Bool
  taken : Ref → List π

namespace Fanout

variable {π : Type}

/-- A new channel; every output is still to come. -/
def new : Fanout π := ⟨{}, fun _ => {}, fun _ => false, fun _ => []⟩

/-- What the channel and the outputs do; a packet may be a null pointer. -/
inductive Op (π : Type)
  | dispatch (packet : Option π)
  | addOutput (output : Ref)
  | delOutput (output : Ref) (now : ℤ)
  | delAllOutput
  | dequeue (output : Ref)
  | wake (output : Ref)

/-- `Channel::dispatch`. -/
def dispatch (s : Fanout π) : Option π → Fanout π
  | none => s
  | some packet =>
    { s with
      queues := forEach (fun _ => PacketQueue.enqueue packet) s.queues s.channel.outputQueue }

/-- An output's `dequeue` after its wait. -/
def finishDequeue (output : Ref) (s : Fanout π) : Fanout π :=
  { s with
    queues := Function.update s.queues output (s.queues output).dequeue.2
    waiting := Function.update s.waiting output false
    taken := Function.update s.taken output
      (s.taken output ++ (s.queues output).dequeue.1.2.toList) }

/-- An output calls `dequeue`. -/
def startDequeue (output : Ref) (s : Fanout π) : Fanout π :=
  if (s.queues output).queue = [] then
    { s with waiting := Function.update s.waiting output true }
  else
    s.finishDequeue output

/-- One step; the inputs of the channel are all `inputType`. -/
def step (inputType : Ref → EInputType) (s : Fanout π) : Op π → Fanout π
  | .dispatch packet => s.dispatch packet
  | .addOutput output => { s with channel := s.channel.addOutput output }
  | .delOutput output now => { s with channel := s.channel.delOutput inputType now output }
  | .delAllOutput => { s with channel := { s.channel with outputQueue := [] } }
  | .dequeue output => s.startDequeue output
  | .wake output => if s.waiting output then s.finishDequeue output else s

/-- The state after a sequence of steps. -/
def run (inputType : Ref → EInputType) (s : Fanout π) (ops : List (Op π)) : Fanout π :=
  ops.foldl (step inputType) s

/-! ## What an output should get -/

/-- Whether an output is attached, and the packets dispatched while it was. -/
structure Listener (π : Type) where
  attached : Bool := false
  heard : List π := []

/-- One step, as far as `output` is concerned. -/
def Listener.hear (output : Ref) (l : Listener π) : Op π → Listener π
  | .dispatch (some packet) => if l.attached then { l with heard := l.heard ++ [packet] } else l
  | .addOutput o => if o = output then { l with attached := true } else l
  | .delOutput o _ => if o = output then { l with attached := false } else l
  | .delAllOutput => { l with attached := false }
  | _ => l

/-- The packets dispatched while `output` was attached. -/
def heardBy (output : Ref) (ops : List (Op π)) : List π :=
  (ops.foldl (Listener.hear output) {}).heard

/-- The output that a step adds. -/
def Op.added : Op π → Option Ref
  | .addOutput output => some output
  | _ => none

/-- **The channel serves the listeners**: it holds each attached output once, all of them added
before, and each output has taken or still holds what it has heard. -/
structure Serves (s : Fanout π) (listeners : Ref → Listener π) (added : List Ref) : Prop where
  nodup : s.channel.outputQueue.Nodup
  mem_iff : ∀ o, o ∈ s.channel.outputQueue ↔ (listeners o).attached = true
  added : ∀ o ∈ s.channel.outputQueue, o ∈ added
  heard : ∀ o, s.taken o ++ (s.queues o).queue = (listeners o).heard

section Serves

variable {s : Fanout π} {listeners : Ref → Listener π} {added : List Ref}
  {inputType : Ref → EInputType} {output : Ref} {packet : π} {now : ℤ}

theorem serves_new : Serves (new : Fanout π) (fun _ => {}) [] := by
  refine ⟨List.nodup_nil, ?_, ?_, fun _ => rfl⟩
  · intro o
    exact iff_of_false List.not_mem_nil Bool.false_ne_true
  · intro o ho
    exact absurd ho List.not_mem_nil

/-- **A packet reaches every output once.** -/
theorem Serves.dispatch (h : Serves s listeners added) :
    Serves (s.dispatch (some packet)) (fun o => (listeners o).hear o (.dispatch (some packet)))
      added := by
  refine ⟨h.nodup, ?_, h.added, ?_⟩
  · intro o
    refine (h.mem_iff o).trans ?_
    rw [Listener.hear]
    split <;> rfl
  · intro o
    have hq : (s.dispatch (some packet)).queues
        = forEach (fun _ => PacketQueue.enqueue packet) s.queues s.channel.outputQueue := rfl
    have htaken : (s.dispatch (some packet)).taken = s.taken := rfl
    rw [Listener.hear, hq, htaken]
    by_cases ho : o ∈ s.channel.outputQueue
    · rw [forEach_of_nodup h.nodup ho, if_pos ((h.mem_iff o).mp ho), PacketQueue.enqueue,
        ← List.append_assoc, h.heard]
    · rw [forEach_of_not_mem ho, if_neg fun hatt => ho ((h.mem_iff o).mpr hatt), h.heard]

theorem Serves.addOutput (h : Serves s listeners added) (hnew : output ∉ added) :
    Serves (s.step inputType (.addOutput output))
      (fun o => (listeners o).hear o (.addOutput output)) (added ++ [output]) := by
  have hq : (s.step inputType (.addOutput output)).channel.outputQueue
      = s.channel.outputQueue ++ [output] := rfl
  refine ⟨?_, ?_, ?_, ?_⟩
  · rw [hq, List.nodup_append]
    refine ⟨h.nodup, List.nodup_singleton _, ?_⟩
    intro a ha b hb heq
    rw [heq, List.mem_singleton.mp hb] at ha
    exact hnew (h.added output ha)
  · intro o
    rw [hq, List.mem_append, List.mem_singleton, h.mem_iff, Listener.hear]
    by_cases ho : output = o
    · rw [if_pos ho]
      exact iff_of_true (Or.inr ho.symm) rfl
    · rw [if_neg ho]
      exact or_iff_left fun heq => ho heq.symm
  · intro o ho
    rw [hq, List.mem_append] at ho
    rcases ho with ho | ho
    · exact List.mem_append_left _ (h.added o ho)
    · exact List.mem_append_right _ ho
  · intro o
    refine (h.heard o).trans ?_
    rw [Listener.hear]
    split <;> rfl

/-- **An output that leaves** keeps what it holds. -/
theorem Serves.delOutput (h : Serves s listeners added) :
    Serves (s.step inputType (.delOutput output now))
      (fun o => (listeners o).hear o (.delOutput output now)) added := by
  have hq : (s.step inputType (.delOutput output now)).channel.outputQueue
      = s.channel.outputQueue.erase output := Channel.outputQueue_delOutput
  refine ⟨?_, ?_, ?_, ?_⟩
  · rw [hq]
    exact h.nodup.erase _
  · intro o
    rw [hq, h.nodup.mem_erase_iff, h.mem_iff, Listener.hear]
    by_cases ho : output = o
    · rw [if_pos ho]
      exact iff_of_false (fun hne => hne.1 ho.symm) Bool.false_ne_true
    · rw [if_neg ho]
      exact and_iff_right fun heq => ho heq.symm
  · intro o ho
    rw [hq] at ho
    exact h.added o (List.mem_of_mem_erase ho)
  · intro o
    refine (h.heard o).trans ?_
    rw [Listener.hear]
    split <;> rfl

/-- What an output takes out of its queue goes to the end of what it has taken. -/
theorem Serves.finishDequeue (h : Serves s listeners added) :
    Serves (s.finishDequeue output) listeners added := by
  refine ⟨h.nodup, h.mem_iff, h.added, ?_⟩
  intro o
  have htaken : (s.finishDequeue output).taken = Function.update s.taken output
      (s.taken output ++ (s.queues output).dequeue.1.2.toList) := rfl
  have hq : (s.finishDequeue output).queues
      = Function.update s.queues output (s.queues output).dequeue.2 := rfl
  rw [htaken, hq]
  by_cases ho : o = output
  · rw [ho, Function.update_self, Function.update_self, ← h.heard output, PacketQueue.dequeue]
    rcases hqueue : (s.queues output).queue with _ | ⟨packet, queue⟩
    · simp [hqueue]
    · simp
  · rw [Function.update_of_ne ho, Function.update_of_ne ho, h.heard]

/-- **One step** serves the listeners that have heard it. -/
theorem Serves.step (h : Serves s listeners added) (op : Op π)
    (hop : ∀ o, op.added = some o → o ∉ added) :
    Serves (s.step inputType op) (fun o => (listeners o).hear o op) (added ++ op.added.toList) := by
  cases op with
  | dispatch packet =>
    change Serves (s.dispatch packet) _ (added ++ [])
    rw [List.append_nil]
    cases packet with
    | none => exact h
    | some packet => exact h.dispatch
  | addOutput output => exact h.addOutput (hop output rfl)
  | delOutput output now =>
    change Serves _ _ (added ++ [])
    rw [List.append_nil]
    exact h.delOutput
  | delAllOutput =>
    refine ⟨List.nodup_nil, ?_, ?_, h.heard⟩
    · intro o
      exact iff_of_false List.not_mem_nil Bool.false_ne_true
    · intro o ho
      cases ho
  | dequeue output =>
    change Serves (s.startDequeue output) listeners (added ++ [])
    rw [List.append_nil, startDequeue]
    split
    · exact ⟨h.nodup, h.mem_iff, h.added, h.heard⟩
    · exact h.finishDequeue
  | wake output =>
    change Serves (if s.waiting output then s.finishDequeue output else s) listeners (added ++ [])
    rw [List.append_nil]
    split
    · exact h.finishDequeue
    · exact h

/-- A whole run, each output being added at most once. -/
theorem Serves.run : ∀ {s : Fanout π} {listeners : Ref → Listener π} {added : List Ref}
    (ops : List (Op π)), Serves s listeners added →
      (added ++ ops.filterMap Op.added).Nodup →
      Serves (s.run inputType ops) (fun o => ops.foldl (Listener.hear o) (listeners o))
        (added ++ ops.filterMap Op.added)
  | _, _, added, [], h, _ => by
    rw [List.filterMap_nil, List.append_nil]
    exact h
  | s, listeners, added, op :: ops, h, hnodup => by
    have hcons : (op :: ops).filterMap Op.added
        = op.added.toList ++ ops.filterMap Op.added := by
      cases hop : op.added <;> simp [hop]
    rw [hcons, ← List.append_assoc] at hnodup
    have hnew : ∀ o, op.added = some o → o ∉ added := by
      intro o ho hmem
      rw [ho, List.append_assoc, List.nodup_append] at hnodup
      exact hnodup.2.2 o hmem o (by simp) rfl
    rw [hcons, ← List.append_assoc]
    exact (h.step op hnew).run ops hnodup

/-- **Every output gets what is dispatched while it is attached**: for every sequence of steps in
which no output is added twice, what an output has taken, followed by what is still in its queue, is
what has been dispatched while it was attached. -/
theorem dispatched_to_attached (inputType : Ref → EInputType) (ops : List (Op π))
    (h : (ops.filterMap Op.added).Nodup) (output : Ref) :
    ((new : Fanout π).run inputType ops).taken output
        ++ (((new : Fanout π).run inputType ops).queues output).queue
      = heardBy output ops :=
  (serves_new.run ops h).heard output

/-- Two viewers, one of whom leaves while the other waits. -/
theorem dispatched_to_attached_two :
    ((new : Fanout ℕ).run (fun _ => .origin) [.addOutput 0, .dispatch (some 7), .addOutput 1,
      .dispatch (some 8), .delOutput 0 1, .dequeue 1, .dequeue 1, .dispatch (some 9),
      .wake 1]).taken 1 ++ [] = [8, 9] := by
  exact dispatched_to_attached (fun _ => .origin) [.addOutput 0, .dispatch (some 7), .addOutput 1,
    .dispatch (some 8), .delOutput 0 1, .dequeue 1, .dequeue 1, .dispatch (some 9), .wake 1]
    (by decide) 1

end Serves

end Fanout

end SmartStreaming
