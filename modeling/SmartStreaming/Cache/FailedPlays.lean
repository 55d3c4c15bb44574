import SmartStreaming.Cache.Sockets

/-!
# Cache/FailedPlays — what failed plays leave open

A play that fails leaves its input in `input_queue`, so that the next one probes the first input of
them all again, whose connection nobody has closed.  `failed_plays_leak` counts, for any sequence of
such plays, the inputs and the descriptors that are left, and says when the end of the channel
closes a connection that has none.
-/

namespace SmartStreaming

open Machinery

/-- A play on which the first input of the queue fails: what its `init_input` returns, what its
`connect` returns, and what its request to the origin does. -/
structure FailedPlay where
  initInput : ℤ
  connect : ℤ
  request : ℤ
  createOutput : Bool
  now : ℤ
  moves : Bool
  fails : initInput ≠ errorSuccess ∨ connect ≠ errorSuccess ∨ request ≠ errorSuccess

namespace FailedPlay

/-- It comes to `connect`. -/
def connects (p : FailedPlay) : Bool := p.initInput = errorSuccess

/-- The origin is connected, and refuses the request. -/
def refused (p : FailedPlay) : Bool := p.connects && p.connect = errorSuccess

/-- Calls that the play does not come to would work. -/
def outcome (p : FailedPlay) : Outcome where
  initInput _ := p.initInput
  initOutput _ := errorSuccess
  createInput _ := true
  createOutput := p.createOutput
  createChannel := true
  now := p.now
  moves := p.moves

/-- The steps of the play whose output is `output`. -/
def events (output : Ref) (p : FailedPlay) : List Sockets.Event :=
  [.stream (.arrive p.outcome) 0, .stream (.resume output p.connect p.outcome) 0,
    .stream (.resume output p.request p.outcome) 0]

/-- The steps of plays that come one after the other; each makes an output and an input. -/
def run : Ref → List FailedPlay → List Sockets.Event
  | _, [] => []
  | fresh, p :: plays => p.events fresh ++ run (fresh + 2) plays

/-- The last of the plays that have come to `connect` has been refused. -/
def lastRefused (plays : List FailedPlay) : Bool :=
  (plays.filter connects).getLast?.any refused

theorem lastRefused_append (plays : List FailedPlay) (p : FailedPlay) :
    lastRefused (plays ++ [p]) = if p.connects then p.refused else lastRefused plays := by
  rw [lastRefused, List.filter_append]
  split
  · rename_i h
    rw [List.filter_cons_of_pos h, List.filter_nil, List.getLast?_append, List.getLast?_singleton]
    rfl
  · rename_i h
    rw [List.filter_cons_of_neg h, List.filter_nil, List.append_nil]
    rfl

end FailedPlay

/-! ## The channel -/

namespace PlayStream

variable {s : PlayStream} {out : Outcome} {output input : Ref} {ret : ℤ}

/-- An input that has been neither probed nor run. -/
def Untouched (input : InputHandler) : Prop :=
  (input.inputType, input.client, input.status, input.co) = (.origin, true, .init, {})

theorem Untouched.not_pooled {input : InputHandler} (h : Untouched input) : ¬ input.Pooled := by
  have hco : input.co = {} := congrArg (·.2.2.2) h
  rw [InputHandler.Pooled, hco]
  exact fun h => Bool.noConfusion h.1

/-- The channel is not running, nobody waits, and no input has been probed or run. -/
structure Unprobed (s : PlayStream) : Prop where
  status : s.channel.status ≠ .start
  quiet : s.Quiet
  inputs : ∀ i, Untouched (s.inputs i)

theorem unprobed_new : new.Unprobed where
  status h := by cases h
  quiet _ := rfl
  inputs _ := rfl

/-- The first input of the queue, to which `create_origin_stream` has added one. -/
def first (s : PlayStream) : Ref := s.channel.inputQueue.headD (s.fresh + 1)

theorem inputQueue_createOriginStream :
    s.addOutput.createOriginStream.channel.inputQueue = s.channel.inputQueue ++ [s.fresh + 1] := rfl

theorem exists_queue_eq :
    ∃ rest, s.addOutput.createOriginStream.channel.inputQueue = s.first :: rest := by
  rw [inputQueue_createOriginStream, first]
  cases s.channel.inputQueue with
  | nil => exact ⟨[], rfl⟩
  | cons i rest => exact ⟨rest ++ [s.fresh + 1], rfl⟩

theorem Unprobed.createOriginStream (h : s.Unprobed) :
    s.addOutput.createOriginStream.Unprobed := by
  refine ⟨h.status, h.quiet, fun i => ?_⟩
  by_cases hi : i = s.fresh + 1
  · have hself : s.addOutput.createOriginStream.inputs (s.fresh + 1)
        = { inputType := .origin, client := true } := Function.update_self ..
    rw [hi, hself]
    rfl
  · have hold : s.addOutput.createOriginStream.inputs i = s.inputs i := Function.update_of_ne hi ..
    rw [hold]
    exact h.inputs i

/-- **An arrival** comes to the first input, and no further. -/
theorem Unprobed.step_arrive (h : s.Unprobed) (out : Outcome) : s.step (.arrive out)
    = .ok (if out.initInput s.first ≠ errorSuccess
      then ((s.addOutput.createOriginStream.pushed out.moves).finishPlay out s.fresh
        (out.initInput s.first), some (out.initInput s.first))
      else ((s.addOutput.createOriginStream.pushed out.moves).suspend s.fresh
        ⟨s.first, 1, s.channel.inputQueue.length + 1, .connect, s.moved + out.moves.toNat⟩,
        none)) := by
  obtain ⟨rest, hqueue⟩ := exists_queue_eq (s := s)
  have hpushed : (s.addOutput.createOriginStream.pushed out.moves).channel.inputQueue
      = s.first :: rest := hqueue
  have hinputs : Untouched ((s.addOutput.createOriginStream.pushed out.moves).inputs s.first) :=
    h.createOriginStream.inputs s.first
  rw [step, handlePlayStream, if_neg h.status, continueInit, hpushed, List.drop_zero,
    List.take_succ_cons, probeInputs]
  split
  · rfl
  · rw [if_pos ⟨congrArg (·.1) hinputs, congrArg (·.2.2.1) hinputs⟩]
    rfl

/-- **The end of a play that fails.** -/
theorem unprobed_finishPlay (hinputs : ∀ i, Untouched (s.inputs i))
    (hothers : ∀ o, o ≠ output → s.suspended o = none) (hret : ret ≠ errorSuccess) :
    (s.finishPlay out output ret).Unprobed := by
  refine ⟨?_, fun o => ?_, fun i => ?_⟩
  · rw [finishPlay, if_pos hret]
    exact fun h => by cases h
  · rw [suspended_finishPlay]
    split
    · rfl
    · rename_i ho
      exact hothers o ho
  · rw [finishPlay, if_pos hret]
    have hkeeps := @forEach_keeps Ref InputHandler _ (fun _ => InputHandler.setStop) _
      (fun a : InputHandler => (a.inputType, a.client, a.status, a.co)) (fun _ _ => rfl) s.inputs
      s.channel.inputQueue i
    exact hkeeps.trans (hinputs i)

end PlayStream

/-! ## The connections -/

namespace Sockets

variable {s t : Sockets} {plays : List FailedPlay} {p : FailedPlay}

/-- What a failed play does to the connection of the first input. -/
def played (p : FailedPlay) (s : Sockets) : Sockets :=
  if p.refused then (s.connect s.stream.first).connected s.stream.first
  else if p.connects then s.connect s.stream.first else s

/-- From `s` to `t` a play has failed. -/
structure Fails (p : FailedPlay) (s t : Sockets) : Prop where
  unprobed : t.stream.Unprobed
  queue : t.stream.channel.inputQueue = s.stream.channel.inputQueue ++ [s.stream.fresh + 1]
  fresh : t.stream.fresh = s.stream.fresh + 2
  clientFd : t.clientFd = (s.played p).clientFd
  isConnected : t.isConnected = (s.played p).isConnected

theorem run_cons_of_ok {e : Event} (h : s.step e = .ok t) (events : List Event) :
    s.run (e :: events) = t.run events := by
  rw [run, h]
  rfl

theorem run_append {events : List Event} (h : s.run events = .ok t) (more : List Event) :
    s.run (events ++ more) = t.run more := by
  induction events generalizing s with
  | nil =>
    cases h
    rfl
  | cons e events ih =>
    rw [run] at h
    rcases hstep : s.step e with f | u
    · rw [hstep] at h
      cases h
    · rw [hstep] at h
      rw [List.cons_append, run_cons_of_ok hstep]
      exact ih h

/-- The request of a play waits for the `connect` of the first input. -/
def waiting (moves : Bool) (s : Sockets) : PlayStream :=
  (s.stream.addOutput.createOriginStream.pushed moves).suspend s.stream.fresh
    ⟨s.stream.first, 1, s.stream.channel.inputQueue.length + 1, .connect,
      s.stream.moved + moves.toNat⟩

theorem suspended_waiting {moves : Bool} : (s.waiting moves).suspended s.stream.fresh
    = some ⟨s.stream.first, 1, s.stream.channel.inputQueue.length + 1, .connect,
      s.stream.moved + moves.toNat⟩ :=
  Function.update_self ..

theorem step_arrive_of_fails (h : s.stream.Unprobed) (hinit : p.initInput ≠ errorSuccess) :
    s.step (.stream (.arrive p.outcome) 0) = .ok { s with
      stream := (s.stream.addOutput.createOriginStream.pushed p.moves).finishPlay p.outcome
        s.stream.fresh p.initInput } := by
  have hrun := h.step_arrive p.outcome
  rw [if_pos (show p.outcome.initInput s.stream.first ≠ errorSuccess from hinit)] at hrun
  rw [step_stream rfl hrun, Sockets.output]
  refine congrArg _ (after_of_none (waitsFor_of_none ?_))
  exact (PlayStream.suspended_finishPlay _).trans (if_pos rfl)

theorem step_arrive_of_connects (h : s.stream.Unprobed) (hinit : p.initInput = errorSuccess) :
    s.step (.stream (.arrive p.outcome) 0)
      = .ok { s.connect s.stream.first with stream := s.waiting p.moves } := by
  have hnot : ¬ p.outcome.initInput s.stream.first ≠ errorSuccess := not_not.2 hinit
  have hrun := h.step_arrive p.outcome
  rw [if_neg hnot] at hrun
  have hwaits : waitsFor .connect (s.waiting p.moves) s.stream.fresh = some s.stream.first :=
    waitsFor_eq_some.2 ⟨_, suspended_waiting, rfl, rfl⟩
  rw [step_stream rfl hrun, Sockets.output]
  exact congrArg _ (after_of_some (s := { s with stream := s.waiting p.moves }) hwaits)

/-- The end of a play that fails. -/
theorem Fails.of_finishPlay {stream : PlayStream} {ret : ℤ} (h : s.stream.Unprobed)
    (hret : ret ≠ errorSuccess)
    (hinputs : stream.inputs = s.stream.addOutput.createOriginStream.inputs)
    (hqueue : stream.channel.inputQueue = s.stream.channel.inputQueue ++ [s.stream.fresh + 1])
    (hfresh : stream.fresh = s.stream.fresh + 2)
    (hothers : ∀ o, o ≠ s.stream.fresh → stream.suspended o = none)
    (hclientFd : t.clientFd = (s.played p).clientFd)
    (hconnected : t.isConnected = (s.played p).isConnected) :
    Fails p s { t with stream := stream.finishPlay p.outcome s.stream.fresh ret } := by
  have hkeeps : PlayStream.Keeps stream (stream.finishPlay p.outcome s.stream.fresh ret) :=
    PlayStream.keeps_finishPlay
  exact ⟨PlayStream.unprobed_finishPlay (hinputs ▸ h.createOriginStream.inputs) hothers hret,
    hkeeps.queue.trans hqueue, hkeeps.fresh.trans hfresh, hclientFd, hconnected⟩

/-- **A play fails** in a channel in which no input has been probed. -/
theorem exists_fails (h : s.stream.Unprobed) (p : FailedPlay) :
    ∃ t, s.run (p.events s.stream.fresh) = .ok t ∧ Fails p s t := by
  have hothers : ∀ o, o ≠ s.stream.fresh → (s.waiting p.moves).suspended o = none := fun o ho =>
    (Function.update_of_ne ho ..).trans (h.quiet o)
  have hfinished : ∀ (stream : PlayStream) (ret : ℤ),
      (stream.finishPlay p.outcome s.stream.fresh ret).suspended s.stream.fresh = none :=
    fun stream ret => (PlayStream.suspended_finishPlay _).trans (if_pos rfl)
  rw [FailedPlay.events]
  by_cases hinit : p.initInput = errorSuccess
  · have hconnects : p.connects = true := decide_eq_true hinit
    rw [run_cons_of_ok (step_arrive_of_connects h hinit)]
    by_cases hconnect : p.connect = errorSuccess
    · have hrequest : p.request ≠ errorSuccess :=
        (p.fails.resolve_left (not_not.2 hinit)).resolve_left (not_not.2 hconnect)
      have hplayed : s.played p = (s.connect s.stream.first).connected s.stream.first := by
        rw [played, if_pos]
        rw [FailedPlay.refused, hconnects, Bool.true_and]
        exact decide_eq_true hconnect
      have hclient : ((s.waiting p.moves).inputs s.stream.first).client = true :=
        congrArg (·.2.1) (h.createOriginStream.inputs s.stream.first)
      rw [hconnect, run_cons_of_ok (step_resume_connected suspended_waiting hclient),
        run_cons_of_ok (step_resume_of_ne (Function.update_self ..) hrequest)]
      refine ⟨_, rfl, .of_finishPlay h hrequest rfl rfl rfl (fun o ho => ?_)
        (congrArg clientFd hplayed).symm (congrArg isConnected hplayed).symm⟩
      exact (Function.update_of_ne ho ..).trans (hothers o ho)
    · have hplayed : s.played p = s.connect s.stream.first := by
        rw [played, FailedPlay.refused, hconnects, Bool.true_and, decide_eq_false hconnect]
        rfl
      rw [run_cons_of_ok (step_resume_of_ne suspended_waiting hconnect),
        run_cons_of_ok (step_resume_of_none (hfinished _ _))]
      exact ⟨_, rfl, .of_finishPlay h hconnect rfl rfl rfl hothers
        (congrArg clientFd hplayed).symm (congrArg isConnected hplayed).symm⟩
  · have hplayed : s.played p = s := by
      rw [played, FailedPlay.refused, FailedPlay.connects, decide_eq_false hinit]
      rfl
    rw [run_cons_of_ok (step_arrive_of_fails h hinit),
      run_cons_of_ok (step_resume_of_none (hfinished _ _)),
      run_cons_of_ok (step_resume_of_none (hfinished _ _))]
    exact ⟨_, rfl, .of_finishPlay h hinit rfl rfl rfl (fun o _ => h.quiet o)
      (congrArg clientFd hplayed).symm (congrArg isConnected hplayed).symm⟩

/-! ## All plays -/

/-- **After the plays**: each has left an input, only the first input has been connected, and each
refused play has left a descriptor, the last of which the first input has if no `connect` has failed
since. -/
structure Played (plays : List FailedPlay) (s : Sockets) : Prop where
  unprobed : s.stream.Unprobed
  length_queue : s.stream.channel.inputQueue.length = plays.length
  length_opened : s.clientFd.opened.length = plays.countP FailedPlay.refused
  others : ∀ i, i ≠ s.stream.first → s.isConnected i = false
  isConnected : s.isConnected s.stream.first = plays.any FailedPlay.refused
  holds : (s.clientFd.holds s.stream.first).isSome = FailedPlay.lastRefused plays

theorem played_nil : Played [] new where
  unprobed := PlayStream.unprobed_new
  length_queue := rfl
  length_opened := rfl
  others _ _ := rfl
  isConnected := rfl
  holds := rfl

/-- One more play. -/
theorem Played.append (h : Played plays s) (ht : Fails p s t) : Played (plays ++ [p]) t := by
  have hfirst : t.stream.first = s.stream.first := by
    obtain ⟨rest, hqueue⟩ := PlayStream.exists_queue_eq (s := s.stream)
    rw [PlayStream.first, ht.queue, ← PlayStream.inputQueue_createOriginStream, hqueue]
    rfl
  refine ⟨ht.unprobed, ?_, ?_, fun i hi => ?_, ?_, ?_⟩
  · rw [ht.queue, List.length_append, List.length_append, h.length_queue]
    rfl
  · rw [ht.clientFd, List.countP_append, List.countP_singleton, ← h.length_opened, played]
    split
    · rfl
    · split <;> rfl
  · rw [hfirst] at hi
    rw [ht.isConnected, played]
    split
    · exact (Function.update_of_ne hi ..).trans (h.others i hi)
    · split <;> exact h.others i hi
  · rw [hfirst, ht.isConnected, List.any_append, List.any_cons, List.any_nil, Bool.or_false, played]
    split
    · rename_i hrefused
      rw [hrefused, Bool.or_true]
      exact Function.update_self ..
    · rename_i hrefused
      rw [Bool.eq_false_of_not_eq_true hrefused, Bool.or_false]
      split <;> exact h.isConnected
  · rw [hfirst, ht.clientFd, FailedPlay.lastRefused_append, played]
    by_cases hrefused : p.refused = true
    · have hconnects : p.connects = true := by
        rw [FailedPlay.refused, Bool.and_eq_true] at hrefused
        exact hrefused.1
      rw [if_pos hrefused, if_pos hconnects, hrefused]
      exact congrArg Option.isSome Holdings.holds_acquire
    · rw [if_neg hrefused]
      by_cases hconnects : p.connects = true
      · rw [if_pos hconnects, if_pos hconnects, Bool.eq_false_of_not_eq_true hrefused]
        exact congrArg Option.isSome (Holdings.holds_forget _ _)
      · rw [if_neg hconnects, if_neg hconnects]
        exact h.holds

/-- A run of plays. -/
theorem Played.run (h : Played plays s) (more : List FailedPlay) :
    ∃ t, s.run (FailedPlay.run s.stream.fresh more) = .ok t ∧ Played (plays ++ more) t := by
  induction more generalizing plays s with
  | nil => exact ⟨s, rfl, by rwa [List.append_nil]⟩
  | cons p more ih =>
    obtain ⟨u, hrun, hu⟩ := exists_fails h.unprobed p
    obtain ⟨t, hrest, ht⟩ := ih (h.append hu)
    refine ⟨t, ?_, by rwa [List.append_assoc] at ht⟩
    rw [FailedPlay.run, run_append hrun, ← hu.fresh]
    exact hrest

/-- Connections that are closed need no closing. -/
theorem closeAll_of_closed {inputs : List Ref} (h : ∀ i ∈ inputs, s.isConnected i = false) :
    s.closeAll inputs = .ok s := by
  induction inputs with
  | nil => rfl
  | cons input inputs ih =>
    rw [closeAll, List.foldlM_cons, close, if_pos (h input List.mem_cons_self)]
    exact ih fun i hi => h i (List.mem_cons_of_mem _ hi)

/-- **The end of the channel.** -/
theorem Played.destroy (h : Played plays s) :
    (plays.any FailedPlay.refused = true → FailedPlay.lastRefused plays = false →
      s.destroy = .error .nullPointer)
    ∧ (plays.any FailedPlay.refused = FailedPlay.lastRefused plays →
      ∃ t, s.destroy = .ok t ∧ t.clientFd.opened.length = plays.countP FailedPlay.refused - 1) := by
  have hnone : plays.any FailedPlay.refused = false → plays.countP FailedPlay.refused = 0 := by
    intro hany
    rw [List.countP_eq_zero]
    exact fun p hp hrefused => by rw [List.any_eq_false] at hany; exact hany p hp hrefused
  have hdestroy : s.destroy = s.closeAll s.stream.channel.inputQueue := by
    rw [Sockets.destroy, List.filter_eq_self.2]
    exact fun i _ => decide_eq_true (h.unprobed.inputs i).not_pooled
  rw [hdestroy]
  cases hqueue : s.stream.channel.inputQueue with
  | nil =>
    have hplays : plays = [] := by
      rw [← List.length_eq_zero_iff, ← h.length_queue, hqueue]
      rfl
    refine ⟨fun hany => ?_, fun _ => ⟨s, ?_, ?_⟩⟩
    · rw [hplays] at hany
      cases hany
    · rfl
    · rw [h.length_opened, hplays]
      rfl
  | cons i rest =>
    have hfirst : s.stream.first = i := by
      rw [PlayStream.first, hqueue]
      rfl
    have hconnected := h.isConnected
    have hholds := h.holds
    rw [hfirst] at hconnected hholds
    rw [closeAll, List.foldlM_cons, ← hholds]
    have hothers : ∀ j, j ≠ i → s.isConnected j = false := fun j hj =>
      h.others j (by rwa [hfirst])
    by_cases hany : plays.any FailedPlay.refused = true
    · rw [hany] at hconnected ⊢
      cases hheld : s.clientFd.holds i with
      | none =>
        have hclose : s.close 0 i = .error .nullPointer := by
          rw [close, hconnected, hheld]
          rfl
        refine ⟨fun _ _ => ?_, fun h => Bool.noConfusion h⟩
        rw [hclose]
        rfl
      | some r =>
        have hclose : s.close 0 i = .ok { s with
            clientFd := s.clientFd.release i
            isConnected := Function.update s.isConnected i false } := by
          rw [close, hconnected, hheld]
          rfl
        refine ⟨fun _ h => Bool.noConfusion h, fun _ => ⟨{ s with
          clientFd := s.clientFd.release i
          isConnected := Function.update s.isConnected i false }, ?_, ?_⟩⟩
        · rw [hclose]
          refine closeAll_of_closed fun j _ => ?_
          change Function.update s.isConnected i false j = false
          rw [Function.update_apply]
          split
          · rfl
          · rename_i hj
            exact hothers j hj
        · rw [← h.length_opened, ← Holdings.length_opened_release hheld]
          rfl
    · have hfalse := Bool.eq_false_of_not_eq_true hany
      rw [hfalse] at hconnected
      refine ⟨fun h => absurd h hany, fun _ => ⟨s, ?_, ?_⟩⟩
      · rw [close, if_pos hconnected]
        refine closeAll_of_closed fun j _ => ?_
        by_cases hj : j = i
        · rw [hj, hconnected]
        · exact hothers j hj
      · rw [h.length_opened, hnone hfalse]

/-- **What any number of failed plays leave**: an input for each of them, and an open descriptor for
each that was refused.  At the end of the channel one of these is closed, if no `connect` has failed
since the last refusal; if one has, the end closes a connection that has no descriptor. -/
theorem failed_plays_leak (plays : List FailedPlay) :
    ∃ s, run new (FailedPlay.run 0 plays) = .ok s
      ∧ s.stream.channel.inputQueue.length = plays.length
      ∧ s.clientFd.opened.length = plays.countP FailedPlay.refused
      ∧ (plays.any FailedPlay.refused = true → FailedPlay.lastRefused plays = false →
        s.destroy = .error .nullPointer)
      ∧ (plays.any FailedPlay.refused = FailedPlay.lastRefused plays →
        ∃ t, s.destroy = .ok t
          ∧ t.clientFd.opened.length = plays.countP FailedPlay.refused - 1) := by
  obtain ⟨s, hrun, hs⟩ := played_nil.run plays
  exact ⟨s, hrun, hs.length_queue, hs.length_opened, hs.destroy⟩

end Sockets

end SmartStreaming
