import SmartStreaming.Cache.LonePlay

/-!
# Cache/FailedRun — what a failed `Channel::run` leaves in `input_queue`

`on_init` starts the inputs when everything else has worked.  When it fails before, `on_stop` marks
the inputs as stopped and leaves them where they are; only the coroutine of an input takes it out of
the queue, and these have none.  The context that a probe has given the channel stays as well.
`failed_run_leaves_none_iff` says when a failed run leaves no input without a coroutine, and when it
leaves nothing that a later play could notice.
-/

namespace SmartStreaming

open Machinery

namespace PlayStream

variable {s s' t : PlayStream} {out : Outcome} {output input : Ref} {ret now : ℤ} {i : Ref}

/-- Every input of `input_queue` has had its coroutine created. -/
def AllStarted (s : PlayStream) : Prop :=
  ∀ i ∈ s.channel.inputQueue, (s.inputs i).co.started = true

/-- **A later play starts over**: its `on_init` goes over its own input only, and the context and
the coroutine of the channel are as they were before. -/
structure StartsOver (s t : PlayStream) : Prop where
  queue : t.addOutput.createOriginStream.channel.inputQueue = [t.fresh + 1]
  inputContext : t.channel.inputContext = s.channel.inputContext
  co : t.co = s.co

/-- The same inputs, each with the coroutine it had. -/
structure SameCoroutines (s s' : PlayStream) : Prop where
  queue : s'.channel.inputQueue = s.channel.inputQueue
  started : ∀ i, (s'.inputs i).co = (s.inputs i).co

theorem SameCoroutines.allStarted_iff (h : SameCoroutines s s') : s'.AllStarted ↔ s.AllStarted := by
  rw [AllStarted, AllStarted, h.queue]
  refine forall_congr' fun i => ?_
  rw [h.started]

theorem SameCoroutines.trans {s'' : PlayStream} (h : SameCoroutines s s')
    (h' : SameCoroutines s' s'') : SameCoroutines s s'' :=
  ⟨h'.queue.trans h.queue, fun i => (h'.started i).trans (h.started i)⟩

theorem sameCoroutines_probed : SameCoroutines s (s.probed input) :=
  ⟨rfl, co_setStatus s.inputs .start⟩

theorem sameCoroutines_onStop : SameCoroutines s (s.onStop now) := by
  refine ⟨rfl, fun i => ?_⟩
  have hstop : ∀ (ref : Ref) (a : InputHandler), a.setStop.co = a.co := fun _ _ => rfl
  exact forEach_keeps hstop s.inputs s.channel.inputQueue i

theorem sameCoroutines_finishPlay : SameCoroutines s (s.finishPlay out output ret) := by
  unfold finishPlay
  split
  · exact sameCoroutines_onStop.trans ⟨rfl, fun _ => rfl⟩
  · exact ⟨rfl, fun _ => rfl⟩

/-- The loop over the inputs starts none of them. -/
theorem sameCoroutines_probeInputs {rest : List Ref} {p : Probing} :
    ∀ {s s' : PlayStream} {k : ℕ}, probeInputs out rest k s = .ok (s', p) →
      SameCoroutines s s' := by
  induction rest with
  | nil =>
    intro s s' k hrun
    cases hrun
    exact ⟨rfl, fun _ => rfl⟩
  | cons input rest ih =>
    intro s s' k hrun
    rw [probeInputs] at hrun
    split at hrun
    · cases hrun
      exact ⟨rfl, fun _ => rfl⟩
    · split at hrun
      · cases hrun
        exact ⟨rfl, fun _ => rfl⟩
      · split at hrun
        · exact sameCoroutines_probed.trans (ih hrun)
        · cases hrun

/-- The loop over the outputs succeeds when each of them does. -/
theorem initOutputs_eq_iff :
    s.initOutputs out = errorSuccess ↔
      ∀ o ∈ s.channel.outputQueue, out.initOutput o = errorSuccess := by
  rw [initOutputs]
  constructor
  · intro h o ho
    by_contra hne
    rcases hfind : (s.channel.outputQueue.map out.initOutput).find? (· ≠ errorSuccess) with _ | r
    · have hnone := List.find?_eq_none.mp hfind (out.initOutput o) (List.mem_map_of_mem ho)
      exact hnone (by simpa using hne)
    · rw [hfind, Option.getD_some] at h
      have hsome := List.find?_some hfind
      rw [h] at hsome
      exact absurd hsome (by simp)
  · intro h
    have hnone : (s.channel.outputQueue.map out.initOutput).find? (· ≠ errorSuccess) = none := by
      rw [List.find?_eq_none]
      intro r hr
      obtain ⟨o, ho, rfl⟩ := List.mem_map.mp hr
      simp [h o ho]
    rw [hnone, Option.getD_none]

/-- What the world answers when nothing before the start of the channel's own coroutine fails: the
probe that was waited for, the inputs behind it and the outputs all succeed. -/
structure Works (s : PlayStream) (frame : Frame) (ret : ℤ) (out : Outcome) : Prop where
  wait : frame.wait = .request
  probe : ret = errorSuccess
  client : (s.inputs frame.input).client = true
  inputs : ∀ i ∈ (s.channel.inputQueue.take frame.last).drop frame.next,
    out.initInput i = errorSuccess
  outputs : ∀ o ∈ s.channel.outputQueue, out.initOutput o = errorSuccess

/-- An origin input that has not been probed keeps the loop from its end. -/
theorem probeInputs_ne_done {rest : List Ref} :
    ∀ {s s' : PlayStream} {k : ℕ}, i ∈ rest → (s.inputs i).inputType = .origin →
      (s.inputs i).status = .init → probeInputs out rest k s ≠ .ok (s', .done) := by
  induction rest with
  | nil =>
    intro s s' k hi
    exact absurd hi List.not_mem_nil
  | cons input rest ih =>
    intro s s' k hi htype hstatus hrun
    rw [probeInputs] at hrun
    split at hrun
    · cases hrun
    · split at hrun
      · cases hrun
      · rename_i hnot
        split at hrun
        · have hne : i ≠ input := by
            rintro rfl
            exact hnot ⟨htype, hstatus⟩
          have hsame : (s.probed input).inputs i = s.inputs i := Function.update_of_ne hne ..
          refine ih ((List.mem_cons.mp hi).resolve_left hne) ?_ ?_ hrun
          · rw [hsame]
            exact htype
          · rw [hsame]
            exact hstatus
        · cases hrun

/-- **An arrival** that fails at once leaves its own input. -/
theorem not_allStarted_of_arrive (hrun : s.step (.arrive out) = .ok (s', some ret)) :
    s.fresh + 1 ∈ s'.channel.inputQueue ∧ ¬ s'.AllStarted := by
  rw [step, handlePlayStream] at hrun
  split at hrun
  · cases hrun
  · have hqueue : (s.addOutput.createOriginStream.pushed out.moves).channel.inputQueue
        = s.channel.inputQueue ++ [s.fresh + 1] := rfl
    have hnew : (s.addOutput.createOriginStream.pushed out.moves).inputs (s.fresh + 1)
        = { inputType := .origin, client := true } := Function.update_self ..
    have hmem : s.fresh + 1
        ∈ (s.addOutput.createOriginStream.pushed out.moves).channel.inputQueue := by
      rw [hqueue]
      exact List.mem_append_right _ (List.mem_singleton_self _)
    generalize s.addOutput.createOriginStream.pushed out.moves = t at hrun hqueue hnew hmem
    have hall : (t.channel.inputQueue.take (s.channel.inputQueue.length + 1)).drop 0
        = t.channel.inputQueue := by
      rw [List.drop_zero, List.take_of_length_le]
      rw [hqueue, List.length_append, List.length_singleton]
    rw [continueInit, hall] at hrun
    rcases hp : probeInputs out t.channel.inputQueue 0 t with e | ⟨u, p⟩
    · rw [hp] at hrun
      cases hrun
    · rw [hp, Except.map] at hrun
      cases p with
      | done => exact absurd hp (probeInputs_ne_done hmem (by rw [hnew]) (by rw [hnew]))
      | waits input next => cases hrun
      | failed r =>
        cases hrun
        have hsame : SameCoroutines t (u.finishPlay out s.fresh ret) :=
          (sameCoroutines_probeInputs hp).trans sameCoroutines_finishPlay
        refine ⟨by rwa [hsame.queue], fun hstarted => ?_⟩
        have := hsame.allStarted_iff.mp hstarted (s.fresh + 1) hmem
        rw [hnew] at this
        cases this

/-- What a play depends on, beside its own input and the outputs. -/
structure SameChannel (s s' : PlayStream) : Prop where
  queue : s'.channel.inputQueue = s.channel.inputQueue
  inputContext : s'.channel.inputContext = s.channel.inputContext
  co : s'.co = s.co

theorem sameChannel_finishPlay : SameChannel s (s.finishPlay out output ret) := by
  unfold finishPlay
  split <;> exact ⟨rfl, rfl, rfl⟩

/-- **A later play starts over** where no input is left and the channel is as before. -/
theorem SameChannel.startsOver_iff (h : SameChannel s' t) :
    StartsOver s t ↔ s'.channel.inputQueue = [] ∧ s'.channel.inputContext = s.channel.inputContext
      ∧ s'.co = s.co := by
  have hqueue : t.addOutput.createOriginStream.channel.inputQueue
      = t.channel.inputQueue ++ [t.fresh + 1] := rfl
  rw [← h.queue, ← h.inputContext, ← h.co]
  constructor
  · intro hover
    refine ⟨?_, hover.inputContext, hover.co⟩
    have hlen := congrArg List.length hover.queue
    rw [hqueue, List.length_append, List.length_singleton] at hlen
    exact List.length_eq_zero_iff.1 (Nat.succ_injective hlen)
  · rintro ⟨hnil, hcontext, hco⟩
    exact ⟨by rw [hqueue, hnil, List.nil_append], hcontext, hco⟩

/-- **When a failed run leaves nothing behind**: it has waited for a probe while other requests have
started all the inputs, which have ended since; and then the probe fails, or it works, the channel
has had a context before, and an output fails. -/
def Event.LeavesNothing (s : PlayStream) : Event → Prop
  | .resume output ret out =>
    s.channel.inputQueue = [] ∧ ∃ frame, s.suspended output = some frame ∧
      (ret ≠ errorSuccess ∨ (s.inputs frame.input).client = false ∨
        s.channel.inputContext ≠ none ∧
          ∃ o ∈ s.channel.outputQueue, out.initOutput o ≠ errorSuccess)
  | _ => False

/-- A coroutine that could not be created counts as running all the same. -/
theorem start_ne_of_startCode {co : Coroutine} {created : Bool}
    (h : co.startCode created ≠ errorSuccess) : co.start created ≠ co := by
  have hnot : ¬ (co.running = true ∨ created = true) := fun hor => h (if_pos hor)
  rw [not_or] at hnot
  rw [Coroutine.start, if_neg hnot.1]
  intro heq
  exact hnot.1 (congrArg Coroutine.running heq.symm)

/-- The rest of `on_init` leaves the queue. -/
theorem queue_continueInit {next last : ℕ} {r : Option ℤ}
    (hrun : continueInit out output next last (s.probed input) = .ok (s', r)) :
    s'.channel.inputQueue = s.channel.inputQueue := by
  rw [continueInit] at hrun
  rcases hp : probeInputs out (((s.probed input).channel.inputQueue.take last).drop next) next
    (s.probed input) with e | ⟨u, p⟩
  · rw [hp] at hrun
    cases hrun
  · rw [hp, Except.map] at hrun
    have hqueue := (sameCoroutines_probeInputs hp).queue
    cases p with
    | waits i k =>
      cases hrun
      exact hqueue
    | failed code =>
      cases hrun
      exact sameCoroutines_finishPlay.queue.trans hqueue
    | done =>
      cases hrun
      refine sameCoroutines_finishPlay.queue.trans (Eq.trans ?_ hqueue)
      unfold finishRun
      split <;> rfl

/-- The probe has worked, and no input is left in the queue. -/
theorem startsOver_continueInit_iff {next last : ℕ} {code : ℤ} (hnil : s.channel.inputQueue = [])
    (hrun : continueInit out output next last (s.probed input) = .ok (s', some code))
    (hcode : code ≠ errorSuccess) (hends : SameChannel s' t) :
    StartsOver s t ↔ s.channel.inputContext ≠ none ∧
      ∃ o ∈ s.channel.outputQueue, out.initOutput o ≠ errorSuccess := by
  have hempty : ((s.probed input).channel.inputQueue.take last).drop next = [] := by
    rw [show (s.probed input).channel.inputQueue = [] from hnil, List.take_nil, List.drop_nil]
  have hcontext : (s.probed input).channel.inputContext = s.channel.inputContext
      ↔ s.channel.inputContext ≠ none := by
    change s.channel.inputContext.or (some input) = s.channel.inputContext ↔ _
    cases s.channel.inputContext with
    | none => exact iff_of_false nofun fun h => h rfl
    | some i => exact iff_of_true rfl nofun
  rw [continueInit, hempty, probeInputs, Except.map, afterProbing] at hrun
  by_cases houts : (s.probed input).initOutputs out = errorSuccess
  · rw [finishRun, if_neg (not_not.2 houts)] at hrun
    have hstart : ((s.probed input).runInputs out).co.startCode out.createChannel
        ≠ errorSuccess := by
      intro hzero
      refine hcode ?_
      cases hrun
      exact hzero
    have hall := initOutputs_eq_iff.1 houts
    refine iff_of_false (fun hover => ?_) ?_
    · cases hrun
      have hco := (hends.startsOver_iff.1 hover).2.2
      rw [sameChannel_finishPlay.co] at hco
      exact start_ne_of_startCode hstart hco
    · rintro ⟨-, o, ho, hne⟩
      exact hne (hall o ho)
  · rw [finishRun, if_pos houts] at hrun
    cases hrun
    have hsame : SameChannel (s.probed input)
        ((s.probed input).finishPlay out output ((s.probed input).initOutputs out)) :=
      sameChannel_finishPlay
    have hsome : ∃ o ∈ s.channel.outputQueue, out.initOutput o ≠ errorSuccess := by
      by_contra hno
      refine houts (initOutputs_eq_iff.2 fun o ho => ?_)
      by_contra hne
      exact hno ⟨o, ho, hne⟩
    rw [hends.startsOver_iff, hsame.queue, hsame.inputContext, hsame.co, hcontext]
    exact ⟨fun h => ⟨h.2.1, hsome⟩, fun h => ⟨hnil, h.1, rfl⟩⟩

theorem leavesNothing_resume_iff {frame : Frame} (ho : s.suspended output = some frame) :
    (Event.resume output ret out).LeavesNothing s ↔ s.channel.inputQueue = [] ∧
      (ret ≠ errorSuccess ∨ (s.inputs frame.input).client = false ∨
        s.channel.inputContext ≠ none ∧
          ∃ o ∈ s.channel.outputQueue, out.initOutput o ≠ errorSuccess) := by
  refine and_congr_right fun _ => ?_
  constructor
  · rintro ⟨frame', ho', h⟩
    rw [ho] at ho'
    cases ho'
    exact h
  · intro h
    exact ⟨frame, ho, h⟩

/-- A probe that fails leaves the channel as it is. -/
theorem startsOver_finishPlay_iff {code : ℤ}
    (hends : SameChannel (s.finishPlay out output code) t) :
    StartsOver s t ↔ s.channel.inputQueue = [] := by
  have hsame : SameChannel s (s.finishPlay out output code) := sameChannel_finishPlay
  rw [hends.startsOver_iff, hsame.queue, hsame.inputContext, hsame.co]
  exact ⟨And.left, fun hnil => ⟨hnil, rfl, rfl⟩⟩

/-- **What a failed run leaves for a later play.** -/
theorem startsOver_iff {e : Event} (hrun : s.step e = .ok (s', some ret))
    (hret : ret ≠ errorSuccess) (hends : SameChannel s' t) :
    StartsOver s t ↔ e.LeavesNothing s := by
  cases e with
  | arrive out =>
    refine iff_of_false (fun hover => ?_) id
    have hmem := (not_allStarted_of_arrive hrun).1
    rw [(hends.startsOver_iff.1 hover).1] at hmem
    exact List.not_mem_nil hmem
  | resume output ret' out =>
    rcases ho : s.suspended output with _ | frame
    · rw [step, ho] at hrun
      cases hrun
    · rw [leavesNothing_resume_iff ho]
      rw [step, ho] at hrun
      dsimp only at hrun
      rw [resume] at hrun
      split at hrun
      · rename_i hfail
        cases hrun
        rw [startsOver_finishPlay_iff hends, and_iff_left (.inl hfail)]
      · rename_i hzero
        rw [or_iff_right hzero]
        split at hrun
        · rename_i hclient
          cases hrun
          rw [startsOver_finishPlay_iff hends,
            and_iff_left (.inl (Bool.eq_false_of_not_eq_true hclient))]
        · rename_i hclient
          rw [or_iff_right fun h => hclient (by rw [h]; exact Bool.false_ne_true)]
          split at hrun
          · cases hrun
          · split at hrun
            · cases hrun
            · by_cases hnil : s.channel.inputQueue = []
              · rw [and_iff_right hnil]
                exact startsOver_continueInit_iff hnil hrun hret hends
              · refine iff_of_false (fun hover => hnil ?_) fun h => hnil h.1
                rw [← queue_continueInit hrun]
                exact (hends.startsOver_iff.1 hover).1
  | channelEnds now => cases hrun
  | inputProbes input => cases hrun
  | inputEnds input now => cases hrun
  | outputEnds output now => cases hrun

/-! ## A later play -/

/-- The origin does not answer: the first viewer's request fails. -/
def refused : PlayStream := firstViewer.finishPlay allWell 0 1

end PlayStream

end SmartStreaming
