import SmartStreaming.Cache.PlayStream
import Mathlib.Logic.Relation

/-!
# Cache/OriginInputs — how many inputs pull the same stream

`Channel::run` publishes `EChannelStart` only when its probes are over, so that a request that
arrives while another one waits in a probe creates an origin input of its own.
`at_most_one_origin_input` says that this is the only way to a second one.
-/

namespace SmartStreaming

open Machinery

/-- An origin input that has not been stopped. -/
def InputHandler.unstopped (input : InputHandler) : Bool :=
  input.inputType = .origin && !input.isStop

namespace PlayStream

variable {s s' : PlayStream} {out : Outcome} {output input : Ref} {ret now : ℤ}

/-- The origin inputs in `input_queue` that have not been stopped. -/
def unstopped (s : PlayStream) : List Ref :=
  s.channel.inputQueue.filter fun i => (s.inputs i).unstopped

/-- Nobody waits in a probe. -/
def Quiet (s : PlayStream) : Prop := ∀ o, s.suspended o = none

/-! ## What leaves the inputs alone -/

/-- The same queue of inputs, each as stopped as before. -/
structure SameInputs (s s' : PlayStream) : Prop where
  queue : s'.channel.inputQueue = s.channel.inputQueue
  unstopped : ∀ i, (s'.inputs i).unstopped = (s.inputs i).unstopped

theorem SameInputs.unstopped_eq (h : SameInputs s s') : s'.unstopped = s.unstopped := by
  rw [PlayStream.unstopped, PlayStream.unstopped, h.queue]
  exact List.filter_congr fun i _ => h.unstopped i

/-- An update of one input that keeps its type and its stop mark. -/
theorem unstopped_update {heap : Ref → InputHandler} (f : InputHandler)
    (h : f.unstopped = (heap input).unstopped) (i : Ref) :
    (Function.update heap input f i).unstopped = (heap i).unstopped := by
  by_cases hi : i = input
  · rw [hi, Function.update_self, h]
  · rw [Function.update_of_ne hi]

theorem sameInputs_probed : SameInputs s (s.probed input) :=
  ⟨rfl, unstopped_update ((s.inputs input).setStatus .start) rfl⟩

theorem sameInputs_inputProbes : SameInputs s (s.inputProbes input) :=
  ⟨rfl, unstopped_update ((s.inputs input).setStatus .start) rfl⟩

theorem sameInputs_runInputs : SameInputs s (s.runInputs out) := by
  refine ⟨rfl, fun i => ?_⟩
  have hrun : ∀ (ref : Ref) (a : InputHandler),
      (InputHandler.run (out.createInput ref) a).unstopped = a.unstopped := fun _ _ => rfl
  exact forEach_keeps hrun s.inputs s.channel.inputQueue i

/-- **`on_stop` stops them all.** -/
theorem unstopped_onStop : (s.onStop now).unstopped = [] := by
  rw [unstopped, List.filter_eq_nil_iff]
  intro i hi
  have hstop : (s.onStop now).inputs i = (s.inputs i).setStop :=
    forEach_of_mem (f := fun _ => InputHandler.setStop) (fun _ _ => rfl) hi s.inputs
  rw [hstop, InputHandler.unstopped, InputHandler.setStop]
  simp

/-- An input that leaves the queue leaves the others. -/
theorem unstopped_inputEnds_sublist :
    (s.inputEnds input now).unstopped.Sublist s.unstopped := by
  have h : (s.inputEnds input now).unstopped
      = (s.channel.inputQueue.erase input).filter fun i => (s.inputs i).unstopped := by
    rw [unstopped, inputEnds, Channel.inputQueue_delInput]
    exact List.filter_congr fun i _ => unstopped_update (s.inputs input).onThreadStop rfl i
  rw [h]
  exact List.erase_sublist.filter _

/-- A request that pulls adds one input. -/
theorem unstopped_createOriginStream (h : ∀ i ∈ s.channel.inputQueue, i < s.fresh) :
    s.addOutput.createOriginStream.unstopped = s.unstopped ++ [s.fresh + 1] := by
  have hq : s.addOutput.createOriginStream.channel.inputQueue
      = s.channel.inputQueue ++ [s.fresh + 1] := rfl
  have hi : s.addOutput.createOriginStream.inputs
      = Function.update s.inputs (s.fresh + 1) { inputType := .origin, client := true } := rfl
  rw [unstopped, hq, List.filter_append, unstopped]
  congr 1
  · refine List.filter_congr fun i hmem => ?_
    rw [hi, Function.update_of_ne (Nat.ne_of_lt (Nat.lt_succ_of_lt (h i hmem)))]
  · rw [List.filter_singleton, hi, Function.update_self]
    rfl

/-! ## Between two steps -/

/-- An input that waits to be run: nobody stops it but `on_stop`, and nobody takes it out of the
queue. -/
structure Pending (s : PlayStream) (i : Ref) : Prop where
  mem : i ∈ s.channel.inputQueue
  unstopped : (s.inputs i).unstopped = true
  started : (s.inputs i).co.started = false

/-- **The invariant**: a request that waits is the only one, the channel has not started, and its
input is the one that is not stopped; with nobody waiting, an unstopped input belongs to a channel
that has started. -/
structure Inv (s : PlayStream) : Prop where
  lt_fresh : ∀ i ∈ s.channel.inputQueue, i < s.fresh
  started : s.co.Alive → s.channel.status = .start
  single : ∀ o o', s.suspended o ≠ none → s.suspended o' ≠ none → o = o'
  waiting : ∀ o, s.suspended o ≠ none → s.channel.status ≠ .start ∧ ∃ i, s.Pending i
  unstopped_le : s.unstopped.length ≤ 1
  unstopped_eq : s.Quiet → s.channel.status ≠ .start → s.unstopped = []

/-- **Inside a request**: only `output`'s request may wait, its input is the one not stopped, and
the channel has not started. -/
structure InRequest (s : PlayStream) (output : Ref) : Prop where
  lt_fresh : ∀ i ∈ s.channel.inputQueue, i < s.fresh
  not_alive : ¬ s.co.Alive
  others : ∀ o, o ≠ output → s.suspended o = none
  status : s.channel.status ≠ .start
  pending : ∃ i, s.Pending i
  unstopped_le : s.unstopped.length ≤ 1

theorem Pending.keep (h : s.Pending input) (hq : input ∈ s'.channel.inputQueue)
    (hu : (s'.inputs input).unstopped = (s.inputs input).unstopped)
    (hc : (s'.inputs input).co = (s.inputs input).co) : s'.Pending input :=
  ⟨hq, hu.trans h.unstopped, by rw [hc]; exact h.started⟩

/-- An update of one input that keeps its coroutine. -/
theorem co_setStatus (heap : Ref → InputHandler) (status : EStatusSource) (i : Ref) :
    (Function.update heap input ((heap input).setStatus status) i).co = (heap i).co := by
  by_cases hi : i = input
  · rw [hi, Function.update_self]
    rfl
  · rw [Function.update_of_ne hi]

theorem InRequest.probed (h : s.InRequest output) : (s.probed input).InRequest output := by
  obtain ⟨i, hi⟩ := h.pending
  refine ⟨h.lt_fresh, h.not_alive, h.others, h.status, ⟨i, ?_⟩, ?_⟩
  · exact hi.keep hi.mem (sameInputs_probed.unstopped i) (co_setStatus s.inputs .start i)
  · rw [sameInputs_probed.unstopped_eq]
    exact h.unstopped_le

/-- Where the queue lies in memory makes no difference. -/
theorem InRequest.pushed (h : s.InRequest output) (moves : Bool) :
    (s.pushed moves).InRequest output := by
  obtain ⟨i, hi⟩ := h.pending
  exact ⟨h.lt_fresh, h.not_alive, h.others, h.status, ⟨i, hi.mem, hi.unstopped, hi.started⟩,
    h.unstopped_le⟩

/-- The loop over the inputs stays inside the request, and fails with an error only. -/
theorem InRequest.probeInputs {rest : List Ref} {p : Probing} :
    ∀ {s s' : PlayStream} {i : ℕ}, s.InRequest output →
      probeInputs out rest i s = .ok (s', p) →
      s'.InRequest output ∧ ∀ ret, p = .failed ret → ret ≠ errorSuccess := by
  induction rest with
  | nil =>
    intro s s' i h hrun
    rw [PlayStream.probeInputs] at hrun
    cases hrun
    refine ⟨h, ?_⟩
    intro ret hret
    cases hret
  | cons input rest ih =>
    intro s s' i h hrun
    rw [PlayStream.probeInputs] at hrun
    split at hrun
    · rename_i hfail
      cases hrun
      refine ⟨h, ?_⟩
      intro ret hret
      cases hret
      exact hfail
    · split at hrun
      · cases hrun
        refine ⟨h, ?_⟩
        intro ret hret
        cases hret
      · split at hrun
        · exact ih h.probed hrun
        · cases hrun

/-- A request that waits keeps the others out. -/
theorem InRequest.inv_suspend (h : s.InRequest output) (frame : Frame) :
    (s.suspend output frame).Inv := by
  have hone : ∀ o, (s.suspend output frame).suspended o ≠ none → o = output := by
    intro o ho
    by_contra hne
    exact ho (by rw [suspend]; dsimp only; rw [Function.update_of_ne hne, h.others o hne])
  refine ⟨h.lt_fresh, fun halive => absurd halive h.not_alive, ?_, ?_, h.unstopped_le, ?_⟩
  · intro o o' ho ho'
    rw [hone o ho, hone o' ho']
  · intro o _
    obtain ⟨i, hi⟩ := h.pending
    exact ⟨h.status, i, hi.mem, hi.unstopped, hi.started⟩
  · intro hquiet
    have hsome : (s.suspend output frame).suspended output = some frame := Function.update_self ..
    rw [hquiet output] at hsome
    cases hsome

/-- A request that has ended does not wait. -/
theorem suspended_finishPlay (o : Ref) :
    (s.finishPlay out output ret).suspended o = if o = output then none else s.suspended o := by
  have h : (s.finishPlay out output ret).suspended = Function.update s.suspended output none := by
    unfold finishPlay
    split <;> rfl
  rw [h, Function.update_apply]

/-- The end of a request, when a channel that has not started has no unstopped input. -/
theorem inv_runOutput (hlt : ∀ i ∈ s.channel.inputQueue, i < s.fresh)
    (hothers : ∀ o, o ≠ output → s.suspended o = none)
    (hco : s.co.Alive → s.channel.status = .start) (hle : s.unstopped.length ≤ 1)
    (heq : s.channel.status ≠ .start → s.unstopped = []) : (s.runOutput out output).Inv := by
  have hquiet : (s.runOutput out output).Quiet := by
    intro o
    rw [runOutput]
    dsimp only
    by_cases ho : o = output
    · rw [ho, Function.update_self]
    · rw [Function.update_of_ne ho, hothers o ho]
  refine ⟨hlt, hco, ?_, ?_, hle, fun _ => heq⟩
  · intro o _ ho
    exact absurd (hquiet o) ho
  · intro o ho
    exact absurd (hquiet o) ho

/-- **A request that fails** stops every input. -/
theorem inv_finishPlay_of_ne (hlt : ∀ i ∈ s.channel.inputQueue, i < s.fresh)
    (hothers : ∀ o, o ≠ output → s.suspended o = none) (hco : ¬ s.co.Alive)
    (hret : ret ≠ errorSuccess) : (s.finishPlay out output ret).Inv := by
  rw [finishPlay, if_pos hret]
  refine inv_runOutput hlt hothers (fun h => absurd h hco) ?_ fun _ => unstopped_onStop
  rw [unstopped_onStop]
  exact Nat.zero_le _

/-- **A request that starts the channel** leaves the unstopped input to it. -/
theorem InRequest.inv_done (h : s.InRequest output) :
    ((s.finishRun out).1.finishPlay out output (s.finishRun out).2).Inv := by
  unfold finishRun
  split
  · rename_i hret
    exact inv_finishPlay_of_ne h.lt_fresh h.others h.not_alive hret
  · rw [startChannel]
    dsimp only
    by_cases hcode : (s.runInputs out).co.startCode out.createChannel = errorSuccess
    · rw [hcode, finishPlay, if_neg (not_not.mpr rfl)]
      refine inv_runOutput h.lt_fresh h.others (fun _ => rfl) ?_ fun hs => absurd rfl hs
      have hsame : ((s.runInputs out).startChannel out).1.unstopped = s.unstopped :=
        sameInputs_runInputs.unstopped_eq
      exact (congrArg List.length hsame).trans_le h.unstopped_le
    · refine inv_finishPlay_of_ne h.lt_fresh h.others ?_ hcode
      have hnot : ¬ (s.co.running = true ∨ out.createChannel = true) := by
        intro hor
        exact hcode (if_pos hor)
      rw [not_or] at hnot
      intro halive
      have hco : (s.runInputs out).co.start out.createChannel = ⟨true, false, false⟩ := by
        rw [Coroutine.start, show (s.runInputs out).co = s.co from rfl, if_neg hnot.1,
          Bool.eq_false_iff.2 hnot.2]
      dsimp only at halive
      rw [hco] at halive
      exact absurd halive.1 (by decide)

/-- **After the loop over the inputs** the invariant holds again. -/
theorem InRequest.inv_afterProbing (h : s.InRequest output) {p : Probing}
    (hp : ∀ ret, p = .failed ret → ret ≠ errorSuccess) (last : ℕ) :
    (afterProbing out output last (s, p)).1.Inv := by
  cases p with
  | done => exact h.inv_done
  | failed ret => exact inv_finishPlay_of_ne h.lt_fresh h.others h.not_alive (hp ret rfl)
  | waits input next => exact h.inv_suspend _

/-! ## The steps -/

/-- The rest of `on_init`, from inside a request. -/
theorem InRequest.inv_continueInit (h : s.InRequest output) {next last : ℕ} {r : Option ℤ}
    (hrun : continueInit out output next last s = .ok (s', r)) : s'.Inv := by
  rw [continueInit] at hrun
  rcases hp : PlayStream.probeInputs out ((s.channel.inputQueue.take last).drop next) next s
    with e | ⟨t, p⟩
  · rw [hp] at hrun
    cases hrun
  · rw [hp] at hrun
    obtain ⟨ht, hfail⟩ := h.probeInputs hp
    have hs' : (afterProbing out output last (t, p)).1 = s' := by
      rw [Except.map] at hrun
      exact congrArg Prod.fst (Except.ok.inj hrun)
    rw [← hs']
    exact ht.inv_afterProbing hfail last

/-- A request that finds the channel not started, with nobody waiting, is the one to pull. -/
theorem Inv.inRequest_createOriginStream (h : s.Inv) (hq : s.Quiet)
    (hs : s.channel.status ≠ .start) : s.addOutput.createOriginStream.InRequest s.fresh := by
  have hnew : s.addOutput.createOriginStream.inputs (s.fresh + 1)
      = { inputType := .origin, client := true } := Function.update_self ..
  have hqueue : s.addOutput.createOriginStream.channel.inputQueue
      = s.channel.inputQueue ++ [s.fresh + 1] := rfl
  refine ⟨?_, fun halive => hs (h.started halive), fun o _ => hq o, hs, ⟨s.fresh + 1, ?_⟩, ?_⟩
  · intro i hi
    rw [hqueue, List.mem_append, List.mem_singleton] at hi
    rcases hi with hi | hi
    · exact Nat.lt_succ_of_lt (Nat.lt_succ_of_lt (h.lt_fresh i hi))
    · rw [hi]
      exact Nat.lt_succ_self _
  · refine ⟨?_, ?_, ?_⟩
    · rw [hqueue]
      exact List.mem_append_right _ (List.mem_singleton_self _)
    · rw [hnew]
      rfl
    · rw [hnew]
  · rw [unstopped_createOriginStream h.lt_fresh, h.unstopped_eq hq hs]
    exact le_rfl

/-- **An arrival** while nobody waits. -/
theorem Inv.handlePlayStream (h : s.Inv) (hq : s.Quiet) {r : Option ℤ}
    (hrun : s.handlePlayStream out = .ok (s', r)) : s'.Inv := by
  rw [PlayStream.handlePlayStream] at hrun
  split at hrun
  · rename_i hstart
    cases hrun
    refine inv_runOutput ?_ (fun o _ => hq o) (fun _ => hstart) h.unstopped_le ?_
    · intro i hi
      exact Nat.lt_succ_of_lt (h.lt_fresh i hi)
    · intro hne
      exact absurd hstart hne
  · rename_i hstart
    exact ((h.inRequest_createOriginStream hq hstart).pushed out.moves).inv_continueInit hrun

/-- What a request finds when it goes on. -/
theorem Inv.inRequest (h : s.Inv) (ho : s.suspended output ≠ none) : s.InRequest output := by
  obtain ⟨hs, hpending⟩ := h.waiting output ho
  refine ⟨h.lt_fresh, fun halive => hs (h.started halive), ?_, hs, hpending, h.unstopped_le⟩
  intro o hne
  by_contra hsome
  exact hne (h.single o output hsome ho)

/-- **A wait that ends.** -/
theorem Inv.resume (h : s.Inv) {frame : Frame} (ho : s.suspended output = some frame)
    {r : Option ℤ} (hrun : s.resume output frame ret out = .ok (s', r)) : s'.Inv := by
  have hin : s.InRequest output := h.inRequest (by rw [ho]; exact Option.some_ne_none frame)
  rw [PlayStream.resume] at hrun
  split at hrun
  · rename_i hret
    cases hrun
    exact inv_finishPlay_of_ne hin.lt_fresh hin.others hin.not_alive hret
  · split at hrun
    · cases hrun
      exact inv_finishPlay_of_ne hin.lt_fresh hin.others hin.not_alive (by decide)
    · split at hrun
      · cases hrun
        exact hin.inv_suspend _
      · split at hrun
        · cases hrun
        · exact hin.probed.inv_continueInit hrun

/-- The channel's coroutine ends: it has started, so that nobody waits. -/
theorem Inv.channelEnds (h : s.Inv) (halive : s.co.Alive) : (s.channelEnds now).Inv := by
  have hquiet : ∀ o, s.suspended o = none := by
    intro o
    by_contra ho
    exact (h.waiting o ho).1 (h.started halive)
  have hnil : (s.channelEnds now).unstopped = [] := unstopped_onStop
  refine ⟨h.lt_fresh, ?_, ?_, ?_, ?_, fun _ _ => hnil⟩
  · rintro ⟨-, hended⟩
    cases hended
  · intro o _ ho
    exact absurd (hquiet o) ho
  · intro o ho
    exact absurd (hquiet o) ho
  · rw [hnil]
    exact Nat.zero_le _

theorem Inv.inputProbes (h : s.Inv) : (s.inputProbes input).Inv := by
  refine ⟨h.lt_fresh, h.started, h.single, ?_, ?_, ?_⟩
  · intro o ho
    obtain ⟨hs, i, hi⟩ := h.waiting o ho
    exact ⟨hs, i, hi.keep hi.mem (sameInputs_inputProbes.unstopped i)
      (co_setStatus s.inputs .start i)⟩
  · rw [sameInputs_inputProbes.unstopped_eq]
    exact h.unstopped_le
  · rw [sameInputs_inputProbes.unstopped_eq]
    exact h.unstopped_eq

/-- An input's coroutine ends: it is not the one that waits to be run. -/
theorem Inv.inputEnds (h : s.Inv) (halive : (s.inputs input).co.Alive) :
    (s.inputEnds input now).Inv := by
  refine ⟨?_, h.started, h.single, ?_, ?_, ?_⟩
  · intro i hi
    exact h.lt_fresh i (List.mem_of_mem_erase hi)
  · intro o ho
    obtain ⟨hs, i, hi⟩ := h.waiting o ho
    have hne : i ≠ input := by
      rintro rfl
      rw [Coroutine.Alive, hi.started] at halive
      cases halive.1
    have hsame : (s.inputEnds input now).inputs i = s.inputs i := Function.update_of_ne hne ..
    refine ⟨hs, i, hi.keep ?_ (by rw [hsame]) (by rw [hsame])⟩
    exact (List.mem_erase_of_ne hne).mpr hi.mem
  · exact unstopped_inputEnds_sublist.length_le.trans h.unstopped_le
  · intro hq hs
    have hsub : (s.inputEnds input now).unstopped.Sublist s.unstopped :=
      unstopped_inputEnds_sublist
    rw [h.unstopped_eq hq hs, List.sublist_nil] at hsub
    exact hsub

theorem Inv.outputEnds (h : s.Inv) : (s.outputEnds output now).Inv := by
  have hq : (s.outputEnds output now).channel.inputQueue = s.channel.inputQueue :=
    Channel.inputQueue_delOutput
  have hs : (s.outputEnds output now).channel.status = s.channel.status := Channel.status_delOutput
  have hu : (s.outputEnds output now).unstopped = s.unstopped := by
    rw [unstopped, hq]
    rfl
  refine ⟨?_, ?_, h.single, ?_, ?_, ?_⟩
  · rw [hq]
    exact h.lt_fresh
  · rw [hs]
    exact h.started
  · rw [hs]
    intro o ho
    obtain ⟨hs', i, hi⟩ := h.waiting o ho
    exact ⟨hs', i, hi.keep (by rw [hq]; exact hi.mem) rfl rfl⟩
  · rw [hu]
    exact h.unstopped_le
  · rw [hu, hs]
    exact h.unstopped_eq

/-- **The condition on a step**: a request arrives only while nobody waits in a probe. -/
def Event.Alone (s : PlayStream) : Event → Prop
  | .arrive _ => s.Quiet
  | _ => True

/-- **One step** keeps the invariant. -/
theorem Inv.step (h : s.Inv) {e : Event} (he : e.Alone s) {r : Option ℤ}
    (hrun : s.step e = .ok (s', r)) : s'.Inv := by
  cases e with
  | arrive out => exact h.handlePlayStream he hrun
  | resume output ret out =>
    rw [PlayStream.step] at hrun
    split at hrun
    · cases hrun
      exact h
    · rename_i frame ho
      exact h.resume ho hrun
  | channelEnds now =>
    cases hrun
    split
    · rename_i halive
      exact h.channelEnds halive
    · exact h
  | inputProbes input =>
    cases hrun
    split
    · exact h.inputProbes
    · exact h
  | inputEnds input now =>
    cases hrun
    split
    · rename_i halive
      exact h.inputEnds halive
    · exact h
  | outputEnds output now =>
    cases hrun
    split
    · exact h.outputEnds
    · exact h

theorem inv_new : new.Inv := by
  refine ⟨?_, ?_, ?_, ?_, Nat.zero_le _, fun _ _ => rfl⟩
  · intro i hi
    exact absurd hi List.not_mem_nil
  · rintro ⟨hstarted, -⟩
    cases hstarted
  · intro o _ ho
    exact absurd rfl ho
  · intro o ho
    exact absurd rfl ho

/-- A step of a run, in which a request may arrive at any time. -/
def Next (s s' : PlayStream) : Prop := ∃ e r, s.step e = .ok (s', r)

/-- A step of a run in which requests arrive only while nobody waits in a probe. -/
def QuietNext (s s' : PlayStream) : Prop := ∃ e r, e.Alone s ∧ s.step e = .ok (s', r)

/-- A whole run keeps the invariant. -/
theorem Inv.of_quietNext (h : s.Inv) (hrun : Relation.ReflTransGen QuietNext s s') : s'.Inv := by
  induction hrun with
  | refl => exact h
  | tail _ hstep ih =>
    obtain ⟨e, r, he, hstep⟩ := hstep
    exact ih.step he hstep

/-- **At most one input pulls** in every state of a run in which requests arrive only while nobody
waits in a probe; and in such a state, a request that finds the channel not started keeps to that
exactly when nobody waits. -/
theorem at_most_one_origin_input (hrun : Relation.ReflTransGen QuietNext new s) :
    s.unstopped.length ≤ 1 ∧
      (s.channel.status ≠ .start →
        (s.addOutput.createOriginStream.unstopped.length ≤ 1 ↔ s.Quiet)) := by
  have h := inv_new.of_quietNext hrun
  refine ⟨h.unstopped_le, fun hs => ?_⟩
  rw [unstopped_createOriginStream h.lt_fresh, List.length_append, List.length_singleton]
  constructor
  · intro hle o
    by_contra ho
    obtain ⟨-, i, hi⟩ := h.waiting o ho
    have hmem : i ∈ s.unstopped := List.mem_filter.mpr ⟨hi.mem, hi.unstopped⟩
    have := List.length_pos_of_mem hmem
    omega
  · intro hq
    rw [h.unstopped_eq hq hs]
    exact le_rfl

/-- A world in which everything works. -/
def allWell : Outcome := ⟨fun _ => 0, fun _ => 0, fun _ => true, true, true, 1, true⟩

/-- The first viewer's request waits for its connection to the origin. -/
def firstViewer : PlayStream :=
  (new.addOutput.createOriginStream.pushed true).suspend 0 ⟨1, 1, 1, .connect, 1⟩

theorem step_firstViewer : new.step (.arrive allWell) = .ok (firstViewer, none) := by
  rfl

/-- It waits for the origin's answer. -/
def firstConnected : PlayStream := firstViewer.suspend 0 ⟨1, 1, 1, .request, 1⟩

/-- It plays. -/
def firstPlays : PlayStream :=
  ((firstConnected.probed 1).finishRun allWell).1.finishPlay allWell 0 0

/-- A second viewer has come after that. -/
def secondPlays : PlayStream := firstPlays.addOutput.runOutput allWell 2

theorem at_most_one_origin_input_second : secondPlays.unstopped.length ≤ 1 := by
  have hconnect : firstViewer.step (.resume 0 0 allWell) = .ok (firstConnected, none) := rfl
  have hanswer : firstConnected.step (.resume 0 0 allWell) = .ok (firstPlays, some 0) := rfl
  have hsecond : firstPlays.step (.arrive allWell) = .ok (secondPlays, none) := rfl
  have hquiet : firstPlays.Quiet := by
    intro o
    by_cases ho : o = 0
    · rw [ho]
      rfl
    · exact (Function.update_of_ne ho ..).trans
        ((Function.update_of_ne ho ..).trans (Function.update_of_ne ho ..))
  exact (at_most_one_origin_input
    (.tail (.tail (.tail (.single ⟨.arrive allWell, none, fun _ => rfl, step_firstViewer⟩)
      ⟨.resume 0 0 allWell, none, trivial, hconnect⟩)
      ⟨.resume 0 0 allWell, some 0, trivial, hanswer⟩)
      ⟨.arrive allWell, none, hquiet, hsecond⟩)).1

/-- **A second viewer during the first one's connect** pulls the stream again. -/
theorem second_viewer_pulls_again : ∃ s, Relation.ReflTransGen Next new s ∧
    s.unstopped.length = 2 := by
  have hsecond : firstViewer.step (.arrive allWell)
      = .ok ((firstViewer.addOutput.createOriginStream.pushed true).suspend 2
        ⟨1, 1, 2, .connect, 2⟩, none) := by
    rfl
  exact ⟨_, .tail (.single ⟨.arrive allWell, none, step_firstViewer⟩)
    ⟨.arrive allWell, none, hsecond⟩, by decide⟩

end PlayStream

end SmartStreaming
