import SmartStreaming.Cache.Channel

/-!
# Cache/Idle — a channel that is marked idle

Inputs, outputs and the segmenter of a channel come and go; each operation sets or clears the mark
`idle_at`.  `idle_sound`: over every history of a channel, one that is marked has no input, or none
of a viewer, a segmenter and a publisher — so `handle_cycle` ends no other channel as idle.
`idle_complete_iff`: when every channel that is left without these is marked.
-/

namespace SmartStreaming

namespace Channel

/-- The operations that change who uses a channel, with the time at which they look at the clock. -/
inductive Op
  | addInput (newInput : Ref)
  | delInput (now : ℤ) (input : Ref)
  | addOutput (newOutput : Ref)
  | delOutput (now : ℤ) (output : Ref)
  | delAllOutput
  | addSegemtCache (cache : Option Ref)
  | delSegmentCache (now : ℤ)
  | wakeUp
  deriving DecidableEq

section

variable (inputType : Ref → EInputType)

def apply (c : Channel) : Op → Channel
  | .addInput newInput => c.addInput newInput
  | .delInput now input => c.delInput now input
  | .addOutput newOutput => c.addOutput newOutput
  | .delOutput now output => c.delOutput inputType now output
  | .delAllOutput => c.delAllOutput
  | .addSegemtCache cache => c.addSegemtCache cache
  | .delSegmentCache now => c.delSegmentCache inputType now
  | .wakeUp => c.wakeUp

/-- The channel after `ops`. -/
def after (ops : List Op) (c : Channel) : Channel := ops.foldl (apply inputType) c

/-! ## Who uses a channel -/

/-- No viewer, no segmenter, and no input that publishes. -/
def Unwatched (c : Channel) : Prop :=
  c.outputQueue = [] ∧ c.segmentCache = none ∧ ∀ input ∈ c.inputQueue, inputType input ≠ .publish

/-- A channel that is marked idle has no input or is not watched. -/
def IdleSound (c : Channel) : Prop := c.idleAt ≠ -1 → c.inputQueue = [] ∨ c.Unwatched inputType

variable {inputType} {c : Channel}

/-- The mark is cleared. -/
theorem IdleSound.of_awake (h : c.idleAt = -1) : c.IdleSound inputType := fun hidle =>
  absurd h hidle

/-- Only a channel that is not watched falls asleep. -/
theorem IdleSound.checkAndSleep (now : ℤ) (h : c.IdleSound inputType) :
    (checkAndSleep inputType now c).IdleSound inputType := by
  unfold Channel.checkAndSleep
  split
  · rename_i hempty
    split
    · rename_i hpush
      exact fun _ => .inr ⟨hempty.2.1, hempty.2.2, hpush⟩
    · exact h
  · exact h

/-- Outputs that leave and a segmenter that is dropped keep the mark sound. -/
theorem IdleSound.leave {outputs : List Ref} {cache : Option Ref} (h : c.IdleSound inputType)
    (houtputs : c.outputQueue = [] → outputs = []) (hcache : c.segmentCache = none → cache = none) :
    IdleSound inputType { c with outputQueue := outputs, segmentCache := cache } := by
  intro hidle
  rcases h hidle with hinput | ⟨houtput, hsegment, hpush⟩
  · exact .inl hinput
  · exact .inr ⟨houtputs houtput, hcache hsegment, hpush⟩

theorem IdleSound.delInput (now : ℤ) (input : Ref) (h : c.IdleSound inputType) :
    (c.delInput now input).IdleSound inputType := by
  intro hidle
  by_cases hinput : c.inputQueue.erase input = []
  · exact .inl hinput
  · -- the mark is the one from before
    have hmark : (c.delInput now input).idleAt = c.idleAt := if_neg fun h => hinput h.1
    rcases h (hmark ▸ hidle) with hnone | ⟨houtput, hsegment, hpush⟩
    · exact absurd (by rw [hnone]; rfl) hinput
    · exact .inr ⟨houtput, hsegment, fun i hi => hpush i (List.mem_of_mem_erase hi)⟩

/-- One operation. -/
theorem IdleSound.apply (op : Op) (h : c.IdleSound inputType) :
    (apply inputType c op).IdleSound inputType := by
  cases op with
  | addInput newInput => exact .of_awake rfl
  | delInput now input => exact h.delInput now input
  | addOutput newOutput => exact .of_awake rfl
  | delOutput now output =>
    exact (h.leave (fun houtput => by rw [houtput]; rfl) id).checkAndSleep now
  | delAllOutput => exact h.leave (fun _ => rfl) id
  | addSegemtCache cache => exact .of_awake rfl
  | delSegmentCache now => exact (h.leave id fun _ => rfl).checkAndSleep now
  | wakeUp => exact .of_awake rfl

/-- A history of operations. -/
theorem IdleSound.after (ops : List Op) (h : c.IdleSound inputType) :
    (after inputType ops c).IdleSound inputType := by
  induction ops generalizing c with
  | nil => exact h
  | cons op ops ih => exact ih (h.apply op)

/-- The idle time is only counted for a channel that is marked. -/
theorem idleAt_ne_of_getIdleTime {now : ℤ} (h : c.getIdleTime now > 5 * 1000 * 1000) :
    c.idleAt ≠ -1 := by
  intro hidle
  rw [getIdleTime, hidle] at h
  omega

end

/-! ## The loop that ends it -/

/-- One turn of the loop of `handle_cycle`: what the other coroutines did to the channel since the
last one, the time, and whether `fetch` brings a packet. -/
structure Turn where
  ops : List Op
  now : ℤ
  fetched : Bool

/-- How the loop of `handle_cycle` ends. -/
inductive CycleEnd
  | idle
  | noPacket
  deriving DecidableEq

/-- `MediaSource::handle_cycle`, the packets aside; no result where the turns end first. -/
def handleCycle (inputType : Ref → EInputType) : List Turn → Channel → Option (CycleEnd × Channel)
  | [], _ => none
  | turn :: turns, c =>
    if (after inputType turn.ops c).getIdleTime turn.now > 5 * 1000 * 1000 then
      some (.idle, after inputType turn.ops c)
    else if (after inputType turn.ops c).inputQueue = [] ∨ turn.fetched = false then
      some (.noPacket, after inputType turn.ops c)
    else handleCycle inputType turns (after inputType turn.ops c)

variable {inputType : Ref → EInputType}

/-- The loop ends as idle what is marked so. -/
theorem IdleSound.handleCycle {turns : List Turn} {c c' : Channel} (h : c.IdleSound inputType)
    (hend : handleCycle inputType turns c = some (.idle, c')) :
    c'.inputQueue = [] ∨ c'.Unwatched inputType := by
  induction turns generalizing c with
  | nil => cases hend
  | cons turn turns ih =>
    have hafter := h.after turn.ops
    rw [Channel.handleCycle] at hend
    split at hend
    · rename_i htime
      cases hend
      exact hafter (idleAt_ne_of_getIdleTime htime)
    · split at hend
      · cases hend
      · exact ih hafter hend

/-- **Idle soundness.**  In every history of a channel, one that is marked idle has no input, or no
viewer, no segmenter and no publisher; and `handle_cycle` ends no other channel as idle. -/
theorem idle_sound (inputType : Ref → EInputType) (ops : List Op) :
    (after inputType ops {}).IdleSound inputType ∧
      ∀ turns c', handleCycle inputType turns (after inputType ops {}) = some (.idle, c') →
        c'.inputQueue = [] ∨ c'.Unwatched inputType := by
  have h : (after inputType ops {}).IdleSound inputType := IdleSound.after ops (.of_awake rfl)
  exact ⟨h, fun _ _ hend => h.handleCycle hend⟩

/-- An input that pulls, whose one viewer left six seconds ago. -/
theorem idle_sound_viewer_left :
    handleCycle (fun _ => .origin) [⟨[.addOutput 2, .delOutput 3 2], 6000004, true⟩]
        (after (fun _ => .origin) [.addInput 1] {}) =
      some (.idle, { inputQueue := [1], idleAt := 3 }) ∧
      (([1] : List Ref) = [] ∨
        Unwatched (fun _ => .origin) { inputQueue := [1], idleAt := 3 }) :=
  ⟨by decide, (idle_sound (fun _ => .origin) [.addInput 1]).2
    [⟨[.addOutput 2, .delOutput 3 2], 6000004, true⟩] { inputQueue := [1], idleAt := 3 }
    (by decide)⟩

/-! ## A channel that nobody uses -/

/-- The clock shows a positive time whenever the operation looks at it. -/
def Op.ClockPos : Op → Prop
  | .delInput now _ => 0 < now
  | .delOutput now _ => 0 < now
  | .delSegmentCache now => 0 < now
  | _ => True

instance : ∀ op : Op, Decidable op.ClockPos
  | .delInput now _ => inferInstanceAs (Decidable (0 < now))
  | .delOutput now _ => inferInstanceAs (Decidable (0 < now))
  | .delSegmentCache now => inferInstanceAs (Decidable (0 < now))
  | .addInput _ => .isTrue trivial
  | .addOutput _ => .isTrue trivial
  | .delAllOutput => .isTrue trivial
  | .addSegemtCache _ => .isTrue trivial
  | .wakeUp => .isTrue trivial

/-- Somebody leaves: `del_input`, `del_output` or `del_segment_cache` is called. -/
def Op.Leaves : Op → Prop
  | .delInput _ _ => True
  | .delOutput _ _ => True
  | .delSegmentCache _ => True
  | _ => False

section

variable (inputType : Ref → EInputType)

/-- Whoever leaves a channel unwatched leaves it marked. -/
def LeavesMarked (c : Channel) (op : Op) : Prop :=
  op.Leaves → (apply inputType c op).Unwatched inputType → (apply inputType c op).idleAt ≠ -1

/-- Every call of a history does so. -/
def IdleComplete (ops : List Op) : Prop :=
  ∀ before op behind, ops = before ++ op :: behind →
    LeavesMarked inputType (after inputType before {}) op

/-- **An input leaves others behind**, none of which publishes, in an awake channel that nobody
watches: `del_input` marks a channel without inputs only. -/
def Op.LeavesPullers (c : Channel) : Op → Prop
  | .delInput _ input => c.idleAt = -1 ∧ c.outputQueue = [] ∧ c.segmentCache = none
      ∧ c.inputQueue.erase input ≠ [] ∧ ∀ i ∈ c.inputQueue.erase input, inputType i ≠ .publish
  | _ => False

variable {inputType} {c : Channel} {now : ℤ}

/-- The check puts a channel that is not watched to sleep. -/
theorem idleAt_checkAndSleep (hnow : 0 < now)
    (h : (checkAndSleep inputType now c).Unwatched inputType) :
    (checkAndSleep inputType now c).idleAt ≠ -1 := by
  obtain ⟨idleAt, heq⟩ := exists_checkAndSleep inputType now c
  have hc : c.Unwatched inputType := by
    rw [heq] at h
    exact h
  rw [checkAndSleep]
  split
  · rw [if_pos hc.2.2]
    dsimp only
    omega
  · rename_i hmarked
    exact fun hawake => hmarked ⟨hawake, hc.1, hc.2.1⟩

theorem leavesMarked_delInput_iff (hnow : 0 < now) (input : Ref) :
    LeavesMarked inputType c (.delInput now input)
      ↔ ¬ Op.LeavesPullers inputType c (.delInput now input) := by
  have hmark : (apply inputType c (.delInput now input)).idleAt
      = if c.inputQueue.erase input = [] ∧ c.idleAt = -1 then now else c.idleAt := rfl
  constructor
  · rintro h ⟨hawake, houtput, hsegment, hinput, hpull⟩
    refine h trivial ⟨houtput, hsegment, hpull⟩ ?_
    rw [hmark, if_neg (fun hempty => hinput hempty.1), hawake]
  · rintro h - ⟨houtput, hsegment, hpull⟩
    rw [hmark]
    split
    · omega
    · rename_i hmarked
      exact fun hawake =>
        h ⟨hawake, houtput, hsegment, fun hinput => hmarked ⟨hinput, hawake⟩, hpull⟩

/-- One operation: only `del_input` may leave the mark out. -/
theorem leavesMarked_iff {op : Op} (h : op.ClockPos) :
    LeavesMarked inputType c op ↔ ¬ op.LeavesPullers inputType c := by
  cases op with
  | delInput now input => exact leavesMarked_delInput_iff h input
  | delOutput now output => exact iff_of_true (fun _ => idleAt_checkAndSleep h) id
  | delSegmentCache now => exact iff_of_true (fun _ => idleAt_checkAndSleep h) id
  | addInput newInput => exact iff_of_true False.elim id
  | addOutput newOutput => exact iff_of_true False.elim id
  | delAllOutput => exact iff_of_true False.elim id
  | addSegemtCache cache => exact iff_of_true False.elim id
  | wakeUp => exact iff_of_true False.elim id

end

/-- **Idle completeness.**  In a history of a channel, every call by which somebody leaves it
unwatched marks it exactly when no input leaves others behind that only pull. -/
theorem idle_complete_iff (inputType : Ref → EInputType) {ops : List Op}
    (h : ∀ op ∈ ops, op.ClockPos) :
    IdleComplete inputType ops ↔
      ∀ before op behind, ops = before ++ op :: behind →
        ¬ op.LeavesPullers inputType (after inputType before {}) := by
  have hclock {before behind : List Op} {op : Op} (hops : ops = before ++ op :: behind) :
      op.ClockPos :=
    h op (hops ▸ List.mem_append_right before List.mem_cons_self)
  constructor
  · intro hcomplete before op behind hops
    exact (leavesMarked_iff (hclock hops)).1 (hcomplete before op behind hops)
  · intro hnone before op behind hops
    exact (leavesMarked_iff (hclock hops)).2 (hnone before op behind hops)

/-- An input that pulls, whose one viewer leaves, and which then leaves itself. -/
theorem idle_complete_iff_viewer_left :
    IdleComplete (fun _ => .origin) [.addInput 1, .addOutput 2, .delOutput 3 2, .delInput 4 1] ↔
      ∀ before op behind,
        [.addInput 1, .addOutput 2, .delOutput 3 2, .delInput 4 1] = before ++ op :: behind →
          ¬ Op.LeavesPullers (fun _ => .origin) (after (fun _ => .origin) before {}) op :=
  idle_complete_iff (fun _ => .origin) (by decide)

/-- The publisher and an input that pulls. -/
def pulledToo : Ref → EInputType
  | 1 => .publish
  | _ => .origin

/-- **A publisher that leaves an input behind leaves the channel awake.** -/
theorem publisher_leaves_channel_awake :
    (∀ op ∈ [Op.addInput 1, .addInput 2, .delInput 5 1], op.ClockPos) ∧
      ¬ IdleComplete pulledToo [.addInput 1, .addInput 2, .delInput 5 1] := by
  refine ⟨by decide, fun h => ?_⟩
  have hmarked := h [.addInput 1, .addInput 2] (.delInput 5 1) [] rfl trivial
    ⟨rfl, rfl, by decide⟩
  exact hmarked rfl

end Channel

end SmartStreaming
