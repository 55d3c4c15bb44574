import SmartStreaming.Cache.Dispatch
import SmartStreaming.Cache.Idle

/-!
# Cache/Cycle — the packets that `MediaSource::handle_cycle` conveys

`fetch` takes one packet out of the queue of each input, and gives way to the other coroutines while
it waits for one; `handle_cycle` hands on the first packet of the group.  `packets_conveyed_iff`:
what is fetched is conveyed exactly when no turn fetches a second packet.
-/

namespace SmartStreaming

open Machinery

namespace MediaSource

/-- A channel and the queues of its inputs and outputs; beside them what `fetch` has taken out, what
has been dispatched and what has been passed to `on_cycle`, each packet with its input. -/
structure Relay (π : Type) where
  channel : Channel
  inputs : Ref → PacketQueue π
  outputs : Ref → PacketQueue π
  fetched : List (Ref × π) := []
  dispatched : List (Ref × π) := []
  cycled : List (Ref × π) := []

/-- What another coroutine does while `fetch` waits. -/
inductive Act (π : Type)
  | channel (op : Channel.Op)
  | enqueue (input : Ref) (packet : π)
  | dequeue (output : Ref)

variable {π : Type}

/-- `input_queue` is changed: an iterator into it is not valid any more. -/
def Act.moves (c : Channel) : Act π → Bool
  | .channel (.addInput _) => true
  | .channel (.delInput _ input) => input ∈ c.inputQueue
  | _ => false

section Source

variable (inputType : Ref → EInputType)

def act (s : Relay π) : Act π → Relay π
  | .channel op => { s with channel := Channel.apply inputType s.channel op }
  | .enqueue input packet =>
    { s with inputs := Function.update s.inputs input ((s.inputs input).enqueue packet) }
  | .dequeue output =>
    { s with outputs := Function.update s.outputs output (s.outputs output).dequeue.2 }

/-- A wait: the state after it, and whether `input_queue` has been changed in it. -/
def wait : List (Act π) → Relay π → Relay π × Bool
  | [], s => (s, false)
  | a :: acts, s => ((wait acts (act inputType s a)).1,
      a.moves s.channel || (wait acts (act inputType s a)).2)

/-! ## Fetching -/

/-- What `dequeue` does before it looks into the queue for good: it waits if the queue is empty. -/
def await (input : Ref) (acts : List (Act π)) (s : Relay π) : Relay π × Bool :=
  if (s.inputs input).queue = [] then wait inputType acts s else (s, false)

/-- The packet is taken out of the queue of the input. -/
def take (input : Ref) (packet : π) (s : Relay π) : Relay π :=
  { s with
    inputs := Function.update s.inputs input (s.inputs input).dequeue.2
    fetched := s.fetched ++ [(input, packet)] }

/-- What `dequeue` gives for the input. -/
def brought (input : Ref) (acts : List (Act π)) (s : Relay π) : Option π :=
  ((await inputType input acts s).1.inputs input).dequeue.1.2

/-- The loop of `Channel::fetch`, from one of the inputs on; `waits` is what happens while it waits
for each of them.  An iterator that is not valid any more cannot be moved on. -/
def fetch : List Ref → List (List (Act π)) → List (Ref × π) → Relay π →
    Except Fault (List (Ref × π) × Relay π)
  | [], _, packets, s => .ok (packets, s)
  | input :: rest, waits, packets, s =>
    match brought inputType input (waits.headD []) s with
    | none => .ok (packets, (await inputType input (waits.headD []) s).1)
    | some packet =>
      if (await inputType input (waits.headD []) s).2 then .error .deadBlock
      else fetch rest waits.tail (packets ++ [(input, packet)])
        (take input packet (await inputType input (waits.headD []) s).1)

/-! ## The loop -/

/-- `Channel::dispatch`. -/
def dispatch (packet : Ref × π) (s : Relay π) : Relay π :=
  { s with
    outputs := forEach (fun _ => PacketQueue.enqueue packet.2) s.outputs s.channel.outputQueue
    dispatched := s.dispatched ++ [packet] }

/-- `Channel::on_cycle`, which hands the packet to the segmenter. -/
def onCycle (packet : Ref × π) (s : Relay π) : Relay π := { s with cycled := s.cycled ++ [packet] }

/-- One turn of the loop: the time, and what happens while `fetch` waits. -/
structure Turn (π : Type) where
  now : ℤ
  waits : List (List (Act π))

/-- What becomes of `packet_group`, and whether another turn follows: "suppose there is only one
input". -/
def handOn : List (Ref × π) → Relay π → Relay π × Bool
  | [], s => (s, false)
  | packet :: _, s => (onCycle packet (dispatch packet s), true)

def turn (t : Turn π) (s : Relay π) : Except Fault (Relay π × Bool) :=
  if s.channel.getIdleTime t.now > 5 * 1000 * 1000 then .ok (s, false)
  else (fetch inputType s.channel.inputQueue t.waits [] s).map fun r => handOn r.1 r.2

/-- `MediaSource::handle_cycle`, as far as the turns go. -/
def handleCycle : List (Turn π) → Relay π → Except Fault (Relay π)
  | [], s => .ok s
  | t :: turns, s =>
    match turn inputType t s with
    | .error fault => .error fault
    | .ok (s', false) => .ok s'
    | .ok (s', true) => handleCycle turns s'

/-- **All that was fetched has been conveyed**: dispatched and passed to `on_cycle` once, and in the
order in which it came from its input. -/
structure Conveyed (s : Relay π) : Prop where
  dispatched : ∀ input, (s.dispatched.filter fun packet => packet.1 = input)
    = s.fetched.filter fun packet => packet.1 = input
  cycled : s.cycled = s.dispatched

/-- **What has been dispatched since is in the queues**: in that of each output as often as the
channel holds the output, behind what was there. -/
def Reached (s s' : Relay π) : Prop :=
  ∃ packets, s'.dispatched = s.dispatched ++ packets
    ∧ ∀ output, (s'.outputs output).queue = (s.outputs output).queue
      ++ packets.flatMap fun packet =>
        List.replicate (s.channel.outputQueue.count output) packet.2

/-- In each turn, what is dispatched behind `fetch` reaches the outputs. -/
def EachReaches : List (Turn π) → Relay π → Prop
  | [], _ => True
  | t :: turns, s =>
    (∀ packets s', fetch inputType s.channel.inputQueue t.waits [] s = .ok (packets, s') →
      Reached s' (handOn packets s').1)
      ∧ ∀ s', turn inputType t s = .ok (s', true) → EachReaches turns s'

/-! ## Turns with one packet -/

/-- The first of the inputs brings no packet. -/
def BringsNone : List Ref → List (List (Act π)) → Relay π → Prop
  | [], _, _ => True
  | input :: _, waits, s => brought inputType input (waits.headD []) s = none

/-- **The inputs bring one packet at most**: if the first one brings a packet, the inputs have not
been changed while it was awaited, and the second one brings none. -/
def BringsOne : List Ref → List (List (Act π)) → Relay π → Prop
  | [], _, _ => True
  | input :: rest, waits, s => ∀ packet, brought inputType input (waits.headD []) s = some packet →
      (await inputType input (waits.headD []) s).2 = false
        ∧ BringsNone inputType rest waits.tail
          (take input packet (await inputType input (waits.headD []) s).1)

/-- Every turn of the loop is idle or has one packet at most. -/
def EachBringsOne : List (Turn π) → Relay π → Prop
  | [], _ => True
  | t :: turns, s =>
    (s.channel.getIdleTime t.now ≤ 5 * 1000 * 1000 →
      BringsOne inputType s.channel.inputQueue t.waits s)
      ∧ ∀ s', turn inputType t s = .ok (s', true) → EachBringsOne turns s'

end Source

/-- A packet that is dispatched comes into the queue of every output. -/
theorem queue_dispatch (packet : Ref × π) (s : Relay π) (output : Ref) :
    ((dispatch packet s).outputs output).queue = (s.outputs output).queue
      ++ List.replicate (s.channel.outputQueue.count output) packet.2 := by
  rw [dispatch]
  dsimp only
  rw [forEach_eq_iterate]
  exact PacketQueue.queue_iterate_enqueue ..

theorem reached_handOn (packets : List (Ref × π)) (s : Relay π) :
    Reached s (handOn packets s).1 := by
  cases packets with
  | nil => exact ⟨[], (List.append_nil _).symm, fun _ => (List.append_nil _).symm⟩
  | cons packet packets =>
    refine ⟨[packet], rfl, fun output => ?_⟩
    rw [List.flatMap_singleton, ← queue_dispatch packet s output]
    rfl

/-- **Over a run**, what is dispatched reaches the outputs. -/
theorem eachReaches (inputType : Ref → EInputType) (turns : List (Turn π)) (s : Relay π) :
    EachReaches inputType turns s := by
  induction turns generalizing s with
  | nil => trivial
  | cons t turns ih => exact ⟨fun packets s' _ => reached_handOn packets s', fun s' _ => ih s'⟩

section Logs

variable {inputType : Ref → EInputType} {s s' : Relay π} {inputs : List Ref}
  {waits : List (List (Act π))} {packets more : List (Ref × π)}

/-- `more` has been fetched, and nothing else has been conveyed. -/
structure Fetched (s : Relay π) (more : List (Ref × π)) (s' : Relay π) : Prop where
  fetched : s'.fetched = s.fetched ++ more
  dispatched : s'.dispatched = s.dispatched
  cycled : s'.cycled = s.cycled

theorem fetched_act (a : Act π) (s : Relay π) : Fetched s [] (act inputType s a) := by
  cases a <;> exact ⟨(List.append_nil _).symm, rfl, rfl⟩

theorem Fetched.trans {s'' : Relay π} {more' : List (Ref × π)} (h : Fetched s more s')
    (h' : Fetched s' more' s'') : Fetched s (more ++ more') s'' :=
  ⟨by rw [h'.fetched, h.fetched, List.append_assoc], h'.dispatched.trans h.dispatched,
    h'.cycled.trans h.cycled⟩

theorem fetched_wait (acts : List (Act π)) (s : Relay π) :
    Fetched s [] (wait inputType acts s).1 := by
  induction acts generalizing s with
  | nil => exact ⟨(List.append_nil _).symm, rfl, rfl⟩
  | cons a acts ih => exact (fetched_act a s).trans (ih _)

theorem fetched_await (input : Ref) (acts : List (Act π)) (s : Relay π) :
    Fetched s [] (await inputType input acts s).1 := by
  rw [await]
  split
  · exact fetched_wait acts s
  · exact ⟨(List.append_nil _).symm, rfl, rfl⟩

theorem fetched_take (input : Ref) (packet : π) (s : Relay π) :
    Fetched s [(input, packet)] (take input packet s) := ⟨rfl, rfl, rfl⟩

/-- **`fetch`**: it comes upon changed inputs, or what it adds to the group is what it takes out; it
adds nothing exactly when the first input brings nothing. -/
theorem fetch_cases (inputType : Ref → EInputType) (inputs : List Ref)
    (waits : List (List (Act π))) (packets : List (Ref × π)) (s : Relay π) :
    (∃ fault, fetch inputType inputs waits packets s = .error fault
        ∧ ¬ BringsNone inputType inputs waits s)
      ∨ ∃ more s', fetch inputType inputs waits packets s = .ok (packets ++ more, s')
        ∧ Fetched s more s' ∧ (more = [] ↔ BringsNone inputType inputs waits s) := by
  induction inputs generalizing waits packets s with
  | nil =>
    refine .inr ⟨[], s, ?_, ⟨(List.append_nil _).symm, rfl, rfl⟩, iff_of_true rfl trivial⟩
    rw [fetch, List.append_nil]
  | cons input rest ih =>
    have hawait : Fetched s [] (await inputType input (waits.headD []) s).1 :=
      fetched_await input _ s
    rw [fetch, BringsNone]
    rcases hbrought : brought inputType input (waits.headD []) s with _ | packet
    · exact .inr ⟨[], _, by rw [List.append_nil], hawait, iff_of_true rfl rfl⟩
    · dsimp only
      split
      · exact .inl ⟨_, rfl, nofun⟩
      · rcases ih waits.tail (packets ++ [(input, packet)])
            (take input packet (await inputType input (waits.headD []) s).1) with
          ⟨fault, hrun, -⟩ | ⟨more, s', hrun, hmore, -⟩
        · exact .inl ⟨fault, hrun, nofun⟩
        · refine .inr ⟨(input, packet) :: more, s', ?_, ?_, iff_of_false nofun nofun⟩
          · rw [hrun, List.append_assoc, List.singleton_append]
          · exact (hawait.trans (fetched_take input packet _)).trans hmore

/-- **`fetch` as a whole** brings one packet at most, and returns, exactly when the inputs do. -/
theorem bringsOne_iff (inputs : List Ref) (waits : List (List (Act π))) (s : Relay π) :
    BringsOne inputType inputs waits s ↔
      ∃ more s', fetch inputType inputs waits [] s = .ok (more, s') ∧ more.length ≤ 1 := by
  cases inputs with
  | nil => exact iff_of_true trivial ⟨[], s, rfl, Nat.zero_le 1⟩
  | cons input rest =>
    rw [BringsOne, fetch]
    rcases hbrought : brought inputType input (waits.headD []) s with _ | packet
    · exact iff_of_true nofun ⟨[], _, rfl, Nat.zero_le 1⟩
    · dsimp only
      split
      · rename_i hmoved
        refine iff_of_false (fun h => ?_) nofun
        rw [(h packet rfl).1] at hmoved
        cases hmoved
      · rename_i hmoved
        rcases fetch_cases inputType rest waits.tail [(input, packet)]
            (take input packet (await inputType input (waits.headD []) s).1) with
          ⟨fault, hrun, hnone⟩ | ⟨more, s', hrun, -, hnil⟩
        · refine iff_of_false (fun h => hnone (h packet rfl).2) ?_
          rintro ⟨_, _, hok, -⟩
          rw [List.nil_append, hrun] at hok
          cases hok
        · rw [List.nil_append, hrun]
          constructor
          · intro h
            refine ⟨_, _, rfl, ?_⟩
            rw [hnil.2 (h packet rfl).2]
            exact le_refl 1
          · rintro ⟨_, _, hok, hle⟩ p hp
            cases hp
            cases hok
            refine ⟨Bool.eq_false_of_not_eq_true hmoved, hnil.1 (List.eq_nil_of_length_eq_zero ?_)⟩
            rw [List.length_append, List.length_singleton] at hle
            omega

/-! ## Runs -/

/-- All that has been fetched so far has been conveyed at once. -/
structure Level (s : Relay π) : Prop where
  dispatched : s.dispatched = s.fetched
  cycled : s.cycled = s.dispatched

theorem turn_of_fetch {t : Turn π} (hbusy : ¬ s.channel.getIdleTime t.now > 5 * 1000 * 1000)
    (hfetch : fetch inputType s.channel.inputQueue t.waits [] s = .ok (more, s')) :
    turn inputType t s = .ok (handOn more s') := by
  rw [turn, if_neg hbusy, hfetch]
  rfl

/-- Of a group, one packet is dispatched. -/
theorem lengths_handOn (h : Fetched s more s') :
    (handOn more s').1.fetched.length = s.fetched.length + more.length
      ∧ (handOn more s').1.dispatched.length = s.dispatched.length + min 1 more.length := by
  cases more with
  | nil =>
    rw [handOn, h.fetched, h.dispatched, List.append_nil]
    exact ⟨rfl, rfl⟩
  | cons packet more =>
    refine ⟨?_, ?_⟩
    · rw [handOn, onCycle, dispatch, h.fetched, List.length_append]
    · rw [handOn, onCycle, dispatch, h.dispatched, List.length_append, List.length_singleton,
        List.length_cons, Nat.min_eq_left (by omega)]

/-- **What is not dispatched in its turn is lost.** -/
theorem handleCycle_lossy {turns : List (Turn π)}
    (hrun : handleCycle inputType turns s = .ok s')
    (h : s.dispatched.length < s.fetched.length) : s'.dispatched.length < s'.fetched.length := by
  induction turns generalizing s with
  | nil =>
    cases hrun
    exact h
  | cons t turns ih =>
    rw [handleCycle] at hrun
    by_cases hidle : s.channel.getIdleTime t.now > 5 * 1000 * 1000
    · rw [turn, if_pos hidle] at hrun
      cases hrun
      exact h
    · rcases fetch_cases inputType s.channel.inputQueue t.waits [] s with
        ⟨fault, hfetch, -⟩ | ⟨more, s₁, hfetch, hmore, -⟩
      · rw [turn, if_neg hidle, hfetch] at hrun
        cases hrun
      · obtain ⟨hfetched, hdispatched⟩ := lengths_handOn hmore
        rw [turn_of_fetch hidle hfetch, List.nil_append] at hrun
        have hlossy : (handOn more s₁).1.dispatched.length < (handOn more s₁).1.fetched.length := by
          omega
        cases more with
        | nil =>
          cases hrun
          exact hlossy
        | cons packet more => exact ih hrun hlossy

/-- Packets that are the same for every input are as many. -/
theorem Conveyed.length_eq (h : Conveyed s) : s.dispatched.length = s.fetched.length := by
  classical
  refine List.Perm.length_eq (List.perm_iff_count.2 fun x => ?_)
  have hcount : ∀ l : List (Ref × π), l.count x = (l.filter fun y => y.1 = x.1).count x :=
    fun l => (List.count_filter (by simp)).symm
  rw [hcount, hcount s.fetched, h.dispatched]

theorem Level.conveyed (h : Level s) : Conveyed s :=
  ⟨fun _ => by rw [h.dispatched], h.cycled⟩

/-- A turn with one packet at most. -/
theorem Level.handOn (h : Level s) (hmore : Fetched s more s') (hle : more.length ≤ 1) :
    Level (MediaSource.handOn more s').1 := by
  obtain _ | ⟨packet, _ | ⟨second, more⟩⟩ := more
  · refine ⟨?_, ?_⟩
    · rw [MediaSource.handOn, hmore.dispatched, hmore.fetched, List.append_nil, h.dispatched]
    · rw [MediaSource.handOn, hmore.cycled, hmore.dispatched, h.cycled]
  · refine ⟨?_, ?_⟩
    · rw [MediaSource.handOn, onCycle, dispatch, hmore.dispatched, hmore.fetched, h.dispatched]
    · rw [MediaSource.handOn, onCycle, dispatch, hmore.dispatched, hmore.cycled, h.cycled]
  · rw [List.length_cons, List.length_cons] at hle
    omega

/-- **Over a run**, from a state in which nothing has been lost. -/
theorem Level.handleCycle_iff (h : Level s) (turns : List (Turn π)) :
    (∃ s', handleCycle inputType turns s = .ok s' ∧ Conveyed s')
      ↔ EachBringsOne inputType turns s := by
  induction turns generalizing s with
  | nil => exact iff_of_true ⟨s, rfl, h.conveyed⟩ trivial
  | cons t turns ih =>
    rw [handleCycle, EachBringsOne]
    by_cases hidle : s.channel.getIdleTime t.now > 5 * 1000 * 1000
    · have hturn : turn inputType t s = .ok (s, false) := if_pos hidle
      rw [hturn]
      exact iff_of_true ⟨s, rfl, h.conveyed⟩ ⟨fun hbusy => absurd hidle (not_lt.2 hbusy), nofun⟩
    · have hbusy : s.channel.getIdleTime t.now ≤ 5 * 1000 * 1000 := not_lt.1 hidle
      rcases fetch_cases inputType s.channel.inputQueue t.waits [] s with
        ⟨fault, hfetch, -⟩ | ⟨more, s₁, hfetch, hmore, -⟩
      · have hturn : turn inputType t s = .error fault := by
          rw [turn, if_neg hidle, hfetch]
          rfl
        rw [hturn]
        refine iff_of_false nofun (fun heach => ?_)
        obtain ⟨_, _, hok, -⟩ := (bringsOne_iff _ _ _).1 (heach.1 hbusy)
        rw [hfetch] at hok
        cases hok
      · rw [List.nil_append] at hfetch
        rw [turn_of_fetch hidle hfetch]
        by_cases hle : more.length ≤ 1
        · have hone := (bringsOne_iff _ _ _).2 ⟨more, s₁, hfetch, hle⟩
          have hlevel := h.handOn hmore hle
          obtain _ | ⟨packet, more⟩ := more
          · exact iff_of_true ⟨s₁, rfl, hlevel.conveyed⟩ ⟨fun _ => hone, nofun⟩
          · refine (ih hlevel).trans ⟨fun heach => ⟨fun _ => hone, ?_⟩, fun heach => heach.2 _ rfl⟩
            rintro s' hs'
            cases hs'
            exact heach
        · obtain ⟨hfetched, hdispatched⟩ := lengths_handOn hmore
          have hlevel := congrArg List.length h.dispatched
          have hlossy : (MediaSource.handOn more s₁).1.dispatched.length
              < (MediaSource.handOn more s₁).1.fetched.length := by
            omega
          obtain _ | ⟨packet, more⟩ := more
          · exact absurd (Nat.zero_le 1) hle
          · refine iff_of_false ?_ (fun heach => ?_)
            · rintro ⟨s', hrun, hconveyed⟩
              exact absurd hconveyed.length_eq (handleCycle_lossy hrun hlossy).ne
            · obtain ⟨_, _, hok, hone⟩ := (bringsOne_iff _ _ _).1 (heach.1 hbusy)
              rw [hfetch] at hok
              cases hok
              exact hle hone

end Logs

/-- A channel and its queues, of which nothing has been fetched yet. -/
def start (channel : Channel) (inputs outputs : Ref → PacketQueue π) : Relay π :=
  { channel, inputs, outputs }

/-- **When `handle_cycle` conveys what it fetches.**  Over any run, every packet that is fetched is
dispatched and passed to `on_cycle` once, in the order of its input, exactly when no turn fetches a
second packet, or fetches one from inputs that have been changed while it waited.  What is
dispatched comes into the queues of all outputs. -/
theorem packets_conveyed_iff (inputType : Ref → EInputType) (channel : Channel)
    (inputs outputs : Ref → PacketQueue π) (turns : List (Turn π)) :
    ((∃ s', handleCycle inputType turns (start channel inputs outputs) = .ok s' ∧ Conveyed s')
      ↔ EachBringsOne inputType turns (start channel inputs outputs))
      ∧ EachReaches inputType turns (start channel inputs outputs) :=
  ⟨Level.handleCycle_iff ⟨rfl, rfl⟩ turns, eachReaches inputType turns _⟩

/-- **The packet of a second input is lost.** -/
theorem second_packet_lost :
    ¬ ∃ s', handleCycle (fun _ => .origin) [⟨0, []⟩]
        (start { inputQueue := [1, 2] } (fun input => ⟨[input]⟩) fun _ => {}) = .ok s'
      ∧ Conveyed s' := by
  rintro ⟨s', hrun, hconveyed⟩
  have hlengths : (handleCycle (fun _ => .origin) [⟨0, []⟩]
      (start { inputQueue := [1, 2] } (fun input => ⟨[input]⟩) fun _ => {})).toOption.map
        (fun s => (s.dispatched.length, s.fetched.length)) = some (1, 2) := by
    decide
  rw [hrun] at hlengths
  change some (s'.dispatched.length, s'.fetched.length) = _ at hlengths
  rw [Option.some.injEq, Prod.mk.injEq, hconveyed.length_eq] at hlengths
  omega

end MediaSource

end SmartStreaming
