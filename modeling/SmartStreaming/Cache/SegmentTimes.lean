import SmartStreaming.Cache.Segments
import SmartStreaming.Machinery.Trace

/-!
# Cache/SegmentTimes — when a packet opens a segment

A segment should end at the first key frame that is five seconds younger than its first packet.
`duration_ms` adds up the distances to `last_timestamp`, which has `0` for unset and stays where it
was when the mux rejects a packet.  It is the segment's age (`Aged`) as long as neither gets in the
way (`InTime`); then a packet opens a segment exactly when it should (`opens_when_due`).
-/

namespace SmartStreaming

open Machinery

/-! ## The age of a segment -/

/-- **The duration is the age at the last packet taken**, of a segment whose first packet came at
`first`; or no packet was taken yet that was not at `0`; or both are beyond five seconds. -/
inductive SegmentHandler.Aged (now first : ℤ) (segment : SegmentHandler) : Prop
  | unset (last : segment.lastTimestamp = 0) (duration : segment.durationMs = 0)
  | exact (pos : 0 < segment.lastTimestamp) (first_le : first ≤ segment.lastTimestamp)
      (le : segment.lastTimestamp ≤ now)
      (duration : segment.durationMs = segment.lastTimestamp - first)
  | old (pos : 0 < segment.lastTimestamp) (le : segment.lastTimestamp ≤ now)
      (duration : 5 * 1000 ≤ segment.durationMs) (age : 5 * 1000 ≤ now - first)

/-- **The packets that keep the age**: at the first one's time as long as `last_timestamp` is unset;
afterwards the duration stays an `int`, and a packet is taken, or comes with the last one taken, or
finds the segment five seconds old. -/
def SegmentHandler.InTime (first timestamp ret : ℤ) (segment : SegmentHandler) : Prop :=
  (segment.lastTimestamp = 0 ∧ timestamp = first)
    ∨ (0 < segment.lastTimestamp
        ∧ segment.durationMs + (timestamp - segment.lastTimestamp) < 2 ^ 31
        ∧ (ret = errorSuccess ∨ timestamp = segment.lastTimestamp ∨ 5 * 1000 ≤ timestamp - first))

namespace SegmentHandler

variable {segment : SegmentHandler} {now first timestamp ret : ℤ}

theorem appendPts_of_pos (hpos : 0 < segment.lastTimestamp)
    (hle : segment.lastTimestamp ≤ timestamp) (hduration : 0 ≤ segment.durationMs)
    (hlt : segment.durationMs + (timestamp - segment.lastTimestamp) < 2 ^ 31) :
    segment.appendPts timestamp = .ok { segment with
      durationMs := segment.durationMs + (timestamp - segment.lastTimestamp) } := by
  have hdelta : toCInt64 (timestamp - segment.lastTimestamp)
      = some (timestamp - segment.lastTimestamp) := if_pos (by omega)
  have hsum : toCInt64 (segment.durationMs + (timestamp - segment.lastTimestamp))
      = some (segment.durationMs + (timestamp - segment.lastTimestamp)) := if_pos (by omega)
  have hint : (BitVec.ofInt 32 (segment.durationMs + (timestamp - segment.lastTimestamp))).toInt
      = segment.durationMs + (timestamp - segment.lastTimestamp) := by
    rw [BitVec.toInt_ofInt]
    exact Int.bmod_eq_of_le (by omega) (by omega)
  rw [appendPts, if_pos hpos, hdelta, Option.bind_some, hsum]
  dsimp only
  rw [hint]

theorem appendPts_of_unset (h : segment.lastTimestamp = 0) :
    segment.appendPts timestamp = .ok segment := by
  rw [appendPts, if_neg (by omega)]

theorem handlePacket_of_taken (segment : SegmentHandler) (timestamp : ℤ)
    (h : ret = errorSuccess) :
    (segment.handlePacket timestamp ret).lastTimestamp = timestamp
      ∧ (segment.handlePacket timestamp ret).durationMs = segment.durationMs := by
  rw [handlePacket, if_neg (not_not.2 h)]
  exact ⟨rfl, rfl⟩

theorem handlePacket_of_rejected (h : ret ≠ errorSuccess) :
    segment.handlePacket timestamp ret = segment := if_pos h

/-- The packet that opens a segment. -/
theorem aged_handlePacket_new (h₀ : 0 ≤ timestamp) (file : Ref) :
    (SegmentHandler.handlePacket timestamp ret { file }).Aged timestamp timestamp := by
  by_cases hret : ret = errorSuccess
  · obtain ⟨hlast, hduration⟩ := handlePacket_of_taken { file } timestamp hret
    rcases h₀.eq_or_lt with hzero | hpos
    · exact .unset (hlast.trans hzero.symm) hduration
    · exact .exact (by omega) hlast.ge hlast.le (by rw [hduration, hlast, sub_self])
  · rw [handlePacket_of_rejected hret]
    exact .unset rfl rfl

/-- A packet that adds to a duration which is the age already, or late enough. -/
theorem Aged.handlePacket (hpos : 0 < segment.lastTimestamp)
    (hle : segment.lastTimestamp ≤ timestamp) (hfirst : first ≤ timestamp)
    (hduration : segment.durationMs = timestamp - first
      ∨ 5 * 1000 ≤ segment.durationMs ∧ 5 * 1000 ≤ timestamp - first)
    (htaken : ret = errorSuccess ∨ timestamp = segment.lastTimestamp
      ∨ 5 * 1000 ≤ timestamp - first) :
    (segment.handlePacket timestamp ret).Aged timestamp first := by
  by_cases hret : ret = errorSuccess
  · obtain ⟨hlast, hsame⟩ := handlePacket_of_taken segment timestamp hret
    rcases hduration with hexact | ⟨hlong, hage⟩
    · exact .exact (by omega) (by omega) hlast.le (by omega)
    · exact .old (by omega) hlast.le (by omega) hage
  · rw [handlePacket_of_rejected hret]
    rcases htaken.resolve_left hret with hsame | hage
    · rcases hduration with hexact | ⟨hlong, hage⟩
      · exact .exact hpos (by omega) hle (by omega)
      · exact .old hpos hle hlong hage
    · exact .old hpos hle (by omega) hage

/-- **A packet in time**: the duration tells whether five seconds have passed, and stays the age. -/
theorem Aged.appendPts (h : segment.Aged now first) (hfirst : 0 ≤ first) (hnow : first ≤ now)
    (hle : now ≤ timestamp) (hin : segment.InTime first timestamp ret) :
    ∃ segment', segment.appendPts timestamp = .ok segment'
      ∧ (5 * 1000 ≤ segment'.durationMs ↔ 5 * 1000 ≤ timestamp - first)
      ∧ (segment'.handlePacket timestamp ret).Aged timestamp first := by
  rcases hin with ⟨hunset, rfl⟩ | ⟨hset, hint, htaken⟩
  · have hduration : segment.durationMs = 0 := by
      cases h with
      | unset _ duration => exact duration
      | exact pos _ _ _ => omega
      | old pos _ _ _ => omega
    refine ⟨segment, appendPts_of_unset hunset, by omega, ?_⟩
    by_cases hret : ret = errorSuccess
    · obtain ⟨hlast, hsame⟩ := handlePacket_of_taken segment timestamp hret
      rcases hfirst.eq_or_lt with hzero | hpos
      · exact .unset (hlast.trans hzero.symm) (hsame.trans hduration)
      · exact .exact (by omega) hlast.ge hlast.le (by omega)
    · rw [handlePacket_of_rejected hret]
      exact .unset hunset hduration
  · have hage : segment.lastTimestamp ≤ now
        ∧ (segment.durationMs = segment.lastTimestamp - first ∧ first ≤ segment.lastTimestamp
          ∨ 5 * 1000 ≤ segment.durationMs ∧ 5 * 1000 ≤ now - first) := by
      cases h with
      | unset last _ => omega
      | exact _ first_le le duration => exact ⟨le, Or.inl ⟨duration, first_le⟩⟩
      | old _ le duration age => exact ⟨le, Or.inr ⟨duration, age⟩⟩
    refine ⟨_, appendPts_of_pos hset (by omega) (by omega) hint, ?_, ?_⟩
    · dsimp only
      omega
    · refine Aged.handlePacket hset ?_ (by omega) ?_ htaken
      · dsimp only
        omega
      · dsimp only
        omega

end SegmentHandler

/-! ## What a packet opens -/

namespace Segmented

variable {t t' : Segmented} {packet : MediaPacket} {ret : ℤ}

/-- The packet has opened a segment and is its first. -/
structure OpensSegment (packet : MediaPacket) (ret : ℤ) (t t' : Segmented) : Prop where
  enabled : t'.cache.segmentEnable = true
  opened : t'.opened = t.opened ++ [⟨packet.timestamp, t.cache.fresh⟩]
  current : t'.cache.currentSegment
    = some (SegmentHandler.handlePacket packet.timestamp ret { file := t.cache.fresh })

/-- The packet was added to the segment. -/
structure StaysIn (segment : SegmentHandler) (t t' : Segmented) : Prop where
  enabled : t'.cache.segmentEnable = true
  opened : t'.opened = t.opened
  current : t'.cache.currentSegment = some segment

theorem opensSegment_first (packet : MediaPacket) (ret : ℤ)
    (henabled : t.cache.segmentEnable = true) (hnone : t.cache.currentSegment = none) :
    ∃ t', t.step packet ret = .ok t' ∧ OpensSegment packet ret t t' := by
  have hdisabled : ¬ t.cache.segmentEnable = false := by
    rw [henabled]
    exact Bool.noConfusion
  rw [step, SegmentsCache.handlePacket, if_neg hdisabled, SegmentsCache.firstSegment, hnone]
  exact ⟨_, rfl, henabled, opened_record_new rfl, rfl⟩

theorem step_of_appendPts {before segment : SegmentHandler} (ret : ℤ)
    (henabled : t.cache.segmentEnable = true) (hcurrent : t.cache.currentSegment = some before)
    (happend : before.appendPts packet.timestamp = .ok segment) :
    ∃ t', t.step packet ret = .ok t'
      ∧ if 5 * 1000 ≤ segment.durationMs ∧ packet.isKeyFrame = true then
          OpensSegment packet ret t t'
        else StaysIn (segment.handlePacket packet.timestamp ret) t t' := by
  have hdisabled : ¬ t.cache.segmentEnable = false := by
    rw [henabled]
    exact Bool.noConfusion
  rw [step, SegmentsCache.handlePacket, if_neg hdisabled, SegmentsCache.firstSegment, hcurrent]
  dsimp only
  rw [happend]
  refine ⟨_, rfl, ?_⟩
  dsimp only
  by_cases hcut : 5 * 1000 ≤ segment.durationMs ∧ packet.isKeyFrame = true
  · rw [if_pos hcut, SegmentsCache.nextSegment, if_pos hcut]
    exact ⟨henabled, opened_record_new rfl, rfl⟩
  · rw [if_neg hcut, SegmentsCache.nextSegment, if_neg hcut]
    exact ⟨henabled, opened_record_same rfl, rfl⟩

/-! ## Streams of packets -/

/-- The cache, or how it has stopped, with the timestamp of the last packet. -/
abbrev Timed : Type := ℤ × Except Fault Segmented

/-- The next packet of a stream whose timestamps do not decrease, with what the mux answers. -/
def Next (s : Timed) (p : MediaPacket × ℤ) (s' : Timed) : Prop :=
  ∃ t, s.2 = .ok t ∧ s.1 ≤ p.1.timestamp ∧ s' = (p.1.timestamp, t.step p.1 p.2)

/-- A segment should be opened: there is none, or the packet is a key frame and at least five
seconds younger than the current one's first. -/
def Due (packet : MediaPacket) (t : Segmented) : Prop :=
  t.cache.currentSegment = none ∨ ∃ first, t.opened.getLast? = some first
    ∧ packet.isKeyFrame = true ∧ 5 * 1000 ≤ packet.timestamp - first.timestamp

/-- The packet is handled, and opens a segment if one should be opened and only then. -/
def OpensWhenDue (s : Timed) (p : MediaPacket × ℤ) (s' : Timed) : Prop :=
  ∃ t t', s.2 = .ok t ∧ s'.2 = .ok t' ∧ (t'.opened ≠ t.opened ↔ t.Due p.1)

/-- The packet is in time for the current segment. -/
def InTime (s : Timed) (p : MediaPacket × ℤ) (_ : Timed) : Prop :=
  ∀ t segment first, s.2 = .ok t → t.cache.currentSegment = some segment →
    t.opened.getLast? = some first → segment.InTime first.timestamp p.1.timestamp p.2

/-- **The current segment has its age.** -/
structure Timely (s : Timed) (t : Segmented) : Prop where
  eq_ok : s.2 = .ok t
  now_nonneg : 0 ≤ s.1
  enabled : t.cache.segmentEnable = true
  aged : ∀ segment, t.cache.currentSegment = some segment → ∃ first, t.opened.getLast? = some first
    ∧ 0 ≤ first.timestamp ∧ first.timestamp ≤ s.1 ∧ segment.Aged s.1 first.timestamp

theorem timely_new (cacheName : Bytes) : Timely (0, .ok (new cacheName)) (new cacheName) := by
  refine ⟨rfl, le_refl _, rfl, fun segment hsome => ?_⟩
  cases hsome

theorem OpensSegment.timely (h : OpensSegment packet ret t t') (h₀ : 0 ≤ packet.timestamp) :
    Timely (packet.timestamp, .ok t') t' := by
  refine ⟨rfl, h₀, h.enabled, fun segment hsome => ?_⟩
  rw [h.current] at hsome
  cases hsome
  refine ⟨⟨packet.timestamp, t.cache.fresh⟩, ?_, h₀, le_refl _,
    SegmentHandler.aged_handlePacket_new h₀ _⟩
  rw [h.opened, List.getLast?_append]
  rfl

theorem OpensSegment.opened_ne (h : OpensSegment packet ret t t') : t'.opened ≠ t.opened := by
  rw [h.opened]
  exact fun heq => absurd (List.append_right_eq_self.1 heq) (List.cons_ne_nil _ _)

/-- **One packet in time** opens a segment when it should, and leaves the age right. -/
theorem timely_step {s s' : Timed} {p : MediaPacket × ℤ} (h : ∃ t, Timely s t) (hnext : Next s p s')
    (hin : InTime s p s') : OpensWhenDue s p s' ∧ ∃ t', Timely s' t' := by
  obtain ⟨t, ht⟩ := h
  obtain ⟨_, hok, hle, rfl⟩ := hnext
  cases ht.eq_ok.symm.trans hok
  have h₀ := ht.now_nonneg.trans hle
  rcases hcurrent : t.cache.currentSegment with _ | before
  · obtain ⟨t', hstep, hopens⟩ := opensSegment_first p.1 p.2 ht.enabled hcurrent
    rw [hstep]
    exact ⟨⟨t, t', hok, rfl, iff_of_true hopens.opened_ne (Or.inl hcurrent)⟩, t', hopens.timely h₀⟩
  · obtain ⟨first, hfirst, hfirst₀, hfirst_le, haged⟩ := ht.aged before hcurrent
    obtain ⟨segment, happend, hlong, haged'⟩ :=
      haged.appendPts hfirst₀ hfirst_le hle (hin t before first hok hcurrent hfirst)
    obtain ⟨t', hstep, hcase⟩ := step_of_appendPts p.2 ht.enabled hcurrent happend
    have hdue : t.Due p.1
        ↔ 5 * 1000 ≤ segment.durationMs ∧ p.1.isKeyFrame = true := by
      rw [Due, hcurrent, hfirst, hlong]
      constructor
      · rintro (hnone | ⟨_, heq, hkey, hage⟩)
        · cases hnone
        · cases heq
          exact ⟨hage, hkey⟩
      · rintro ⟨hage, hkey⟩
        exact Or.inr ⟨first, rfl, hkey, hage⟩
    rw [hstep]
    split at hcase
    · rename_i hcut
      exact ⟨⟨t, t', hok, rfl, iff_of_true hcase.opened_ne (hdue.2 hcut)⟩, t', hcase.timely h₀⟩
    · rename_i hcut
      refine ⟨⟨t, t', hok, rfl, iff_of_false (not_not.2 hcase.opened) (mt hdue.1 hcut)⟩, t', rfl,
        h₀, hcase.enabled, fun segment' hsome => ?_⟩
      rw [hcase.current] at hsome
      cases hsome
      exact ⟨first, hcase.opened ▸ hfirst, hfirst₀, hfirst_le.trans hle, haged'⟩

/-- **Segments are opened when they should be**, over every stream of packets with timestamps that
do not decrease, whatever the mux rejects, all of whose packets are in time. -/
theorem opens_when_due {cacheName : Bytes} {tr : List ((MediaPacket × ℤ) × Timed)}
    (h : Along Next (0, .ok (new cacheName)) tr) (hin : Along InTime (0, .ok (new cacheName)) tr) :
    Along OpensWhenDue (0, .ok (new cacheName)) tr :=
  Along.of_guarded (I := fun s => ∃ t, Timely s t)
    (fun _ _ _ hs hnext hin => timely_step hs hnext hin) ⟨_, timely_new cacheName⟩ h hin

/-- The states that packets lead through. -/
def trace : Timed → List (MediaPacket × ℤ) → List ((MediaPacket × ℤ) × Timed)
  | _, [] => []
  | (_, s), p :: ps =>
    let s' := (p.1.timestamp, s.bind fun t => t.step p.1 p.2)
    (p, s') :: trace s' ps

theorem opens_when_due_two_key_frames :
    Along OpensWhenDue (0, .ok (new (text "cam")))
      (trace (0, .ok (new (text "cam"))) twoKeyFrames) := by
  refine opens_when_due ⟨⟨_, rfl, by decide, rfl⟩, ⟨_, rfl, by decide, rfl⟩, trivial⟩
    ⟨?_, ?_, trivial⟩
  · intro t segment first ht hsome
    cases ht
    cases hsome
  · intro t segment first ht hsome hfirst
    cases ht
    cases hsome
    cases hfirst
    exact Or.inr ⟨by decide, by decide, Or.inl rfl⟩

/-- **A stream that starts at zero opens its second segment late**: the first packet's time counts
as unset. -/
theorem segment_at_zero_stays_open :
    ∃ tr, Along Next (0, .ok (new [])) tr ∧ ¬ Along OpensWhenDue (0, .ok (new [])) tr := by
  refine ⟨trace (0, .ok (new [])) [(⟨0, true⟩, 0), (⟨1000, false⟩, 0), (⟨5000, true⟩, 0)],
    ⟨⟨_, rfl, by decide, rfl⟩, ⟨_, rfl, by decide, rfl⟩, ⟨_, rfl, by decide, rfl⟩, trivial⟩, ?_⟩
  rintro ⟨-, -, ⟨t, t', ht, ht', hiff⟩, -⟩
  cases ht
  cases ht'
  exact hiff.2 (Or.inr ⟨⟨0, 0⟩, rfl, rfl, by decide⟩) rfl

end Segmented

end SmartStreaming
