import SmartStreaming.Base.StdString
import SmartStreaming.Cache.Channel
import SmartStreaming.Cache.File

/-!
# Cache/Segments — `SegmentsCache` of `tmss_segment.cpp`

Packets are cut into segments, each of them a file in the cache.  The first file is named after the
packet that opens it, every later one after the first packet of the segment before it
(`files_named_own_iff`).  What the mux of a segment answers to a packet is an outcome of the step.
-/

namespace SmartStreaming

/-- The value of an `int64_t` expression, if it is an `int64_t`. -/
def toCInt64 (x : ℤ) : Option ℤ := if -2 ^ 63 ≤ x ∧ x < 2 ^ 63 then some x else none

/-- What `SegmentsCache` asks of a packet. -/
structure MediaPacket where
  timestamp : ℤ
  isKeyFrame : Bool
  deriving DecidableEq

/-- `class SegmentHandler`; `duration_ms` is an `int`, the timestamps are `int64_t`. -/
structure SegmentHandler where
  file : Ref
  durationMs : ℤ := 0
  lastTimestamp : ℤ := 0
  firstTimestamp : ℤ := 0
  deriving DecidableEq

namespace SegmentHandler

def appendPts (pts : ℤ) (segment : SegmentHandler) : Except Fault SegmentHandler :=
  if segment.lastTimestamp > 0 then
    match (toCInt64 (pts - segment.lastTimestamp)).bind fun d =>
      toCInt64 (segment.durationMs + d) with
    | none => .error .signedOverflow
    | some duration => .ok { segment with durationMs := (BitVec.ofInt 32 duration).toInt }
  else .ok segment

/-- `handle_packet`, where the mux returns `ret`. -/
def handlePacket (timestamp ret : ℤ) (segment : SegmentHandler) : SegmentHandler :=
  if ret ≠ errorSuccess then segment
  else
    { segment with
      lastTimestamp := timestamp
      firstTimestamp := if segment.firstTimestamp = 0 then timestamp else segment.firstTimestamp }

end SegmentHandler

/-- `class SegmentsCache`; `fresh` is the next file to be made. -/
structure SegmentsCache where
  staticCache : FileCache Ref := {}
  currentSegment : Option SegmentHandler := none
  segmentEnable : Bool := true
  cacheName : Bytes := []
  fresh : Ref := 0

namespace SegmentsCache

def fileName (timestamp : ℤ) (c : SegmentsCache) : Bytes := c.cacheName ++ toStringInt timestamp

/-- A new file, stored under the name for `timestamp`, and its handler. -/
def openSegment (timestamp : ℤ) (c : SegmentsCache) : SegmentsCache × SegmentHandler :=
  ({ c with
      staticCache := c.staticCache.addFile (c.fileName timestamp) c.fresh, fresh := c.fresh + 1 },
    { file := c.fresh })

/-- The current segment, or the first one. -/
def firstSegment (packet : MediaPacket) (c : SegmentsCache) : SegmentsCache × SegmentHandler :=
  match c.currentSegment with
  | some segment => (c, segment)
  | none => c.openSegment packet.timestamp

/-- A segment that is long enough ends before a key frame. -/
def nextSegment (packet : MediaPacket) (segment : SegmentHandler) (c : SegmentsCache) :
    SegmentsCache × SegmentHandler :=
  if segment.durationMs ≥ 5 * 1000 ∧ packet.isKeyFrame = true then
    c.openSegment segment.firstTimestamp
  else (c, segment)

/-- `current_segment->handle_packet(packet)`, and the return code. -/
def toSegment (packet : MediaPacket) (ret : ℤ) (segment : SegmentHandler) (c : SegmentsCache) :
    SegmentsCache × ℤ :=
  ({ c with currentSegment := some (segment.handlePacket packet.timestamp ret) }, ret)

/-- `handle_packet`. -/
def handlePacket (packet : MediaPacket) (ret : ℤ) (c : SegmentsCache) :
    Except Fault (SegmentsCache × ℤ) :=
  if c.segmentEnable = false then .ok (c, errorSuccess)
  else
    ((c.firstSegment packet).2.appendPts packet.timestamp).map fun segment =>
      let next := (c.firstSegment packet).1.nextSegment packet segment
      next.1.toSegment packet ret next.2

/-- The packet ends the current segment: what that one's first timestamp is, the name of the next
one's file is made of. -/
def Cuts (packet : MediaPacket) (segment : SegmentHandler) (c : SegmentsCache) : Prop :=
  c.segmentEnable = true ∧ ∃ before, c.currentSegment = some before
    ∧ before.appendPts packet.timestamp = .ok segment
    ∧ segment.durationMs ≥ 5 * 1000 ∧ packet.isKeyFrame = true

end SegmentsCache

/-! ## Runs -/

/-- A segment that has been opened: the timestamp of its own first packet, and its file. -/
structure Segment where
  timestamp : ℤ
  file : Ref
  deriving DecidableEq

/-- The cache and all the segments it has opened. -/
structure Segmented where
  cache : SegmentsCache
  opened : List Segment := []

namespace Segmented

/-- A packet has opened a segment if a file was made. -/
def record (packet : MediaPacket) (s : Segmented) (cache : SegmentsCache) : Segmented where
  cache := cache
  opened := s.opened
    ++ if cache.fresh = s.cache.fresh then [] else [⟨packet.timestamp, s.cache.fresh⟩]

def step (packet : MediaPacket) (ret : ℤ) (s : Segmented) : Except Fault Segmented :=
  (s.cache.handlePacket packet ret).map fun out => s.record packet out.1

/-- A sequence of packets, each with what the mux answers. -/
def run : List (MediaPacket × ℤ) → Segmented → Except Fault Segmented
  | [], s => .ok s
  | p :: packets, s => (s.step p.1 p.2).bind (run packets)

/-- **Every segment is found under a name of its own.** -/
def Kept (s : Segmented) : Prop :=
  ∀ segment ∈ s.opened,
    s.cache.staticCache.getFile (s.cache.fileName segment.timestamp) = some segment.file

/-- Whenever a packet ends a segment, that segment's first timestamp is the packet's own. -/
def CutsRight : List (MediaPacket × ℤ) → Segmented → Prop
  | [], _ => True
  | p :: packets, s =>
    (∀ segment, s.cache.Cuts p.1 segment → segment.firstTimestamp = p.1.timestamp)
      ∧ ∀ s', s.step p.1 p.2 = .ok s' → CutsRight packets s'

/-! ## What a packet does -/

variable {s s' : Segmented} {packet : MediaPacket} {ret : ℤ}

/-- **What a packet does to the files**: nothing, or it makes one, named after the timestamp
`named`. -/
inductive Stepped (packet : MediaPacket) (s s' : Segmented) : Prop
  | same (files : s'.cache.staticCache = s.cache.staticCache)
      (fresh : s'.cache.fresh = s.cache.fresh)
      (name : s'.cache.cacheName = s.cache.cacheName) (opened : s'.opened = s.opened)
      (cuts : ∀ segment, ¬ s.cache.Cuts packet segment)
  | opens (named : ℤ)
      (files : s'.cache.staticCache
        = s.cache.staticCache.addFile (s.cache.fileName named) s.cache.fresh)
      (fresh : s'.cache.fresh = s.cache.fresh + 1)
      (name : s'.cache.cacheName = s.cache.cacheName)
      (opened : s'.opened = s.opened ++ [⟨packet.timestamp, s.cache.fresh⟩])
      (cuts : (∀ segment, s.cache.Cuts packet segment → segment.firstTimestamp = packet.timestamp)
        ↔ named = packet.timestamp)

theorem opened_record_same {cache : SegmentsCache} (h : cache.fresh = s.cache.fresh) :
    (s.record packet cache).opened = s.opened := by
  rw [record, if_pos h, List.append_nil]

theorem opened_record_new {cache : SegmentsCache} (h : cache.fresh = s.cache.fresh + 1) :
    (s.record packet cache).opened = s.opened ++ [⟨packet.timestamp, s.cache.fresh⟩] := by
  rw [record, if_neg (by rw [h]; exact Nat.succ_ne_self _)]

/-- **One packet opens at most one segment.** -/
theorem stepped (h : s.step packet ret = .ok s') : Stepped packet s s' := by
  rw [step, SegmentsCache.handlePacket] at h
  split at h
  · rename_i hdisabled
    cases h
    refine .same rfl rfl rfl (opened_record_same rfl) ?_
    rintro segment ⟨henabled, -⟩
    rw [hdisabled] at henabled
    cases henabled
  · rename_i henabled
    rw [SegmentsCache.firstSegment] at h
    rcases hcurrent : s.cache.currentSegment with _ | before
    · -- the first segment has no duration yet
      rw [hcurrent] at h
      cases h
      refine .opens packet.timestamp rfl rfl rfl (opened_record_new rfl) ⟨fun _ => rfl, fun _ => ?_⟩
      rintro segment ⟨-, before, hsome, -⟩
      rw [hcurrent] at hsome
      cases hsome
    · rw [hcurrent] at h
      dsimp only at h
      rcases happend : before.appendPts packet.timestamp with e | segment
      · rw [happend] at h
        cases h
      · rw [happend] at h
        cases h
        have hunique : ∀ segment', s.cache.Cuts packet segment' → segment' = segment := by
          rintro segment' ⟨-, before', hsome, hok, -⟩
          rw [hcurrent] at hsome
          rw [← Option.some.inj hsome, happend] at hok
          exact (Except.ok.inj hok).symm
        change Stepped packet s (s.record packet ((s.cache.nextSegment packet segment).1.toSegment
          packet ret (s.cache.nextSegment packet segment).2).1)
        by_cases hcut : segment.durationMs ≥ 5 * 1000 ∧ packet.isKeyFrame = true
        · have hcuts : s.cache.Cuts packet segment :=
            ⟨Bool.eq_true_of_not_eq_false henabled, before, hcurrent, happend, hcut⟩
          rw [SegmentsCache.nextSegment, if_pos hcut]
          refine .opens segment.firstTimestamp rfl rfl rfl (opened_record_new rfl) ⟨?_, ?_⟩
          · intro hall
            exact hall segment hcuts
          · intro hnamed segment' hcuts'
            rw [hunique segment' hcuts', hnamed]
        · rw [SegmentsCache.nextSegment, if_neg hcut]
          refine .same rfl rfl rfl (opened_record_same rfl) ?_
          intro segment' hcuts
          obtain ⟨-, -, -, -, hlong⟩ := id hcuts
          rw [hunique segment' hcuts] at hlong
          exact hcut hlong

/-! ## Runs -/

/-- What is in the cache and what has been opened was made before. -/
structure Sound (s : Segmented) : Prop where
  cached_lt : ∀ name file, s.cache.staticCache.getFile name = some file → file < s.cache.fresh
  opened_lt : ∀ segment ∈ s.opened, segment.file < s.cache.fresh

theorem Sound.step (h : Sound s) (hstep : s.step packet ret = .ok s') : Sound s' := by
  cases stepped hstep with
  | same files fresh name opened cuts =>
    refine ⟨fun name file => ?_, fun segment => ?_⟩
    · rw [files, fresh]
      exact h.cached_lt name file
    · rw [opened, fresh]
      exact h.opened_lt segment
  | opens named files fresh name opened cuts =>
    refine ⟨fun name file hfile => ?_, fun segment hsegment => ?_⟩
    · rw [files, FileCache.getFile_addFile] at hfile
      rw [fresh]
      split at hfile
      · rw [← Option.some.inj hfile]
        exact Nat.lt_succ_self _
      · exact (h.cached_lt name file hfile).trans (Nat.lt_succ_self _)
    · rw [opened, List.mem_append, List.mem_singleton] at hsegment
      rw [fresh]
      rcases hsegment with hold | rfl
      · exact (h.opened_lt segment hold).trans (Nat.lt_succ_self _)
      · exact Nat.lt_succ_self _

/-- Different timestamps make different names. -/
theorem fileName_injective (c : SegmentsCache) {a b : ℤ} (h : c.fileName a = c.fileName b) :
    a = b :=
  toStringInt_injective (List.append_cancel_left h)

/-- **One packet keeps all segments** if it finds them kept and names a new one's file after its own
timestamp; and only then. -/
theorem kept_step_iff (h : Sound s) (hstep : s.step packet ret = .ok s')
    (hdistinct : (s'.opened.map Segment.timestamp).Nodup) :
    s'.Kept ↔ (∀ segment, s.cache.Cuts packet segment → segment.firstTimestamp = packet.timestamp)
      ∧ s.Kept := by
  cases stepped hstep with
  | same files fresh name opened cuts =>
    have hnames : ∀ t, s'.cache.fileName t = s.cache.fileName t := fun t => by
      rw [SegmentsCache.fileName, name, SegmentsCache.fileName]
    have hkept : s'.Kept ↔ s.Kept := by
      simp only [Kept, opened, files, hnames]
    rw [hkept, iff_and_self]
    exact fun _ segment hcuts => absurd hcuts (cuts segment)
  | opens named files fresh name opened cuts =>
    have hget : ∀ t, s'.cache.staticCache.getFile (s'.cache.fileName t)
        = if t = named then some s.cache.fresh
          else s.cache.staticCache.getFile (s.cache.fileName t) := by
      intro t
      have hname : s'.cache.fileName t = s.cache.fileName t := by
        rw [SegmentsCache.fileName, name, SegmentsCache.fileName]
      rw [files, FileCache.getFile_addFile, hname]
      refine if_congr ⟨fileName_injective s.cache, ?_⟩ rfl rfl
      rintro rfl
      rfl
    rw [cuts]
    constructor
    · intro hkept
      have hnew := hkept ⟨packet.timestamp, s.cache.fresh⟩
        (by rw [opened]; exact List.mem_append_right _ (List.mem_singleton_self _))
      have hnamed : named = packet.timestamp := by
        by_contra hne
        rw [hget, if_neg (Ne.symm hne)] at hnew
        exact absurd (h.cached_lt _ _ hnew) (lt_irrefl _)
      refine ⟨hnamed, fun segment hsegment => ?_⟩
      have hold := hkept segment (by rw [opened]; exact List.mem_append_left _ hsegment)
      rw [hget] at hold
      split at hold
      · have hlt := h.opened_lt segment hsegment
        rw [← Option.some.inj hold] at hlt
        exact absurd hlt (lt_irrefl _)
      · exact hold
    · rintro ⟨rfl, hkept⟩ segment hsegment
      rw [opened, List.map_append, List.nodup_append] at hdistinct
      rw [opened, List.mem_append, List.mem_singleton] at hsegment
      rw [hget]
      rcases hsegment with hold | rfl
      · have hne : segment.timestamp ≠ packet.timestamp :=
          hdistinct.2.2 _ (List.mem_map_of_mem hold) _ (List.mem_singleton_self _)
        rw [if_neg hne]
        exact hkept segment hold
      · rw [if_pos rfl]

/-- What has been opened stays on the list. -/
theorem opened_prefix_step (hstep : s.step packet ret = .ok s') : s.opened <+: s'.opened := by
  cases stepped hstep with
  | same files fresh name opened cuts => rw [opened]
  | opens named files fresh name opened cuts =>
    rw [opened]
    exact List.prefix_append _ _

theorem run_cons_eq_ok {p : MediaPacket × ℤ} {packets : List (MediaPacket × ℤ)} {s'' : Segmented}
    (h : run (p :: packets) s = .ok s'') :
    ∃ s', s.step p.1 p.2 = .ok s' ∧ run packets s' = .ok s'' := by
  rw [run] at h
  rcases hstep : s.step p.1 p.2 with e | s'
  · rw [hstep] at h
    cases h
  · rw [hstep] at h
    exact ⟨s', rfl, h⟩

theorem opened_prefix_run {packets : List (MediaPacket × ℤ)} (hrun : run packets s = .ok s') :
    s.opened <+: s'.opened := by
  induction packets generalizing s with
  | nil =>
    cases hrun
    exact List.prefix_refl _
  | cons p packets ih =>
    obtain ⟨s₁, hstep, hrest⟩ := run_cons_eq_ok hrun
    exact (opened_prefix_step hstep).trans (ih hrest)

/-- **A run keeps all segments** where each of its cuts is right. -/
theorem kept_run_iff {packets : List (MediaPacket × ℤ)} (h : Sound s)
    (hrun : run packets s = .ok s') (hdistinct : (s'.opened.map Segment.timestamp).Nodup) :
    s'.Kept ↔ CutsRight packets s ∧ s.Kept := by
  induction packets generalizing s with
  | nil =>
    cases hrun
    rw [CutsRight, true_and]
  | cons p packets ih =>
    obtain ⟨s₁, hstep, hrest⟩ := run_cons_eq_ok hrun
    have hdistinct₁ : (s₁.opened.map Segment.timestamp).Nodup :=
      hdistinct.sublist ((opened_prefix_run hrest).map _).sublist
    have hall : (∀ t, s.step p.1 p.2 = .ok t → CutsRight packets t) ↔ CutsRight packets s₁ := by
      constructor
      · intro hright
        exact hright s₁ hstep
      · intro hright t ht
        rw [hstep] at ht
        rwa [← Except.ok.inj ht]
    rw [ih (h.step hstep) hrest, kept_step_iff h hstep hdistinct₁, CutsRight, hall]
    exact ⟨fun ⟨h₁, h₂, h₃⟩ => ⟨⟨h₂, h₁⟩, h₃⟩, fun ⟨⟨h₂, h₁⟩, h₃⟩ => ⟨h₁, h₂, h₃⟩⟩

/-- A new cache of that name. -/
def new (cacheName : Bytes) : Segmented := { cache := { cacheName } }

theorem sound_new (cacheName : Bytes) : Sound (new cacheName) := by
  refine ⟨?_, ?_⟩
  · intro name file h
    cases h
  · intro segment h
    cases h

/-- **The files of all segments are kept under names of their own exactly where each packet that
opens a segment behind another carries that one's first timestamp.** -/
theorem files_named_own_iff {cacheName : Bytes} {packets : List (MediaPacket × ℤ)} {s : Segmented}
    (hrun : run packets (new cacheName) = .ok s)
    (hdistinct : (s.opened.map Segment.timestamp).Nodup) :
    s.Kept ↔ CutsRight packets (new cacheName) := by
  have hkept : (new cacheName).Kept := fun segment h => absurd h List.not_mem_nil
  rw [kept_run_iff (sound_new cacheName) hrun hdistinct]
  exact and_iff_left hkept

/-- Two key frames that are five seconds apart. -/
def twoKeyFrames : List (MediaPacket × ℤ) := [(⟨1000, true⟩, 0), (⟨6000, true⟩, 0)]

theorem files_named_own_iff_two_key_frames :
    ∃ s, run twoKeyFrames (new (text "cam")) = .ok s ∧ (s.opened.map Segment.timestamp).Nodup
      ∧ (s.Kept ↔ CutsRight twoKeyFrames (new (text "cam"))) :=
  ⟨_, rfl, by decide, files_named_own_iff rfl (by decide)⟩

/-- **The second segment's file takes the name of the first one's**, which is found no more. -/
theorem second_segment_replaces_first :
    ∃ s, run twoKeyFrames (new []) = .ok s ∧ s.opened = [⟨1000, 0⟩, ⟨6000, 1⟩] ∧ ¬ s.Kept
      ∧ s.cache.staticCache.getFile (text "1000") = some 1
      ∧ s.cache.staticCache.getFile (text "6000") = none := by
  refine ⟨_, rfl, by decide, fun hkept => ?_, by decide, by decide⟩
  have hfirst := hkept ⟨1000, 0⟩ (by decide)
  revert hfirst
  decide

end Segmented

end SmartStreaming
