import SmartStreaming.Cache.FileRequests
import SmartStreaming.Cache.Segments

/-!
# Cache/SegmentPlay — the segments of a channel and the requests for them

The first request in mode `hls` gives the channel its `SegmentsCache`, and from then on `on_cycle`
hands every packet to it.  A request is served the file that this cache has under the request's key,
or is answered 404.  The cache has no name, since nothing sets `cache_name`, so that its files are
named by timestamps alone: `segments_served` says over every run which requests are ever served.
-/

namespace SmartStreaming

/-- A channel's `segment_cache`. -/
structure SegmentPlay where
  segmentCache : Option Segmented := none

namespace SegmentPlay

/-- What happens next: `on_cycle` is given a packet, which the mux of its segment answers with
`ret`, or a request for a segment comes. -/
inductive Event
  | packet (packet : MediaPacket) (ret : ℤ)
  | play (req : HttpRequest)

/-- `make_shared<SegmentsCache>(3, 10)`, if the channel has none. -/
def withSegments (s : SegmentPlay) : Segmented := s.segmentCache.getD (.new [])

/-- The file that `handle_play_segment` serves, if it does not answer 404: a segment's file has no
`total_length`, so that it is never complete, and none that is found has expired. -/
def served (req : HttpRequest) (s : SegmentPlay) : Option Ref :=
  s.withSegments.cache.staticCache.getFile req.fileKey

/-- One step. -/
def step (s : SegmentPlay) : Event → Except Fault SegmentPlay
  | .packet packet ret =>
    match s.segmentCache with
    | none => .ok s
    | some segments => (segments.step packet ret).map fun segments => ⟨some segments⟩
  | .play _ => .ok ⟨some s.withSegments⟩

/-- The timestamp of the packet of a step. -/
def Event.timestamp : Event → Option ℤ
  | .packet p _ => some p.timestamp
  | .play _ => none

/-- The timestamps of the packets that come after the first request. -/
def timestamps : List Event → List ℤ
  | [] => []
  | .packet _ _ :: events => timestamps events
  | .play _ :: events => events.filterMap Event.timestamp

/-- The state after a sequence of steps. -/
def run (s : SegmentPlay) : List Event → Except Fault SegmentPlay
  | [] => .ok s
  | e :: events => (s.step e).bind fun s => run s events

end SegmentPlay

/-- What is printed. -/
theorem isDigit_or_minus {t : ℤ} {x : Byte} (h : x ∈ toStringInt t) :
    x = 0x2d ∨ isDigit x = true := by
  cases t with
  | ofNat n => exact .inr (isDigit_of_mem_decimal h)
  | negSucc n =>
    rcases List.mem_cons.1 h with rfl | hx
    · exact .inl rfl
    · exact .inr (isDigit_of_mem_decimal hx)

/-! ## What a packet names -/

namespace SegmentHandler

/-- **The first timestamp of a segment** is that of a packet, unless the segment has no duration
yet. -/
structure Begun (timestamps : List ℤ) (segment : SegmentHandler) : Prop where
  mem : segment.firstTimestamp ≠ 0 → segment.firstTimestamp ∈ timestamps
  empty : segment.firstTimestamp = 0 → segment.durationMs = 0 ∧ segment.lastTimestamp ≤ 0

variable {timestamps : List ℤ} {segment segment' : SegmentHandler} {t : ℤ}

theorem begun_new (timestamps : List ℤ) (file : Ref) : Begun timestamps { file } :=
  ⟨fun h => absurd rfl h, fun _ => ⟨rfl, le_rfl⟩⟩

theorem Begun.mono {timestamps' : List ℤ} (h : segment.Begun timestamps)
    (hsub : timestamps ⊆ timestamps') : segment.Begun timestamps' :=
  ⟨fun hne => hsub (h.mem hne), h.empty⟩

theorem Begun.appendPts (h : segment.Begun timestamps) (hrun : segment.appendPts t = .ok segment') :
    segment'.Begun timestamps ∧ segment'.file = segment.file := by
  rw [SegmentHandler.appendPts] at hrun
  split at hrun
  · rename_i hpos
    split at hrun
    · cases hrun
    · cases hrun
      refine ⟨⟨h.mem, fun hzero => ?_⟩, rfl⟩
      exact absurd (h.empty hzero).2 (not_le.2 hpos)
  · cases hrun
    exact ⟨h, rfl⟩

/-- A packet that the segment has taken is one of those that have come. -/
theorem Begun.handlePacket (h : segment.Begun timestamps) (t ret : ℤ) :
    (segment.handlePacket t ret).Begun (timestamps ++ [t])
      ∧ (segment.handlePacket t ret).file = segment.file := by
  rw [SegmentHandler.handlePacket]
  split
  · exact ⟨⟨fun hne => List.mem_append_left _ (h.mem hne), h.empty⟩, rfl⟩
  · refine ⟨⟨fun hne => ?_, fun hzero => ?_⟩, rfl⟩
    · dsimp only at hne ⊢
      split
      · exact List.mem_append_right _ (List.mem_singleton_self t)
      · rename_i hfirst
        exact List.mem_append_left _ (h.mem hfirst)
    · dsimp only at hzero ⊢
      split at hzero
      · rename_i hfirst
        exact ⟨(h.empty hfirst).1, hzero.le⟩
      · rename_i hfirst
        exact absurd hzero hfirst

end SegmentHandler

namespace SegmentsCache

variable {timestamps : List ℤ} {c : SegmentsCache} {segment : SegmentHandler} {packet : MediaPacket}
variable {t : ℤ}

/-- The cache has no name, and each of its files is named by a timestamp. -/
structure Named (timestamps : List ℤ) (c : SegmentsCache) : Prop where
  cacheName : c.cacheName = []
  named : ∀ name file, c.staticCache.getFile name = some file →
    ∃ t ∈ timestamps, name = toStringInt t

/-- The segment's file is in the cache, which keeps it from being destroyed. -/
structure Writable (timestamps : List ℤ) (c : SegmentsCache) (segment : SegmentHandler) :
    Prop where
  begun : segment.Begun timestamps
  cached : ∃ name, c.staticCache.getFile name = some segment.file

theorem Named.mono {timestamps' : List ℤ} (h : c.Named timestamps)
    (hsub : timestamps ⊆ timestamps') : c.Named timestamps' where
  cacheName := h.cacheName
  named name file hfile :=
    let ⟨u, hu, hname⟩ := h.named name file hfile
    ⟨u, hsub hu, hname⟩

/-- A segment that is opened. -/
theorem Named.openSegment (h : c.Named timestamps) (ht : t ∈ timestamps) :
    (c.openSegment t).1.Named timestamps
      ∧ Writable timestamps (c.openSegment t).1 (c.openSegment t).2 := by
  have hget : ∀ name, (c.openSegment t).1.staticCache.getFile name
      = if name = toStringInt t then some c.fresh else c.staticCache.getFile name := by
    intro name
    have hname : c.fileName t = toStringInt t := by
      rw [fileName, h.cacheName, List.nil_append]
    rw [← hname]
    exact FileCache.getFile_addFile ..
  refine ⟨⟨h.cacheName, fun name file hfile => ?_⟩, SegmentHandler.begun_new _ _,
    toStringInt t, ?_⟩
  · rw [hget] at hfile
    split at hfile
    · rename_i hname
      exact ⟨t, ht, hname⟩
    · exact h.named name file hfile
  · rw [hget, if_pos rfl]
    rfl

/-- The segment that a packet comes to. -/
theorem Named.firstSegment (h : c.Named timestamps) (packet : MediaPacket)
    (hcurrent : ∀ segment, c.currentSegment = some segment → Writable timestamps c segment) :
    (c.firstSegment packet).1.Named (timestamps ++ [packet.timestamp])
      ∧ ((c.firstSegment packet).2.Begun timestamps)
      ∧ ∃ name, (c.firstSegment packet).1.staticCache.getFile name
        = some (c.firstSegment packet).2.file := by
  rw [SegmentsCache.firstSegment]
  cases hsome : c.currentSegment with
  | some segment =>
    have hwritable := hcurrent segment hsome
    exact ⟨h.mono (List.subset_append_left ..), hwritable.begun, hwritable.cached⟩
  | none =>
    obtain ⟨hnamed, hwritable⟩ := (h.mono (List.subset_append_left timestamps _)).openSegment
      (List.mem_append_right _ (List.mem_singleton_self packet.timestamp))
    exact ⟨hnamed, SegmentHandler.begun_new _ _, hwritable.cached⟩

/-- The segment that it goes into: one that is cut has a first timestamp. -/
theorem Named.nextSegment (h : c.Named (timestamps ++ [packet.timestamp]))
    (hbegun : segment.Begun timestamps)
    (hcached : ∃ name, c.staticCache.getFile name = some segment.file) :
    (c.nextSegment packet segment).1.Named (timestamps ++ [packet.timestamp])
      ∧ ((c.nextSegment packet segment).2.Begun timestamps)
      ∧ ∃ name, (c.nextSegment packet segment).1.staticCache.getFile name
        = some (c.nextSegment packet segment).2.file := by
  rw [SegmentsCache.nextSegment]
  split
  · rename_i hlong
    have hne : segment.firstTimestamp ≠ 0 := by
      intro hzero
      have := (hbegun.empty hzero).1
      omega
    obtain ⟨hnamed, hwritable⟩ := h.openSegment (List.mem_append_left _ (hbegun.mem hne))
    exact ⟨hnamed, SegmentHandler.begun_new _ _, hwritable.cached⟩
  · exact ⟨h, hbegun, hcached⟩

end SegmentsCache

/-! ## Runs -/

namespace SegmentPlay

variable {s s' : SegmentPlay} {ts : List ℤ} {events : List Event}

/-- **The cache after packets with these timestamps.** -/
structure Sound (ts : List ℤ) (s : Segmented) : Prop where
  named : s.cache.Named ts
  current : ∀ segment, s.cache.currentSegment = some segment →
    SegmentsCache.Writable ts s.cache segment

theorem sound_new : Sound [] (.new []) :=
  ⟨⟨rfl, fun _ _ h => by cases h⟩, fun _ h => by cases h⟩

theorem Sound.mono {ts' : List ℤ} {s : Segmented} (h : Sound ts s) (hsub : ts ⊆ ts') :
    Sound ts' s :=
  ⟨h.named.mono hsub, fun segment hsegment =>
    ⟨(h.current segment hsegment).begun.mono hsub, (h.current segment hsegment).cached⟩⟩

/-- **A packet.** -/
theorem Sound.packet {s s' : Segmented} {packet : MediaPacket} {ret : ℤ} (h : Sound ts s)
    (hstep : s.step packet ret = .ok s') : Sound (ts ++ [packet.timestamp]) s' := by
  obtain ⟨out, hout, rfl⟩ := Machinery.exists_of_map_eq_ok hstep
  rw [SegmentsCache.handlePacket] at hout
  split at hout
  · cases hout
    have hmono := h.mono (List.subset_append_left ts [packet.timestamp])
    exact ⟨hmono.named, hmono.current⟩
  · obtain ⟨segment, hsegment, rfl⟩ := Machinery.exists_of_map_eq_ok hout
    obtain ⟨hnamed, hbegun, hcached⟩ := h.named.firstSegment packet h.current
    obtain ⟨hbegun', hfile⟩ := hbegun.appendPts hsegment
    rw [← hfile] at hcached
    obtain ⟨hnamed', hnext, hcached'⟩ := hnamed.nextSegment hbegun' hcached
    refine ⟨⟨hnamed'.cacheName, hnamed'.named⟩, fun current hcurrent => ?_⟩
    cases hcurrent
    obtain ⟨hlast, hsame⟩ := hnext.handlePacket packet.timestamp ret
    refine ⟨hlast, ?_⟩
    rw [hsame]
    exact hcached'

/-- **A packet takes no file away.** -/
theorem isSome_getFile_packet {s s' : Segmented} {packet : MediaPacket} {ret : ℤ} {name : Bytes}
    (hstep : s.step packet ret = .ok s') (hname : (s.cache.staticCache.getFile name).isSome) :
    (s'.cache.staticCache.getFile name).isSome := by
  cases Segmented.stepped hstep with
  | same files _ _ _ _ =>
    rw [files]
    exact hname
  | opens named files _ _ _ _ =>
    rw [files, FileCache.getFile_addFile]
    split
    · rfl
    · exact hname

/-- One step. -/
theorem sound_step {e : Event} (h : Sound ts s.withSegments) (hstep : s.step e = .ok s') :
    Sound (ts ++ e.timestamp.toList) s'.withSegments
      ∧ ∀ req, (s.served req).isSome → (s'.served req).isSome := by
  cases e with
  | play req =>
    cases hstep
    exact ⟨h.mono (List.subset_append_left ..), fun _ hserved => hserved⟩
  | packet packet ret =>
    rcases hsegments : s.segmentCache with _ | segments
    · rw [step, hsegments] at hstep
      cases hstep
      exact ⟨h.mono (List.subset_append_left ..), fun _ hserved => hserved⟩
    · have hwith : s.withSegments = segments := by rw [withSegments, hsegments, Option.getD_some]
      rw [step, hsegments] at hstep
      obtain ⟨segments', hsegments', rfl⟩ := Machinery.exists_of_map_eq_ok hstep
      rw [hwith] at h
      have hs' : Sound (ts ++ [packet.timestamp]) segments' := h.packet hsegments'
      refine ⟨hs', fun req hserved => ?_⟩
      rw [served, hwith] at hserved
      exact isSome_getFile_packet hsegments' hserved

/-- A run. -/
theorem sound_run (h : Sound ts s.withSegments) (hrun : s.run events = .ok s') :
    Sound (ts ++ events.filterMap Event.timestamp) s'.withSegments
      ∧ ∀ req, (s.served req).isSome → (s'.served req).isSome := by
  induction events generalizing s ts with
  | nil =>
    cases hrun
    rw [List.filterMap_nil, List.append_nil]
    exact ⟨h, fun _ hserved => hserved⟩
  | cons e events ih =>
    rw [run] at hrun
    rcases hstep : s.step e with f | s₁
    · rw [hstep] at hrun
      cases hrun
    · rw [hstep] at hrun
      obtain ⟨hs₁, hserved₁⟩ := sound_step h hstep
      obtain ⟨hs', hserved⟩ := ih hs₁ hrun
      refine ⟨hs'.mono ?_, fun req hreq => hserved req (hserved₁ req hreq)⟩
      rw [List.append_assoc, List.filterMap_cons]
      cases e.timestamp <;> exact List.Subset.refl _

/-- A run from the beginning: the packets before the first request go nowhere. -/
theorem sound_timestamps (hrun : run {} events = .ok s) :
    Sound (timestamps events) s.withSegments := by
  induction events with
  | nil =>
    cases hrun
    exact sound_new
  | cons e events ih =>
    cases e with
    | packet packet ret => exact ih hrun
    | play req =>
      have hnew : Sound [] (SegmentPlay.mk (some (.new []))).withSegments := sound_new
      exact (sound_run hnew hrun).1

/-- A run that is cut short. -/
theorem run_append (before after : List Event) :
    s.run (before ++ after) = (s.run before).bind fun s => s.run after := by
  induction before generalizing s with
  | nil => rfl
  | cons e before ih =>
    rw [List.cons_append, run, run]
    cases s.step e with
    | error f => rfl
    | ok s₁ => exact ih

/-- **Which requests are served after a run**: those whose host, path and name together are the
timestamp of a packet that has come after the first request, so none with any other character in
them; and who has been served once always is.  The file that is written has not been destroyed. -/
structure Serves (events : List Event) (s : SegmentPlay) : Prop where
  named : ∀ req file, s.served req = some file →
    ∃ t ∈ timestamps events, req.fileKey = toStringInt t
  refused : ∀ req, (∃ x ∈ req.fileKey, x ≠ 0x2d ∧ isDigit x = false) → s.served req = none
  kept : ∀ before, before <+: events → ∀ s₀, run {} before = .ok s₀ →
    ∀ req, (s₀.served req).isSome → (s.served req).isSome
  written : ∀ segments segment, s.segmentCache = some segments →
    segments.cache.currentSegment = some segment →
    ∃ name, segments.cache.staticCache.getFile name = some segment.file

/-- **The segments that are served**, in every run. -/
theorem segments_served (events : List Event) (s : SegmentPlay) (hrun : run {} events = .ok s) :
    s.Serves events := by
  have hsound := sound_timestamps hrun
  refine ⟨fun req => hsound.named.named req.fileKey, ?_, ?_, ?_⟩
  · rintro req ⟨x, hx, hminus, hdigit⟩
    rcases hserved : s.served req with _ | file
    · rfl
    · obtain ⟨t, -, ht⟩ := hsound.named.named req.fileKey file hserved
      rw [ht] at hx
      rcases isDigit_or_minus hx with rfl | hdigit'
      · exact absurd rfl hminus
      · rw [hdigit] at hdigit'
        cases hdigit'
  · rintro before ⟨after, rfl⟩ s₀ hs₀ req hserved
    rw [run_append, hs₀] at hrun
    exact (sound_run (sound_timestamps hs₀) hrun).2 req hserved
  · intro segments segment hsegments hcurrent
    rw [withSegments, hsegments, Option.getD_some] at hsound
    exact (hsound.current segment hcurrent).cached

/-- A viewer asks `host` for `1000`, the packet of that time comes, and another asks the host `1`
for `000`. -/
def hlsViewers : List Event :=
  [.play (FileRequests.fileRequest [] (text "1000")), .packet ⟨1000, true⟩ 0,
    .play { FileRequests.fileRequest [] (text "000") with vhost := text "1" }]

/-- The first is not served, though there is a file of that name; the other one is. -/
theorem segments_served_hls_viewers : ∃ s, run {} hlsViewers = .ok s
    ∧ s.withSegments.cache.staticCache.getFile (text "1000") = some 0
    ∧ s.served (FileRequests.fileRequest [] (text "1000")) = none
    ∧ s.served { FileRequests.fileRequest [] (text "000") with vhost := text "1" } = some 0
    ∧ s.Serves hlsViewers :=
  ⟨_, rfl, by decide, by decide, by decide, segments_served hlsViewers _ rfl⟩

end SegmentPlay

end SmartStreaming
