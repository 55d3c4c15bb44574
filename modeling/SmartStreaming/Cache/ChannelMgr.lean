import SmartStreaming.Cache.Idle
import SmartStreaming.Cache.Pool
import SmartStreaming.Http.Target
import SmartStreaming.Http.Parser

/-!
# Cache/ChannelMgr — the channel of a request

`handle_play_stream`, `handle_play_segment`, `handle_publish` and `handle_api` ask for the channel
of their request's key, and go on with what they are given; the pool is swept in between.
`channel_per_stream`: over every run in which no sweep goes wrong, each request is given a channel
of the pool, and two requests are given the same one exactly when their keys are the same.
-/

namespace SmartStreaming

open Machinery

def errorChannelKilled : ℤ := 11001

/-- `create_channel_key(req)`. -/
def createChannelKey (req : HttpRequest) : Bytes :=
  req.vhost ++ 0x7c :: (req.path ++ 0x7c :: req.name)

/-- `class ChannelMgr` over its pool; the channels up to `fresh` have been made. -/
structure ChannelMgr extends ChannelPool where
  fresh : Ref
  lt_fresh : ∀ e ∈ pool.entries, e.2 < fresh

namespace ChannelPool

/-- An operation on a channel that the pool may hold. -/
def onChannel (channel : Ref) (f : Channel → Channel) (p : ChannelPool) : ChannelPool :=
  { p with channel := Function.update p.channel channel (f (p.channel channel)) }

/-- `fetch(key)`. -/
def fetch (key : Bytes) (p : ChannelPool) : Option Ref :=
  (p.pool.find key).filter fun channel => (p.channel channel).status ≠ .kill

end ChannelPool

namespace ChannelMgr

/-- Before the first request. -/
def new : ChannelMgr where
  pool := ⟨[], List.nodup_nil⟩
  channel := fun _ => {}
  getKey := fun _ => []
  keyed := fun _ h => absurd h List.not_mem_nil
  fresh := 0
  lt_fresh := fun _ h => absurd h List.not_mem_nil

theorem mem_or_eq_of_insert {m : EntryMap Bytes Ref} {key : Bytes} {ref : Ref} {e : Bytes × Ref}
    (h : e ∈ (m.insert (· ≤ ·) key ref).entries) : e ∈ m.entries ∨ e = (key, ref) := by
  by_cases hkey : key ∈ m.entries.map Prod.fst
  · rw [EntryMap.insert] at h
    simp only [if_pos hkey] at h
    exact .inl h
  · exact ((EntryMap.mem_insert hkey).1 h).symm

/-- `channel = make_shared<Channel>(key)` and `pool.insert(make_pair(key, channel))`, into what is
left of the pool. -/
def create (key : Bytes) (left : EntryMap Bytes Ref) (s : ChannelMgr)
    (hleft : ∀ e ∈ left.entries, e ∈ s.pool.entries) : ChannelMgr where
  pool := left.insert (· ≤ ·) key s.fresh
  channel := Function.update s.channel s.fresh {}
  getKey := Function.update s.getKey s.fresh key
  keyed e he := by
    rcases mem_or_eq_of_insert he with he | rfl
    · rw [Function.update_of_ne (s.lt_fresh e (hleft e he)).ne]
      exact s.keyed e (hleft e he)
    · exact Function.update_self ..
  fresh := s.fresh + 1
  lt_fresh e he := by
    rcases mem_or_eq_of_insert he with he | rfl
    · exact (s.lt_fresh e (hleft e he)).trans (Nat.lt_succ_self _)
    · exact Nat.lt_succ_self _

/-- **`ChannelPool::fetch_or_create`**: the channel, and the pool with it. -/
def fetchOrCreate (key : Bytes) (s : ChannelMgr) : Ref × ChannelMgr :=
  match s.pool.find key with
  | some channel =>
    if (s.channel channel).status = .kill then
      (s.fresh, s.create key (s.pool.erase key) fun _ => EntryMap.mem_of_mem_erase)
    else (channel, s)
  | none => (s.fresh, s.create key s.pool fun _ => id)

/-- `channel->f()`. -/
def onChannel (channel : Ref) (f : Channel → Channel) (s : ChannelMgr) : ChannelMgr :=
  { s with toChannelPool := s.toChannelPool.onChannel channel f, lt_fresh := s.lt_fresh }

/-- **`fetch_or_create_channel`**. -/
def fetchOrCreateChannel (key : Bytes) (s : ChannelMgr) : Except ℤ Ref × ChannelMgr :=
  if ((s.fetchOrCreate key).2.channel (s.fetchOrCreate key).1).status = .kill then
    (.error errorChannelKilled, (s.fetchOrCreate key).2)
  else
    (.ok (s.fetchOrCreate key).1,
      (s.fetchOrCreate key).2.onChannel (s.fetchOrCreate key).1 Channel.wakeUp)

/-- A sweep that comes to its end has found nothing to do. -/
theorem eq_of_sweep {now : BitVec 64} {p p' : ChannelPool}
    (h : ChannelPool.sweep now p = .ok p') : p' = p := by
  by_cases hexpired : ∃ e ∈ p.pool.entries, (p.channel e.2).CheckExpire now
  · obtain ⟨e, he, hexpired⟩ := hexpired
    rw [ChannelPool.sweep_of_expired he hexpired] at h
    cases h
  · rw [ChannelPool.sweep_of_not_expired fun e he hx => hexpired ⟨e, he, hx⟩] at h
    exact (Except.ok.inj h).symm

/-- A sweep of the pool; what it finds in the map that it must not is memory given back. -/
def sweep (now : BitVec 64) (s : ChannelMgr) : Except Fault ChannelMgr :=
  match h : s.toChannelPool.sweep now with
  | .ok p => .ok { s with toChannelPool := p, lt_fresh := eq_of_sweep h ▸ s.lt_fresh }
  | .error .erased => .error .deadBlock
  | .error .outOfFuel => .error .outOfFuel

end ChannelMgr

/-- The pool, and the requests that have been given a channel. -/
structure Streams where
  mgr : ChannelMgr
  given : List (HttpRequest × Ref)

namespace Streams

/-- Before the first request. -/
def new : Streams := ⟨ChannelMgr.new, []⟩

/-- What happens next: a request asks for its channel; a channel that has been made is used, is
started by `run`, or is stopped by `on_stop`; the pool is swept. -/
inductive Op
  | request (req : HttpRequest)
  | use (channel : Ref) (op : Channel.Op)
  | start (channel : Ref)
  | stop (channel : Ref) (now : ℤ)
  | sweep (now : BitVec 64)

/-- The request that asks. -/
def Op.asks : Op → Option HttpRequest
  | .request req => some req
  | _ => none

section

variable (inputType : Ref → EInputType)

/-- A channel that has been made changes. -/
def onChannel (channel : Ref) (f : Channel → Channel) (s : Streams) : Streams :=
  if channel < s.mgr.fresh then { s with mgr := s.mgr.onChannel channel f } else s

/-- One step.  A handler calls `init_user_ctrl` on what it is given, whatever the return code. -/
def step (s : Streams) : Op → Except Fault Streams
  | .request req =>
    match s.mgr.fetchOrCreateChannel (createChannelKey req) with
    | (.ok channel, mgr) => .ok ⟨mgr, s.given ++ [(req, channel)]⟩
    | (.error _, _) => .error .nullPointer
  | .use channel op => .ok (s.onChannel channel fun c => c.apply inputType op)
  | .start channel => .ok (s.onChannel channel (Channel.setStatus .start))
  | .stop channel now => .ok (s.onChannel channel fun c =>
      { c with status := .init, channelExitTime := now })
  | .sweep now => (s.mgr.sweep now).map fun mgr => { s with mgr }

/-- The state after a sequence of steps. -/
def run (s : Streams) : List Op → Except Fault Streams
  | [] => .ok s
  | op :: ops => (s.step inputType op).bind fun s => run s ops

end

end Streams

/-! ## The channel of a key -/

namespace ChannelMgr

/-- No channel of the pool is killed. -/
def Alive (s : ChannelMgr) : Prop := ∀ e ∈ s.pool.entries, (s.channel e.2).status ≠ .kill

variable {s : ChannelMgr} {key : Bytes} {left : EntryMap Bytes Ref}

theorem Alive.create (h : s.Alive) (hleft : ∀ e ∈ left.entries, e ∈ s.pool.entries) :
    (s.create key left hleft).Alive := by
  intro e he
  rcases mem_or_eq_of_insert he with he | rfl
  · have hold : e ∈ s.pool.entries := hleft e he
    have hne : (s.create key left hleft).channel e.2 = s.channel e.2 :=
      Function.update_of_ne (s.lt_fresh e hold).ne _ _
    rw [hne]
    exact h e hold
  · have hself : (s.create key left hleft).channel s.fresh = {} := Function.update_self ..
    rw [hself]
    exact fun h => EStatusChannel.noConfusion h

/-- **The channel that is fetched or created is in the pool**, which keeps all it has. -/
theorem Alive.fetchOrCreate (h : s.Alive) (key : Bytes) :
    (s.fetchOrCreate key).2.Alive
      ∧ (key, (s.fetchOrCreate key).1) ∈ (s.fetchOrCreate key).2.pool.entries
      ∧ s.pool.entries ⊆ (s.fetchOrCreate key).2.pool.entries := by
  rw [ChannelMgr.fetchOrCreate]
  cases hfind : s.pool.find key with
  | some channel =>
    have hmem := EntryMap.find_eq_some.1 hfind
    have halive : (s.channel channel).status ≠ .kill := h _ hmem
    simp only [if_neg halive]
    exact ⟨h, hmem, List.Subset.refl _⟩
  | none =>
    have hnew := EntryMap.find_eq_none.1 hfind
    have hinsert := fun e : Bytes × Ref =>
      EntryMap.mem_insert (e := e) (r := (· ≤ ·)) (a := s.fresh) hnew
    exact ⟨h.create fun _ => id, (hinsert _).2 (.inl rfl), fun e he => (hinsert e).2 (.inr he)⟩

/-- What does not kill a channel keeps the pool alive. -/
theorem Alive.onChannel {channel : Ref} {f : Channel → Channel} (h : s.Alive)
    (hf : ∀ c : Channel, c.status ≠ .kill → (f c).status ≠ .kill) :
    (s.onChannel channel f).Alive := by
  intro e he
  change (Function.update s.channel channel (f (s.channel channel)) e.2).status ≠ .kill
  by_cases hchannel : e.2 = channel
  · rw [hchannel, Function.update_self]
    exact hf _ (hchannel ▸ h e he)
  · rw [Function.update_of_ne hchannel]
    exact h e he

/-- **`fetch_or_create_channel` gives a channel of the key**, and never the error. -/
theorem Alive.fetchOrCreateChannel (h : s.Alive) (key : Bytes) :
    ∃ channel s', s.fetchOrCreateChannel key = (.ok channel, s') ∧ s'.Alive
      ∧ (key, channel) ∈ s'.pool.entries ∧ s.pool.entries ⊆ s'.pool.entries := by
  obtain ⟨halive, hmem, hsubset⟩ := h.fetchOrCreate key
  refine ⟨_, _, if_neg (halive _ hmem), ?_, hmem, hsubset⟩
  exact halive.onChannel fun _ h => h

/-- The pool has a channel that has expired. -/
def HasExpired (now : BitVec 64) (s : ChannelMgr) : Prop :=
  ∃ e ∈ s.pool.entries, (s.channel e.2).CheckExpire now

/-- A sweep does nothing, or it ends the program at an expired channel. -/
theorem sweep_cases (now : BitVec 64) (s : ChannelMgr) :
    s.sweep now = .ok s ∨ s.sweep now = .error .deadBlock ∧ s.HasExpired now := by
  by_cases hexpired : s.HasExpired now
  · obtain ⟨e, he, hx⟩ := hexpired
    have hsweep := ChannelPool.sweep_of_expired he hx
    refine .inr ⟨?_, e, he, hx⟩
    unfold sweep
    split <;> rename_i h
    · cases hsweep.symm.trans h
    · rfl
    · cases hsweep.symm.trans h
  · have hsweep : s.toChannelPool.sweep now = .ok s.toChannelPool :=
      ChannelPool.sweep_of_not_expired fun e he hx => hexpired ⟨e, he, hx⟩
    left
    unfold sweep
    split <;> rename_i h
    · obtain rfl := eq_of_sweep h
      rfl
    · cases hsweep.symm.trans h
    · cases hsweep.symm.trans h

end ChannelMgr

/-- Who uses a channel has nothing to do with its status. -/
theorem Channel.status_apply (inputType : Ref → EInputType) (c : Channel) (op : Channel.Op) :
    (c.apply inputType op).status = c.status := by
  cases op with
  | delOutput now output => exact Channel.status_delOutput
  | delSegmentCache now =>
    obtain ⟨_, h⟩ := Channel.exists_checkAndSleep inputType now { c with segmentCache := none }
    rw [Channel.apply, Channel.delSegmentCache, h]
  | _ => rfl

namespace Streams

/-- **Each request has a channel of its own key**, and none of the pool is killed. -/
structure Sound (s : Streams) : Prop where
  alive : s.mgr.Alive
  pooled : ∀ g ∈ s.given, (createChannelKey g.1, g.2) ∈ s.mgr.pool.entries

variable {inputType : Ref → EInputType} {s : Streams}

theorem sound_new : new.Sound :=
  ⟨fun _ h => absurd h List.not_mem_nil, fun _ h => absurd h List.not_mem_nil⟩

theorem Sound.onChannel (h : s.Sound) (channel : Ref) {f : Channel → Channel}
    (hf : ∀ c : Channel, c.status ≠ .kill → (f c).status ≠ .kill) :
    (s.onChannel channel f).Sound ∧ (s.onChannel channel f).given = s.given := by
  unfold Streams.onChannel
  split
  · exact ⟨⟨h.alive.onChannel hf, h.pooled⟩, rfl⟩
  · exact ⟨h, rfl⟩

/-- One step. -/
theorem Sound.step (h : s.Sound) (op : Op) :
    (∃ s', s.step inputType op = .ok s' ∧ s'.Sound
      ∧ s'.given.map Prod.fst = s.given.map Prod.fst ++ op.asks.toList)
    ∨ s.step inputType op = .error .deadBlock
      ∧ ∃ now, op = .sweep now ∧ s.mgr.HasExpired now := by
  have hsame : ∀ s' : Streams, s'.given = s.given →
      s'.given.map Prod.fst = s.given.map Prod.fst ++ [] := by
    intro s' hs'
    rw [hs', List.append_nil]
  cases op with
  | request req =>
    obtain ⟨channel, mgr, hmgr, halive, hmem, hsubset⟩ :=
      h.alive.fetchOrCreateChannel (createChannelKey req)
    refine .inl ⟨⟨mgr, s.given ++ [(req, channel)]⟩, by rw [Streams.step, hmgr], ⟨halive, ?_⟩, ?_⟩
    · intro g hg
      rcases List.mem_append.1 hg with hg | hg
      · exact hsubset (h.pooled g hg)
      · rw [List.mem_singleton.1 hg]
        exact hmem
    · rw [List.map_append]
      rfl
  | use channel op =>
    have hs := h.onChannel channel (f := fun c => c.apply inputType op)
      fun c hc => by rwa [Channel.status_apply]
    exact .inl ⟨_, rfl, hs.1, hsame _ hs.2⟩
  | start channel =>
    have hs := h.onChannel channel (f := Channel.setStatus .start)
      fun c _ hkill => EStatusChannel.noConfusion hkill
    exact .inl ⟨_, rfl, hs.1, hsame _ hs.2⟩
  | stop channel now =>
    have hs := h.onChannel channel
      (f := fun c => { c with status := .init, channelExitTime := now })
      fun c _ hkill => EStatusChannel.noConfusion hkill
    exact .inl ⟨_, rfl, hs.1, hsame _ hs.2⟩
  | sweep now =>
    rw [Streams.step]
    rcases s.mgr.sweep_cases now with hsweep | ⟨hsweep, hexpired⟩
    · exact .inl ⟨s, by rw [hsweep]; rfl, h, hsame s rfl⟩
    · exact .inr ⟨by rw [hsweep]; rfl, now, rfl, hexpired⟩

/-- The run ends at a sweep that finds a channel that has expired. -/
def EndsAtSweep (inputType : Ref → EInputType) (s : Streams) (ops : List Op) : Prop :=
  ∃ before now behind s', ops = before ++ .sweep now :: behind
    ∧ s.run inputType before = .ok s' ∧ s'.mgr.HasExpired now

theorem run_cons_of_ok {s' : Streams} {op : Op} (hstep : s.step inputType op = .ok s')
    (ops : List Op) : s.run inputType (op :: ops) = s'.run inputType ops := by
  rw [Streams.run, hstep]
  rfl

/-- A run. -/
theorem Sound.run (h : s.Sound) (ops : List Op) :
    (∃ s', s.run inputType ops = .ok s' ∧ s'.Sound
      ∧ s'.given.map Prod.fst = s.given.map Prod.fst ++ ops.filterMap Op.asks)
    ∨ s.run inputType ops = .error .deadBlock ∧ s.EndsAtSweep inputType ops := by
  induction ops generalizing s with
  | nil => exact .inl ⟨s, rfl, h, (List.append_nil _).symm⟩
  | cons op ops ih =>
    rcases h.step op with ⟨s₁, hstep, hs₁, hgiven⟩ | ⟨hstep, now, rfl, hexpired⟩
    · rw [run_cons_of_ok hstep]
      rcases ih hs₁ with ⟨s₂, hrun, hs₂, hgiven₂⟩ | ⟨hrun, before, now, behind, s₂, rfl, hs₂⟩
      · refine .inl ⟨s₂, hrun, hs₂, ?_⟩
        rw [hgiven₂, hgiven, List.append_assoc, List.filterMap_cons]
        cases op.asks <;> rfl
      · refine .inr ⟨hrun, op :: before, now, behind, s₂, rfl, ?_, hs₂.2⟩
        rw [run_cons_of_ok hstep, hs₂.1]
    · refine .inr ⟨?_, [], now, ops, s, rfl, rfl, hexpired⟩
      rw [Streams.run, hstep]
      rfl

/-! ## The key of a request -/

/-- Without a `|` in the host and the path, the key is the key of one stream only. -/
theorem createChannelKey_inj {req req' : HttpRequest} (hvhost : 0x7c ∉ req.vhost)
    (hpath : 0x7c ∉ req.path) (hvhost' : 0x7c ∉ req'.vhost) (hpath' : 0x7c ∉ req'.path) :
    createChannelKey req = createChannelKey req'
      ↔ req.vhost = req'.vhost ∧ req.path = req'.path ∧ req.name = req'.name := by
  have hcut : ∀ {a a' b b' : Bytes}, 0x7c ∉ a → 0x7c ∉ a' →
      a ++ 0x7c :: b = a' ++ 0x7c :: b' → a = a' ∧ b = b' := by
    intro a a' b b' ha ha' h
    have htake := congrArg (List.takeWhile (· ≠ 0x7c)) h
    have hdrop := congrArg (List.dropWhile (· ≠ 0x7c)) h
    rw [takeWhile_ne_append ha, takeWhile_ne_append ha'] at htake
    rw [dropWhile_ne_append ha, dropWhile_ne_append ha'] at hdrop
    exact ⟨htake, (List.cons.inj hdrop).2⟩
  constructor
  · intro h
    obtain ⟨hv, h⟩ := hcut hvhost hvhost' h
    exact ⟨hv, hcut hpath hpath' h⟩
  · rintro ⟨hv, hp, hn⟩
    rw [createChannelKey, createChannelKey, hv, hp, hn]

/-- Two requests of a pool have one channel when they have one key. -/
theorem Sound.same_iff (h : s.Sound) {g g' : HttpRequest × Ref} (hg : g ∈ s.given)
    (hg' : g' ∈ s.given) : g.2 = g'.2 ↔ createChannelKey g.1 = createChannelKey g'.1 := by
  constructor
  · intro hsame
    have hkey : s.mgr.getKey g.2 = createChannelKey g.1 := s.mgr.keyed _ (h.pooled g hg)
    have hkey' : s.mgr.getKey g'.2 = createChannelKey g'.1 := s.mgr.keyed _ (h.pooled g' hg')
    rw [← hkey, ← hkey', hsame]
  · intro hkey
    have hmem := h.pooled g hg
    rw [hkey] at hmem
    exact EntryMap.eq_of_mem_of_mem hmem (h.pooled g' hg')

/-- **What the channels of a run are**: every request that has asked has been given a channel that
is in the pool under its key and not killed; two of them have one channel exactly when they have one
key, and where no host and no path has a `|`, exactly when they ask for one stream. -/
structure PerStream (ops : List Op) (s : Streams) : Prop where
  all : s.given.map Prod.fst = ops.filterMap Op.asks
  pooled : ∀ g ∈ s.given, s.mgr.fetch (createChannelKey g.1) = some g.2
  same_key : ∀ g ∈ s.given, ∀ g' ∈ s.given,
    g.2 = g'.2 ↔ createChannelKey g.1 = createChannelKey g'.1
  same_stream : (∀ g ∈ s.given, 0x7c ∉ g.1.vhost ∧ 0x7c ∉ g.1.path) →
    ∀ g ∈ s.given, ∀ g' ∈ s.given, g.2 = g'.2 ↔
      g.1.vhost = g'.1.vhost ∧ g.1.path = g'.1.path ∧ g.1.name = g'.1.name

/-- **One channel for each stream**, in every run that is not ended by a sweep which finds a channel
that has expired. -/
theorem channel_per_stream (inputType : Ref → EInputType) (ops : List Op) :
    (∃ s, run inputType new ops = .ok s ∧ s.PerStream ops)
      ∨ run inputType new ops = .error .deadBlock ∧ new.EndsAtSweep inputType ops := by
  rcases sound_new.run ops with ⟨s, hrun, hsound, hgiven⟩ | hfault
  · refine .inl ⟨s, hrun, hgiven, ?_, ?_, ?_⟩
    · intro g hg
      have hmem := hsound.pooled g hg
      rw [ChannelPool.fetch, EntryMap.find_eq_some.2 hmem, Option.filter_some]
      exact if_pos (decide_eq_true (hsound.alive _ hmem))
    · exact fun g hg g' hg' => hsound.same_iff hg hg'
    · intro hbar g hg g' hg'
      rw [hsound.same_iff hg hg']
      exact createChannelKey_inj (hbar g hg).1 (hbar g hg).2 (hbar g' hg').1 (hbar g' hg').2
  · exact .inr hfault

end Streams

end SmartStreaming
