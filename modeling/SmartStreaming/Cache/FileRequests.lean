import SmartStreaming.Cache.StaticFiles
import SmartStreaming.Http.Hops

/-!
# Cache/FileRequests — which file a request is given

`handle_play_file` knows a file by the host, the path and the name of its request, written one
behind the other with nothing in between.  The handler that is to fetch it is told the host, the
path, the name and the parameters of the request that found no file to serve.  `file_per_key` says
over every run for whose request a file was made that another request is given.
-/

namespace SmartStreaming

/-- `req->vhost + req->path + req->name`, the key of a file. -/
def HttpRequest.fileKey (req : HttpRequest) : Bytes := req.vhost ++ (req.path ++ req.name)

/-- `origin_address` and `origin_request` of a `FileInputHandler`. -/
structure FileOrigin where
  address : Address
  vhost : Bytes
  path : Bytes
  name : Bytes
  params : Bytes
  deriving DecidableEq

/-- What `create_origin_file` gives to `set_origin_info`. -/
def HttpRequest.fileOrigin (req : HttpRequest) : FileOrigin :=
  ⟨⟨req.vhost, 80⟩, req.vhost, req.path, req.name, req.params⟩

/-- The files, what the handler of each has been told, and the requests with the files that they
have been given. -/
structure FileRequests where
  files : StaticFiles
  origins : Ref → Option FileOrigin
  given : List (HttpRequest × Ref)

namespace FileRequests

/-- Before the first request. -/
def new : FileRequests := ⟨StaticFiles.new, fun _ => none, []⟩

/-- A request, or the end of a wait of a handler that fetches. -/
inductive Event
  | play (req : HttpRequest) (currentTimeMs : ℤ) (created : Bool) (junk : ℤ × ℤ)
  | connected (i : Ref) (ret : ℤ)
  | answered (i : Ref) (answer : Answer) (currentTimeMs : ℤ) (fresh : ℕ → Byte)
  | received (i : Ref) (stop : Bool) (got : Received) (fresh : ℕ → Byte)

namespace Event

/-- The request of a step. -/
def asks : Event → Option HttpRequest
  | play req _ _ _ => some req
  | _ => none

/-- What happens to the files. -/
def toFiles : Event → StaticFiles.Event
  | play req now created junk => .play req.fileKey now created junk
  | connected i ret => .connected i ret
  | answered i answer now fresh => .answered i answer now fresh
  | received i stop got fresh => .received i stop got fresh

end Event

/-- `handle_play_file` up to its loop; a file has been made if the next one is another. -/
def play (client created : Bool) (junk : ℤ × ℤ) (now : ℤ) (req : HttpRequest) (s : FileRequests) :
    FileRequests :=
  let out := s.files.handlePlayFile client created junk req.fileKey now
  { files := out.1
    origins := if out.1.fresh = s.files.fresh then s.origins
      else Function.update s.origins s.files.fresh (some req.fileOrigin)
    given := s.given ++ [(req, out.2)] }

/-- One step; the handlers are made with `client`. -/
def step (client : Bool) (s : FileRequests) : Event → Except Fault FileRequests
  | .play req now created junk => .ok (s.play client created junk now req)
  | e => (s.files.step client e.toFiles).map fun files => { s with files }

/-- The state after a sequence of steps. -/
def run (client : Bool) (s : FileRequests) : List Event → Except Fault FileRequests
  | [] => .ok s
  | e :: events => (s.step client e).bind fun s => run client s events

end FileRequests

/-! ## Fetches keep the cache -/

namespace StaticFiles

variable {s s' : StaticFiles} {i : Ref} {client : Bool}

/-- The same files under the same names. -/
def SameCache (s s' : StaticFiles) : Prop := s'.fileCache = s.fileCache ∧ s'.fresh = s.fresh

theorem sameCache_of_onFile {f : File.Call PUnit} {ref : Ref} (h : s.onFile ref f = .ok s') :
    SameCache s s' := by
  obtain ⟨r, file, -, rfl⟩ := exists_of_onFile h
  exact ⟨rfl, rfl⟩

theorem sameCache_connected {ret : ℤ} (h : s.connected i ret = .ok s') : SameCache s s' := by
  rw [connected] at h
  split at h
  · cases h
    exact ⟨rfl, rfl⟩
  · split at h
    · cases h
      exact ⟨rfl, rfl⟩
    · cases h

theorem sameCache_answered {answer : Answer} {now : ℤ} {fresh : ℕ → Byte}
    (h : s.answered i answer now fresh = .ok s') : SameCache s s' := by
  rw [answered] at h
  split at h
  · cases h
    exact ⟨rfl, rfl⟩
  · split at h
    · cases h
    · rw [startReceiving] at h
      exact ⟨(sameCache_of_onFile h).1, (sameCache_of_onFile h).2⟩

theorem sameCache_gotPacket {packet : Bytes} {fresh : ℕ → Byte}
    (h : s.gotPacket i packet fresh = .ok s') : SameCache s s' := by
  rw [gotPacket] at h
  split at h
  · cases h
  · rename_i handleSize _
    rcases hfile : (s.setInput i { s.inputs i with handleSize }).onFile (s.inputs i).file
      (File.append packet fresh) with e | t
    · rw [hfile] at h
      cases h
    · rw [hfile] at h
      cases h
      obtain ⟨hcache, hfresh⟩ := sameCache_of_onFile hfile
      split <;> exact ⟨hcache, hfresh⟩

theorem sameCache_inputFailed : SameCache s (s.inputFailed i) := by
  unfold inputFailed
  dsimp only
  split <;> exact ⟨rfl, rfl⟩

theorem sameCache_afterInput {ret : ℤ} {fresh : ℕ → Byte} {packet : Option Bytes}
    (h : s.afterInput i ret fresh packet = .ok s') : SameCache s s' := by
  cases packet with
  | none =>
    cases h
    split
    · exact sameCache_inputFailed
    · exact ⟨rfl, rfl⟩
  | some packet =>
    rw [afterInput] at h
    split at h
    · cases h
      exact sameCache_inputFailed
    · exact sameCache_gotPacket h

theorem sameCache_received {stop : Bool} {got : Received} {fresh : ℕ → Byte}
    (h : StaticFiles.received i stop got fresh s = .ok s') : SameCache s s' := by
  rw [StaticFiles.received] at h
  split at h
  · cases h
    exact ⟨rfl, rfl⟩
  · split at h
    · cases h
    · exact ⟨(sameCache_afterInput h).1, (sameCache_afterInput h).2⟩
    · exact ⟨(sameCache_afterInput h).1, (sameCache_afterInput h).2⟩

/-- **What fetches leaves the cache alone.** -/
theorem sameCache_step {e : FileRequests.Event} (he : e.asks = none)
    (h : s.step client e.toFiles = .ok s') : SameCache s s' := by
  cases e with
  | play req now created junk => cases he
  | connected i ret =>
    rw [FileRequests.Event.toFiles, step] at h
    split at h
    · exact sameCache_connected h
    · cases h
      exact ⟨rfl, rfl⟩
  | answered i answer now fresh =>
    rw [FileRequests.Event.toFiles, step] at h
    split at h
    · exact sameCache_answered h
    · cases h
      exact ⟨rfl, rfl⟩
  | received i stop got fresh =>
    rw [FileRequests.Event.toFiles, step] at h
    split at h
    · exact sameCache_received h
    · cases h
      exact ⟨rfl, rfl⟩

end StaticFiles

/-! ## Runs -/

namespace FileRequests

variable {s s' : FileRequests} {client : Bool}

/-- A file has been made for a request of that key, which has asked before. -/
def MadeFor (s : FileRequests) (key : Bytes) (file : Ref) : Prop :=
  file < s.files.fresh ∧ ∃ req, s.origins file = some req.fileOrigin ∧ req.fileKey = key
    ∧ req ∈ s.given.map Prod.fst

/-- **The files of the cache, and those that have been given, have been made for their keys.** -/
structure Sound (s : FileRequests) : Prop where
  cached : ∀ key file, s.files.fileCache.getFile key = some file → s.MadeFor key file
  given : ∀ g ∈ s.given, s.MadeFor g.1.fileKey g.2

theorem sound_new : new.Sound where
  cached _ _ h := by cases h
  given _ h := absurd h List.not_mem_nil

/-- A file is made, or the one that the cache has is served. -/
theorem handlePlayFile_cases (client created : Bool) (junk : ℤ × ℤ) (key : Bytes) (now : ℤ)
    (s : StaticFiles) :
    (∃ file, s.fileCache.getFile key = some file
      ∧ s.handlePlayFile client created junk key now = (s, file))
    ∨ s.handlePlayFile client created junk key now
      = (s.createOriginFile client created junk key, s.fresh) := by
  unfold StaticFiles.handlePlayFile
  split
  · rename_i file hkey
    split
    · exact .inl ⟨file, hkey, rfl⟩
    · exact .inr rfl
  · exact .inr rfl

/-- What has been made stays so. -/
theorem MadeFor.mono {key : Bytes} {file : Ref} (h : s.MadeFor key file)
    (hfresh : s.files.fresh ≤ s'.files.fresh)
    (hmade : ∀ ref, ref < s.files.fresh → s'.origins ref = s.origins ref)
    (hgiven : s.given <+: s'.given) : s'.MadeFor key file := by
  obtain ⟨hlt, req, hreq, hkey, hmem⟩ := h
  exact ⟨hlt.trans_le hfresh, req, (hmade file hlt).trans hreq, hkey,
    (hgiven.map Prod.fst).subset hmem⟩

/-- **A request.** -/
theorem Sound.play (h : s.Sound) (client created : Bool) (junk : ℤ × ℤ) (now : ℤ)
    (req : HttpRequest) : (s.play client created junk now req).Sound := by
  rcases handlePlayFile_cases client created junk req.fileKey now s.files with
    ⟨file, hfile, hplay⟩ | hplay
  · have hs : s.play client created junk now req
        = { s with given := s.given ++ [(req, file)] } := by
      rw [FileRequests.play, hplay]
      exact congrArg (fun m => FileRequests.mk s.files m (s.given ++ [(req, file)])) (if_pos rfl)
    have hmono : ∀ {key ref}, s.MadeFor key ref →
        (s.play client created junk now req).MadeFor key ref := by
      intro key ref hmade
      rw [hs]
      exact hmade.mono le_rfl (fun _ _ => rfl) (List.prefix_append _ _)
    refine ⟨fun key ref hkey => hmono (h.cached key ref (by rwa [hs] at hkey)), fun g hg => ?_⟩
    rw [hs, List.mem_append, List.mem_singleton] at hg
    rcases hg with hg | rfl
    · exact hmono (h.given g hg)
    · exact hmono (h.cached _ _ hfile)
  · have hs : s.play client created junk now req
        = { files := s.files.createOriginFile client created junk req.fileKey
            origins := Function.update s.origins s.files.fresh (some req.fileOrigin)
            given := s.given ++ [(req, s.files.fresh)] } := by
      rw [FileRequests.play, hplay]
      exact congrArg (fun m => FileRequests.mk _ m (s.given ++ [(req, s.files.fresh)]))
        (if_neg (Nat.succ_ne_self _))
    have hmono : ∀ {key ref}, s.MadeFor key ref →
        (s.play client created junk now req).MadeFor key ref := by
      intro key ref hmade
      rw [hs]
      exact hmade.mono (Nat.le_succ _) (fun _ hlt => Function.update_of_ne hlt.ne ..)
        (List.prefix_append _ _)
    have hnew : (s.play client created junk now req).MadeFor req.fileKey s.files.fresh := by
      rw [hs]
      refine ⟨Nat.lt_succ_self _, req, Function.update_self .., rfl, ?_⟩
      rw [List.map_append]
      exact List.mem_append_right _ (List.mem_singleton_self _)
    refine ⟨fun key ref hkey => ?_, fun g hg => ?_⟩
    · have hget : (s.play client created junk now req).files.fileCache.getFile key
          = if key = req.fileKey then some s.files.fresh else s.files.fileCache.getFile key := by
        rw [hs]
        exact FileCache.getFile_addFile ..
      rw [hget] at hkey
      split at hkey
      · rename_i hsame
        rw [hsame, ← Option.some.inj hkey]
        exact hnew
      · exact hmono (h.cached key ref hkey)
    · rw [hs, List.mem_append, List.mem_singleton] at hg
      rcases hg with hg | rfl
      · exact hmono (h.given g hg)
      · exact hnew

/-- One step. -/
theorem Sound.step (h : s.Sound) {e : Event} (hstep : s.step client e = .ok s') :
    s'.Sound ∧ s'.given.map Prod.fst = s.given.map Prod.fst ++ e.asks.toList := by
  cases hasks : e.asks with
  | some req =>
    cases e with
    | play req' now created junk =>
      cases hasks
      cases hstep
      refine ⟨h.play client created junk now req, ?_⟩
      rw [FileRequests.play, List.map_append]
      rfl
    | _ => cases hasks
  | none =>
    have hfiles : (s.files.step client e.toFiles).map (fun files => { s with files }) = .ok s' := by
      cases e with
      | play req now created junk => cases hasks
      | _ => exact hstep
    rcases hrun : s.files.step client e.toFiles with f | files
    · rw [hrun] at hfiles
      cases hfiles
    · rw [hrun] at hfiles
      cases hfiles
      obtain ⟨hcache, hfresh⟩ := StaticFiles.sameCache_step hasks hrun
      have hmono : ∀ {key ref}, s.MadeFor key ref → MadeFor { s with files } key ref :=
        fun hmade => hmade.mono hfresh.ge (fun _ _ => rfl) (List.prefix_refl _)
      refine ⟨⟨fun key ref hkey => hmono (h.cached key ref ?_), fun g hg => hmono (h.given g hg)⟩,
        (List.append_nil _).symm⟩
      rw [← hcache]
      exact hkey

/-- A run. -/
theorem Sound.run (h : s.Sound) {events : List Event} (hrun : s.run client events = .ok s') :
    s'.Sound ∧ s'.given.map Prod.fst = s.given.map Prod.fst ++ events.filterMap Event.asks := by
  induction events generalizing s with
  | nil =>
    cases hrun
    exact ⟨h, (List.append_nil _).symm⟩
  | cons e events ih =>
    rw [FileRequests.run] at hrun
    rcases hstep : s.step client e with f | s₁
    · rw [hstep] at hrun
      cases hrun
    · rw [hstep] at hrun
      obtain ⟨hs₁, hgiven₁⟩ := h.step hstep
      obtain ⟨hs', hgiven⟩ := ih hs₁ hrun
      refine ⟨hs', ?_⟩
      rw [hgiven, hgiven₁, List.append_assoc, List.filterMap_cons]
      cases e.asks <;> rfl

/-- **What the requests of a run are given**: each of them a file that was made for one of them that
has the same key, and whose handler has been told what that one asks for; two of them one file only
if they have one key, and so, where hosts and paths are equally long, one host, path and name. -/
structure PerKey (events : List Event) (s : FileRequests) : Prop where
  all : s.given.map Prod.fst = events.filterMap Event.asks
  made : ∀ g ∈ s.given, ∃ req ∈ events.filterMap Event.asks, req.fileKey = g.1.fileKey
    ∧ s.origins g.2 = some req.fileOrigin
  same_key : ∀ g ∈ s.given, ∀ g' ∈ s.given, g.2 = g'.2 → g.1.fileKey = g'.1.fileKey
  same_parts : ∀ g ∈ s.given, ∀ g' ∈ s.given, g.2 = g'.2 →
    g.1.vhost.length = g'.1.vhost.length → g.1.path.length = g'.1.path.length →
    g.1.vhost = g'.1.vhost ∧ g.1.path = g'.1.path ∧ g.1.name = g'.1.name

/-- The key is one of host, path and name. -/
theorem fileKey_eq {req req' : HttpRequest} (h : req.fileOrigin = req'.fileOrigin) :
    req.fileKey = req'.fileKey :=
  congrArg (fun o : FileOrigin => o.vhost ++ (o.path ++ o.name)) h

/-- **A file for each key**, in every run. -/
theorem file_per_key (client : Bool) (events : List Event) (s : FileRequests)
    (hrun : run client new events = .ok s) : s.PerKey events := by
  have hs := (sound_new.run hrun).1
  have hgiven : s.given.map Prod.fst = events.filterMap Event.asks := (sound_new.run hrun).2
  have hkey : ∀ g ∈ s.given, ∀ g' ∈ s.given, g.2 = g'.2 → g.1.fileKey = g'.1.fileKey := by
    intro g hg g' hg' hsame
    obtain ⟨-, req, hreq, hreqkey, -⟩ := hs.given g hg
    obtain ⟨-, req', hreq', hreqkey', -⟩ := hs.given g' hg'
    rw [hsame, hreq'] at hreq
    rw [← hreqkey, ← hreqkey', fileKey_eq (Option.some.inj hreq)]
  refine ⟨hgiven, fun g hg => ?_, hkey, fun g hg g' hg' hsame hvhost hpath => ?_⟩
  · obtain ⟨-, req, hreq, hreqkey, hmem⟩ := hs.given g hg
    exact ⟨req, hgiven ▸ hmem, hreqkey, hreq⟩
  · obtain ⟨hv, hrest⟩ := List.append_inj (hkey g hg g' hg' hsame) hvhost
    obtain ⟨hp, hn⟩ := List.append_inj hrest hpath
    exact ⟨hv, hp, hn⟩

/-- A request for a file, without parameters. -/
def fileRequest (path name : Bytes) : HttpRequest where
  type := .play
  vhost := text "host"
  name
  path
  params := []
  ext := []
  isTranscode := none
  paramsMap := fun _ => none

/-- Two viewers ask for `/a/bc` and for `/ab/c`, at once. -/
def twoViewers : List Event :=
  [.play (fileRequest (text "a") (text "bc")) 1 true (0, 0),
    .play (fileRequest (text "ab") (text "c")) 1 true (0, 0)]

/-- The second viewer is given the first one's file. -/
theorem file_per_key_two_viewers : ∃ s, run false new twoViewers = .ok s
    ∧ s.given.map Prod.snd = [0, 0] ∧ s.PerKey twoViewers := by
  refine ⟨_, rfl, by decide, file_per_key false twoViewers _ rfl⟩

end FileRequests

end SmartStreaming
