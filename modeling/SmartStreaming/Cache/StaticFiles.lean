import SmartStreaming.Cache.Channel
import SmartStreaming.Cache.File
import SmartStreaming.Format.Raw

/-!
# Cache/StaticFiles — `handle_play_file` and the coroutines that fetch the files

A request is served from the cache, or puts a new file there, which a `FileInputHandler` then
fetches.  Its `cycle` gives way to the others while it connects, while it waits for the answer to
its request and while it reads; everything between two such points is one step.

A file that is not complete is served whatever its age, so that each of them needs a handler that is
still at work (`Fetched`).  `incomplete_files_fetched` says in which runs it has one.
-/

namespace SmartStreaming

open Machinery

/-- Where `FileInputHandler::cycle` waits. -/
inductive FetchWait
  | connect
  | answer
  | read
  deriving DecidableEq

/-- `class FileInputHandler`, and whether its `client` points to anything. -/
structure FileInputHandler where
  file : Ref
  client : Bool
  demux : RawDeMux
  totalSize : ℤ
  handleSize : ℤ
  status : EStatusSource := .init
  co : Coroutine := {}
  wait : FetchWait := .connect
  deriving DecidableEq

namespace FileInputHandler

/-- `on_thread_stop()`, for the handler itself. -/
def onThreadStop (input : FileInputHandler) : FileInputHandler :=
  { input with status := .init, co := { input.co with ended := true } }

/-- The coroutine is at work and waits there. -/
def Waits (wait : FetchWait) (input : FileInputHandler) : Prop :=
  input.co.Alive ∧ input.wait = wait

instance (wait : FetchWait) (input : FileInputHandler) : Decidable (input.Waits wait) :=
  inferInstanceAs (Decidable (_ ∧ _))

end FileInputHandler

/-- What `client->request` returns and what it hands to `on_ingest`. -/
structure Answer where
  ret : ℤ
  contentLength : BitVec 32
  dataHeader : Bytes

/-- The cache, its files, and the handlers that fetch them. -/
structure StaticFiles where
  fileCache : FileCache Ref
  files : Ref → File
  inputs : Ref → FileInputHandler
  fresh : Ref

namespace StaticFiles

/-- Before the first request. -/
def new : StaticFiles where
  fileCache := {}
  files := fun _ => File.new
  inputs := fun _ => ⟨0, false, RawDeMux.new [] 0, 0, 0, .init, {}, .connect⟩
  fresh := 0

def setInput (i : Ref) (input : FileInputHandler) (s : StaticFiles) : StaticFiles :=
  { s with inputs := Function.update s.inputs i input }

def setFile (ref : Ref) (file : File) (s : StaticFiles) : StaticFiles :=
  { s with files := Function.update s.files ref file }

/-- A call on a file, whose code nobody looks at. -/
def onFile (ref : Ref) (f : File.Call PUnit) (s : StaticFiles) : Except Fault StaticFiles :=
  (f (s.files ref)).map fun out => s.setFile ref out.2

/-- The coroutine of a handler ends. -/
def threadStop (i : Ref) (s : StaticFiles) : StaticFiles :=
  s.setInput i (s.inputs i).onThreadStop

/-! ## Requests -/

/-- `create_origin_file`: `client` is what the new handler has for one, `created` tells whether
`st_thread_create` works, `junk` is what lies where `total_size` and `handle_size` are. -/
def createOriginFile (client created : Bool) (junk : ℤ × ℤ) (key : Bytes) (s : StaticFiles) :
    StaticFiles where
  fileCache := s.fileCache.addFile key s.fresh
  files := Function.update s.files s.fresh File.new
  inputs := Function.update s.inputs s.fresh
    { file := s.fresh
      client
      demux := RawDeMux.new (List.replicate (1024 * 16) 0) (1024 * 16)
      totalSize := junk.1
      handleSize := junk.2
      co := Coroutine.start created {} }
  fresh := s.fresh + 1

/-- The file is served as it is: it is not old, or not complete. -/
def serves (currentTimeMs : ℤ) (file : File) : Prop :=
  currentTimeMs - file.updateTimeMs < 1000 ∨ file.complete = false

instance (currentTimeMs : ℤ) (file : File) : Decidable (serves currentTimeMs file) :=
  inferInstanceAs (Decidable (_ ∨ _))

/-- `handle_play_file` up to its loop, which changes no file: the file that is served. -/
def handlePlayFile (client created : Bool) (junk : ℤ × ℤ) (key : Bytes) (currentTimeMs : ℤ)
    (s : StaticFiles) : StaticFiles × Ref :=
  match s.fileCache.getFile key with
  | some file =>
    if serves currentTimeMs (s.files file) then (s, file)
    else (s.createOriginFile client created junk key, s.fresh)
  | none => (s.createOriginFile client created junk key, s.fresh)

/-! ## Fetches -/

/-- `cycle` after `connect`. -/
def connected (i : Ref) (ret : ℤ) (s : StaticFiles) : Except Fault StaticFiles :=
  if ret ≠ 0 then .ok (s.threadStop i)
  else if (s.inputs i).client then .ok (s.setInput i { s.inputs i with wait := .answer })
  else .error .nullPointer

/-- What becomes of the file when its fetch begins. -/
def begin (totalSize currentTimeMs : ℤ) (fresh : ℕ → Byte) : File.Call PUnit := do
  let _ ← Comp.attempt (File.initBuffer totalSize fresh)
  Comp.put { (← Comp.get) with totalLength := totalSize, updateTimeMs := currentTimeMs }

/-- `cycle` after a request that has been answered well. -/
def startReceiving (i : Ref) (demux : RawDeMux) (currentTimeMs : ℤ) (fresh : ℕ → Byte)
    (s : StaticFiles) : Except Fault StaticFiles :=
  (s.setInput i { s.inputs i with
    status := .start, demux, totalSize := demux.getTotalLength, wait := .read }).onFile
      (s.inputs i).file (begin demux.getTotalLength currentTimeMs fresh)

/-- `cycle` after `request`. -/
def answered (i : Ref) (answer : Answer) (currentTimeMs : ℤ) (fresh : ℕ → Byte)
    (s : StaticFiles) : Except Fault StaticFiles :=
  if answer.ret ≠ 0 then .ok (s.threadStop i)
  else
    match RawDeMux.onIngest answer.contentLength.toInt answer.dataHeader (s.inputs i).demux with
    | .error e => .error e
    | .ok (_, demux) => s.startReceiving i demux currentTimeMs fresh

/-- The loop after `handle_input` has failed. -/
def inputFailed (i : Ref) (s : StaticFiles) : StaticFiles :=
  let input := s.inputs i
  if input.totalSize = 0 then
    ((s.setInput i { input with totalSize := input.handleSize }).setFile input.file
      { s.files input.file with totalLength := input.handleSize }).threadStop i
  else s.threadStop i

/-- The loop after `handle_input` has made a packet. -/
def gotPacket (i : Ref) (packet : Bytes) (fresh : ℕ → Byte) (s : StaticFiles) :
    Except Fault StaticFiles :=
  let input := s.inputs i
  match toCInt (input.handleSize + packet.length) with
  | none => .error .signedOverflow
  | some handleSize =>
    ((s.setInput i { input with handleSize }).onFile input.file (File.append packet fresh)).map
      fun s => if input.totalSize > 0 ∧ handleSize ≥ input.totalSize then s.threadStop i else s

/-- The loop after `handle_input`. -/
def afterInput (i : Ref) (ret : ℤ) (fresh : ℕ → Byte) (s : StaticFiles) :
    Option Bytes → Except Fault StaticFiles
  | none => .ok (if ret ≠ errorSuccess then s.inputFailed i else s.threadStop i)
  | some packet =>
    if ret ≠ errorSuccess then .ok (s.inputFailed i) else s.gotPacket i packet fresh

/-- One round of the loop. -/
def received (i : Ref) (stop : Bool) (received : Received) (fresh : ℕ → Byte)
    (s : StaticFiles) : Except Fault StaticFiles :=
  if stop then .ok (s.threadStop i)
  else
    match RawDeMux.handleInput received (s.inputs i).demux with
    | .error e => .error e
    | .ok (.error ret, demux) =>
      (s.setInput i { s.inputs i with demux }).afterInput i ret fresh none
    | .ok (.ok (ret, packet), demux) =>
      (s.setInput i { s.inputs i with demux }).afterInput i ret fresh packet

/-! ## Runs -/

/-- A request, or the end of a wait with what the world then answers. -/
inductive Event
  | play (key : Bytes) (currentTimeMs : ℤ) (created : Bool) (junk : ℤ × ℤ)
  | connected (i : Ref) (ret : ℤ)
  | answered (i : Ref) (answer : Answer) (currentTimeMs : ℤ) (fresh : ℕ → Byte)
  | received (i : Ref) (stop : Bool) (received : Received) (fresh : ℕ → Byte)

/-- One step; the handlers are made with `client`. -/
def step (client : Bool) (s : StaticFiles) : Event → Except Fault StaticFiles
  | .play key now created junk => .ok (s.handlePlayFile client created junk key now).1
  | .connected i ret => if (s.inputs i).Waits .connect then s.connected i ret else .ok s
  | .answered i answer now fresh =>
    if (s.inputs i).Waits .answer then s.answered i answer now fresh else .ok s
  | .received i stop received fresh =>
    if (s.inputs i).Waits .read then StaticFiles.received i stop received fresh s else .ok s

/-- **Every file that is served for not being complete is being fetched.** -/
def Fetched (s : StaticFiles) : Prop :=
  ∀ key file, s.fileCache.getFile key = some file → (s.files file).complete = false →
    ∃ i, (s.inputs i).co.Alive ∧ (s.inputs i).file = file

/-! ## What a step touches -/

/-- From `s` to `s'` only the handler `i` and its file have changed. -/
structure Touches (i : Ref) (s s' : StaticFiles) : Prop where
  fileCache_eq : s'.fileCache = s.fileCache
  fresh_eq : s'.fresh = s.fresh
  inputs_eq : ∀ j, j ≠ i → s'.inputs j = s.inputs j
  file_eq : (s'.inputs i).file = (s.inputs i).file
  files_eq : ∀ ref, ref ≠ (s.inputs i).file → s'.files ref = s.files ref

section Touches

variable {s s' s'' : StaticFiles} {i : Ref}

theorem Touches.trans (h : Touches i s s') (h' : Touches i s' s'') : Touches i s s'' := by
  refine ⟨h'.fileCache_eq.trans h.fileCache_eq, h'.fresh_eq.trans h.fresh_eq, fun j hj => ?_,
    h'.file_eq.trans h.file_eq, fun ref href => ?_⟩
  · rw [h'.inputs_eq j hj, h.inputs_eq j hj]
  · rw [h'.files_eq ref (by rwa [h.file_eq]), h.files_eq ref href]

@[simp] theorem inputs_setInput (s : StaticFiles) (i : Ref) (input : FileInputHandler) :
    (s.setInput i input).inputs i = input := Function.update_self ..

@[simp] theorem files_setInput (s : StaticFiles) (i : Ref) (input : FileInputHandler) :
    (s.setInput i input).files = s.files := rfl

@[simp] theorem inputs_setFile (s : StaticFiles) (ref : Ref) (file : File) :
    (s.setFile ref file).inputs = s.inputs := rfl

@[simp] theorem files_setFile (s : StaticFiles) (ref : Ref) (file : File) :
    (s.setFile ref file).files ref = file := Function.update_self ..

@[simp] theorem files_threadStop (s : StaticFiles) (i : Ref) :
    (s.threadStop i).files = s.files := rfl

theorem touches_setInput {input : FileInputHandler} (h : input.file = (s.inputs i).file) :
    Touches i s (s.setInput i input) := by
  refine ⟨rfl, rfl, fun j hj => Function.update_of_ne hj _ _, ?_, fun ref _ => rfl⟩
  rw [inputs_setInput, h]

/-- The handler and its file. -/
theorem touches_setInput_setFile {input : FileInputHandler} (h : input.file = (s.inputs i).file)
    (file : File) : Touches i s ((s.setInput i input).setFile (s.inputs i).file file) := by
  refine (touches_setInput h).trans ⟨rfl, rfl, fun _ _ => rfl, rfl, fun ref href => ?_⟩
  rw [inputs_setInput, h] at href
  exact Function.update_of_ne href _ _

theorem touches_threadStop : Touches i s (s.threadStop i) := touches_setInput rfl

theorem not_alive_threadStop (s : StaticFiles) (i : Ref) :
    ¬ ((s.threadStop i).inputs i).co.Alive := by
  rw [threadStop, inputs_setInput]
  rintro ⟨-, hended⟩
  cases hended

/-- A call on a file that has returned. -/
theorem exists_of_onFile {f : File.Call PUnit} {ref : Ref} (h : s.onFile ref f = .ok s') :
    ∃ r file, f (s.files ref) = .ok (r, file) ∧ s' = s.setFile ref file := by
  rw [onFile] at h
  rcases hf : f (s.files ref) with e | ⟨r, file⟩
  · rw [hf] at h
    cases h
  · rw [hf] at h
    cases h
    exact ⟨r, file, rfl, rfl⟩

end Touches

/-! ## Runs in which every file is fetched -/

/-- **The cache is covered**: each file that is served for not being complete is being fetched, and
what is still to be made is used nowhere. -/
structure Covered (s : StaticFiles) : Prop where
  fetched : s.Fetched
  cached_lt : ∀ key file, s.fileCache.getFile key = some file → file < s.fresh
  input_lt : ∀ i, (s.inputs i).co.Alive → i < s.fresh ∧ (s.inputs i).file < s.fresh
  demux_valid : ∀ i, (s.inputs i).co.Alive → (s.inputs i).demux.buffer.Valid

section Covered

variable {s s' : StaticFiles} {i : Ref}

theorem covered_new : Covered new := by
  have hdead : ∀ i, ¬ (new.inputs i).co.Alive := by
    rintro i ⟨hstarted, -⟩
    cases hstarted
  refine ⟨?_, ?_, fun i h => absurd h (hdead i), fun i h => absurd h (hdead i)⟩
  · intro key file h
    cases h
  · intro key file h
    cases h

/-- **A step of one fetch** that leaves its coroutine at work, or its file complete. -/
theorem Covered.of_touches (h : Covered s) (hi : (s.inputs i).co.Alive) (ht : Touches i s s')
    (hend : (s'.inputs i).co.Alive ∧ (s'.inputs i).demux.buffer.Valid
      ∨ ¬ (s'.inputs i).co.Alive ∧ (s'.files (s.inputs i).file).complete = true) : Covered s' := by
  refine ⟨fun key file hkey hfile => ?_, fun key file hkey => ?_, fun j hj => ?_, fun j hj => ?_⟩
  · rw [ht.fileCache_eq] at hkey
    by_cases heq : file = (s.inputs i).file
    · rcases hend with ⟨halive, -⟩ | ⟨-, hcomplete⟩
      · exact ⟨i, halive, ht.file_eq.trans heq.symm⟩
      · rw [heq, hcomplete] at hfile
        cases hfile
    · rw [ht.files_eq file heq] at hfile
      obtain ⟨j, hj, rfl⟩ := h.fetched key file hkey hfile
      have hne : j ≠ i := by
        rintro rfl
        exact heq rfl
      exact ⟨j, by rw [ht.inputs_eq j hne]; exact hj, by rw [ht.inputs_eq j hne]⟩
  · rw [ht.fileCache_eq] at hkey
    rw [ht.fresh_eq]
    exact h.cached_lt key file hkey
  · rw [ht.fresh_eq]
    by_cases hne : j = i
    · subst hne
      rw [ht.file_eq]
      exact h.input_lt j hi
    · rw [ht.inputs_eq j hne] at hj ⊢
      exact h.input_lt j hj
  · by_cases hne : j = i
    · subst hne
      rcases hend with ⟨-, hvalid⟩ | ⟨hdead, -⟩
      · exact hvalid
      · exact absurd hj hdead
    · rw [ht.inputs_eq j hne] at hj ⊢
      exact h.demux_valid j hj

section CreateOriginFile

variable {client created : Bool} {junk : ℤ × ℤ} {key key' : Bytes} {ref : Ref}

theorem inputs_createOriginFile_of_ne (h : i ≠ s.fresh) :
    (s.createOriginFile client created junk key).inputs i = s.inputs i :=
  Function.update_of_ne h _ _

theorem files_createOriginFile_of_lt (h : ref < s.fresh) :
    (s.createOriginFile client created junk key).files ref = s.files ref :=
  Function.update_of_ne h.ne _ _

/-- What the cache then holds is the new file or was there before. -/
theorem getFile_createOriginFile
    (h : (s.createOriginFile client created junk key).fileCache.getFile key' = some ref) :
    ref = s.fresh ∨ s.fileCache.getFile key' = some ref := by
  have hget : (s.createOriginFile client created junk key).fileCache.getFile key'
      = if key' = key then some s.fresh else s.fileCache.getFile key' :=
    FileCache.getFile_addFile ..
  rw [hget] at h
  split at h
  · exact Or.inl (Option.some.inj h).symm
  · exact Or.inr h

/-- The new handler, if its thread is created. -/
theorem inputs_createOriginFile_fresh (s : StaticFiles) (client : Bool) (junk : ℤ × ℤ)
    (key : Bytes) :
    ((s.createOriginFile client true junk key).inputs s.fresh).file = s.fresh
      ∧ ((s.createOriginFile client true junk key).inputs s.fresh).co.Alive
      ∧ ((s.createOriginFile client true junk key).inputs s.fresh).demux
        = RawDeMux.new (List.replicate (1024 * 16) 0) (1024 * 16) := by
  rw [StaticFiles.createOriginFile]
  dsimp only
  rw [Function.update_self]
  exact ⟨rfl, ⟨rfl, rfl⟩, rfl⟩

end CreateOriginFile

/-- **A request that makes a file** starts a fetch of it. -/
theorem Covered.createOriginFile (h : Covered s) (client : Bool) (junk : ℤ × ℤ) (key : Bytes) :
    Covered (s.createOriginFile client true junk key) := by
  have hfresh : (s.createOriginFile client true junk key).fresh = s.fresh + 1 := rfl
  obtain ⟨hfile, halive, hdemux⟩ :=
    inputs_createOriginFile_fresh s client junk key
  refine ⟨fun key' file hkey hincomplete => ?_, fun key' file hkey => ?_, fun j hj => ?_,
    fun j hj => ?_⟩
  · rcases getFile_createOriginFile hkey with rfl | hkey
    · exact ⟨s.fresh, halive, hfile⟩
    · rw [files_createOriginFile_of_lt (h.cached_lt key' file hkey)] at hincomplete
      obtain ⟨j, hj, hjfile⟩ := h.fetched key' file hkey hincomplete
      have hsame : (s.createOriginFile client true junk key).inputs j = s.inputs j :=
        inputs_createOriginFile_of_ne (h.input_lt j hj).1.ne
      exact ⟨j, by rwa [hsame], by rwa [hsame]⟩
  · rcases getFile_createOriginFile hkey with rfl | hkey
    · exact Nat.lt_succ_self _
    · exact (h.cached_lt key' file hkey).trans (Nat.lt_succ_self _)
  · by_cases hne : j = s.fresh
    · subst hne
      rw [hfile, hfresh]
      exact ⟨Nat.lt_succ_self _, Nat.lt_succ_self _⟩
    · rw [inputs_createOriginFile_of_ne hne] at hj ⊢
      obtain ⟨h₁, h₂⟩ := h.input_lt j hj
      exact ⟨h₁.trans (Nat.lt_succ_self _), h₂.trans (Nat.lt_succ_self _)⟩
  · by_cases hne : j = s.fresh
    · subst hne
      rw [hdemux]
      exact Buffer.valid_new (by decide) (by rw [List.length_replicate]; decide)
    · rw [inputs_createOriginFile_of_ne hne] at hj ⊢
      exact h.demux_valid j hj

end Covered

/-- **The round leaves the fetch at work, or its file complete**: it finds the connection stopped or
nothing to read only once the file is complete, and where it reaches `total_size`, so does the file
`total_length`. -/
structure GoesOn (s : StaticFiles) (i : Ref) (stop : Bool) (received : Received) : Prop where
  ended : stop = true ∨ RawDeMux.offered received (s.inputs i).demux = [] →
    (s.files (s.inputs i).file).complete = true
  filled : 0 < (s.inputs i).totalSize → (s.inputs i).totalSize
      ≤ (s.inputs i).handleSize + (RawDeMux.offered received (s.inputs i).demux).length →
    (s.files (s.inputs i).file).complete = true
      ∨ 0 < (s.files (s.inputs i).file).totalLength
        ∧ (s.files (s.inputs i).file).totalLength ≤ (s.files (s.inputs i).file).pos
          + (RawDeMux.offered received (s.inputs i).demux).length
        ∧ (s.files (s.inputs i).file).HasRoom
          (RawDeMux.offered received (s.inputs i).demux).length

/-- What the world has to answer: the thread of a new file is created, its connection and its
request work, and each round of its loop goes on. -/
def Event.Works (s : StaticFiles) : Event → Prop
  | .play key now created _ =>
    (∀ file, s.fileCache.getFile key = some file → ¬ serves now (s.files file)) → created = true
  | .connected i ret => (s.inputs i).Waits .connect → ret = 0
  | .answered i answer _ _ => (s.inputs i).Waits .answer → answer.ret = 0
  | .received i stop got _ => (s.inputs i).Waits .read → s.GoesOn i stop got

section Works

variable {s s' : StaticFiles} {i : Ref}

theorem Covered.play (h : Covered s) {client created : Bool} {junk : ℤ × ℤ} {key : Bytes} {now : ℤ}
    (hw : (Event.play key now created junk).Works s) :
    Covered (s.handlePlayFile client created junk key now).1 := by
  unfold handlePlayFile
  split
  · rename_i file hkey
    split
    · exact h
    · rename_i hserves
      have hcreated : created = true := by
        refine hw fun file' hkey' => ?_
        rw [hkey] at hkey'
        rwa [← Option.some.inj hkey']
      rw [hcreated]
      exact h.createOriginFile client junk key
  · rename_i hkey
    have hcreated : created = true := by
      refine hw fun file' hkey' => ?_
      rw [hkey] at hkey'
      cases hkey'
    rw [hcreated]
    exact h.createOriginFile client junk key

theorem Covered.connected (h : Covered s) (hi : (s.inputs i).Waits .connect)
    (hrun : s.connected i 0 = .ok s') : Covered s' := by
  rw [StaticFiles.connected, if_neg (not_not.2 rfl)] at hrun
  split at hrun
  · cases hrun
    refine h.of_touches hi.1 (touches_setInput rfl) (Or.inl ?_)
    rw [inputs_setInput]
    exact ⟨hi.1, h.demux_valid i hi.1⟩
  · cases hrun

theorem Covered.answered (h : Covered s) {answer : Answer} {now : ℤ} {fresh : ℕ → Byte}
    (hi : (s.inputs i).Waits .answer) (hret : answer.ret = 0)
    (hrun : s.answered i answer now fresh = .ok s') : Covered s' := by
  obtain ⟨r, b, hingest, hvalid⟩ :=
    RawDeMux.onIngest_eq (h.demux_valid i hi.1) answer.contentLength.toInt answer.dataHeader
  rw [StaticFiles.answered, if_neg (not_not.2 hret), hingest] at hrun
  obtain ⟨r, file, -, rfl⟩ := exists_of_onFile hrun
  refine h.of_touches hi.1 (touches_setInput_setFile ?_ file) (Or.inl ?_)
  · rfl
  · rw [inputs_setFile, inputs_setInput]
    exact ⟨hi.1, hvalid⟩

/-- A coroutine that ends and leaves its file complete. -/
theorem Covered.threadStop (h : Covered s) (hi : (s.inputs i).co.Alive)
    (hcomplete : (s.files (s.inputs i).file).complete = true) : Covered (s.threadStop i) :=
  h.of_touches hi touches_threadStop (Or.inr ⟨not_alive_threadStop s i, hcomplete⟩)

/-- The file after an append that was expected to fill it. -/
theorem complete_of_append {f f' : File} {packet : Bytes} {fresh : ℕ → Byte} {r : Except ℤ PUnit}
    (h : f.complete = true ∨ 0 < f.totalLength ∧ f.totalLength ≤ f.pos + packet.length
      ∧ f.HasRoom packet.length)
    (hrun : File.append packet fresh f = .ok (r, f')) : f'.complete = true := by
  have happend := File.holds_append f packet fresh
  rw [Comp.Holds, hrun] at happend
  cases r with
  | error c =>
    obtain ⟨hlengths, hroom⟩ := happend
    obtain ⟨hpos, htotal⟩ := Prod.ext_iff.1 hlengths
    rcases h with h | ⟨-, -, hhas⟩
    · exact File.complete_of_lengths htotal hpos.ge h
    · exact absurd hhas hroom
  | ok u =>
    obtain ⟨hpos, htotal⟩ := Prod.ext_iff.1 happend
    dsimp only [File.lengths] at hpos htotal
    rcases h with h | ⟨hpositive, hfull, -⟩
    · exact File.complete_of_lengths htotal (by omega) h
    · rw [File.complete, htotal, if_pos hpositive, hpos]
      exact decide_eq_true hfull

/-- **A packet** that the fetch ends with fills the file. -/
theorem Covered.gotPacket (h : Covered s) (hi : (s.inputs i).co.Alive) {packet : Bytes}
    {fresh : ℕ → Byte}
    (hfilled : 0 < (s.inputs i).totalSize →
      (s.inputs i).totalSize ≤ (s.inputs i).handleSize + packet.length →
      (s.files (s.inputs i).file).complete = true
        ∨ 0 < (s.files (s.inputs i).file).totalLength
          ∧ (s.files (s.inputs i).file).totalLength
            ≤ (s.files (s.inputs i).file).pos + packet.length
          ∧ (s.files (s.inputs i).file).HasRoom packet.length)
    (hrun : s.gotPacket i packet fresh = .ok s') : Covered s' := by
  rw [StaticFiles.gotPacket] at hrun
  split at hrun
  · cases hrun
  · rename_i handleSize hsum
    obtain rfl : (s.inputs i).handleSize + packet.length = handleSize := toCInt_eq hsum
    rcases hfile : (s.setInput i { s.inputs i with
        handleSize := (s.inputs i).handleSize + packet.length }).onFile (s.inputs i).file
        (File.append packet fresh) with e | s₁
    · rw [hfile] at hrun
      cases hrun
    · rw [hfile] at hrun
      cases hrun
      obtain ⟨r, file, happend, rfl⟩ := exists_of_onFile hfile
      rw [files_setInput] at happend
      set s₁ := (s.setInput i { s.inputs i with
        handleSize := (s.inputs i).handleSize + packet.length }).setFile (s.inputs i).file file
      have ht : Touches i s s₁ := by
        apply touches_setInput_setFile
        rfl
      have hfiles : s₁.files (s.inputs i).file = file := files_setFile ..
      have hinput : s₁.inputs i = { s.inputs i with
          handleSize := (s.inputs i).handleSize + packet.length } := inputs_setInput ..
      split
      · rename_i hend
        refine h.of_touches hi (ht.trans touches_threadStop)
          (Or.inr ⟨not_alive_threadStop s₁ i, ?_⟩)
        rw [files_threadStop, hfiles]
        exact complete_of_append (hfilled hend.1 hend.2) happend
      · refine h.of_touches hi ht (Or.inl ?_)
        rw [hinput]
        exact ⟨hi, h.demux_valid i hi⟩

/-- **A round of the loop** that goes on. -/
theorem Covered.received (h : Covered s) {stop : Bool} {got : Received} {fresh : ℕ → Byte}
    (hi : (s.inputs i).co.Alive) (hgo : s.GoesOn i stop got)
    (hrun : StaticFiles.received i stop got fresh s = .ok s') : Covered s' := by
  obtain ⟨b, hinput, hvalid, -, -⟩ := RawDeMux.handleInput_eq (h.demux_valid i hi) got
  rw [StaticFiles.received] at hrun
  split at hrun
  · rename_i hstop
    cases hrun
    exact h.threadStop hi (hgo.ended (Or.inl hstop))
  · rw [hinput] at hrun
    dsimp only at hrun
    set s₁ := s.setInput i { s.inputs i with demux := { (s.inputs i).demux with buffer := b } }
      with hs₁
    have hinput₁ : s₁.inputs i
        = { s.inputs i with demux := { (s.inputs i).demux with buffer := b } } :=
      inputs_setInput ..
    have hcovered : Covered s₁ := by
      refine h.of_touches hi (touches_setInput rfl) (Or.inl ?_)
      rw [hinput₁]
      exact ⟨hi, hvalid⟩
    have halive : (s₁.inputs i).co.Alive := by
      rw [hinput₁]
      exact hi
    split at hrun
    · rename_i hnil
      cases hrun
      refine hcovered.threadStop halive ?_
      rw [hinput₁]
      exact hgo.ended (Or.inr hnil)
    · rw [afterInput, if_neg (not_not.2 rfl)] at hrun
      refine hcovered.gotPacket halive ?_ hrun
      rw [hinput₁]
      exact hgo.filled

/-- **One step** that works keeps the cache covered. -/
theorem Covered.step (h : Covered s) {client : Bool} {e : Event} (hw : e.Works s)
    (hrun : s.step client e = .ok s') : Covered s' := by
  cases e with
  | play key now created junk =>
    cases hrun
    exact h.play hw
  | connected i ret =>
    rw [StaticFiles.step] at hrun
    split at hrun
    · rename_i hi
      rw [hw hi] at hrun
      exact h.connected hi hrun
    · cases hrun
      exact h
  | answered i answer now fresh =>
    rw [StaticFiles.step] at hrun
    split at hrun
    · rename_i hi
      exact h.answered hi (hw hi) hrun
    · cases hrun
      exact h
  | received i stop got fresh =>
    rw [StaticFiles.step] at hrun
    split at hrun
    · rename_i hi
      exact h.received hi.1 (hw hi) hrun
    · cases hrun
      exact h

end Works

/-- A step in which the world works. -/
def WorkingStep (client : Bool) (s s' : StaticFiles) : Prop :=
  ∃ e : Event, e.Works s ∧ s.step client e = .ok s'

/-- **Where every step works, each file that is served for not being complete is being fetched**, in
every state that is reached. -/
theorem incomplete_files_fetched {client : Bool} {s : StaticFiles}
    (h : Relation.ReflTransGen (WorkingStep client) new s) : s.Fetched := by
  have hcovered : Covered s := by
    induction h with
    | refl => exact covered_new
    | tail _ hstep ih =>
      obtain ⟨e, hw, hrun⟩ := hstep
      exact ih.step hw hrun
  exact hcovered.fetched

/-- A request, for which the new handler has a client. -/
def fetching : StaticFiles := new.createOriginFile true true (0, 0) (text "k")

/-- The handler has been connected. -/
def fetchConnected : StaticFiles :=
  fetching.setInput 0 { fetching.inputs 0 with wait := .answer }

/-- Three bytes are announced to it. -/
def fetchAnswered : StaticFiles :=
  (fetchConnected.setInput 0 { fetchConnected.inputs 0 with
    demux := { (fetchConnected.inputs 0).demux with contentLength := 3 }
    totalSize := 3
    status := .start
    wait := .read }).setFile 0 ⟨3, some [0, 0, 0, 0], 0, 3, 5⟩

/-- Two of them come. -/
theorem exists_twoOfThree : ∃ s, fetchAnswered.step true
      (.received 0 false (.bytes (text "ab")) fun _ => 0) = .ok s
    ∧ s.files 0 = ⟨3, some (text "ab" ++ [0, 0]), 2, 3, 5⟩ := by
  have hwaits : (fetchAnswered.inputs 0).Waits .read := ⟨⟨rfl, rfl⟩, rfl⟩
  have hvalid : (fetchAnswered.inputs 0).demux.buffer.Valid :=
    Buffer.valid_new (by decide) (by rw [List.length_replicate]; decide)
  obtain ⟨b, hinput, -⟩ := RawDeMux.handleInput_eq hvalid (.bytes (text "ab"))
  rw [step, if_pos hwaits, received, if_neg Bool.false_ne_true, hinput]
  exact ⟨_, rfl, rfl⟩

/-- A second viewer comes before the bytes do. -/
theorem incomplete_files_fetched_two_of_three : ∃ s : StaticFiles,
    Relation.ReflTransGen (WorkingStep true) new s
      ∧ s.files 0 = ⟨3, some (text "ab" ++ [0, 0]), 2, 3, 5⟩ ∧ s.Fetched := by
  obtain ⟨s, hread, hfile⟩ := exists_twoOfThree
  have hplay : WorkingStep true new fetching := ⟨.play (text "k") 0 true (0, 0), fun _ => rfl, rfl⟩
  have hconnect : WorkingStep true fetching fetchConnected :=
    ⟨.connected 0 0, fun _ => rfl, rfl⟩
  have hsecond : WorkingStep true fetchConnected fetchConnected :=
    ⟨.play (text "k") 2 true (0, 0), fun _ => rfl, rfl⟩
  have hanswer : WorkingStep true fetchConnected fetchAnswered :=
    ⟨.answered 0 ⟨0, 3, []⟩ 5 fun _ => 0, fun _ => rfl, rfl⟩
  have hoffered : RawDeMux.offered (.bytes (text "ab")) (fetchAnswered.inputs 0).demux
      = text "ab" := rfl
  have hgoes : fetchAnswered.GoesOn 0 false (.bytes (text "ab")) := by
    refine ⟨fun hend => ?_, fun _ hreached => ?_⟩
    · rw [hoffered] at hend
      exact absurd hend (by decide)
    · rw [hoffered] at hreached
      exact absurd hreached (by decide)
  have hrun := (((Relation.ReflTransGen.single hplay).tail hconnect).tail hsecond).tail hanswer
  have hreads := hrun.tail
    ⟨.received 0 false (.bytes (text "ab")) fun _ => 0, fun _ => hgoes, hread⟩
  exact ⟨s, hreads, hfile, incomplete_files_fetched hreads⟩

/-- After the first request. -/
def requested : StaticFiles := new.createOriginFile false true (0, 0) (text "k")

/-- **One connection that fails, and the file is never fetched**: whoever asks for it later
waits. -/
theorem failed_connect_strands_file :
    ∃ s, Relation.ReflTransGen (fun s s' => ∃ e, step false s e = .ok s') new s ∧ ¬ s.Fetched
      ∧ ∀ now created junk, s.handlePlayFile false created junk (text "k") now = (s, 0) := by
  have hwaits : (requested.inputs 0).Waits .connect := ⟨⟨rfl, rfl⟩, rfl⟩
  have hconnect : requested.step false (.connected 0 (-1)) = .ok (requested.threadStop 0) := by
    rw [step, if_pos hwaits]
    rfl
  refine ⟨requested.threadStop 0,
    .tail (.single ⟨.play (text "k") 0 true (0, 0), rfl⟩) ⟨.connected 0 (-1), hconnect⟩, ?_, ?_⟩
  · intro hfetched
    obtain ⟨i, halive, -⟩ := hfetched (text "k") 0 rfl rfl
    by_cases hi : i = 0
    · subst hi
      exact not_alive_threadStop requested 0 halive
    · have hnone : (requested.threadStop 0).inputs i = new.inputs i :=
        (Function.update_of_ne hi _ _).trans (Function.update_of_ne hi _ _)
      rw [hnone] at halive
      cases halive.1
  · intro now created junk
    have hserves : serves now ((requested.threadStop 0).files 0) := Or.inr rfl
    have hkey : (requested.threadStop 0).fileCache.getFile (text "k") = some 0 := rfl
    rw [handlePlayFile, hkey]
    dsimp only
    rw [if_pos hserves]

end StaticFiles

end SmartStreaming
