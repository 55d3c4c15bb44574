import SmartStreaming.Cache.Readers
import SmartStreaming.Cache.Viewers

/-!
# Cache/Serving — the loop of `handle_play_file` and of `handle_play_segment`

A request for a file reads up to 1024 bytes from where it has come to, waits where there are none,
and sends what it has read, until the file is complete and `total_length` is reached.  One handler
fills the file while any number of requests are served from it.

`files_served` says what the clients have been sent in a run whose appends find an empty file;
`complete_file_ends` that each request for a complete file comes to its end.
-/

namespace SmartStreaming

open Machinery Comp

/-! ## One request -/

/-- A request in its loop: its muxer, whose client keeps what it is sent, how far it has come, and
whether it waits in `seek_range`; once it has left the loop, `total_length` as it was then. -/
structure Download where
  muxer : RawMux Bytes
  offset : ℤ := 0
  waiting : Bool := false
  left : Option ℤ := none

namespace Download

/-- Before the loop; `write` is what that of the connection does. -/
def new (write : Bytes → Bytes → ℤ × Bytes) : Download :=
  { muxer := RawMux.new outBuf outBufSize (some write) [] }

/-- The condition of the loop. -/
def GoesOn (file : File) (d : Download) : Prop :=
  file.complete = false ∨ d.offset < file.totalLength

instance (file : File) (d : Download) : Decidable (d.GoesOn file) :=
  inferInstanceAs (Decidable (_ ∨ _))

/-- `send_status` and `handle_output`, of the bytes that have been read. -/
def send (file : File) (offset : ℤ) (bytes : Bytes) (d : Download) : Except Fault Download :=
  (PlayOutput.play bytes d.muxer).map fun out =>
    { muxer := out.2
      offset
      left := match out.1 with
        | .ok ret => if ret < 0 then some file.totalLength else none
        | .error _ => some file.totalLength }

/-- The body of the loop, from the end of the wait in `seek_range` on. -/
def body (file : File) (d : Download) : Except Fault Download :=
  match File.seekRange 1024 d.offset file with
  | .error e => .error e
  | .ok (.error _, _) => .ok { d with waiting := false, left := some file.totalLength }
  | .ok (.ok (size, bytes), _) =>
    match toCInt (d.offset + size) with
    | none => .error .signedOverflow
    | some offset => d.send file offset bytes

/-- The loop, once round or up to the wait in `seek_range`. -/
def round (file : File) (d : Download) : Except Fault Download :=
  if d.left.isSome ∨ d.waiting = true then .ok d
  else if ¬ d.GoesOn file then .ok { d with left := some file.totalLength }
  else if file.waits d.offset then .ok { d with waiting := true }
  else d.body file

/-- The loop after the wait. -/
def wake (file : File) (d : Download) : Except Fault Download :=
  if d.waiting then d.body file else .ok d

/-! ## What a request has been sent of the file -/

/-- **The client has been sent the first `offset` bytes** of what the file holds, and at least
`total_length` of them if the loop has been left. -/
structure Serves (log : Bytes) (d : Download) : Prop where
  offset_nonneg : 0 ≤ d.offset
  offset_le : d.offset ≤ log.length
  sent : ∃ packets, PlayOutput.Sent d.muxer packets ∧ packets.flatten = log.take d.offset.toNat
  left : ∀ total, d.left = some total → 0 < total ∧ total ≤ d.offset

variable {d : Download} {file : File} {log more : Bytes}

theorem serves_new : Serves log (new RawMux.accept) where
  offset_nonneg := le_rfl
  offset_le := Int.natCast_nonneg _
  sent := ⟨[], PlayOutput.sent_new, rfl⟩
  left := fun _ h => by cases h

/-- What is appended is behind what has been sent. -/
theorem Serves.append (h : d.Serves log) : d.Serves (log ++ more) := by
  obtain ⟨packets, hsent, hflatten⟩ := h.sent
  have hle := h.offset_le
  refine ⟨h.offset_nonneg, ?_, ⟨packets, hsent, ?_⟩, h.left⟩
  · rw [List.length_append, Nat.cast_add]
    omega
  · rw [List.take_append_of_le_length (by omega), hflatten]

theorem Serves.wait (h : d.Serves log) (waiting : Bool) : Serves log { d with waiting } :=
  ⟨h.offset_nonneg, h.offset_le, h.sent, h.left⟩

/-- The loop is left where the file is complete and `total_length` is reached. -/
theorem Serves.leave (h : d.Serves log) (hend : ¬ d.GoesOn file) :
    Serves log { d with left := some file.totalLength } := by
  refine ⟨h.offset_nonneg, h.offset_le, h.sent, ?_⟩
  rintro total htotal
  obtain rfl := Option.some.inj htotal
  rw [GoesOn, not_or, Bool.not_eq_false, File.complete] at hend
  obtain ⟨hcomplete, hlt⟩ := hend
  split at hcomplete
  · rename_i hpos
    exact ⟨hpos, not_lt.1 hlt⟩
  · cases hcomplete

/-- **The body of the loop** sends the next bytes. -/
theorem Serves.exists_body (h : d.Serves log) (hfile : file.Stores log)
    (hlt : log.length < 2 ^ 24) :
    ∃ d', d.body file = .ok d' ∧ d'.Serves log ∧ d'.waiting = false ∧ d'.left = none
      ∧ d'.offset = d.offset + min 1024 (log.length - d.offset) := by
  have hnonneg := h.offset_nonneg
  have hle := h.offset_le
  obtain ⟨packets, hsent, hflatten⟩ := h.sent
  have hseek : File.seekRange 1024 d.offset file = _ :=
    hfile.seekRange_eq (by decide) hnonneg hle (by omega)
  generalize hsize : min 1024 ((log.length : ℤ) - d.offset) = size at hseek
  have hnext : toCInt (d.offset + size) = some (d.offset + size) :=
    toCInt_eq_some (by omega) (by omega)
  have hfits : (((log.drop d.offset.toNat).take size.toNat).length : ℤ) < outBufSize := by
    rw [List.length_take, outBufSize]
    omega
  obtain ⟨m', hplay, hsent'⟩ := hsent.play_of_fits hfits
  refine ⟨{ muxer := m', offset := d.offset + size }, ?_, ⟨?_, ?_, ?_, ?_⟩, rfl, rfl, rfl⟩
  · rw [body, hseek]
    dsimp only
    rw [hnext]
    dsimp only
    rw [send, hplay]
    rfl
  · dsimp only
    omega
  · dsimp only
    omega
  · refine ⟨_, hsent', ?_⟩
    have hsum : (d.offset + size).toNat = d.offset.toNat + size.toNat := by omega
    rw [List.flatten_append, List.flatten_singleton, hflatten, hsum, List.take_add]
  · intro total htotal
    cases htotal

theorem Serves.exists_round (h : d.Serves log) (hfile : file.Stores log)
    (hlt : log.length < 2 ^ 24) : ∃ d', d.round file = .ok d' ∧ d'.Serves log := by
  rw [round]
  split
  · exact ⟨d, rfl, h⟩
  · split
    · rename_i hend
      exact ⟨_, rfl, h.leave hend⟩
    · split
      · exact ⟨_, rfl, h.wait true⟩
      · obtain ⟨d', hbody, hd', -⟩ := h.exists_body hfile hlt
        exact ⟨d', hbody, hd'⟩

theorem Serves.exists_wake (h : d.Serves log) (hfile : file.Stores log)
    (hlt : log.length < 2 ^ 24) : ∃ d', d.wake file = .ok d' ∧ d'.Serves log := by
  rw [wake]
  split
  · obtain ⟨d', hbody, hd', -⟩ := h.exists_body hfile hlt
    exact ⟨d', hbody, hd'⟩
  · exact ⟨d, rfl, h⟩

end Download

/-! ## A file and its requests -/

/-- A file, what has been appended to it, and the requests that are served from it. -/
structure Serving (ρ : Type) where
  file : File
  log : Bytes
  downloads : ρ → Download

namespace Serving

/-- What the handler of the file does, and what a request does. -/
inductive Op (ρ : Type)
  | initBuffer (newSize : ℤ) (fresh : ℕ → Byte)
  | setTotalLength (totalLength : ℤ)
  | append (buffer : Bytes) (fresh : ℕ → Byte)
  | round (request : ρ)
  | wake (request : ρ)

section

variable {ρ : Type} [DecidableEq ρ]

/-- A new file, and requests of which none has gone round its loop yet, with the connections that
`write` describes. -/
def start (write : ρ → Bytes → Bytes → ℤ × Bytes) : Serving ρ :=
  ⟨File.new, [], fun request => Download.new (write request)⟩

def setDownload (request : ρ) (s : Serving ρ) (d : Download) : Serving ρ :=
  { s with downloads := Function.update s.downloads request d }

def exec (s : Serving ρ) : Op ρ → Except Fault (Serving ρ)
  | .initBuffer newSize fresh =>
    (File.initBuffer newSize fresh s.file).map fun out => { s with file := out.2 }
  | .setTotalLength totalLength => .ok { s with file := { s.file with totalLength } }
  | .append buffer fresh =>
    (File.append buffer fresh s.file).map fun out =>
      { s with file := out.2, log := s.log ++ buffer }
  | .round request => ((s.downloads request).round s.file).map (s.setDownload request)
  | .wake request => ((s.downloads request).wake s.file).map (s.setDownload request)

/-- **The calls that work**: each append finds the file empty, the whole file stays below `2^24`
bytes, and its first block has a size. -/
def Works (s : Serving ρ) : Op ρ → Prop
  | .initBuffer newSize _ => s.file.data = none → -1 ≤ newSize
  | .append buffer _ => s.log.length + buffer.length < 2 ^ 24 ∧ s.file.AppendsToEmpty buffer
  | _ => True

/-- A step of a run in which every call works. -/
def Step (s s' : Serving ρ) : Prop := ∃ op, s.Works op ∧ s.exec op = .ok s'

/-- **The invariant**: the file stores what has been appended, and every request serves it. -/
structure Inv (s : Serving ρ) : Prop where
  stores : s.file.Stores s.log
  length_lt : s.log.length < 2 ^ 24
  serves : ∀ request, (s.downloads request).Serves s.log

variable {s s' : Serving ρ} {request : ρ}

@[simp] theorem downloads_setDownload (d : Download) :
    (s.setDownload request d).downloads request = d := Function.update_self ..

omit [DecidableEq ρ] in
theorem inv_start : Inv (start fun _ : ρ => RawMux.accept) :=
  ⟨File.stores_new, Nat.two_pow_pos 24, fun _ => Download.serves_new⟩

theorem Inv.setDownload (h : s.Inv) {d : Download} (hd : d.Serves s.log) :
    Inv (s.setDownload request d) := by
  refine ⟨h.stores, h.length_lt, fun other => ?_⟩
  dsimp only [Serving.setDownload]
  by_cases hother : other = request
  · rw [hother, Function.update_self]
    exact hd
  · rw [Function.update_of_ne hother]
    exact h.serves other

/-- **One step**: a call that works does not stop the program, and keeps the invariant. -/
theorem Inv.exists_exec (h : s.Inv) {op : Op ρ} (hw : s.Works op) :
    ∃ s', s.exec op = .ok s' ∧ s'.Inv := by
  cases op with
  | initBuffer newSize fresh =>
    obtain ⟨r, f, hrun, hf⟩ := h.stores.exists_initBuffer fresh hw
    exact ⟨{ s with file := f }, by rw [exec, hrun]; rfl, hf, h.length_lt, h.serves⟩
  | setTotalLength totalLength =>
    have hf := h.stores
    exact ⟨_, rfl, ⟨hf.pos_eq, hf.prefix_block, hf.pos_le, hf.size_lt, hf.size_of_none⟩,
      h.length_lt, h.serves⟩
  | append buffer fresh =>
    obtain ⟨f, hrun, hf⟩ := h.stores.exists_append fresh hw.1 hw.2
    refine ⟨{ s with file := f, log := s.log ++ buffer }, by rw [exec, hrun]; rfl, hf, ?_, ?_⟩
    · dsimp only
      rw [List.length_append]
      exact hw.1
    · exact fun request => (h.serves request).append
  | round request =>
    obtain ⟨d, hrun, hd⟩ := (h.serves request).exists_round h.stores h.length_lt
    exact ⟨s.setDownload request d, by rw [exec, hrun]; rfl, h.setDownload hd⟩
  | wake request =>
    obtain ⟨d, hrun, hd⟩ := (h.serves request).exists_wake h.stores h.length_lt
    exact ⟨s.setDownload request d, by rw [exec, hrun]; rfl, h.setDownload hd⟩

/-- A whole run keeps the invariant. -/
theorem Inv.of_steps (h : s.Inv) (hrun : Relation.ReflTransGen Step s s') : s'.Inv := by
  induction hrun with
  | refl => exact h
  | tail _ hstep ih =>
    obtain ⟨op, hw, hexec⟩ := hstep
    obtain ⟨t, ht, hinv⟩ := ih.exists_exec hw
    rw [hexec] at ht
    cases ht
    exact hinv

/-- What a client has been sent of a file that begins with `log`, if the first `offset` bytes. -/
theorem client_of_sent {m : RawMux Bytes} {packets : List Bytes} {bytes : Bytes}
    (h : PlayOutput.Sent m packets) (hbytes : packets.flatten = bytes) :
    m.client = [] ∧ bytes = [] ∨ m.client = RawMux.statusText 200 ++ bytes := by
  cases h with
  | nothing header idle => exact .inl ⟨idle.client_eq, hbytes.symm⟩
  | packets _ written => exact .inr (hbytes ▸ written.idle.client_eq)

/-- **What the requests for a file are sent.**  In every run whose calls work, and with clients that
take every byte, a client has been sent nothing, or the status line and behind it the first bytes of
the file, and at least as many as `total_length` said where its loop has been left; and the next
call that works does return. -/
theorem files_served {write : ρ → Bytes → Bytes → ℤ × Bytes}
    (hwrite : ∀ request, RawMux.TakesAll (write request))
    (hrun : Relation.ReflTransGen Step (start write) s) :
    (∀ request, ∃ n ≤ s.log.length,
      ((s.downloads request).muxer.client = [] ∧ n = 0
        ∨ (s.downloads request).muxer.client = RawMux.statusText 200 ++ s.log.take n)
      ∧ ∀ total, (s.downloads request).left = some total → 0 < total ∧ total ≤ n) ∧
    ∀ op, s.Works op → ∃ s', s.exec op = .ok s' := by
  obtain rfl : write = fun _ => RawMux.accept := funext fun request => (hwrite request).eq_accept
  have h := inv_start.of_steps hrun
  refine ⟨fun request => ?_, fun op hw => ?_⟩
  · have hd := h.serves request
    have hnonneg := hd.offset_nonneg
    have hle := hd.offset_le
    obtain ⟨packets, hsent, hflatten⟩ := hd.sent
    refine ⟨(s.downloads request).offset.toNat, by omega, ?_, fun total htotal => ?_⟩
    · refine (client_of_sent hsent hflatten).imp (fun hnone => ⟨hnone.1, ?_⟩) id
      have hlen := congrArg List.length hnone.2
      rw [List.length_take, List.length_nil] at hlen
      omega
    · obtain ⟨hpos, hle'⟩ := hd.left total htotal
      exact ⟨hpos, by omega⟩
  · obtain ⟨s', hs', -⟩ := h.exists_exec hw
    exact ⟨s', hs'⟩

/-- A file of two bytes, both of which have been fetched. -/
def twoBytes : Serving ℕ where
  file := { size := 48, data := some (text "ab" ++ .replicate 47 0), pos := 2, totalLength := 2 }
  log := text "ab"
  downloads := fun _ => Download.new RawMux.accept

theorem reaches_twoBytes : Relation.ReflTransGen Step (start fun _ => RawMux.accept) twoBytes := by
  refine .tail (.single ⟨.setTotalLength 2, trivial, rfl⟩)
    ⟨.append (text "ab") fun _ => 0, ⟨?_, Or.inr ⟨rfl, ?_⟩⟩, rfl⟩
  · change 0 + (text "ab").length < 2 ^ 24
    decide
  · intro mem hmem
    cases hmem

theorem files_served_two_bytes :
    ∃ n ≤ (text "ab").length,
      ((twoBytes.downloads 0).muxer.client = [] ∧ n = 0
        ∨ (twoBytes.downloads 0).muxer.client = RawMux.statusText 200 ++ (text "ab").take n)
      ∧ ∀ total, (twoBytes.downloads 0).left = some total → 0 < total ∧ total ≤ n :=
  (files_served (fun _ => RawMux.takesAll_accept) reaches_twoBytes).1 0

/-! ## The end of a request -/

/-- Steps one after another. -/
def execs (s : Serving ρ) : List (Op ρ) → Except Fault (Serving ρ)
  | [] => .ok s
  | op :: ops => (s.exec op).bind fun s => s.execs ops

/-- From `s` to `s'` only the requests have changed. -/
def SameFile (s s' : Serving ρ) : Prop := s'.file = s.file ∧ s'.log = s.log

/-- A request goes once round its loop: it leaves the loop, or it comes further. -/
theorem Inv.round_cases (h : s.Inv) (hcomplete : s.file.complete = true)
    (hleft : (s.downloads request).left = none)
    (hwaiting : (s.downloads request).waiting = false) :
    ∃ s', s.exec (.round request) = .ok s' ∧ s'.Inv ∧ s.SameFile s' ∧
      ((s'.downloads request).left = some s.file.totalLength
        ∨ (s'.downloads request).left = none ∧ (s'.downloads request).waiting = false
          ∧ (s.downloads request).offset < (s'.downloads request).offset) := by
  have hloop : ¬ ((s.downloads request).left.isSome ∨ (s.downloads request).waiting = true) := by
    rw [hleft, hwaiting]
    simp
  by_cases hgoes : (s.downloads request).GoesOn s.file
  · -- it is short of `total_length`, and the file goes beyond that
    have hlt : (s.downloads request).offset < s.file.totalLength :=
      hgoes.resolve_left (by rw [hcomplete]; exact Bool.noConfusion)
    have htotal : s.file.totalLength ≤ s.log.length := by
      rw [File.complete] at hcomplete
      split at hcomplete
      · exact (of_decide_eq_true hcomplete).trans_eq h.stores.pos_eq
      · cases hcomplete
    have hdry : ¬ s.file.waits (s.downloads request).offset := by
      rw [File.waits, h.stores.pos_eq]
      omega
    obtain ⟨d, hbody, hd, hwaiting', hleft', hoffset⟩ :=
      (h.serves request).exists_body h.stores h.length_lt
    refine ⟨s.setDownload request d, ?_, h.setDownload hd, ⟨rfl, rfl⟩, .inr ?_⟩
    · rw [exec, Download.round, if_neg hloop, if_neg (not_not.2 hgoes), if_neg hdry, hbody]
      rfl
    · rw [downloads_setDownload]
      exact ⟨hleft', hwaiting', by omega⟩
  · refine ⟨s.setDownload request { s.downloads request with left := some s.file.totalLength }, ?_,
      h.setDownload ((h.serves request).leave hgoes), ⟨rfl, rfl⟩, .inl ?_⟩
    · rw [exec, Download.round, if_neg hloop, if_pos hgoes]
      rfl
    · rw [downloads_setDownload]

/-- **A request for a complete file goes on reading**, without a wait, and leaves its loop. -/
theorem Inv.exists_rounds (h : s.Inv) (hcomplete : s.file.complete = true)
    (hleft : (s.downloads request).left = none) (hwaiting : (s.downloads request).waiting = false)
    {rest : ℕ} (hrest : (s.log.length : ℤ) - (s.downloads request).offset ≤ rest) :
    ∃ n s', s.execs (List.replicate n (.round request)) = .ok s' ∧ s'.Inv ∧ s.SameFile s'
      ∧ (s'.downloads request).left = some s.file.totalLength := by
  induction rest generalizing s with
  | zero =>
    obtain ⟨s₁, hround, h₁, hsame, hend | ⟨-, -, hfurther⟩⟩ :=
      h.round_cases hcomplete hleft hwaiting
    · exact ⟨1, s₁, by rw [List.replicate_one, execs, hround]; rfl, h₁, hsame, hend⟩
    · -- there is nothing further
      have hle := (h₁.serves request).offset_le
      rw [hsame.2] at hle
      omega
  | succ rest ih =>
    obtain ⟨s₁, hround, h₁, hsame, hend | ⟨hleft₁, hwaiting₁, hfurther⟩⟩ :=
      h.round_cases hcomplete hleft hwaiting
    · exact ⟨1, s₁, by rw [List.replicate_one, execs, hround]; rfl, h₁, hsame, hend⟩
    · obtain ⟨n, s', hrun, h', hsame', hend⟩ := ih h₁ (hsame.1 ▸ hcomplete) hleft₁ hwaiting₁
        (by rw [hsame.2]; omega)
      exact ⟨n + 1, s', by rw [List.replicate_succ, execs, hround]; exact hrun, h',
        ⟨hsame'.1.trans hsame.1, hsame'.2.trans hsame.2⟩, hsame.1 ▸ hend⟩

/-- **Every request for a complete file comes to its end.**  After every run whose calls work, and
with clients that take every byte, a request that is still in its loop leaves it after some more
rounds of its own; its client has then been sent the status line and `total_length` bytes of the
file or more. -/
theorem complete_file_ends {write : ρ → Bytes → Bytes → ℤ × Bytes}
    (hwrite : ∀ request, RawMux.TakesAll (write request))
    (hrun : Relation.ReflTransGen Step (start write) s) (hcomplete : s.file.complete = true)
    (request : ρ) (hleft : (s.downloads request).left = none) :
    ∃ n s', s.execs (.wake request :: List.replicate n (.round request)) = .ok s'
      ∧ (s'.downloads request).left = some s.file.totalLength
      ∧ ∃ k ≤ s.log.length, s.file.totalLength ≤ k
        ∧ (s'.downloads request).muxer.client = RawMux.statusText 200 ++ s.log.take k := by
  obtain rfl : write = fun _ => RawMux.accept := funext fun request => (hwrite request).eq_accept
  have h := inv_start.of_steps hrun
  obtain ⟨s₁, hwake, h₁, hsame₁, hleft₁, hwaiting₁⟩ : ∃ s₁, s.exec (.wake request) = .ok s₁
      ∧ s₁.Inv ∧ s.SameFile s₁ ∧ (s₁.downloads request).left = none
      ∧ (s₁.downloads request).waiting = false := by
    by_cases hwaiting : (s.downloads request).waiting = true
    · obtain ⟨d, hbody, hd, hwaiting', hleft', -⟩ :=
        (h.serves request).exists_body h.stores h.length_lt
      refine ⟨s.setDownload request d, ?_, h.setDownload hd, ⟨rfl, rfl⟩, ?_⟩
      · rw [exec, Download.wake, if_pos hwaiting, hbody]
        rfl
      · rw [downloads_setDownload]
        exact ⟨hleft', hwaiting'⟩
    · have hself : s.setDownload request (s.downloads request) = s := by
        rw [setDownload, Function.update_eq_self]
      refine ⟨s, ?_, h, ⟨rfl, rfl⟩, hleft, by simpa using hwaiting⟩
      rw [exec, Download.wake, if_neg hwaiting]
      exact congrArg Except.ok hself
  have hrest : (s₁.log.length : ℤ) - (s₁.downloads request).offset ≤ s₁.log.length := by
    have := (h₁.serves request).offset_nonneg
    omega
  obtain ⟨n, s', hrounds, h', hsame, hend⟩ :=
    h₁.exists_rounds (hsame₁.1 ▸ hcomplete) hleft₁ hwaiting₁ hrest
  have hd := h'.serves request
  rw [hsame₁.1] at hend
  rw [hsame.2, hsame₁.2] at hd
  obtain ⟨hpos, hle⟩ := hd.left _ hend
  have hlen := hd.offset_le
  obtain ⟨packets, hsent, hflatten⟩ := hd.sent
  refine ⟨n, s', by rw [execs, hwake]; exact hrounds, hend,
    (s'.downloads request).offset.toNat, by omega, by omega, ?_⟩
  refine (client_of_sent hsent hflatten).resolve_left fun hnone => ?_
  have hzero := congrArg List.length hnone.2
  rw [List.length_take, List.length_nil] at hzero
  omega

theorem complete_file_ends_two_bytes :
    ∃ n s', twoBytes.execs (.wake 0 :: List.replicate n (.round 0)) = .ok s'
      ∧ (s'.downloads 0).left = some 2
      ∧ ∃ k ≤ (text "ab").length, (2 : ℤ) ≤ k
        ∧ (s'.downloads 0).muxer.client = RawMux.statusText 200 ++ (text "ab").take k :=
  complete_file_ends (fun _ => RawMux.takesAll_accept) reaches_twoBytes (by decide) 0 rfl

end

end Serving

end SmartStreaming
