import SmartStreaming.Cache.File
import SmartStreaming.Machinery.Log
import Mathlib.Logic.Relation

/-!
# Cache/Readers — one writer and many readers of a `File`

The coroutines that use a file give way to each other only while a `seek_range` waits, so that a
run is a sequence of calls in which a waiting `seek_range` is finished by a step of its own.
`seek_range_reads_log` says of every run that what the readers get are slices of the log of all
appended bytes, as long as each append finds an empty file.
-/

namespace SmartStreaming

open Machinery Comp

namespace File

/-- A `seek_range` that has returned: what was wanted at which offset, what it gave, and what had
been appended by then. -/
structure Read (ρ : Type) where
  reader : ρ
  wantedSize : ℤ
  offset : ℤ
  size : ℤ
  bytes : Bytes
  appended : Bytes

/-- A file and its readers: the readers that wait, with their arguments, and the history of the
bytes appended and the reads finished so far. -/
structure System (ρ : Type) where
  file : File
  waiting : ρ → Option (ℤ × ℤ)
  log : Bytes
  reads : List (Read ρ)

/-- A call of a coroutine, or the end of a wait. -/
inductive Op (ρ : Type)
  | initBuffer (newSize : ℤ) (fresh : ℕ → Byte)
  | append (buffer : Bytes) (fresh : ℕ → Byte)
  | seekRange (reader : ρ) (wantedSize offset : ℤ)
  | wake (reader : ρ)

namespace System

variable {ρ : Type} [DecidableEq ρ]

/-- A new file without readers. -/
def start : System ρ := ⟨new, fun _ => none, [], []⟩

/-- `seek_range` after its wait. -/
def finish (s : System ρ) (reader : ρ) (wantedSize offset : ℤ) : Except Fault (System ρ) :=
  match File.seekRange wantedSize offset s.file with
  | .error e => .error e
  | .ok (.error _, f) => .ok { s with
      file := f, waiting := Function.update s.waiting reader none }
  | .ok (.ok (size, bytes), f) => .ok { s with
      file := f
      waiting := Function.update s.waiting reader none
      reads := s.reads ++ [⟨reader, wantedSize, offset, size, bytes, s.log⟩] }

def exec (s : System ρ) : Op ρ → Except Fault (System ρ)
  | .initBuffer newSize fresh =>
    (File.initBuffer newSize fresh s.file).map fun out => { s with file := out.2 }
  | .append buffer fresh =>
    (File.append buffer fresh s.file).map fun out =>
      { s with file := out.2, log := s.log ++ buffer }
  | .seekRange reader wantedSize offset =>
    if s.file.waits offset then
      .ok { s with waiting := Function.update s.waiting reader (some (wantedSize, offset)) }
    else
      s.finish reader wantedSize offset
  | .wake reader =>
    match s.waiting reader with
    | none => .ok s
    | some (wantedSize, offset) => s.finish reader wantedSize offset

/-- The calls that are made: the whole file stays below `2^24` bytes, and a reader that does not
wait already reads from inside the file. -/
def Calls (s : System ρ) : Op ρ → Prop
  | .initBuffer _ _ => True
  | .append buffer _ => s.log.length + buffer.length < 2 ^ 24
  | .seekRange reader wantedSize offset =>
    s.waiting reader = none ∧ 0 ≤ wantedSize ∧ 0 ≤ offset ∧ offset ≤ s.file.currentLength
  | .wake _ => True

/-- **The calls that work**: each append finds the file empty, `wanted_size + offset` is an `int`,
and the first block has a size. -/
def Works (s : System ρ) : Op ρ → Prop
  | .initBuffer newSize _ => s.file.data = none → -1 ≤ newSize
  | .append buffer _ => s.file.AppendsToEmpty buffer
  | .seekRange _ wantedSize offset => wantedSize + offset < 2 ^ 31
  | .wake _ => True

/-- A step of a run. -/
def CallStep (s s' : System ρ) : Prop := ∃ op, s.Calls op ∧ s.exec op = .ok s'

/-- A step of a run in which every call works. -/
def Step (s s' : System ρ) : Prop := ∃ op, s.Calls op ∧ s.Works op ∧ s.exec op = .ok s'

/-- The reads of one reader, as slices of a log. -/
def slicesOf (s : System ρ) (reader : ρ) : List (Slice Byte) :=
  (s.reads.filter fun r => r.reader = reader).map fun r => ⟨r.offset.toNat, r.bytes⟩

end System

/-- **What `seek_range` is for**: as much as is wanted and there is, from `offset` on. -/
structure Read.Right {ρ : Type} (r : Read ρ) : Prop where
  size_eq : r.size = min r.wantedSize (r.appended.length - r.offset)
  bytes_eq : r.bytes = (r.appended.drop r.offset.toNat).take r.size.toNat
  length_eq : (r.bytes.length : ℤ) = r.size
  offset_nonneg : 0 ≤ r.offset
  offset_le : r.offset ≤ r.appended.length

namespace System

variable {ρ : Type} [DecidableEq ρ] {s s' : System ρ}

/-- **The invariant**: the file stores the log, every wait is for a place inside it, and what has
been read was read from it. -/
structure Inv (s : System ρ) : Prop where
  stores : s.file.Stores s.log
  length_lt : s.log.length < 2 ^ 24
  waiting : ∀ reader wanted offset, s.waiting reader = some (wanted, offset) →
    0 ≤ wanted ∧ 0 ≤ offset ∧ offset ≤ s.log.length ∧ wanted + offset < 2 ^ 31
  reads : ∀ r ∈ s.reads, r.Right ∧ r.appended <+: s.log

omit [DecidableEq ρ] in
theorem inv_start : Inv (start : System ρ) := by
  refine ⟨stores_new, Nat.two_pow_pos 24, ?_, ?_⟩
  · intro reader wanted offset h
    cases h
  · intro r hr
    exact absurd hr List.not_mem_nil

/-- A wait that ends leaves the others. -/
theorem Inv.waiting_update (h : s.Inv) (reader : ρ) :
    ∀ other wanted offset, Function.update s.waiting reader none other = some (wanted, offset) →
      0 ≤ wanted ∧ 0 ≤ offset ∧ offset ≤ s.log.length ∧ wanted + offset < 2 ^ 31 := by
  intro other wanted offset hw
  by_cases hr : other = reader
  · rw [hr, Function.update_self] at hw
    cases hw
  · rw [Function.update_of_ne hr] at hw
    exact h.waiting other wanted offset hw

/-- **A `seek_range` that returns brings a slice of the log.** -/
theorem Inv.exists_finish (h : s.Inv) (reader : ρ) {wanted offset : ℤ} (h₁ : 0 ≤ wanted)
    (h₂ : 0 ≤ offset) (h₃ : offset ≤ s.log.length) (h₄ : wanted + offset < 2 ^ 31) :
    ∃ s', s.finish reader wanted offset = .ok s' ∧ s'.Inv := by
  have hseek := h.stores.seekRange_eq h₁ h₂ h₃ h₄
  have hlen : (((s.log.drop offset.toNat).take
      (min wanted (s.log.length - offset)).toNat).length : ℤ)
        = min wanted (s.log.length - offset) := by
    rw [List.length_take, List.length_drop]
    omega
  refine ⟨_, show s.finish reader wanted offset = .ok _ by rw [finish, hseek], ?_⟩
  refine ⟨h.stores, h.length_lt, h.waiting_update reader, ?_⟩
  intro r hr
  rcases List.mem_append.mp hr with hr | hr
  · exact h.reads r hr
  · rw [List.mem_singleton.mp hr]
    exact ⟨⟨rfl, rfl, hlen, h₂, h₃⟩, List.prefix_refl _⟩

/-- **One step**: a call that works does not stop the program, and keeps the invariant. -/
theorem Inv.exists_exec (h : s.Inv) {op : Op ρ} (hc : s.Calls op) (hw : s.Works op) :
    ∃ s', s.exec op = .ok s' ∧ s'.Inv := by
  cases op with
  | initBuffer newSize fresh =>
    obtain ⟨r, f, hrun, hf⟩ := h.stores.exists_initBuffer fresh hw
    refine ⟨{ s with file := f }, ?_, hf, h.length_lt, h.waiting, h.reads⟩
    rw [exec, hrun]
    rfl
  | append buffer fresh =>
    obtain ⟨f, hrun, hf⟩ := h.stores.exists_append fresh hc hw
    have hlen : s.log.length ≤ (s.log ++ buffer).length := by
      rw [List.length_append]
      omega
    refine ⟨{ s with file := f, log := s.log ++ buffer }, ?_, hf, ?_, ?_, ?_⟩
    · rw [exec, hrun]
      rfl
    · dsimp only
      rw [List.length_append]
      exact hc
    · intro reader wanted offset hwait
      obtain ⟨h₁, h₂, h₃, h₄⟩ := h.waiting reader wanted offset hwait
      exact ⟨h₁, h₂, h₃.trans (by exact_mod_cast hlen), h₄⟩
    · intro r hr
      obtain ⟨hright, hlog⟩ := h.reads r hr
      exact ⟨hright, hlog.trans (List.prefix_append _ _)⟩
  | seekRange reader wanted offset =>
    obtain ⟨-, h₁, h₂, h₃⟩ := hc
    rw [currentLength, h.stores.pos_eq] at h₃
    by_cases hwait : s.file.waits offset
    · refine ⟨_, show s.exec _ = .ok _ by rw [exec, if_pos hwait], ?_⟩
      refine ⟨h.stores, h.length_lt, ?_, h.reads⟩
      intro other wanted' offset' ho
      dsimp only at ho
      by_cases hr : other = reader
      · rw [hr, Function.update_self] at ho
        cases ho
        exact ⟨h₁, h₂, h₃, hw⟩
      · rw [Function.update_of_ne hr] at ho
        exact h.waiting other wanted' offset' ho
    · obtain ⟨s', hrun, hs'⟩ := h.exists_finish reader h₁ h₂ h₃ hw
      exact ⟨s', by rw [exec, if_neg hwait, hrun], hs'⟩
  | wake reader =>
    rcases hwait : s.waiting reader with _ | ⟨wanted, offset⟩
    · exact ⟨s, by rw [exec, hwait], h⟩
    · obtain ⟨h₁, h₂, h₃, h₄⟩ := h.waiting reader wanted offset hwait
      obtain ⟨s', hrun, hs'⟩ := h.exists_finish reader h₁ h₂ h₃ h₄
      exact ⟨s', by rw [exec, hwait]; exact hrun, hs'⟩

/-- A whole run keeps the invariant. -/
theorem Inv.of_steps (h : s.Inv) (hrun : Relation.ReflTransGen Step s s') : s'.Inv := by
  induction hrun with
  | refl => exact h
  | tail _ hstep ih =>
    obtain ⟨op, hc, hw, hexec⟩ := hstep
    obtain ⟨t, ht, hinv⟩ := ih.exists_exec hc hw
    rw [hexec] at ht
    cases ht
    exact hinv

omit [DecidableEq ρ] in
/-- A read that is right is a slice of every later log. -/
theorem Read.Right.of {r : Read ρ} (hr : r.Right) {log : Bytes} (hlog : r.appended <+: log) :
    Slice.Of ⟨r.offset.toNat, r.bytes⟩ log := by
  refine Slice.Of.mono ⟨?_, ?_⟩ hlog
  · have := hr.offset_le
    have := hr.offset_nonneg
    dsimp only
    omega
  · rw [hr.bytes_eq]
    exact List.take_prefix _ _

/-- **Readers of a file see its log.**  In every run whose appends find an empty file: the file is
as long as what has been appended; every `seek_range` that has returned gave as much as was wanted
and there, and exactly the bytes of the log from its offset on; a reader that advances by what it
gets has seen a prefix of the log; and the next call that works does return. -/
theorem seek_range_reads_log (hrun : Relation.ReflTransGen Step (start : System ρ) s) :
    s.file.currentLength = s.log.length ∧
      (∀ r ∈ s.reads, r.Right ∧ r.appended <+: s.log) ∧
      (∀ reader, Advances 0 (s.slicesOf reader) →
        ((s.slicesOf reader).map Slice.cells).flatten <+: s.log) ∧
      ∀ op, s.Calls op → s.Works op → ∃ s', s.exec op = .ok s' := by
  have h := inv_start.of_steps hrun
  refine ⟨h.stores.pos_eq, h.reads, ?_, ?_⟩
  · intro reader hadv
    refine hadv.flatten_prefix ?_
    intro t ht
    obtain ⟨r, hr, rfl⟩ := List.mem_map.mp ht
    obtain ⟨hright, hlog⟩ := h.reads r (List.mem_of_mem_filter hr)
    exact Read.Right.of hright hlog
  · intro op hc hw
    obtain ⟨s', hs', -⟩ := h.exists_exec hc hw
    exact ⟨s', hs'⟩

/-- A file to which two bytes have been appended. -/
def afterFirst : System ℕ :=
  ⟨{ size := 48, data := some (text "ab" ++ .replicate 47 0), pos := 2 }, fun _ => none, text "ab",
    []⟩

/-- The file when a reader has read both. -/
def afterRead : System ℕ :=
  { afterFirst with
    waiting := Function.update afterFirst.waiting 0 none
    reads := [⟨0, 4, 0, 2, text "ab", text "ab"⟩] }

theorem seek_range_reads_log_two_bytes :
    (∀ r ∈ afterRead.reads, r.Right ∧ r.appended <+: text "ab") ∧
      ((afterRead.slicesOf 0).map Slice.cells).flatten <+: text "ab" := by
  have hrun : Relation.ReflTransGen Step start afterRead := by
    refine .tail (.single ⟨.append (text "ab") fun _ => 0, ?_, ?_, rfl⟩)
      ⟨.seekRange 0 4 0, ⟨rfl, ?_, le_rfl, ?_⟩, ?_, rfl⟩
    · change 0 + (text "ab").length < 2 ^ 24
      decide
    · refine Or.inr ⟨rfl, ?_⟩
      intro mem h
      cases h
    · decide
    · decide
    · change (4 : ℤ) + 0 < 2 ^ 31
      decide
  obtain ⟨-, hreads, hprefix, -⟩ := seek_range_reads_log hrun
  exact ⟨hreads, hprefix 0 ⟨rfl, trivial⟩⟩

/-- The file after two more bytes: they lie where the first ones were. -/
def afterSecond : System ℕ :=
  ⟨{ size := 48, data := some (text "cd" ++ .replicate 47 0), pos := 4 }, fun _ => none,
    text "abcd", []⟩

/-- What a reader then gets of its four bytes. -/
def misread : Read ℕ := ⟨0, 4, 0, 4, text "cd" ++ [0, 0], text "abcd"⟩

/-- **Two appends, and what was written first is gone.** -/
theorem second_append_overwrites : ∃ s : System ℕ, Relation.ReflTransGen CallStep start s ∧
    ∃ r ∈ s.reads, ¬ r.Right := by
  have h₁ : CallStep start afterFirst := by
    refine ⟨.append (text "ab") fun _ => 0, ?_, rfl⟩
    change 0 + (text "ab").length < 2 ^ 24
    decide
  have h₂ : CallStep afterFirst afterSecond := by
    refine ⟨.append (text "cd") fun _ => 0, ?_, rfl⟩
    change (text "ab").length + (text "cd").length < 2 ^ 24
    decide
  have h₃ : CallStep afterSecond { afterSecond with
      waiting := Function.update afterSecond.waiting 0 none, reads := [misread] } :=
    ⟨.seekRange 0 4 0, ⟨rfl, by decide, le_rfl, by decide⟩, rfl⟩
  refine ⟨_, ((Relation.ReflTransGen.single h₁).tail h₂).tail h₃, misread,
    List.mem_singleton_self _, ?_⟩
  intro hright
  exact absurd hright.bytes_eq (by decide)

end System

end File

end SmartStreaming
