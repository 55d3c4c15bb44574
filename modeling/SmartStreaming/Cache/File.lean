import SmartStreaming.Base.Defs
import Mathlib.Logic.Function.Basic
import Mathlib.Tactic.Linarith

/-!
# Cache/File — `File` of `tmss_static.cpp`, the cached contents of a static file

`append` writes behind what is there, `seek_range` reads anywhere in it.  `Stores f log` says that
the first bytes of the block behind `data` are `log`; the operations keep it as long as each append
that brings bytes finds an empty file and room in the block (`AppendsToEmpty`).
-/

namespace SmartStreaming

open Machinery Comp

/-- `class File`: the capacity, the block it is meant for, and the end of what has been written;
`total_length` and `update_time_ms` are set by the handler that fetches the file. -/
structure File where
  size : ℤ
  data : Option Bytes
  pos : ℤ
  totalLength : ℤ := 0
  updateTimeMs : ℤ := 0
  deriving DecidableEq

namespace File

abbrev Call (α : Type) : Type := Comp Fault File ℤ α

/-- `File(file_name)`. -/
def new : File := { size := 0, data := none, pos := 0 }

/-- `complete()`. -/
def complete (f : File) : Bool := if f.totalLength > 0 then f.pos ≥ f.totalLength else false

def leftSize (f : File) : ℤ := f.size - f.pos

def currentLength (f : File) : ℤ := f.pos

/-- What `data` points to; there is nothing behind a null pointer. -/
def block (f : File) : Bytes := f.data.getD []

/-- `new char[n]`, with what happens to lie there. -/
def newBlock (fresh : ℕ → Byte) (n : ℤ) : Call Bytes :=
  if 0 ≤ n then pure ((List.range n.toNat).map fresh) else stop .badAlloc

/-- The branch of `init_buffer` for a file that has a block.  The new block gets a copy of what has
been written, and is not made the file's. -/
def replaceBlock (mem : Bytes) (newSize : ℤ) (fresh : ℕ → Byte) : Call PUnit := do
  let f ← get
  ensure (f.size ≤ newSize) errorFileBufferInitSmall
  let newData ← newBlock fresh (newSize + 1)
  let bs ← ofOption .outOfBounds (load mem 0 f.pos)
  let _ ← ofOption .outOfBounds (store newData 0 bs)
  put { f with size := newSize }

/-- The branch of `init_buffer` for a file that has none. -/
def allocateBlock (newSize : ℤ) (fresh : ℕ → Byte) : Call PUnit := do
  let f ← get
  let mem ← newBlock fresh (newSize + 1)
  put { f with data := some mem, size := newSize }

/-- `init_buffer(new_size)`. -/
def initBuffer (newSize : ℤ) (fresh : ℕ → Byte) : Call PUnit := do
  let f ← get
  ensure (newSize < 1024 * 1024 * 1024) errorFileBufferTooLarge
  match f.data with
  | some mem => replaceBlock mem newSize fresh
  | none => allocateBlock newSize fresh

/-- The branch of `append` for a file that is too small; nobody looks at what `init_buffer`
returns. -/
def grow (appendSize : ℤ) (fresh : ℕ → Byte) : Call PUnit := do
  let f ← get
  let newSize ← ofOption .signedOverflow (toCInt (16 * (max f.size appendSize + 1)))
  let _ ← attempt (initBuffer newSize fresh)
  ensure (appendSize ≤ (← get).leftSize) errorFileBufferNotEnough

/-- `memcpy(data, buffer, append_size)`, to the beginning of the block, and the new `pos`. -/
def copyIn (buffer : Bytes) : Call PUnit := do
  let f ← get
  let mem ← ofOption .outOfBounds (store f.block 0 buffer)
  put { f with data := f.data.map fun _ => mem, pos := f.pos + buffer.length }

/-- `append(buffer, append_size)`. -/
def append (buffer : Bytes) (fresh : ℕ → Byte) : Call PUnit := do
  let f ← get
  onlyIf (f.leftSize < buffer.length) (grow buffer.length fresh)
  copyIn buffer

/-- Whether `seek_range` waits for more bytes. -/
def waits (f : File) (offset : ℤ) : Prop := f.pos ≤ offset

instance (f : File) (offset : ℤ) : Decidable (f.waits offset) := inferInstanceAs (Decidable (_ ≤ _))

/-- `seek_range(buffer, wanted_size, offset)` after the wait: the new `wanted_size` and what
`buffer` holds. -/
def seekRange (wantedSize offset : ℤ) : Call (ℤ × Bytes) := do
  let f ← get
  let last ← ofOption .signedOverflow (toCInt (wantedSize + offset))
  let wantedSize := if last > f.currentLength then f.currentLength - offset else wantedSize
  let bs ← ofOption .outOfBounds (load f.block offset wantedSize)
  return (wantedSize, bs)

/-! ## What a file stores -/

/-- **The file stores `log`**: these are the first bytes of its block.  A capacity of `-1` is one
that `init_buffer` accepts. -/
structure Stores (f : File) (log : Bytes) : Prop where
  pos_eq : f.pos = log.length
  prefix_block : log <+: f.block
  pos_le : f.pos ≤ f.size + 1
  size_lt : f.size < 2 ^ 30
  size_of_none : f.data = none → f.size = 0

theorem stores_new : Stores new [] :=
  ⟨rfl, List.nil_prefix, by decide, by decide, fun _ => rfl⟩

/-- The append that `append` is right for: it brings nothing, or it finds the file empty and has
room in the block, if there is one. -/
def AppendsToEmpty (f : File) (buffer : Bytes) : Prop :=
  buffer = [] ∨ f.pos = 0 ∧ ∀ mem, f.data = some mem → buffer.length ≤ mem.length

section Stores

variable {f : File} {log mem buffer : Bytes} {fresh : ℕ → Byte} {n : ℤ}

theorem newBlock_eq (h : 0 ≤ n) :
    newBlock fresh n f = .ok (.ok ((List.range n.toNat).map fresh), f) := by
  rw [newBlock, if_pos h, run_pure]

theorem initBuffer_of_none (hd : f.data = none) (h₁ : -1 ≤ n) (h₂ : n < 2 ^ 30) :
    initBuffer n fresh f = .ok (.ok ⟨⟩,
      { f with data := some ((List.range (n + 1).toNat).map fresh), size := n }) := by
  rw [initBuffer, run_get_bind, ensure, if_pos (by omega), pure_bind, hd]
  dsimp only
  rw [allocateBlock, run_get_bind, run_bind_ok (newBlock_eq (by omega)), run_put]

/-- **`init_buffer` on a file that has a block changes its capacity only.** -/
theorem initBuffer_of_block (hd : f.data = some mem) (h₀ : 0 ≤ f.pos) (hmem : f.pos ≤ mem.length)
    (hnew : f.pos ≤ n + 1) (h₁ : f.size ≤ n) (h₂ : n < 2 ^ 30) :
    initBuffer n fresh f = .ok (.ok ⟨⟩, { f with size := n }) := by
  have hload : load mem 0 f.pos = some ((mem.drop 0).take f.pos.toNat) :=
    load_eq_some le_rfl h₀ (by omega)
  have hstore : ∃ new, store ((List.range (n + 1).toNat).map fresh) 0
      ((mem.drop 0).take f.pos.toNat) = some new := by
    refine ⟨_, store_eq_some le_rfl ?_⟩
    rw [List.length_take, List.drop_zero, List.length_map, List.length_range]
    omega
  obtain ⟨new, hnew⟩ := hstore
  rw [initBuffer, run_get_bind, ensure, if_pos (by omega), pure_bind, hd]
  dsimp only
  rw [replaceBlock, run_get_bind, ensure, if_pos h₁, pure_bind,
    run_bind_ok (newBlock_eq (by omega)), hload, run_some_bind, hnew, run_some_bind, run_put,
    hd]

theorem initBuffer_of_some (hs : Stores f log) (hd : f.data = some mem) (h₁ : f.size ≤ n)
    (h₂ : n < 2 ^ 30) : initBuffer n fresh f = .ok (.ok ⟨⟩, { f with size := n }) := by
  have hlen : log.length ≤ mem.length := by
    have := hs.prefix_block.length_le
    rwa [block, hd, Option.getD_some] at this
  have hpos := hs.pos_eq
  have hle := hs.pos_le
  exact initBuffer_of_block hd (by omega) (by omega) (by omega) h₁ h₂

/-- A capacity that is too large or below the old one is refused. -/
theorem exists_initBuffer_refused (h : 2 ^ 30 ≤ n ∨ f.data ≠ none ∧ n < f.size) :
    ∃ c, initBuffer n fresh f = .ok (.error c, f) := by
  by_cases hn : n < 1024 * 1024 * 1024
  · obtain ⟨hd, hlt⟩ := h.resolve_left (by omega)
    obtain ⟨mem, hmem⟩ := Option.ne_none_iff_exists'.mp hd
    refine ⟨errorFileBufferInitSmall, ?_⟩
    rw [initBuffer, run_get_bind, ensure, if_pos hn, pure_bind, hmem]
    dsimp only
    rw [replaceBlock, run_get_bind, ensure, if_neg (by omega), run_fail_bind]
  · refine ⟨errorFileBufferTooLarge, ?_⟩
    rw [initBuffer, run_get_bind, ensure, if_neg hn, run_fail_bind]

/-- **`init_buffer` leaves what is stored.** -/
theorem Stores.exists_initBuffer (hs : Stores f log) (fresh : ℕ → Byte)
    (hn : f.data = none → -1 ≤ n) :
    ∃ r f', initBuffer n fresh f = .ok (r, f') ∧ Stores f' log := by
  have hle := hs.pos_le
  by_cases hlarge : 2 ^ 30 ≤ n
  · obtain ⟨c, hc⟩ : ∃ c, initBuffer n fresh f = .ok (.error c, f) :=
      exists_initBuffer_refused (Or.inl hlarge)
    exact ⟨_, _, hc, hs⟩
  · rcases hd : f.data with _ | mem
    · have hlog : log = [] := by
        have := hs.prefix_block
        rwa [block, hd, Option.getD_none, List.prefix_nil] at this
      have hpos := hs.pos_eq
      have hsize := hn hd
      rw [hlog, List.length_nil] at hpos
      refine ⟨_, _, initBuffer_of_none hd hsize (by omega), ?_, ?_, ?_, not_le.mp hlarge, ?_⟩
      · rw [hlog]
        exact hpos
      · rw [hlog]
        exact List.nil_prefix
      · dsimp only
        omega
      · intro h
        cases h
    · by_cases hsmall : n < f.size
      · obtain ⟨c, hc⟩ : ∃ c, initBuffer n fresh f = .ok (.error c, f) :=
          exists_initBuffer_refused (Or.inr ⟨by simp [hd], hsmall⟩)
        exact ⟨_, _, hc, hs⟩
      · refine ⟨_, _, initBuffer_of_some hs hd (by omega) (by omega), hs.pos_eq, hs.prefix_block,
          ?_, not_le.mp hlarge, ?_⟩
        · dsimp only
          omega
        · intro h
          exact absurd (hd.symm.trans h) (Option.some_ne_none mem)

/-- **Growing** is meant to make room, and does so for a file without a block. -/
theorem Stores.exists_grow (hs : Stores f log) (fresh : ℕ → Byte) {count : ℕ}
    (hlt : log.length + count < 2 ^ 24) (hleft : f.leftSize < count) :
    ∃ f', grow count fresh f = .ok (.ok ⟨⟩, f') ∧ Stores f' log ∧ (count : ℤ) ≤ f'.leftSize ∧
      f'.pos = f.pos ∧ (∀ mem, f.data = some mem → f'.data = some mem) ∧
      (f.data = none → ∃ mem, f'.data = some mem ∧ count ≤ mem.length) := by
  have hpos := hs.pos_eq
  have hle := hs.pos_le
  rw [leftSize] at hleft
  have hmax : f.size ≤ max f.size count ∧ (count : ℤ) ≤ max f.size count
      ∧ max f.size count < 2 ^ 24 := by omega
  generalize hm : max f.size (count : ℤ) = m at hmax
  have hint : toCInt (16 * (m + 1)) = some (16 * (m + 1)) := toCInt_eq_some (by omega) (by omega)
  obtain ⟨r, f₁, hinit, hs₁, hsize, hpos₁, hsome, hnone⟩ :
      ∃ r f', initBuffer (16 * (m + 1)) fresh f = .ok (r, f') ∧ Stores f' log ∧
        f'.size = 16 * (m + 1) ∧ f'.pos = f.pos ∧ (∀ mem, f.data = some mem → f'.data = some mem) ∧
        (f.data = none → ∃ mem, f'.data = some mem ∧ count ≤ mem.length) := by
    obtain ⟨r, f', hinit, hs'⟩ := hs.exists_initBuffer fresh
      (fun _ => show -1 ≤ 16 * (m + 1) by omega)
    refine ⟨r, f', hinit, hs', ?_⟩
    rcases hd : f.data with _ | mem
    · rw [initBuffer_of_none hd (by omega) (by omega)] at hinit
      cases hinit
      refine ⟨rfl, rfl, ?_, fun _ => ⟨_, rfl, ?_⟩⟩
      · intro mem hmem
        cases hmem
      · rw [List.length_map, List.length_range]
        omega
    · rw [initBuffer_of_some hs hd (by omega) (by omega)] at hinit
      cases hinit
      refine ⟨rfl, rfl, fun mem' hmem => hd.trans hmem, ?_⟩
      intro h
      cases h
  have hroom : (count : ℤ) ≤ f₁.leftSize := by
    rw [leftSize]
    omega
  refine ⟨f₁, ?_, hs₁, hroom, hpos₁, hsome, hnone⟩
  rw [grow, run_get_bind, hm, hint, run_some_bind]
  have hattempt : attempt (initBuffer (16 * (m + 1)) fresh) f = .ok (.ok r, f₁) := by
    rw [attempt, hinit]
  rw [run_bind_ok hattempt, run_get_bind, ensure, if_pos hroom, run_pure]

/-- Bytes copied to the beginning of an empty file are what it stores. -/
theorem Stores.exists_copyIn (hs : Stores f log) (hroom : (buffer.length : ℤ) ≤ f.leftSize)
    (hb : buffer = [] ∨ f.pos = 0 ∧ ∃ mem, f.data = some mem ∧ buffer.length ≤ mem.length) :
    ∃ f', copyIn buffer f = .ok (.ok ⟨⟩, f') ∧ Stores f' (log ++ buffer) := by
  have hpos := hs.pos_eq
  rw [leftSize] at hroom
  rcases hb with rfl | ⟨h₀, mem, hd, hlen⟩
  · have hstore : store f.block 0 [] = some f.block := by
      rw [store_eq_some le_rfl (by simp)]
      simp [splice]
    have hdata : (f.data.map fun _ => f.block) = f.data := by
      rcases hd : f.data with _ | mem
      · rfl
      · rw [block, hd, Option.map_some, Option.getD_some]
    refine ⟨f, ?_, by rwa [List.append_nil]⟩
    rw [copyIn, run_get_bind, hstore, run_some_bind, run_put, hdata, List.length_nil,
      Nat.cast_zero, add_zero]
  · have hlog : log = [] := by
      rw [h₀] at hpos
      exact List.eq_nil_of_length_eq_zero (by omega)
    have hstore : store f.block 0 buffer = some (buffer ++ mem.drop buffer.length) := by
      rw [block, hd, Option.getD_some, store_eq_some le_rfl (by omega)]
      simp [splice]
    refine ⟨{ f with data := some (buffer ++ mem.drop buffer.length), pos := buffer.length }, ?_,
      ?_, ?_, ?_, hs.size_lt, ?_⟩
    · rw [copyIn, run_get_bind, hstore, run_some_bind, run_put, hd, h₀, zero_add]
      rfl
    · rw [hlog, List.nil_append]
    · rw [hlog, List.nil_append]
      exact List.prefix_append _ _
    · dsimp only
      omega
    · intro h
      cases h

/-- **An append to an empty file** stores its bytes. -/
theorem Stores.exists_append (hs : Stores f log) (fresh : ℕ → Byte)
    (hlt : log.length + buffer.length < 2 ^ 24) (hb : AppendsToEmpty f buffer) :
    ∃ f', append buffer fresh f = .ok (.ok ⟨⟩, f') ∧ Stores f' (log ++ buffer) := by
  by_cases hleft : f.leftSize < buffer.length
  · obtain ⟨f₁, hgrow, hs₁, hroom, hpos, hsome, hnone⟩ := hs.exists_grow fresh hlt hleft
    obtain ⟨f', hcopy, hs'⟩ := hs₁.exists_copyIn hroom (by
      rcases hb with rfl | ⟨h₀, hlen⟩
      · exact Or.inl rfl
      · refine Or.inr ⟨hpos.trans h₀, ?_⟩
        rcases hd : f.data with _ | mem
        · exact hnone hd
        · exact ⟨mem, hsome mem hd, hlen mem hd⟩)
    refine ⟨f', ?_, hs'⟩
    rw [append, run_get_bind, onlyIf, if_pos hleft, run_bind_ok hgrow, hcopy]
  · obtain ⟨f', hcopy, hs'⟩ := hs.exists_copyIn (not_lt.mp hleft) (by
      rcases hb with rfl | ⟨h₀, hlen⟩
      · exact Or.inl rfl
      · rcases hd : f.data with _ | mem
        · have hsize := hs.size_of_none hd
          rw [leftSize] at hleft
          exact Or.inl (List.eq_nil_of_length_eq_zero (by omega))
        · exact Or.inr ⟨h₀, mem, rfl, hlen mem hd⟩)
    refine ⟨f', ?_, hs'⟩
    rw [append, run_get_bind, onlyIf, if_neg hleft, pure_bind, hcopy]

/-- **`seek_range` reads what the file stores.** -/
theorem Stores.seekRange_eq (hs : Stores f log) {wanted offset : ℤ} (h₁ : 0 ≤ wanted)
    (h₂ : 0 ≤ offset) (h₃ : offset ≤ log.length) (h₄ : wanted + offset < 2 ^ 31) :
    seekRange wanted offset f
      = .ok (.ok (min wanted (log.length - offset),
          (log.drop offset.toNat).take (min wanted (log.length - offset)).toNat), f) := by
  have hpos := hs.pos_eq
  have hsize : (if wanted + offset > f.currentLength then f.currentLength - offset else wanted)
      = min wanted (log.length - offset) := by
    rw [currentLength, hpos]
    split <;> omega
  have hlen := hs.prefix_block.length_le
  obtain ⟨more, hmore⟩ := hs.prefix_block
  generalize hw : min wanted ((log.length : ℤ) - offset) = w at hsize
  have hread : (f.block.drop offset.toNat).take w.toNat = (log.drop offset.toNat).take w.toNat := by
    rw [← hmore, List.drop_append_of_le_length (by omega), List.take_append_of_le_length]
    rw [List.length_drop]
    omega
  rw [seekRange, run_get_bind, toCInt_eq_some (by omega) h₄, run_some_bind, hsize,
    load_eq_some h₂ (by omega) (by omega), run_some_bind, run_pure, hread]

end Stores

/-! ## How much a file stores -/

section Progress

variable {f : File}

/-- `append` has room for `n` bytes, at once or after `init_buffer`. -/
def HasRoom (f : File) (n : ℤ) : Prop :=
  n ≤ f.leftSize ∨ 16 * (max f.size n + 1) < 2 ^ 30 ∧ n ≤ 16 * (max f.size n + 1) - f.pos

instance (f : File) (n : ℤ) : Decidable (f.HasRoom n) := inferInstanceAs (Decidable (_ ∨ _))

/-- The lengths of a file, which `init_buffer` leaves alone. -/
def lengths (f : File) : ℤ × ℤ := (f.pos, f.totalLength)

/-- **`init_buffer` leaves the lengths**, and makes the capacity that is asked for if that is
neither too large nor smaller than before. -/
theorem holds_initBuffer (f : File) (n : ℤ) (fresh : ℕ → Byte) :
    Holds (fun _ => True) (fun _ f' => f'.lengths = f.lengths ∧ ¬ (n < 2 ^ 30 ∧ f.size ≤ n))
      (fun _ f' => f'.lengths = f.lengths ∧ f'.size = n) (initBuffer n fresh) f := by
  have hblock : ∀ (E : ℤ → File → Prop) (m : ℤ),
      Holds (fun _ => True) E (fun _ f' => f' = f) (newBlock fresh m) f := by
    intro E m
    rw [newBlock, holds_ite]
    exact ⟨fun _ => rfl, fun _ => trivial⟩
  rw [initBuffer, holds_bind, holds_get, holds_bind, holds_ensure]
  refine ⟨fun _ => ?_, fun hlarge => ⟨rfl, fun h => hlarge (by omega)⟩⟩
  rcases hd : f.data with _ | mem
  · rw [allocateBlock, holds_bind, holds_get, holds_bind]
    refine (hblock _ _).imp (fun _ _ h => h) ?_
    intro new f' hf
    exact ⟨rfl, rfl⟩
  · dsimp only
    rw [replaceBlock, holds_bind, holds_get, holds_bind, holds_ensure]
    refine ⟨fun _ => ?_, fun hsmall => ⟨rfl, fun h => hsmall h.2⟩⟩
    rw [holds_bind]
    refine (hblock _ _).imp (fun _ _ h => h) ?_
    intro new f' hf
    rw [hf, holds_bind]
    cases load mem 0 f.pos with
    | none => trivial
    | some bs =>
      rw [holds_some, holds_bind]
      cases store new 0 bs with
      | none => trivial
      | some new => exact ⟨rfl, rfl⟩

theorem holds_copyIn (f : File) (buffer : Bytes) (E : ℤ → File → Prop) :
    Holds (fun _ => True) E
      (fun _ f' => f'.lengths = (f.pos + buffer.length, f.totalLength)) (copyIn buffer) f := by
  rw [copyIn, holds_bind, holds_get, holds_bind]
  cases store f.block 0 buffer with
  | none => trivial
  | some mem => rfl

/-- **An append brings its bytes or leaves the lengths**; if it returns, it fails only without
room. -/
theorem holds_append (f : File) (buffer : Bytes) (fresh : ℕ → Byte) :
    Holds (fun _ => True) (fun _ f' => f'.lengths = f.lengths ∧ ¬ f.HasRoom buffer.length)
      (fun _ f' => f'.lengths = (f.pos + buffer.length, f.totalLength))
      (append buffer fresh) f := by
  rw [append, holds_bind, holds_get, holds_bind, onlyIf, holds_ite]
  refine ⟨fun hfull => ?_, fun _ => holds_copyIn f buffer _⟩
  rw [grow, holds_bind, holds_get, holds_bind]
  cases hm : toCInt (16 * (max f.size buffer.length + 1)) with
  | none => trivial
  | some m =>
    obtain rfl : 16 * (max f.size (buffer.length : ℤ) + 1) = m := toCInt_eq hm
    rw [holds_some, holds_bind, holds_attempt]
    refine (holds_initBuffer f _ fresh).imp ?_ ?_
    · rintro _ f' ⟨hlengths, hrefused⟩
      obtain ⟨hpos, htotal⟩ := Prod.ext_iff.1 hlengths
      dsimp only [lengths] at hpos htotal
      rw [holds_bind, holds_get, holds_ensure]
      refine ⟨fun _ => ?_, fun _ => ⟨hlengths, ?_⟩⟩
      · rw [← hpos, ← htotal]
        exact holds_copyIn f' buffer _
      · rintro (h | ⟨hlt, -⟩)
        · omega
        · exact hrefused ⟨hlt, by omega⟩
    · rintro _ f' ⟨hlengths, hsize⟩
      obtain ⟨hpos, htotal⟩ := Prod.ext_iff.1 hlengths
      dsimp only [lengths] at hpos htotal
      rw [holds_bind, holds_get, holds_ensure]
      refine ⟨fun _ => ?_, fun hnot => ⟨hlengths, ?_⟩⟩
      · rw [← hpos, ← htotal]
        exact holds_copyIn f' buffer _
      · rw [leftSize, hsize, hpos] at hnot
        rintro (h | ⟨-, hroom⟩)
        · omega
        · exact hnot hroom

/-- A complete file is never incomplete again. -/
theorem complete_of_lengths {f' : File} (htotal : f'.totalLength = f.totalLength)
    (hpos : f.pos ≤ f'.pos) (h : f.complete = true) : f'.complete = true := by
  unfold complete at h ⊢
  rw [htotal]
  split at h
  · rename_i hpositive
    rw [if_pos hpositive]
    exact decide_eq_true ((of_decide_eq_true h).trans hpos)
  · cases h

end Progress

end File

/-! ## `FileCache` -/

/-- `class FileCache`, a map from names to files. -/
structure FileCache (ρ : Type) where
  fileCache : Bytes → Option ρ := fun _ => none

namespace FileCache

variable {ρ : Type}

/-- `add_file(name, file)`; a file that has the name already is replaced. -/
def addFile (name : Bytes) (file : ρ) (c : FileCache ρ) : FileCache ρ :=
  ⟨Function.update c.fileCache name (some file)⟩

def getFile (fileName : Bytes) (c : FileCache ρ) : Option ρ := c.fileCache fileName

theorem getFile_addFile (name fileName : Bytes) (file : ρ) (c : FileCache ρ) :
    (c.addFile name file).getFile fileName
      = if fileName = name then some file else c.getFile fileName := by
  rw [getFile, addFile, getFile]
  exact Function.update_apply c.fileCache name (some file) fileName

end FileCache

end SmartStreaming
