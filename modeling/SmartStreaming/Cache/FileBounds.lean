import SmartStreaming.Cache.File
import SmartStreaming.Machinery.Trace

/-!
# Cache/FileBounds — the capacity of a `File` and the block behind it

    init_buffer, no block  ──▸ data = new char[n + 1], size = n
    init_buffer, a block   ──▸                         size = n

A file that has a block keeps it when it grows: the larger block is filled and forgotten, the
capacity is raised.  `FileOp.bounded_run_iff` says which steps of a run leave `size` within the
block.
-/

namespace SmartStreaming

open Machinery Comp

namespace File

/-- **The positions are within the block.** -/
structure InBounds (f : File) : Prop where
  pos_nonneg : 0 ≤ f.pos
  pos_le : f.pos ≤ f.size
  size_le : f.size ≤ f.block.length

/-- The block has at most the byte more that `init_buffer` asks for. -/
structure Tight (f : File) : Prop extends f.InBounds where
  length_le : f.block.length ≤ f.size + 1

theorem tight_new : Tight new := ⟨⟨le_refl _, le_refl _, le_refl _⟩, by decide⟩

end File

open File

/-- A call on a file, with what a new block happens to hold. -/
inductive FileOp
  | initBuffer (newSize : ℕ) (fresh : ℕ → Byte)
  | append (buffer : Bytes) (fresh : ℕ → Byte)
  | seekRange (wantedSize offset : ℕ)

namespace FileOp

def run : FileOp → File.Call PUnit
  | initBuffer newSize fresh => File.initBuffer newSize fresh
  | append buffer fresh => File.append buffer fresh
  | seekRange wantedSize offset => do
    let _ ← File.seekRange wantedSize offset

/-- `seek_range` is called within what has been written. -/
def Legit (f : File) : FileOp → Prop
  | seekRange _ offset => offset ≤ f.currentLength
  | _ => True

/-- The call touches nothing outside the block and leaves the positions within it; if it is refused,
`pos` and the bytes are what they were. -/
def Bounded (op : FileOp) (f : File) : Prop :=
  ∃ r f', op.run f = .ok (r, f') ∧ f'.InBounds
    ∧ ∀ code, r = .error code → f'.pos = f.pos ∧ f'.data = f.data

/-- `append` asks for this capacity where it has no room. -/
def grownSize (f : File) (appendSize : ℤ) : ℤ := 16 * (max f.size appendSize + 1)

/-- **The calls that the block is enough for.**  A new capacity is refused, or is the size of the
first block, or no more than the block has; an append finds room, or grows a file without a block,
or is refused; the lengths can be computed in an `int`. -/
def Fits (f : File) : FileOp → Prop
  | initBuffer newSize _ =>
    f.data = none ∨ 2 ^ 30 ≤ newSize ∨ newSize < f.size ∨ newSize ≤ f.block.length
  | append buffer _ =>
    buffer.length ≤ f.leftSize
      ∨ grownSize f buffer.length < 2 ^ 31
        ∧ (f.data = none ∨ 2 ^ 30 ≤ grownSize f buffer.length)
  | seekRange wantedSize offset => wantedSize + offset < 2 ^ 31

/-- One call; after a fault there is none. -/
def Step (s : Except Fault File) (op : FileOp) (s' : Except Fault File) : Prop :=
  ∃ f, s = .ok f ∧ op.Legit f ∧ s' = (op.run f).map Prod.snd

end FileOp

/-! ## One call -/

section Calls

variable {f : File} {buffer : Bytes} {fresh : ℕ → Byte}

theorem File.copyIn_eq (h : buffer.length ≤ f.block.length) :
    copyIn buffer f = .ok (.ok ⟨⟩,
      { f with
        data := f.data.map fun _ => splice f.block 0 buffer
        pos := f.pos + buffer.length }) := by
  rw [copyIn, run_get_bind, store_eq_some le_rfl (by omega), run_some_bind, run_put]
  rfl

theorem File.copyIn_outOfBounds (h : f.block.length < buffer.length) :
    copyIn buffer f = .error .outOfBounds := by
  have hnone : store f.block 0 buffer = none := if_neg (by omega)
  rw [copyIn, run_get_bind, hnone]
  rfl

/-- A copy does not change the length of the block. -/
theorem File.length_block_copyIn (h : buffer.length ≤ f.block.length) :
    ({ f with data := f.data.map fun _ => splice f.block 0 buffer } : File).block.length
      = f.block.length := by
  rcases hd : f.data with _ | mem
  · rw [block, block, hd, Option.map_none]
  · rw [block, Option.map_some, Option.getD_some, length_splice (by omega)]

theorem File.Tight.of_copyIn (h : f.Tight) (hroom : buffer.length ≤ f.leftSize)
    (hlen : buffer.length ≤ f.block.length) :
    ({ f with
        data := f.data.map fun _ => splice f.block 0 buffer
        pos := f.pos + buffer.length } : File).Tight := by
  have hblock := length_block_copyIn hlen
  have hpos := h.pos_nonneg
  rw [leftSize] at hroom
  refine ⟨⟨by dsimp only; omega, by dsimp only; omega, ?_⟩, ?_⟩
  · change f.size ≤ (block { f with data := _ }).length
    rw [hblock]
    exact h.size_le
  · change ((block { f with data := _ }).length : ℤ) ≤ f.size + 1
    rw [hblock]
    exact h.length_le

/-- The capacity that `append` asks for is more than the block has, and enough. -/
theorem File.Tight.grownSize_bounds (h : f.Tight) (n : ℕ) :
    f.size < FileOp.grownSize f n ∧ f.block.length < FileOp.grownSize f n
      ∧ f.pos + n ≤ FileOp.grownSize f n := by
  have hpos := h.pos_nonneg
  have hle := h.pos_le
  have hlen := h.length_le
  rw [FileOp.grownSize]
  omega

/-- A file without a block is empty. -/
theorem File.InBounds.eq_zero_of_none (h : f.InBounds) (hd : f.data = none) :
    f.size = 0 ∧ f.pos = 0 ∧ f.block.length = 0 := by
  have hblock : f.block.length = 0 := by
    rw [block, hd]
    rfl
  have hpos := h.pos_nonneg
  have hle := h.pos_le
  have hsize := h.size_le
  omega

/-- `append` where there is no room: what `init_buffer` leaves decides. -/
theorem File.append_grow (hfull : f.leftSize < buffer.length)
    (hint : FileOp.grownSize f buffer.length < 2 ^ 31) (hsize : 0 ≤ f.size) {r : Except ℤ PUnit}
    {f₁ : File}
    (hinit : File.initBuffer (FileOp.grownSize f buffer.length) fresh f = .ok (r, f₁)) :
    File.append buffer fresh f
      = (do
          ensure (buffer.length ≤ (← get).leftSize) errorFileBufferNotEnough
          copyIn buffer : File.Call PUnit) f₁ := by
  have hattempt : attempt (File.initBuffer (FileOp.grownSize f buffer.length) fresh) f
      = .ok (.ok r, f₁) := by
    rw [attempt, hinit]
  have hcint : toCInt (FileOp.grownSize f buffer.length)
      = some (FileOp.grownSize f buffer.length) :=
    toCInt_eq_some (by rw [FileOp.grownSize]; omega) hint
  rw [FileOp.grownSize] at hcint hattempt
  rw [File.append, run_get_bind, onlyIf, if_pos hfull, grow, bind_assoc, run_get_bind, hcint,
    bind_assoc, run_some_bind, bind_assoc, run_bind_ok hattempt, bind_assoc]

end Calls

/-! ## The calls that fit -/

namespace FileOp

variable {f : File}

/-- The call keeps the file tight; if it is refused, `pos` and the bytes are what they were. -/
def Keeps (op : FileOp) (f : File) : Prop :=
  ∃ r f', op.run f = .ok (r, f') ∧ f'.Tight
    ∧ ∀ code, r = .error code → f'.pos = f.pos ∧ f'.data = f.data

theorem Keeps.bounded {op : FileOp} (h : op.Keeps f) : op.Bounded f := by
  obtain ⟨r, f', hrun, htight, hsame⟩ := h
  exact ⟨r, f', hrun, htight.toInBounds, hsame⟩

theorem not_bounded_of_fault {op : FileOp} {e : Fault} (h : op.run f = .error e) :
    ¬ op.Bounded f := by
  rintro ⟨r, f', hrun, -⟩
  rw [h] at hrun
  cases hrun

/-- What a call that returns leaves is all there is to look at. -/
theorem not_bounded_of_run {op : FileOp} {r : Except ℤ PUnit} {f' : File}
    (hrun : op.run f = .ok (r, f')) (hin : ¬ f'.InBounds) : ¬ op.Bounded f := by
  rintro ⟨r₁, f₁, hrun₁, hin₁, -⟩
  cases hrun.symm.trans hrun₁
  exact hin hin₁

theorem initBuffer_keeps (h : f.Tight) {n : ℕ} {fresh : ℕ → Byte}
    (hfits : (initBuffer n fresh).Fits f) : (initBuffer n fresh).Keeps f := by
  have hpos := h.pos_nonneg
  have hle := h.pos_le
  have hsize := h.size_le
  by_cases hrefused : 2 ^ 30 ≤ (n : ℤ) ∨ f.data ≠ none ∧ (n : ℤ) < f.size
  · obtain ⟨c, hrun⟩ : ∃ c, File.initBuffer n fresh f = .ok (.error c, f) :=
      exists_initBuffer_refused hrefused
    exact ⟨_, f, hrun, h, fun _ _ => ⟨rfl, rfl⟩⟩
  · rw [not_or, not_and_or, not_le, not_lt] at hrefused
    obtain ⟨hsmall, hgrown⟩ := hrefused
    rcases hd : f.data with _ | mem
    · obtain ⟨hsize₀, hpos₀, -⟩ := h.eq_zero_of_none hd
      refine ⟨_, _, initBuffer_of_none hd (by omega) hsmall,
        ⟨⟨hpos, by dsimp only; omega, ?_⟩, ?_⟩, fun _ hcode => by cases hcode⟩
      · rw [block, Option.getD_some, List.length_map, List.length_range]
        dsimp only
        omega
      · rw [block, Option.getD_some, List.length_map, List.length_range]
        dsimp only
        omega
    · have hblock : f.block = mem := by rw [block, hd, Option.getD_some]
      have hgrown : f.size ≤ n := hgrown.resolve_left (by rw [hd]; simp)
      have hlen := h.length_le
      have hn : (n : ℤ) ≤ f.block.length := by
        rcases hfits with hnone | hlarge | hlt | hn
        · rw [hd] at hnone
          cases hnone
        · omega
        · omega
        · exact_mod_cast hn
      rw [hblock] at hlen hn hsize
      have hrun : File.initBuffer n fresh f = .ok (.ok ⟨⟩, { f with size := n }) :=
        initBuffer_of_block hd hpos (by omega) (by omega) hgrown hsmall
      refine ⟨_, _, hrun, ⟨⟨hpos, by dsimp only; omega, ?_⟩, ?_⟩, fun _ hcode => by cases hcode⟩
      · change (n : ℤ) ≤ f.block.length
        rwa [hblock]
      · change (f.block.length : ℤ) ≤ n + 1
        rw [hblock]
        omega

/-- A capacity beyond the block. -/
theorem initBuffer_not_bounded (h : f.Tight) {n : ℕ} {fresh : ℕ → Byte}
    (hfits : ¬ (initBuffer n fresh).Fits f) : ¬ (initBuffer n fresh).Bounded f := by
  have hpos := h.pos_nonneg
  have hle := h.pos_le
  have hsize := h.size_le
  simp only [Fits, not_or] at hfits
  obtain ⟨hsome, hsmall, hgrown, hlong⟩ := hfits
  obtain ⟨mem, hd⟩ := Option.ne_none_iff_exists'.mp hsome
  have hblock : f.block = mem := by rw [block, hd, Option.getD_some]
  rw [hblock] at hlong hsize
  have hrun : File.initBuffer n fresh f = .ok (.ok ⟨⟩, { f with size := n }) :=
    initBuffer_of_block hd hpos (by omega) (by omega) (by omega) (by omega)
  refine not_bounded_of_run hrun fun hin => ?_
  have hbad : (n : ℤ) ≤ f.block.length := hin.size_le
  rw [hblock] at hbad
  omega

theorem append_keeps (h : f.Tight) {buffer : Bytes} {fresh : ℕ → Byte}
    (hfits : (append buffer fresh).Fits f) : (append buffer fresh).Keeps f := by
  have hpos := h.pos_nonneg
  have hle := h.pos_le
  have hsize := h.size_le
  by_cases hfull : f.leftSize < buffer.length
  · obtain ⟨hint, hcase⟩ := hfits.resolve_left (not_le.2 hfull)
    obtain ⟨hgrown, -, henough⟩ := h.grownSize_bounds buffer.length
    by_cases hlarge : 2 ^ 30 ≤ grownSize f buffer.length
    · -- the growth is refused, and so is the append
      obtain ⟨c, hinit⟩ : ∃ c, File.initBuffer (grownSize f buffer.length) fresh f
          = .ok (.error c, f) := exists_initBuffer_refused (Or.inl hlarge)
      refine ⟨.error errorFileBufferNotEnough, f, ?_, h, fun _ _ => ⟨rfl, rfl⟩⟩
      rw [run, append_grow hfull hint (by omega) hinit, run_get_bind, ensure,
        if_neg (not_le.2 hfull), run_fail_bind]
    · -- the first block
      have hd : f.data = none := hcase.resolve_right hlarge
      obtain ⟨hsize₀, hpos₀, -⟩ := h.eq_zero_of_none hd
      have hinit : File.initBuffer (grownSize f buffer.length) fresh f = .ok (.ok ⟨⟩, _) :=
        initBuffer_of_none hd (by omega) (not_le.1 hlarge)
      set f₁ : File := { f with
        data := some ((List.range (grownSize f buffer.length + 1).toNat).map fresh)
        size := grownSize f buffer.length } with hf₁
      have hblock : (f₁.block.length : ℤ) = grownSize f buffer.length + 1 := by
        rw [block, hf₁, Option.getD_some, List.length_map, List.length_range]
        omega
      have htight : f₁.Tight :=
        ⟨⟨hpos, by dsimp only [f₁]; omega, by rw [hblock]; dsimp only [f₁]; omega⟩, hblock.le⟩
      have hroom : buffer.length ≤ f₁.leftSize := by
        rw [leftSize]
        dsimp only [f₁]
        omega
      have hlen : buffer.length ≤ f₁.block.length := by omega
      refine ⟨.ok ⟨⟩, _, ?_, htight.of_copyIn hroom hlen, fun _ hcode => by cases hcode⟩
      rw [run, append_grow hfull hint (by omega) hinit, run_get_bind, ensure, if_pos hroom,
        pure_bind, copyIn_eq hlen]
  · have hroom : buffer.length ≤ f.leftSize := not_lt.1 hfull
    have hlen : buffer.length ≤ f.block.length := by
      rw [leftSize] at hroom
      omega
    refine ⟨.ok ⟨⟩, _, ?_, h.of_copyIn hroom hlen, fun _ hcode => by cases hcode⟩
    rw [run, File.append, run_get_bind, onlyIf, if_neg hfull, pure_bind, copyIn_eq hlen]

/-- **An append that grows a file with a block** writes beyond the block, or leaves a capacity
beyond it. -/
theorem append_not_bounded (h : f.Tight) {buffer : Bytes} {fresh : ℕ → Byte}
    (hfits : ¬ (append buffer fresh).Fits f) : ¬ (append buffer fresh).Bounded f := by
  have hpos := h.pos_nonneg
  have hle := h.pos_le
  have hsize := h.size_le
  simp only [Fits, not_or, not_and, not_le] at hfits
  obtain ⟨hfull, hgrow⟩ := hfits
  by_cases hint : grownSize f buffer.length < 2 ^ 31
  · obtain ⟨hsome, hsmall⟩ := hgrow hint
    obtain ⟨hgrown, hlong, henough⟩ := h.grownSize_bounds buffer.length
    obtain ⟨mem, hd⟩ := Option.ne_none_iff_exists'.mp hsome
    have hblock : f.block = mem := by rw [block, hd, Option.getD_some]
    have hmem : f.pos ≤ mem.length := by
      rw [← hblock]
      omega
    have hinit : File.initBuffer (grownSize f buffer.length) fresh f
        = .ok (.ok ⟨⟩, { f with size := grownSize f buffer.length }) :=
      initBuffer_of_block hd hpos hmem (by omega) hgrown.le hsmall
    have hrun : (append buffer fresh).run f
        = copyIn buffer { f with size := grownSize f buffer.length } := by
      rw [run, append_grow hfull hint (by omega) hinit, run_get_bind, ensure, if_pos, pure_bind]
      rw [leftSize]
      dsimp only
      omega
    rcases le_or_gt buffer.length f.block.length with hlen | hlen
    · refine not_bounded_of_run (hrun.trans (copyIn_eq hlen)) fun hin => ?_
      have hbad := hin.size_le
      have hkept := length_block_copyIn (f := { f with size := grownSize f buffer.length }) hlen
      change grownSize f buffer.length ≤ (block { f with data := _ }).length at hbad
      change (block { f with data := _ }).length = f.block.length at hkept
      rw [hkept] at hbad
      omega
    · exact not_bounded_of_fault (hrun.trans (copyIn_outOfBounds hlen))
  · refine not_bounded_of_fault (e := .signedOverflow) ?_
    have hcint : toCInt (16 * (max f.size buffer.length + 1)) = none := by
      rw [grownSize] at hint
      exact if_neg fun hboth => hint hboth.2
    rw [run, File.append, run_get_bind, onlyIf, if_pos hfull, grow, bind_assoc, run_get_bind, hcint]
    rfl

theorem seekRange_keeps (h : f.Tight) {wantedSize offset : ℕ}
    (hlegit : (seekRange wantedSize offset).Legit f)
    (hfits : (seekRange wantedSize offset).Fits f) : (seekRange wantedSize offset).Keeps f := by
  have hle := h.pos_le
  have hsize := h.size_le
  simp only [Legit, currentLength] at hlegit
  simp only [Fits] at hfits
  have hcint : toCInt ((wantedSize : ℤ) + offset) = some ((wantedSize : ℤ) + offset) :=
    toCInt_eq_some (by omega) (by exact_mod_cast hfits)
  refine ⟨.ok ⟨⟩, f, ?_, h, fun _ hcode => by cases hcode⟩
  rw [run, File.seekRange, bind_assoc, run_get_bind, hcint, bind_assoc, run_some_bind, bind_assoc,
    load_eq_some (by omega), run_some_bind]
  · rfl
  · rw [currentLength]
    split <;> omega
  · rw [currentLength]
    split <;> omega

theorem seekRange_not_bounded {wantedSize offset : ℕ}
    (hfits : ¬ (seekRange wantedSize offset).Fits f) :
    ¬ (seekRange wantedSize offset).Bounded f := by
  simp only [Fits, not_lt] at hfits
  refine not_bounded_of_fault (e := .signedOverflow) ?_
  have hcint : toCInt ((wantedSize : ℤ) + offset) = none := if_neg fun hboth => by omega
  rw [run, File.seekRange, bind_assoc, run_get_bind, hcint]
  rfl

/-- **One call**: it is bounded exactly if it fits, and then keeps the file tight. -/
theorem bounded_iff_fits (h : f.Tight) {op : FileOp} (hlegit : op.Legit f) :
    (op.Bounded f ↔ op.Fits f) ∧ (op.Fits f → op.Keeps f) := by
  have hkeeps : op.Fits f → op.Keeps f := by
    cases op with
    | initBuffer n fresh => exact initBuffer_keeps h
    | append buffer fresh => exact append_keeps h
    | seekRange wantedSize offset => exact seekRange_keeps h hlegit
  have hbounded : op.Bounded f → op.Fits f := by
    cases op with
    | initBuffer n fresh => exact not_imp_not.1 (initBuffer_not_bounded h)
    | append buffer fresh => exact not_imp_not.1 (append_not_bounded h)
    | seekRange wantedSize offset => exact not_imp_not.1 seekRange_not_bounded
  exact ⟨⟨hbounded, fun hfits => (hkeeps hfits).bounded⟩, hkeeps⟩

/-! ## Runs -/

/-- A property of a call on the file it finds. -/
def On (P : FileOp → File → Prop) (s : Except Fault File) (op : FileOp) (_ : Except Fault File) :
    Prop :=
  ∃ f, s = .ok f ∧ P op f

/-- **The bounds over a run** from a new file: every call stays within the block, leaves
`0 ≤ pos ≤ size` with `size` at most the block's length and, where it is refused, `pos` and the
bytes alone, exactly if every call fits the file it finds. -/
theorem bounded_run_iff {tr : List (FileOp × Except Fault File)}
    (h : Along Step (.ok File.new) tr) :
    Along (On Bounded) (.ok File.new) tr ↔ Along (On fun op f => op.Fits f) (.ok File.new) tr := by
  refine Along.iff_of_inv (I := fun s => ∃ f, s = .ok f ∧ f.Tight) ?_ ⟨_, rfl, tight_new⟩ h
  rintro _ op s' ⟨f, rfl, htight⟩ ⟨_, hf, hlegit, hs'⟩
  cases hf
  obtain ⟨hiff, hkeeps⟩ := bounded_iff_fits htight hlegit
  constructor
  · constructor
    · rintro ⟨_, hf, hbounded⟩
      cases hf
      exact ⟨f, rfl, hiff.1 hbounded⟩
    · rintro ⟨_, hf, hfits⟩
      cases hf
      exact ⟨f, rfl, hiff.2 hfits⟩
  · rintro ⟨_, hf, hfits⟩
    cases hf
    obtain ⟨r, f', hrun, htight', -⟩ := hkeeps hfits
    exact ⟨f', by rw [hs', hrun]; rfl, htight'⟩

/-- The state after a call. -/
def after (f : File) (op : FileOp) : Except Fault File := (op.run f).map Prod.snd

theorem bounded_run_iff_read :
    Along (On Bounded) (.ok File.new)
        [(initBuffer 4 fun _ => 0, after File.new (initBuffer 4 fun _ => 0)),
          (append (text "ab") fun _ => 0,
            after ⟨4, some [0, 0, 0, 0, 0], 0, 0, 0⟩ (append (text "ab") fun _ => 0)),
          (seekRange 8 1, after ⟨4, some [0x61, 0x62, 0, 0, 0], 2, 0, 0⟩ (seekRange 8 1))]
      ↔ Along (On fun op f => op.Fits f) (.ok File.new)
        [(initBuffer 4 fun _ => 0, after File.new (initBuffer 4 fun _ => 0)),
          (append (text "ab") fun _ => 0,
            after ⟨4, some [0, 0, 0, 0, 0], 0, 0, 0⟩ (append (text "ab") fun _ => 0)),
          (seekRange 8 1, after ⟨4, some [0x61, 0x62, 0, 0, 0], 2, 0, 0⟩ (seekRange 8 1))] :=
  bounded_run_iff ⟨⟨_, rfl, trivial, rfl⟩, ⟨_, rfl, trivial, rfl⟩,
    ⟨_, rfl, show (1 : ℤ) ≤ 2 by decide, rfl⟩, trivial⟩

/-- **The second append writes beyond the block**: `init_buffer(2)` has allocated three bytes. -/
theorem growing_append_overruns :
    ∃ tr, Along Step (.ok File.new) tr ∧ ¬ Along (On Bounded) (.ok File.new) tr := by
  refine ⟨[(initBuffer 2 fun _ => 0, after File.new (initBuffer 2 fun _ => 0)),
    (append (text "ab") fun _ => 0,
      after ⟨2, some [0, 0, 0], 0, 0, 0⟩ (append (text "ab") fun _ => 0)),
    (append (text "cdef") fun _ => 0,
      after ⟨2, some [0x61, 0x62, 0], 2, 0, 0⟩ (append (text "cdef") fun _ => 0))], ?_, ?_⟩
  · exact ⟨⟨_, rfl, trivial, rfl⟩, ⟨_, rfl, trivial, rfl⟩, ⟨_, rfl, trivial, rfl⟩, trivial⟩
  · rintro ⟨-, -, ⟨f, hf, hbounded⟩, -⟩
    cases hf
    exact not_bounded_of_fault (e := .outOfBounds) rfl hbounded

end FileOp

end SmartStreaming
