import SmartStreaming.Base.Io.Buffer
import Mathlib.Tactic.Linarith
import Mathlib.Tactic.Ring

/-!
# Base/Io/BufferContent — what a `Buffer` holds, and what each reading call does to it

A valid `Buffer` holds `content`: the ring of its `readLeft` bytes from `rpos` on.  Each reading
call is an equation in `content` and `skip` (move `rpos`); the writing calls are in
`Base/Io/BufferAppend`.  Nothing above these two files looks at positions again.
-/

namespace SmartStreaming

open Machinery Comp

namespace Buffer

/-- A buffer whose positions lie in its block: the block is there and `rpos`, `wpos` are inside. -/
structure Valid (b : Buffer) : Prop where
  size_pos : 0 < b.size
  size_le : b.size ≤ b.buf.length
  rpos_nonneg : 0 ≤ b.rpos
  rpos_lt : b.rpos < b.size
  wpos_nonneg : 0 ≤ b.wpos
  wpos_lt : b.wpos < b.size

/-- **The readable bytes**, oldest first. -/
def content (b : Buffer) : Bytes := ring b.buf b.size.toNat b.rpos.toNat b.readLeft.toNat

/-- The buffer with `rpos` moved on by `n`. -/
def skip (b : Buffer) (n : ℤ) : Buffer := { b with rpos := b.next b.rpos n }

theorem valid_new {buffer : Bytes} {size : ℤ} (h₀ : 0 < size) (h₁ : size ≤ buffer.length) :
    (new buffer size).Valid :=
  ⟨h₀, h₁, le_refl _, h₀, le_refl _, h₀⟩

section Positions

variable {b : Buffer}

theorem readLeft_eq (hb : b.Valid) :
    b.readLeft = if b.rpos ≤ b.wpos then b.wpos - b.rpos else b.wpos + b.size - b.rpos := by
  obtain ⟨h₁, h₂, h₃, h₄, h₅, h₆⟩ := hb
  rw [readLeft, Int.tmod_eq_emod_of_nonneg (by omega)]
  split
  · rw [show b.wpos + b.size - b.rpos = b.wpos - b.rpos + b.size by ring, Int.add_emod_right,
      Int.emod_eq_of_lt (by omega) (by omega)]
  · rw [Int.emod_eq_of_lt (by omega) (by omega)]

theorem writeLeft_eq (hb : b.Valid) :
    b.writeLeft
      = if b.wpos < b.rpos then b.rpos - b.wpos - 1 else b.rpos + b.size - b.wpos - 1 := by
  obtain ⟨h₁, h₂, h₃, h₄, h₅, h₆⟩ := hb
  rw [writeLeft, Int.tmod_eq_emod_of_nonneg (by omega)]
  split
  · rw [show b.rpos + b.size - b.wpos - 1 = b.rpos - b.wpos - 1 + b.size by ring,
      Int.add_emod_right, Int.emod_eq_of_lt (by omega) (by omega)]
  · rw [Int.emod_eq_of_lt (by omega) (by omega)]

/-- **One slot stays free.** -/
theorem readLeft_add_writeLeft (hb : b.Valid) : b.readLeft + b.writeLeft = b.size - 1 := by
  rw [readLeft_eq hb, writeLeft_eq hb]
  split <;> split <;> omega

theorem readLeft_nonneg (hb : b.Valid) : 0 ≤ b.readLeft := by
  have := hb.rpos_lt
  have := hb.wpos_nonneg
  rw [readLeft_eq hb]
  split <;> omega

theorem writeLeft_nonneg (hb : b.Valid) : 0 ≤ b.writeLeft := by
  have := hb.rpos_nonneg
  have := hb.wpos_lt
  rw [writeLeft_eq hb]
  split <;> omega

theorem readLeft_lt (hb : b.Valid) : b.readLeft < b.size := by
  have h₁ := readLeft_add_writeLeft hb
  have h₂ := writeLeft_nonneg hb
  omega

/-- A position moved on by at most one round. -/
theorem next_eq (b : Buffer) {pos n : ℤ} (h₀ : 0 ≤ pos) (h₁ : pos < b.size) (h₂ : 0 ≤ n)
    (h₃ : n ≤ b.size) :
    b.next pos n = if pos + n < b.size then pos + n else pos + n - b.size := by
  rw [next, Int.tmod_eq_emod_of_nonneg (by omega)]
  split
  · exact Int.emod_eq_of_lt (by omega) (by omega)
  · rw [show pos + n = pos + n - b.size + b.size by ring, Int.add_emod_right,
      Int.emod_eq_of_lt (by omega) (by omega)]
    ring

theorem toNat_next (b : Buffer) {pos n : ℤ} (h₀ : 0 ≤ pos) (h₁ : pos < b.size) (h₂ : 0 ≤ n) :
    (b.next pos n).toNat = (pos.toNat + n.toNat) % b.size.toNat := by
  rw [next, Int.tmod_eq_emod_of_nonneg (by omega), Int.toNat_emod (by omega) (by omega),
    Int.toNat_add h₀ h₂]

/-- The room is what lies between `content` and the free slot. -/
theorem length_content (hb : b.Valid) : (b.content.length : ℤ) = b.readLeft := by
  have h₁ := readLeft_nonneg hb
  have h₂ := readLeft_lt hb
  have h₃ := hb.size_le
  rw [content, length_ring (by omega) (by omega)]
  omega

theorem content_eq_nil_of_readLeft (h : b.readLeft = 0) : b.content = [] := by
  rw [content, h]
  rfl

@[simp] theorem content_new (buffer : Bytes) (size : ℤ) : (new buffer size).content = [] :=
  content_eq_nil_of_readLeft (by simp [new, readLeft])

theorem readEmpty_iff (hb : b.Valid) : b.readEmpty = true ↔ b.content = [] := by
  have := length_content hb
  rw [readEmpty, decide_eq_true_eq, ← List.length_eq_zero_iff]
  omega

/-- What is dropped from the content is bounded by what there is. -/
theorem drop_min_readLeft (hb : b.Valid) (len : ℤ) :
    b.content.drop (min len b.readLeft).toNat = b.content.drop len.toNat := by
  have hlen := length_content hb
  rcases le_total len b.readLeft with hle | hle
  · rw [min_eq_left hle]
  · rw [min_eq_right hle, List.drop_of_length_le (by omega), List.drop_of_length_le (by omega)]

theorem readRequire_iff (hb : b.Valid) {n : ℤ} :
    b.readRequire n = true ↔ 0 ≤ n ∧ n ≤ b.content.length := by
  rw [readRequire, length_content hb]
  split <;> simp <;> omega

/-- Positions inside the block also bound the contiguous stretches. -/
theorem continuousWriteLeft_bounds (hb : b.Valid) :
    0 ≤ b.continuousWriteLeft ∧ b.wpos + b.continuousWriteLeft ≤ b.size
      ∧ b.continuousWriteLeft ≤ b.writeLeft := by
  have h₁ := writeLeft_nonneg hb
  have h₂ := writeLeft_eq hb
  obtain ⟨h₃, h₄, h₅, h₆, h₇, h₈⟩ := hb
  unfold continuousWriteLeft
  split
  · omega
  · rw [if_pos (by omega)] at h₂
    omega

theorem continuousReadLeft_bounds (hb : b.Valid) :
    0 ≤ b.continuousReadLeft ∧ b.rpos + b.continuousReadLeft ≤ b.size
      ∧ b.continuousReadLeft ≤ b.readLeft := by
  have h₁ := readLeft_eq hb
  obtain ⟨h₃, h₄, h₅, h₆, h₇, h₈⟩ := hb
  unfold continuousReadLeft
  split
  · rw [if_neg (by omega)] at h₁
    omega
  · rw [if_pos (by omega)] at h₁
    omega

end Positions

/-! ## Moving `rpos` -/

section Skip

variable {b : Buffer}

theorem valid_skip (hb : b.Valid) {n : ℤ} (h₀ : 0 ≤ n) (h₁ : n ≤ b.readLeft) :
    (b.skip n).Valid := by
  have hlt := readLeft_lt hb
  have hnext := next_eq b hb.rpos_nonneg hb.rpos_lt h₀ (by omega)
  obtain ⟨h₂, h₃, h₄, h₅, h₆, h₇⟩ := hb
  refine ⟨h₂, h₃, ?_, ?_, h₆, h₇⟩ <;> simp only [skip, hnext] <;> split <;> omega

theorem readLeft_skip (hb : b.Valid) {n : ℤ} (h₀ : 0 ≤ n) (h₁ : n ≤ b.readLeft) :
    (b.skip n).readLeft = b.readLeft - n := by
  have hlt := readLeft_lt hb
  have hnext := next_eq b hb.rpos_nonneg hb.rpos_lt h₀ (by omega)
  have hread := readLeft_eq hb
  have := hb.rpos_nonneg
  have := hb.wpos_lt
  rw [readLeft_eq (valid_skip hb h₀ h₁)]
  simp only [skip, hnext]
  split <;> split at hread <;> omega

/-- **Moving `rpos` drops the oldest bytes.** -/
theorem content_skip (hb : b.Valid) {n : ℤ} (h₀ : 0 ≤ n) (h₁ : n ≤ b.readLeft) :
    (b.skip n).content = b.content.drop n.toNat := by
  have hlt := readLeft_lt hb
  have hsize := hb.size_le
  have hsub : (b.readLeft - n).toNat = b.readLeft.toNat - n.toNat := by omega
  rw [content, readLeft_skip hb h₀ h₁, content, drop_ring (by omega) (by omega) (by omega), hsub]
  exact congrArg (fun p => ring b.buf b.size.toNat p (b.readLeft.toNat - n.toNat))
    (toNat_next b hb.rpos_nonneg hb.rpos_lt h₀)

theorem skip_skip (hb : b.Valid) {m n : ℤ} (h₀ : 0 ≤ m) (h₁ : 0 ≤ n) :
    (b.skip m).skip n = b.skip (m + n) := by
  have h₂ := hb.rpos_nonneg
  have h₃ := Int.emod_nonneg (b.rpos + m) hb.size_pos.ne'
  have hm : (b.rpos + m).tmod b.size = (b.rpos + m) % b.size :=
    Int.tmod_eq_emod_of_nonneg (by omega)
  have hmn : (b.rpos + (m + n)).tmod b.size = (b.rpos + (m + n)) % b.size :=
    Int.tmod_eq_emod_of_nonneg (by omega)
  simp only [skip, next, mk.injEq, true_and, and_true]
  rw [hm, hmn, Int.tmod_eq_emod_of_nonneg (by omega), Int.emod_add_emod, Int.add_assoc]

theorem skip_zero (hb : b.Valid) : b.skip 0 = b := by
  rw [skip, next_eq b hb.rpos_nonneg hb.rpos_lt (le_refl _) hb.size_pos.le, Int.add_zero,
    if_pos hb.rpos_lt]

@[simp] theorem skip_buf (b : Buffer) (n : ℤ) : (b.skip n).buf = b.buf := rfl
@[simp] theorem skip_size (b : Buffer) (n : ℤ) : (b.skip n).size = b.size := rfl
@[simp] theorem skip_wpos (b : Buffer) (n : ℤ) : (b.skip n).wpos = b.wpos := rfl

end Skip

/-! ## Reading calls -/

section Read

variable {b : Buffer}

theorem seekRead_of_le (b : Buffer) {n : ℤ} (h : n ≤ 0) :
    seekRead n b = .ok (.ok errorBufferRead, b) := by
  rw [seekRead, run_get_bind, if_pos h, run_pure]

/-- A length that is not positive or more than there is to read. -/
theorem seekRead_refused (b : Buffer) {n : ℤ} (h : 0 < n → b.readLeft < n) :
    seekRead n b = .ok (.ok errorBufferRead, b) := by
  obtain hn | hn := le_or_gt n 0
  · exact seekRead_of_le b hn
  · have := h hn
    rw [seekRead, run_get_bind, if_neg (by omega), if_neg (by omega), run_pure]

theorem seekRead_eq (b : Buffer) {n : ℤ} (h₀ : 0 < n) (h : n ≤ b.readLeft) :
    seekRead n b = .ok (.ok errorSuccess, b.skip n) := by
  rw [seekRead, run_get_bind, if_neg (by omega), if_pos h, run_put_bind, run_pure, skip]

/-- The byte at `rpos` is the oldest one. -/
theorem loadByte_rpos (hb : b.Valid) {x : Byte} {xs : Bytes} (h : b.content = x :: xs) :
    loadByte b.buf b.rpos = some x := by
  have hlen := length_content hb
  have hlt := readLeft_lt hb
  have hsize := hb.size_le
  have hrpos := hb.rpos_lt
  have hr := hb.rpos_nonneg
  rw [h, List.length_cons] at hlen
  have h0 : b.content[0]? = some x := by simp [h]
  rw [content, getElem?_ring (by omega) (by omega) (by omega), Nat.add_zero,
    Nat.mod_eq_of_lt (by omega)] at h0
  rw [loadByte, if_pos hb.rpos_nonneg, h0]

theorem takeByte_eq (hb : b.Valid) {x : Byte} {xs : Bytes} (h : b.content = x :: xs) :
    takeByte b = .ok (.ok x, b.skip 1) := by
  have hlen := length_content hb
  rw [h, List.length_cons] at hlen
  rw [takeByte, run_get_bind, loadByte_rpos hb h, run_some_bind,
    run_bind_ok (seekRead_eq b (by omega) (by omega)), run_pure]

/-- The next `n` bytes, one `takeByte` at a time. -/
def takeBytes : ℕ → Stream Bytes
  | 0 => return []
  | n + 1 => do
    let x ← takeByte
    let xs ← takeBytes n
    return x :: xs

theorem takeBytes_eq (hb : b.Valid) {n : ℕ} (h : n ≤ b.content.length) :
    takeBytes n b = .ok (.ok (b.content.take n), b.skip n) := by
  induction n generalizing b with
  | zero => rw [List.take_zero, Nat.cast_zero, skip_zero hb]; rfl
  | succ n ih =>
    have hlen := length_content hb
    obtain ⟨x, xs, hx⟩ := List.exists_cons_of_length_pos (show 0 < b.content.length by omega)
    rw [hx, List.length_cons] at h hlen
    have hxs : (b.skip 1).content = xs := by
      rw [content_skip hb (by omega) (by omega), hx]; rfl
    have hvalid : (b.skip 1).Valid := valid_skip hb (by omega) (by omega)
    have hrest := ih hvalid (by rw [hxs]; omega)
    have hskip : (b.skip 1).skip n = b.skip (n + 1 : ℕ) := by
      rw [skip_skip hb (by omega) (by omega), Nat.cast_succ, Int.add_comm 1]
    rw [takeBytes, run_bind_ok (takeByte_eq hb hx), run_bind_ok hrest, run_pure, hxs, hx, hskip,
      List.take_succ_cons]

/-- The calls `read_1byte` … `read_8bytes` as one: `n` bytes, most significant first. -/
def readInt (w n : ℕ) : Stream (BitVec w) := do
  cassert ((← get).readLeft ≥ n)
  let bs ← takeBytes n
  return BitVec.ofNat w (beNat bs)

theorem read1byte_eq_readInt : read1byte = readInt 8 1 := by
  simp [read1byte, readInt, takeBytes, beNat, leNat]

theorem read2bytes_eq_readInt : read2bytes = readInt 16 2 := by
  simp [read2bytes, readInt, takeBytes, fromMemory, beNat]

theorem read3bytes_eq_readInt : read3bytes = readInt 32 3 := by
  simp [read3bytes, readInt, takeBytes, fromMemory, beNat, leNat]

theorem read4bytes_eq_readInt : read4bytes = readInt 32 4 := by
  simp [read4bytes, readInt, takeBytes, fromMemory, beNat]

theorem read8bytes_eq_readInt : read8bytes = readInt 64 8 := by
  simp [read8bytes, readInt, takeBytes, fromMemory, beNat]

/-- **Multi-byte integers are read big-endian**, across the wrap or not. -/
theorem readInt_eq (hb : b.Valid) {w n : ℕ} (h : n ≤ b.content.length) :
    readInt w n b = .ok (.ok (BitVec.ofNat w (beNat (b.content.take n))), b.skip n) := by
  have hlen := length_content hb
  rw [readInt, run_get_bind, cassert, if_pos (by omega), pure_bind,
    run_bind_ok (takeBytes_eq hb h), run_pure]

/-- With fewer bytes the assertion fails. -/
theorem readInt_short (hb : b.Valid) {w n : ℕ} (h : b.content.length < n) :
    readInt w n b = .error .assertion := by
  have hlen := length_content hb
  rw [readInt, run_get_bind, cassert, if_neg (by omega), run_stop_bind]

/-- The stretch of the block from `rpos` on, up to its end. -/
theorem load_rpos (hb : b.Valid) {n : ℤ} (h₀ : 0 ≤ n) (h₁ : n ≤ b.readLeft)
    (h₂ : b.rpos + n ≤ b.size) : load b.buf b.rpos n = some (b.content.take n.toNat) := by
  have hmin : min n.toNat b.readLeft.toNat = n.toNat := by omega
  have hlt := readLeft_lt hb
  have hsize := hb.size_le
  have hrpos := hb.rpos_nonneg
  rw [load_eq_some hrpos h₀ (by omega), content, take_ring, hmin,
    ring_eq_take_drop (by omega) (by omega)]

/-- The stretch of the block from `rpos` on, in one piece or in two. -/
theorem load_content (hb : b.Valid) {n : ℤ} (h₀ : 0 ≤ n) (h₁ : n ≤ b.readLeft) :
    if b.next b.rpos n < b.rpos then
      ∃ head tail, load b.buf b.rpos (b.size - b.rpos) = some head
        ∧ load b.buf 0 (b.next b.rpos n) = some tail ∧ head ++ tail = b.content.take n.toNat
    else load b.buf b.rpos n = some (b.content.take n.toNat) := by
  have hlt := readLeft_lt hb
  have hnext := next_eq b hb.rpos_nonneg hb.rpos_lt h₀ (by omega)
  have hvalid := hb
  obtain ⟨h₂, h₃, h₄, h₅, h₆, h₇⟩ := hb
  have hmin : min n.toNat b.readLeft.toNat = n.toNat := by omega
  split
  · rename_i hwrap
    have hround : ¬ b.rpos + n < b.size := fun h => by rw [if_pos h] at hnext; omega
    rw [if_neg hround] at hnext
    have hcut : (b.rpos + n - b.size).toNat = b.rpos.toNat + n.toNat - b.size.toNat := by omega
    refine ⟨_, _, load_eq_some (by omega) (by omega) (by omega),
      load_eq_some (by omega) (by omega) (by omega), ?_⟩
    rw [content, take_ring, hmin, ring_eq_wrap (by omega) (by omega) (by omega) (by omega), hnext,
      hcut, Int.toNat_sub'' (by omega) (by omega), Int.toNat_zero, List.drop_zero]
  · rename_i hwrap
    have hround : b.rpos + n ≤ b.size := by
      by_contra h
      rw [if_neg (by omega)] at hnext
      omega
    exact load_rpos hvalid h₀ h₁ hround

/-- **`read_bytes` delivers the oldest bytes**, as many as there are. -/
theorem readBytes_eq (hb : b.Valid) {len : ℤ} (h : 0 < len) :
    readBytes len b = .ok (.ok (errorSuccess, b.content.take len.toNat, min len b.readLeft),
      b.skip (min len b.readLeft)) := by
  have h₀ := readLeft_nonneg hb
  have hlen := length_content hb
  have hload := load_content hb (n := min len b.readLeft) (by omega) (by omega)
  have htake : b.content.take (min len b.readLeft).toNat = b.content.take len.toNat := by
    rcases le_total len b.readLeft with h | h
    · rw [min_eq_left h]
    · rw [min_eq_right h, List.take_of_length_le (by omega), List.take_of_length_le (by omega)]
  have hmin : (if len < b.readLeft then len else b.readLeft) = min len b.readLeft := by
    split <;> omega
  rw [readBytes, run_get_bind, if_neg (not_le.2 h), hmin]
  split at hload
  · rename_i hwrap
    obtain ⟨head, tail, hhead, htail, happ⟩ := hload
    rw [if_pos hwrap, hhead, run_some_bind, htail, run_some_bind, run_put_bind, run_pure, happ,
      htake, skip]
  · rename_i hwrap
    rw [if_neg hwrap, hload, run_some_bind, run_put_bind, run_pure, htake, skip]

theorem readBytes_of_le (b : Buffer) {len : ℤ} (h : len ≤ 0) :
    readBytes len b = .ok (.ok (errorBufferRead, [], len), b) := by
  rw [readBytes, run_get_bind, if_pos h, run_pure]

/-- `append(ptr, n)` of a block inside the memory. -/
theorem append_eq {mem result bs : Bytes} {off n : ℤ} (h₀ : 0 ≤ n) (h : load mem off n = some bs) :
    append result mem off n b = .ok (.ok (result ++ bs), b) := by
  rw [append, if_neg (by omega), h, run_some_bind, run_pure]

/-- **`read_string` delivers exactly `len` bytes.** -/
theorem readString_eq (hb : b.Valid) {len : ℤ} (h₀ : 0 ≤ len) (h₁ : len ≤ b.readLeft) :
    readString len b = .ok (.ok (b.content.take len.toNat), b.skip len) := by
  have hload := load_content hb h₀ h₁
  have hrpos := hb.rpos_lt
  have hseek : ∃ r, seekRead len b = .ok (.ok r, b.skip len) := by
    rcases h₀.eq_or_lt with rfl | h
    · exact ⟨_, by rw [seekRead_of_le b (le_refl _), skip_zero hb]⟩
    · exact ⟨_, seekRead_eq b h h₁⟩
  obtain ⟨r, hseek⟩ := hseek
  rw [readString, run_get_bind, cassert, if_pos h₁, pure_bind]
  split at hload
  · rename_i hwrap
    obtain ⟨head, tail, hhead, htail, happ⟩ := hload
    have hnext : 0 ≤ b.next b.rpos len := by
      rw [next, Int.tmod_eq_emod_of_nonneg (by have := hb.rpos_nonneg; omega)]
      exact Int.emod_nonneg _ hb.size_pos.ne'
    rw [if_pos hwrap, run_bind_ok (append_eq (by omega) hhead),
      run_bind_ok (append_eq hnext htail)]
    beta_reduce
    rw [run_bind_ok hseek, run_pure, List.nil_append, happ]
  · rename_i hwrap
    rw [if_neg hwrap, run_bind_ok (append_eq h₀ hload)]
    beta_reduce
    rw [run_bind_ok hseek, run_pure, List.nil_append]

theorem readString_short (b : Buffer) {len : ℤ} (h : b.readLeft < len) :
    readString len b = .error .assertion := by
  rw [readString, run_get_bind, cassert, if_neg (by omega), run_stop_bind]

end Read

end Buffer

end SmartStreaming
