import SmartStreaming.Base.Io.BufferContent

/-!
# Base/Io/BufferAppend — each writing call of `Buffer` appends to what it holds

`Appended b bs b'` says that `b'` is `b` with `bs` appended: `rpos`, `size` and the block stay.
`appended_advance` is the one place where the cells of the ring are looked at.
-/

namespace SmartStreaming

open Machinery Comp

namespace Buffer

/-! ## Writing calls -/

/-- **`b'` is `b` with `bs` appended** to what it holds; `rpos` and the block stay. -/
structure Appended (b : Buffer) (bs : Bytes) (b' : Buffer) : Prop where
  valid : b'.Valid
  content_eq : b'.content = b.content ++ bs
  rpos_eq : b'.rpos = b.rpos
  size_eq : b'.size = b.size
  length_eq : b'.buf.length = b.buf.length

namespace Appended

variable {b b' b'' : Buffer} {bs cs : Bytes}

theorem refl (hb : b.Valid) : Appended b [] b := ⟨hb, by simp, rfl, rfl, rfl⟩

theorem trans (h₁ : Appended b bs b') (h₂ : Appended b' cs b'') : Appended b (bs ++ cs) b'' :=
  ⟨h₂.valid, by rw [h₂.content_eq, h₁.content_eq, List.append_assoc],
    h₂.rpos_eq.trans h₁.rpos_eq, h₂.size_eq.trans h₁.size_eq, h₂.length_eq.trans h₁.length_eq⟩

theorem readLeft_eq (hb : b.Valid) (h : Appended b bs b') :
    b'.readLeft = b.readLeft + bs.length := by
  rw [← length_content h.valid, ← length_content hb, h.content_eq, List.length_append,
    Nat.cast_add]

/-- **The room shrinks by what was written.** -/
theorem writeLeft_eq (hb : b.Valid) (h : Appended b bs b') :
    b'.writeLeft = b.writeLeft - bs.length := by
  have h₁ := readLeft_add_writeLeft hb
  have h₂ := readLeft_add_writeLeft h.valid
  rw [h.readLeft_eq hb, h.size_eq] at h₂
  omega

end Appended

section Write

variable {b : Buffer}

/-- The buffer with the block `mem` and `wpos` moved on by `n`. -/
def advance (b : Buffer) (mem : Bytes) (n : ℤ) : Buffer :=
  { b with buf := mem, wpos := b.next b.wpos n }

theorem valid_advance (hb : b.Valid) {mem : Bytes} {n : ℤ} (hmem : mem.length = b.buf.length)
    (h₀ : 0 ≤ n) (h : n ≤ b.writeLeft) : (b.advance mem n).Valid := by
  have hread := readLeft_nonneg hb
  have hroom := readLeft_add_writeLeft hb
  have hnext := next_eq b hb.wpos_nonneg hb.wpos_lt h₀ (by omega)
  obtain ⟨h₂, h₃, h₄, h₅, h₆, h₇⟩ := hb
  refine ⟨h₂, by simp only [advance]; omega, h₄, h₅, ?_, ?_⟩ <;> simp only [advance, hnext] <;>
    split <;> omega

theorem readLeft_advance (hb : b.Valid) {mem : Bytes} {n : ℤ} (hmem : mem.length = b.buf.length)
    (h₀ : 0 ≤ n) (h : n ≤ b.writeLeft) : (b.advance mem n).readLeft = b.readLeft + n := by
  have hread := readLeft_nonneg hb
  have hroom := readLeft_add_writeLeft hb
  have hnext := next_eq b hb.wpos_nonneg hb.wpos_lt h₀ (by omega)
  have hleft := readLeft_eq hb
  have := hb.wpos_lt
  have := hb.rpos_lt
  have := hb.rpos_nonneg
  have hnew : (b.advance mem n).readLeft = if b.rpos ≤ b.next b.wpos n
      then b.next b.wpos n - b.rpos else b.next b.wpos n + b.size - b.rpos :=
    readLeft_eq (valid_advance hb hmem h₀ h)
  rw [hnew]
  split at hleft <;> split <;> split at hnext <;> omega

/-- A cell that holds a readable byte is none of the next `n` to be written. -/
theorem cell_kept (hb : b.Valid) {n : ℕ} (h : n ≤ b.writeLeft) {i : ℕ} (hi : i < b.readLeft.toNat) :
    ((((b.rpos.toNat + i) % b.size.toNat : ℕ) : ℤ) < b.wpos
        ∨ b.wpos + n ≤ ((b.rpos.toNat + i) % b.size.toNat : ℕ))
      ∧ b.wpos + n - b.size ≤ ((b.rpos.toNat + i) % b.size.toNat : ℕ) := by
  have hlt := readLeft_lt hb
  have h₁ := readLeft_eq hb
  have h₂ := writeLeft_eq hb
  obtain ⟨h₃, h₄, h₅, h₆, h₇, h₈⟩ := hb
  rw [mod_of_lt_two_mul (by omega)]
  split at h₁ <;> split at h₂ <;> split <;> omega

/-- **Moving `wpos` appends** what the cells from `wpos` on hold, provided the other cells are
kept. -/
theorem appended_advance (hb : b.Valid) {mem bs : Bytes} (hmem : mem.length = b.buf.length)
    (h : bs.length ≤ b.writeLeft)
    (hkeep : ∀ p : ℕ, (p < b.wpos ∨ b.wpos + bs.length ≤ p) → b.wpos + bs.length - b.size ≤ p →
      mem[p]? = b.buf[p]?)
    (hnew : ring mem b.size.toNat b.wpos.toNat bs.length = bs) :
    Appended b bs (b.advance mem bs.length) := by
  have hread := readLeft_nonneg hb
  have hroom := readLeft_add_writeLeft hb
  have hleft := readLeft_advance hb hmem (by omega) h
  have hwpos : (b.rpos.toNat + b.readLeft.toNat) % b.size.toNat = b.wpos.toNat := by
    have h₁ := readLeft_eq hb
    obtain ⟨h₂, h₃, h₄, h₅, h₆, h₇⟩ := hb
    rw [mod_of_lt_two_mul (by omega)]
    split at h₁ <;> split <;> omega
  have hsize := hb.size_le
  refine ⟨valid_advance hb hmem (by omega) h, ?_, rfl, rfl, hmem⟩
  have hcount : (b.advance mem bs.length).readLeft.toNat = b.readLeft.toNat + bs.length := by omega
  rw [content, hcount]
  change ring mem b.size.toNat b.rpos.toNat _ = _
  refine ring_append_of_write (by omega) (by omega) (by omega) (fun i hi => ?_) ?_
  · obtain ⟨h₁, h₂⟩ := cell_kept hb h hi
    exact hkeep _ h₁ h₂
  · rw [hwpos, hnew]

/-- A block that lies before the end of the ring is stored at `wpos` and appended. -/
theorem appended_splice (hb : b.Valid) (bs : Bytes) (h : bs.length ≤ b.writeLeft)
    (hpiece : b.wpos + bs.length ≤ b.size) :
    store b.buf b.wpos bs = some (splice b.buf b.wpos.toNat bs)
      ∧ Appended b bs (b.advance (splice b.buf b.wpos.toNat bs) bs.length) := by
  have hsize := hb.size_le
  have hpos := hb.wpos_nonneg
  have hfit : b.wpos.toNat + bs.length ≤ b.buf.length := by omega
  have hlen := length_splice hfit
  have hnew : ring (splice b.buf b.wpos.toNat bs) b.size.toNat b.wpos.toNat bs.length = bs := by
    rw [ring_eq_take_drop (by omega) (by omega), take_drop_splice hfit]
  exact ⟨store_eq_some hpos (by omega), appended_advance hb hlen h
    (fun p hp _ => getElem?_splice_of_not_mem hfit (by omega)) hnew⟩

/-- What reaches the end of the ring goes on at its beginning. -/
theorem appended_splice_wrap (hb : b.Valid) (head tail : Bytes)
    (h : (head ++ tail).length ≤ b.writeLeft) (hend : b.wpos + head.length = b.size) :
    Appended b (head ++ tail)
      (b.advance (splice (splice b.buf b.wpos.toNat head) 0 tail) (head ++ tail).length) := by
  have hread := readLeft_nonneg hb
  have hroom := readLeft_add_writeLeft hb
  have hsize := hb.size_le
  have hpos := hb.wpos_nonneg
  have hlt := hb.wpos_lt
  have hsum : (head ++ tail).length = head.length + tail.length := List.length_append
  have h₁ : b.wpos.toNat + head.length ≤ b.buf.length := by omega
  have h₂ : 0 + tail.length ≤ (splice b.buf b.wpos.toNat head).length := by
    rw [length_splice h₁]
    omega
  refine appended_advance hb (by rw [length_splice h₂, length_splice h₁]) h (fun p hp hp' => ?_)
    (ring_splice_wrap (by omega) (by omega) (by omega) (by omega))
  rw [getElem?_splice_of_not_mem h₂ (Or.inr (by omega)),
    getElem?_splice_of_not_mem h₁ (by omega)]

theorem seekWrite_eq (b : Buffer) {len : ℤ} (h₀ : 0 < len) (h : len ≤ b.writeLeft) :
    seekWrite len b = .ok (.ok errorSuccess, b.advance b.buf len) := by
  rw [seekWrite, run_get_bind, if_neg (by omega), if_pos h, run_put_bind, run_pure, advance]

/-- `seek_write` appends what the cells happen to hold. -/
theorem appended_seekWrite (hb : b.Valid) {len : ℤ} (h₀ : 0 < len) (h : len ≤ b.writeLeft) :
    Appended b (ring b.buf b.size.toNat b.wpos.toNat len.toNat) (b.advance b.buf len) := by
  have hroom := readLeft_add_writeLeft hb
  have hread := readLeft_nonneg hb
  have hsize := hb.size_le
  have hlen : (ring b.buf b.size.toNat b.wpos.toNat len.toNat).length = len.toNat :=
    length_ring (by omega) (by omega)
  have hcast : ((ring b.buf b.size.toNat b.wpos.toNat len.toNat).length : ℤ) = len := by omega
  have happ : Appended b (ring b.buf b.size.toNat b.wpos.toNat len.toNat) (b.advance b.buf
      (ring b.buf b.size.toNat b.wpos.toNat len.toNat).length) :=
    appended_advance hb rfl (by rw [hcast]; exact h) (fun p _ _ => rfl) (by rw [hlen])
  rwa [hcast] at happ

theorem seekWrite_of_le (b : Buffer) {len : ℤ} (h : len ≤ 0) :
    seekWrite len b = .ok (.ok errorBufferRead, b) := by
  rw [seekWrite, run_get_bind, if_pos h, run_pure]

/-- A length that is not positive or more than there is room for. -/
theorem seekWrite_refused (b : Buffer) {len : ℤ} (h : 0 < len → b.writeLeft < len) :
    seekWrite len b = .ok (.ok errorBufferRead, b) := by
  obtain hlen | hlen := le_or_gt len 0
  · exact seekWrite_of_le b hlen
  · have := h hlen
    rw [seekWrite, run_get_bind, if_neg (by omega), if_neg (by omega), run_pure]

theorem putByte_eq (hb : b.Valid) (h : 1 ≤ b.writeLeft) (x : Byte) :
    ∃ b', putByte x b = .ok (.ok ⟨⟩, b') ∧ Appended b [x] b' := by
  have hone : ([x] : Bytes).length = 1 := rfl
  have hlt := hb.wpos_lt
  obtain ⟨hstore, happ⟩ := appended_splice hb [x] (by omega) (by omega)
  refine ⟨_, ?_, happ⟩
  rw [putByte, run_get_bind, hstore, run_some_bind, run_put_bind,
    run_bind_ok (seekWrite_eq { b with buf := splice b.buf b.wpos.toNat [x] } Int.one_pos h),
    run_pure]
  rfl

/-- Writing `bs` one `putByte` at a time. -/
def putBytes : Bytes → Stream PUnit
  | [] => return ⟨⟩
  | x :: xs => do
    putByte x
    putBytes xs

theorem putBytes_eq (hb : b.Valid) {bs : Bytes} (h : bs.length ≤ b.writeLeft) :
    ∃ b', putBytes bs b = .ok (.ok ⟨⟩, b') ∧ Appended b bs b' := by
  induction bs generalizing b with
  | nil => exact ⟨b, rfl, Appended.refl hb⟩
  | cons x xs ih =>
    rw [List.length_cons, Nat.cast_succ] at h
    obtain ⟨b₁, hput, h₁⟩ := putByte_eq hb (by omega) x
    have hroom := h₁.writeLeft_eq hb
    rw [List.length_singleton] at hroom
    obtain ⟨b₂, hrest, h₂⟩ := ih h₁.valid (by omega)
    exact ⟨b₂, by rw [putBytes, run_bind_ok hput, hrest], h₁.trans h₂⟩

/-- The calls `write_1byte` … `write_8bytes` as one: the low `n` bytes, most significant first. -/
def writeInt (n x : ℕ) : Stream ℤ := do
  cassert ((← get).writeLeft ≥ n)
  putBytes (beBytes n x)
  return errorSuccess

theorem write1byte_eq_writeInt (value : BitVec 8) : write1byte value = writeInt 1 value.toNat := by
  simp [write1byte, writeInt, putBytes, beBytes, leBytes]

theorem write2bytes_eq_writeInt (value : BitVec 16) :
    write2bytes value = writeInt 2 value.toNat := by
  simp [write2bytes, writeInt, putBytes, beBytes, leBytes, byteAt]

theorem write3bytes_eq_writeInt (value : BitVec 32) :
    write3bytes value = writeInt 3 value.toNat := by
  simp [write3bytes, writeInt, putBytes, beBytes, leBytes, byteAt, Nat.div_div_eq_div_mul]

theorem write4bytes_eq_writeInt (value : BitVec 32) :
    write4bytes value = writeInt 4 value.toNat := by
  simp [write4bytes, writeInt, putBytes, beBytes, leBytes, byteAt, Nat.div_div_eq_div_mul]

theorem write8bytes_eq_writeInt (value : BitVec 64) :
    write8bytes value = writeInt 8 value.toNat := by
  simp [write8bytes, writeInt, putBytes, beBytes, leBytes, byteAt, Nat.div_div_eq_div_mul]

/-- **Multi-byte integers are written big-endian.** -/
theorem writeInt_eq (hb : b.Valid) {n : ℕ} (x : ℕ) (h : n ≤ b.writeLeft) :
    ∃ b', writeInt n x b = .ok (.ok errorSuccess, b') ∧ Appended b (beBytes n x) b' := by
  have hfit : (beBytes n x).length ≤ b.writeLeft := by rwa [length_beBytes]
  obtain ⟨b', hput, happ⟩ := putBytes_eq hb hfit
  refine ⟨b', ?_, happ⟩
  rw [writeInt, run_get_bind, cassert, if_pos h, pure_bind, run_bind_ok hput, run_pure]

theorem writeInt_full (b : Buffer) {n x : ℕ} (h : b.writeLeft < n) :
    writeInt n x b = .error .assertion := by
  rw [writeInt, run_get_bind, cassert, if_neg (by omega), run_stop_bind]

/-- **`write_bytes` appends the caller's bytes**, in one piece or in two. -/
theorem writeBytes_eq (hb : b.Valid) {src : Bytes} {len : ℤ} (h₀ : 0 < len)
    (hsrc : len ≤ src.length) (h : len ≤ b.writeLeft) :
    ∃ b', writeBytes src len b = .ok (.ok errorSuccess, b')
      ∧ Appended b (src.take len.toNat) b' := by
  have hread := readLeft_nonneg hb
  have hroom := readLeft_add_writeLeft hb
  have hnext := next_eq b hb.wpos_nonneg hb.wpos_lt h₀.le (by omega)
  have hsize := hb.size_le
  have hpos := hb.wpos_nonneg
  have hlt := hb.wpos_lt
  have htake : ((src.take len.toNat).length : ℤ) = len := by rw [List.length_take]; omega
  rw [writeBytes, run_get_bind, if_neg (by omega), if_neg (by omega)]
  by_cases hwrap : b.next b.wpos len < b.wpos
  · have hround : ¬ b.wpos + len < b.size := fun hh => by rw [if_pos hh] at hnext; omega
    rw [if_neg hround] at hnext
    set head := src.take (b.size - b.wpos).toNat with hhead
    set tail := (src.drop (b.size - b.wpos).toNat).take (b.next b.wpos len).toNat with htail
    have hheadlen : head.length = (b.size - b.wpos).toNat := by
      rw [hhead, List.length_take]; omega
    have htaillen : tail.length = (b.next b.wpos len).toNat := by
      rw [htail, List.length_take, List.length_drop]; omega
    have hsplit : src.take len.toNat = head ++ tail := by
      rw [hhead, htail, ← List.take_add]
      congr 1
      omega
    have h₁ : b.wpos.toNat + head.length ≤ b.buf.length := by omega
    have hmem := length_splice h₁
    have hload₁ : load src 0 (b.size - b.wpos) = some head := by
      rw [load_eq_some (le_refl _) (by omega) (by omega), Int.toNat_zero, List.drop_zero]
    have hload₂ : load src (b.size - b.wpos) (b.next b.wpos len) = some tail :=
      load_eq_some (by omega) (by omega) (by omega)
    have hstore₁ : store b.buf b.wpos head = some (splice b.buf b.wpos.toNat head) :=
      store_eq_some hpos (by omega)
    have hstore₂ : store (splice b.buf b.wpos.toNat head) 0 tail
        = some (splice (splice b.buf b.wpos.toNat head) 0 tail) :=
      store_eq_some (le_refl _) (by omega)
    have happ := appended_splice_wrap hb head tail (by rw [← hsplit, htake]; exact h) (by omega)
    rw [if_pos hwrap, hload₁, run_some_bind, hstore₁, run_some_bind, hload₂, run_some_bind,
      hstore₂, run_some_bind, run_put_bind, run_pure, hsplit]
    refine ⟨_, ?_, happ⟩
    rw [← hsplit, htake, advance]
  · have hfit : b.wpos + len ≤ b.size := by
      by_contra hh
      rw [if_neg (by omega)] at hnext
      omega
    have hload : load src 0 len = some (src.take len.toNat) := by
      rw [load_eq_some (le_refl _) (by omega) (by omega), Int.toNat_zero, List.drop_zero]
    obtain ⟨hstore, happ⟩ := appended_splice hb (src.take len.toNat) (by omega) (by omega)
    rw [htake] at happ
    exact ⟨_, by rw [if_neg hwrap, hload, run_some_bind, hstore, run_some_bind, run_put_bind,
      run_pure, advance], happ⟩

theorem writeBytes_of_le (b : Buffer) (src : Bytes) {len : ℤ} (h : len ≤ 0) :
    writeBytes src len b = .ok (.ok errorBufferRead, b) := by
  rw [writeBytes, run_get_bind, if_pos h, run_pure]

/-- A length that is not positive or more than there is room for. -/
theorem writeBytes_refused (b : Buffer) (src : Bytes) {len : ℤ} (h : 0 < len → b.writeLeft < len) :
    writeBytes src len b = .ok (.ok errorBufferRead, b) := by
  obtain hlen | hlen := le_or_gt len 0
  · exact writeBytes_of_le b src hlen
  · rw [writeBytes, run_get_bind, if_neg (by omega), if_pos (h hlen), run_pure]

/-- What has room is appended, also if it is nothing. -/
theorem exists_writeBytes (hb : b.Valid) {src : Bytes} (h : src.length ≤ b.writeLeft) :
    ∃ r b', writeBytes src src.length b = .ok (.ok r, b') ∧ Appended b src b' := by
  obtain hle | hpos := le_or_gt (src.length : ℤ) 0
  · have hnil : src = [] := List.eq_nil_of_length_eq_zero (by omega)
    subst hnil
    exact ⟨_, _, writeBytes_of_le _ _ (le_refl _), Appended.refl hb⟩
  · obtain ⟨b', hwrite, happ⟩ := writeBytes_eq hb hpos (le_refl _) h
    rw [Int.toNat_natCast, List.take_length] at happ
    exact ⟨_, _, hwrite, happ⟩

end Write

end Buffer

end SmartStreaming
