import SmartStreaming.Base.Io.BufferContent

/-!
# Base/Io/BufferSkipped — a reading call does no more than move `rpos`

`Skipped b b'`: `b'` is `b` with some of its oldest bytes skipped.  However a reading call ends,
this is all that it has done to the buffer.
-/

namespace SmartStreaming

open Machinery Comp

namespace Buffer

/-- **Some of the oldest bytes of `b` were skipped**, and nothing else happened to it. -/
def Skipped (b b' : Buffer) : Prop := ∃ n, 0 ≤ n ∧ n ≤ b.readLeft ∧ b' = b.skip n

section Skipped

variable {α : Type} {b b' b'' : Buffer}

/-- Nothing was skipped. -/
theorem Skipped.refl (hb : b.Valid) : Skipped b b :=
  ⟨0, le_refl _, readLeft_nonneg hb, (skip_zero hb).symm⟩

/-- The positions stay in the block. -/
theorem Skipped.valid (hb : b.Valid) (h : Skipped b b') : b'.Valid := by
  obtain ⟨n, h₀, h₁, rfl⟩ := h
  exact valid_skip hb h₀ h₁

/-- More of the oldest bytes may be skipped. -/
theorem Skipped.skip (hb : b.Valid) (h : Skipped b b') {n : ℤ} (h₀ : 0 ≤ n) (h₁ : n ≤ b'.readLeft) :
    Skipped b (b'.skip n) := by
  obtain ⟨m, hm₀, hm₁, rfl⟩ := h
  rw [readLeft_skip hb hm₀ hm₁] at h₁
  exact ⟨m + n, by omega, by omega, skip_skip hb hm₀ h₀⟩

/-- What is left are the newest bytes. -/
theorem Skipped.content_eq (hb : b.Valid) (h : Skipped b b') :
    b'.content = b.content.drop (b.content.length - b'.content.length) := by
  have hlen := length_content hb
  have hlen' := length_content (h.valid hb)
  obtain ⟨n, h₀, h₁, rfl⟩ := h
  rw [readLeft_skip hb h₀ h₁] at hlen'
  rw [content_skip hb h₀ h₁]
  congr 1
  rw [List.length_drop]
  omega

variable (hb : b.Valid)

include hb

/-- `seek_read` skips bytes or, asked for more than there are or to go back, does nothing. -/
theorem keeps_seekRead (n : ℤ) : Keeps (Skipped b) (seekRead n) := by
  intro s hs
  by_cases h : 0 < n ∧ n ≤ s.readLeft
  · rw [Holds, seekRead_eq s h.1 h.2]
    exact hs.skip hb h.1.le h.2
  · rw [Holds, seekRead_refused s fun h₀ => by omega]
    exact hs

/-- One byte. -/
theorem keeps_takeByte : Keeps (Skipped b) takeByte :=
  Keeps.get_bind fun _ _ => (keeps_ofOption _ _).bind fun x => (keeps_seekRead hb 1).bind fun _ =>
    keeps_pure x

omit hb in
/-- An assertion looks at the buffer only. -/
theorem keeps_cassert (p : Prop) [Decidable p] : Keeps (Skipped b) (cassert p) :=
  Keeps.ite (keeps_pure _) (keeps_stop _)

omit hb in
theorem keeps_ensure (p : Prop) [Decidable p] (code : ℤ) :
    Keeps (Skipped b) (ensure p code : Stream PUnit) :=
  Keeps.ite (keeps_pure _) (keeps_fail _)

omit hb in
/-- So does a test of what can be read. -/
theorem keeps_requireRead (n code : ℤ) : Keeps (Skipped b) (requireRead n code) :=
  Keeps.get_bind fun _ _ => keeps_ensure _ _

/-- One byte after the other, by induction on their number. -/
theorem keeps_takeBytes (n : ℕ) : Keeps (Skipped b) (takeBytes n) := by
  induction n with
  | zero => exact keeps_pure _
  | succ n ih => exact (keeps_takeByte hb).bind fun x => ih.bind fun xs => keeps_pure (x :: xs)

/-- An integer of any size, across the wrap. -/
theorem keeps_readInt (w n : ℕ) : Keeps (Skipped b) (readInt w n) :=
  Keeps.get_bind fun _ _ => (keeps_cassert _).bind fun _ => (keeps_takeBytes hb n).bind fun _ =>
    keeps_pure _

theorem keeps_read1byte : Keeps (Skipped b) read1byte :=
  read1byte_eq_readInt ▸ keeps_readInt hb 8 1

theorem keeps_read2bytes : Keeps (Skipped b) read2bytes :=
  read2bytes_eq_readInt ▸ keeps_readInt hb 16 2

theorem keeps_read3bytes : Keeps (Skipped b) read3bytes :=
  read3bytes_eq_readInt ▸ keeps_readInt hb 32 3

theorem keeps_read4bytes : Keeps (Skipped b) read4bytes :=
  read4bytes_eq_readInt ▸ keeps_readInt hb 32 4

theorem keeps_read8bytes : Keeps (Skipped b) read8bytes :=
  read8bytes_eq_readInt ▸ keeps_readInt hb 64 8

omit hb in
/-- Bytes are copied out of the block; the buffer stays. -/
theorem keeps_append (result mem : Bytes) (off n : ℤ) :
    Keeps (Skipped b) (append result mem off n) :=
  Keeps.ite (keeps_stop _) ((keeps_ofOption _ _).bind fun _ => keeps_pure _)

/-- A string is copied out first, in two parts across the wrap, and skipped then. -/
theorem keeps_readString (len : ℤ) : Keeps (Skipped b) (readString len) := by
  have hseek : ∀ result : Bytes, Keeps (Skipped b) (do
      let _ ← seekRead len
      return result) := fun result => (keeps_seekRead hb len).bind fun _ => keeps_pure result
  refine Keeps.get_bind fun s _ => (keeps_cassert _).bind fun _ => Keeps.ite ?_ ?_
  · exact (keeps_append _ _ _ _).bind fun head => (keeps_append _ _ _ _).bind hseek
  · exact (keeps_append _ _ _ _).bind hseek

end Skipped

end Buffer

end SmartStreaming
