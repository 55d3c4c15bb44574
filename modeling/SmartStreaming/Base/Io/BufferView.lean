import SmartStreaming.Base.Io.BufferContent

/-!
# Base/Io/BufferView — the reading calls as functions of the readable bytes

`Shows b c` says that a valid buffer `b` holds `c`.  Each reading call is seen through it: how the
call ends, and what it leaves, depend on `c` alone, wherever the bytes lie in the ring.  `Reads` is
the case where the call stops the program on no input.
-/

namespace SmartStreaming

open Machinery Comp

namespace Buffer

/-- `b` is in order and its readable bytes are `c`. -/
def Shows (b : Buffer) (c : Bytes) : Prop := b.Valid ∧ b.content = c

/-- **From the bytes `c` on, `f` stops the program nowhere** and returns only a `Q`; how it ends
depends on `c` alone. -/
abbrev Reads {α : Type} (Q : α → Bytes → Prop) (f : Stream α) (c : Bytes) : Prop :=
  Via Shows (fun _ => False) (fun _ _ => True) Q f c

section View

variable {α : Type} {F : Fault → Prop} {E : ℤ → Bytes → Prop} {c : Bytes} {b : Buffer}

/-- `read_left` counts them. -/
theorem Shows.readLeft_eq (h : Shows b c) : b.readLeft = c.length := by
  rw [← length_content h.1, h.2]

/-- `read_empty` tells whether there are any. -/
theorem Shows.readEmpty_iff (h : Shows b c) : b.readEmpty = true ↔ c = [] := by
  rw [Buffer.readEmpty_iff h.1, h.2]

/-- `read_require` tells whether there are so many; fewer than none are not. -/
theorem Shows.readRequire_iff (h : Shows b c) {n : ℤ} :
    b.readRequire n = true ↔ 0 ≤ n ∧ n ≤ c.length := by
  rw [Buffer.readRequire_iff h.1, h.2]

/-- The bytes left after the first `n`. -/
theorem Shows.skip (h : Shows b c) {n : ℤ} (h₀ : 0 ≤ n) (h₁ : n ≤ c.length) :
    Shows (b.skip n) (c.drop n.toNat) := by
  rw [← h.readLeft_eq] at h₁
  exact ⟨valid_skip h.1 h₀ h₁, by rw [content_skip h.1 h₀ h₁, h.2]⟩

/-- A test of what can be read, and what either branch has to do with. -/
theorem via_requireRead {Q : PUnit → Bytes → Prop} {n code : ℤ}
    (h₁ : 0 ≤ n → n ≤ c.length → Q ⟨⟩ c) (h₂ : E code c) :
    Via Shows F E Q (requireRead n code) c := by
  by_cases h : 0 ≤ n ∧ n ≤ c.length
  · refine Via.get_bind (fun b hb => if_pos (hb.readRequire_iff.2 h)) ?_
    exact Via.pure (h₁ h.1 h.2)
  · refine Via.get_bind (fun b hb => if_neg (mt hb.readRequire_iff.1 h)) ?_
    exact Via.fail h₂

/-- A `seek_read` that is asked to go back does nothing. -/
theorem via_seekRead_of_le {Q : ℤ → Bytes → Prop} {n : ℤ} (h : n ≤ 0) (hQ : Q errorBufferRead c) :
    Via Shows F E Q (seekRead n) c :=
  Via.ok (fun b hb => ⟨b, seekRead_of_le b h, hb⟩) hQ

/-- An integer is made of the first bytes, the highest first. -/
theorem via_readInt {w n : ℕ} {Q : BitVec w → Bytes → Prop} (h : n ≤ c.length)
    (hQ : Q (BitVec.ofNat w (beNat (c.take n))) (c.drop n)) :
    Via Shows F E Q (readInt w n) c := by
  refine Via.ok (fun b hb => ⟨b.skip n, ?_, ?_⟩) hQ
  · rw [readInt_eq hb.1 (by rwa [hb.2]), hb.2]
  · exact hb.skip (Nat.cast_nonneg n) (Nat.cast_le.2 h)

/-- A string is the first bytes themselves. -/
theorem via_readString {Q : Bytes → Bytes → Prop} {len : ℤ} (h₀ : 0 ≤ len) (h : len ≤ c.length)
    (hQ : Q (c.take len.toNat) (c.drop len.toNat)) : Via Shows F E Q (readString len) c := by
  refine Via.ok (fun b hb => ⟨b.skip len, ?_, hb.skip h₀ h⟩) hQ
  rw [readString_eq hb.1 h₀ (by rwa [hb.readLeft_eq]), hb.2]

/-- `reset` empties the buffer. -/
theorem via_reset {Q : PUnit → Bytes → Prop} (hQ : Q ⟨⟩ []) : Via Shows F E Q reset c := by
  refine Via.ok (fun b hb => ⟨{ b with rpos := 0, wpos := 0 }, rfl, ?_, ?_⟩) hQ
  · obtain ⟨h₁, h₂, -, -, -, -⟩ := hb.1
    exact ⟨h₁, h₂, le_refl _, h₁, le_refl _, h₁⟩
  · exact content_eq_nil_of_readLeft (by simp [readLeft])

/-- `seek_read`, whether there is so much to skip or not. -/
theorem via_seekRead {Q : ℤ → Bytes → Prop} (n : ℤ)
    (hQ : ∀ ret (c' : Bytes), c'.length ≤ c.length → Q ret c') :
    Via Shows F E Q (seekRead n) c := by
  by_cases h : 0 < n ∧ n ≤ c.length
  · refine Via.ok (fun b hb => ⟨b.skip n, ?_, hb.skip h.1.le h.2⟩)
      (hQ errorSuccess _ (by rw [List.length_drop]; omega))
    exact seekRead_eq b h.1 (by rw [hb.readLeft_eq]; exact h.2)
  · refine Via.ok (fun b hb => ⟨b, ?_, hb⟩) (hQ errorBufferRead _ (le_refl _))
    exact seekRead_refused b fun _ => by rw [hb.readLeft_eq]; omega

/-! ### Lengths only

Where the values read do not matter, the rules speak of how many bytes are left. -/

/-- An integer of `n` bytes, whatever its value. -/
theorem reads_readInt {w n : ℕ} (h : n ≤ c.length) :
    Reads (fun _ c' => c'.length + n = c.length) (readInt w n) c := by
  refine via_readInt h ?_
  rw [List.length_drop]
  omega

theorem reads_read1byte (h : 1 ≤ c.length) :
    Reads (fun _ c' => c'.length + 1 = c.length) read1byte c :=
  read1byte_eq_readInt ▸ reads_readInt h

theorem reads_read2bytes (h : 2 ≤ c.length) :
    Reads (fun _ c' => c'.length + 2 = c.length) read2bytes c :=
  read2bytes_eq_readInt ▸ reads_readInt h

theorem reads_read3bytes (h : 3 ≤ c.length) :
    Reads (fun _ c' => c'.length + 3 = c.length) read3bytes c :=
  read3bytes_eq_readInt ▸ reads_readInt h

theorem reads_read4bytes (h : 4 ≤ c.length) :
    Reads (fun _ c' => c'.length + 4 = c.length) read4bytes c :=
  read4bytes_eq_readInt ▸ reads_readInt h

theorem reads_read8bytes (h : 8 ≤ c.length) :
    Reads (fun _ c' => c'.length + 8 = c.length) read8bytes c :=
  read8bytes_eq_readInt ▸ reads_readInt h

end View

/-! ## Calls that stop the program on no input -/

/-- **`f` stops the program on no input**, and how it ends depends on the readable bytes alone. -/
def Safe {α : Type} (f : Stream α) : Prop := ∀ c, Reads (fun _ _ => True) f c

section Safe

variable {α β : Type} {f : Stream α}

/-- What a call returns may be forgotten. -/
theorem safe_of_reads {Q : Bytes → α → Bytes → Prop} (h : ∀ c, Reads (Q c) f c) : Safe f :=
  fun c => (h c).imp fun _ _ _ => trivial

theorem safe_pure (a : α) : Safe (pure a : Stream α) := fun _ => Via.pure trivial

theorem safe_fail (code : ℤ) : Safe (fail code : Stream α) := fun _ => Via.fail trivial

/-- **Calls that stop nowhere may follow each other**, whatever the first returns. -/
theorem Safe.bind {g : α → Stream β} (hf : Safe f) (hg : ∀ a, Safe (g a)) : Safe (f >>= g) :=
  fun c => (hf c).seq fun a c' _ => hg a c'

/-- A test of the arguments, with what it says known in each branch. -/
theorem Safe.ite {p : Prop} [Decidable p] {g : Stream α} (h₁ : p → Safe f) (h₂ : ¬ p → Safe g) :
    Safe (if p then f else g) :=
  fun c => Via.ite (fun hp => h₁ hp c) fun hp => h₂ hp c

theorem safe_ensure (p : Prop) [Decidable p] (code : ℤ) : Safe (ensure p code) :=
  fun _ => Via.ensure (fun _ => trivial) fun _ => trivial

/-- A call that is safe on so many bytes is safe behind the test for them. -/
theorem safe_requireRead {k : ℕ} {code : ℤ} {f : Stream α}
    (hf : ∀ c : Bytes, k ≤ c.length → Reads (fun _ _ => True) f c) :
    Safe (requireRead k code >>= fun _ => f) :=
  fun c => Via.bind (via_requireRead (fun _ h => hf c (Nat.cast_le.1 h)) trivial)

end Safe

end Buffer

end SmartStreaming
