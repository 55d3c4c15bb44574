import SmartStreaming.Base.Io.BufferAppend

/-!
# Base/Io/BufferWrites — how many bytes a writing call appends

`Writes n f`: a success of `f` has appended at most `n` bytes, exactly `n` where there was room for
them, and has not moved `rpos`.  The rules add up along a sequence, as a `total_size()` does.
-/

namespace SmartStreaming

open Machinery Comp

namespace Buffer

/-- **`f` writes `n` bytes**: where there is room for them a success appends exactly `n`, elsewhere
at most `n`. -/
def Writes {α : Type} (n : ℤ) (f : Stream α) : Prop :=
  ∀ b : Buffer, b.Valid → Holds (fun _ => True) (fun _ _ => True)
    (fun _ b' => ∃ e, Appended b e b' ∧ e.length ≤ n ∧ (n ≤ b.writeLeft → e.length = n)) f b

section Writes

variable {α β : Type} {m n : ℤ}

theorem writes_pure (a : α) : Writes 0 (pure a : Stream α) := by
  intro b hb
  exact ⟨[], Appended.refl hb, le_refl _, fun _ => rfl⟩

theorem writes_fail (code : ℤ) : Writes n (fail code : Stream α) := fun _ _ => trivial

/-- **The sizes add up.** -/
theorem Writes.bind {f : Stream α} {g : α → Stream β} (hf : Writes m f)
    (hg : ∀ a, Writes n (g a)) : Writes (m + n) (f >>= g) := by
  intro b hb
  rw [holds_bind]
  refine (hf b hb).imp (fun _ _ => id) ?_
  rintro a b₁ ⟨e₁, h₁, hle₁, heq₁⟩
  refine (hg a b₁ h₁.valid).imp (fun _ _ => id) ?_
  rintro _ b₂ ⟨e₂, h₂, hle₂, heq₂⟩
  have hroom := h₁.writeLeft_eq hb
  refine ⟨e₁ ++ e₂, h₁.trans h₂, ?_, fun hfit => ?_⟩
  · rw [List.length_append]
    omega
  · have hlen₁ := heq₁ (by omega)
    have hlen₂ := heq₂ (by omega)
    rw [List.length_append]
    omega

theorem Writes.ite {p : Prop} [Decidable p] {f g : Stream α} (h₁ : p → Writes n f)
    (h₂ : ¬ p → Writes n g) : Writes n (if p then f else g) := by
  split
  · exact h₁ ‹_›
  · exact h₂ ‹_›

theorem writes_requireRead (k code : ℤ) : Writes 0 (requireRead k code) := by
  intro b hb
  rw [requireRead, holds_bind, holds_get, holds_ensure]
  exact ⟨fun _ => ⟨[], Appended.refl hb, le_refl _, fun _ => rfl⟩, fun _ => trivial⟩

/-- An integer is written whole or not at all. -/
theorem holds_writeInt {b : Buffer} (hb : b.Valid) (k x : ℕ) :
    Holds (fun _ => True) (fun _ _ => True)
      (fun _ b' => ∃ e : Bytes, Appended b e b' ∧ e.length = k) (writeInt k x) b := by
  by_cases h : k ≤ b.writeLeft
  · obtain ⟨b', hrun, happ⟩ := writeInt_eq hb x h
    exact holds_of_run hrun ⟨_, happ, length_beBytes k x⟩
  · rw [Holds, writeInt_full b (by omega)]
    trivial

theorem writes_writeInt (k x : ℕ) : Writes k (writeInt k x) := by
  intro b hb
  refine (holds_writeInt hb k x).imp (fun _ _ => id) ?_
  rintro _ b' ⟨e, happ, rfl⟩
  exact ⟨e, happ, le_refl _, fun _ => rfl⟩

theorem writes_write1byte (value : BitVec 8) : Writes 1 (write1byte value) :=
  write1byte_eq_writeInt value ▸ writes_writeInt 1 value.toNat

theorem writes_write2bytes (value : BitVec 16) : Writes 2 (write2bytes value) :=
  write2bytes_eq_writeInt value ▸ writes_writeInt 2 value.toNat

theorem writes_write4bytes (value : BitVec 32) : Writes 4 (write4bytes value) :=
  write4bytes_eq_writeInt value ▸ writes_writeInt 4 value.toNat

theorem writes_write8bytes (value : BitVec 64) : Writes 8 (write8bytes value) :=
  write8bytes_eq_writeInt value ▸ writes_writeInt 8 value.toNat

/-- A `write_bytes` that is refused for lack of room appends nothing. -/
theorem writes_writeBytes (value : Bytes) :
    Writes value.length (writeBytes value value.length) := by
  intro b hb
  rcases Nat.eq_zero_or_pos value.length with h₀ | h₀
  · refine holds_of_run (writeBytes_of_le b value (by omega)) ⟨[], Appended.refl hb, ?_, ?_⟩
    · rw [List.length_nil]
      omega
    · intro _
      rw [List.length_nil, h₀]
  · by_cases h : value.length ≤ b.writeLeft
    · obtain ⟨b', hrun, happ⟩ := writeBytes_eq hb (by omega) (le_refl _) h
      rw [Int.toNat_natCast, List.take_length] at happ
      exact holds_of_run hrun ⟨value, happ, le_refl _, fun _ => rfl⟩
    · have hrun : writeBytes value value.length b = .ok (.ok errorBufferRead, b) :=
        writeBytes_refused b value fun _ => by omega
      refine holds_of_run hrun ⟨[], Appended.refl hb, ?_, fun hfit => absurd hfit h⟩
      rw [List.length_nil]
      omega

/-- What a success has appended. -/
theorem Writes.appended {f : Stream α} (h : Writes n f) {b b' : Buffer} {a : α} (hb : b.Valid)
    (hf : f b = .ok (.ok a, b')) :
    ∃ e, Appended b e b' ∧ e.length ≤ n ∧ (n ≤ b.writeLeft → e.length = n) :=
  (h b hb).elim_ok hf

end Writes

end Buffer

end SmartStreaming
