import SmartStreaming.Base.StdString

/-!
# Base/UrlDecode — `url_decode` of `util.cpp`

After a `%` two characters are read, whether the string has them or not, and `from_hex` knows the
digits up to `9` and the uppercase letters.  `url_decode_iff` says which strings are read from the
inside only, and which escapes are read back; `urlDecode_eq_error_iff` that nothing but a read
behind the NUL stops the program.
-/

namespace SmartStreaming

/-! ## Digits -/

/-- An uppercase hexadecimal digit. -/
def upperHex (n : ℕ) : Byte := if n < 10 then 0x30 + BitVec.ofNat 8 n else 0x37 + BitVec.ofNat 8 n

/-- A lowercase one. -/
def lowerHex (n : ℕ) : Byte := if n < 10 then 0x30 + BitVec.ofNat 8 n else 0x57 + BitVec.ofNat 8 n

/-- The byte that `url_decode` makes of two digits. -/
def unescaped (hi lo : Byte) : Byte := (fromHex hi <<< 4) ||| fromHex lo

/-- The digits of an escape, read back. -/
theorem fromHex_upperHex : ∀ x : Byte,
    (fromHex (upperHex (x.toNat / 16)) <<< 4) ||| fromHex (upperHex (x.toNat % 16)) = x := by
  decide +kernel

/-! ## Characters -/

theorem urlDecode_cons {x : Byte} (hx : x ≠ 0x25) (s : Bytes) :
    urlDecode (x :: s) = (urlDecode s).map ((if x = 0x2b then 0x20 else x) :: ·) := by
  rw [urlDecode.eq_def]
  split
  · rename_i heq
    cases heq
  · rename_i heq
    exact absurd (List.cons.inj heq).1 hx
  · rename_i heq
    exact absurd (List.cons.inj heq).1 hx
  · rename_i heq
    exact absurd (List.cons.inj heq).1 hx
  · rename_i heq
    obtain ⟨rfl, rfl⟩ := List.cons.inj heq
    cases urlDecode s <;> rfl

theorem urlDecode_escape (x y : Byte) (s : Bytes) :
    urlDecode (0x25 :: x :: y :: s)
      = (urlDecode s).map (((fromHex x <<< 4) ||| fromHex y) :: ·) := by
  refine (urlDecode.eq_2 x y s).trans ?_
  cases urlDecode s <;> rfl

/-! ## What is read -/

/-- The positions that `url_decode` reads, where the character in front stands at `ix`. -/
def urlDecodeReads : ℕ → Bytes → List ℕ
  | _, [] => []
  | ix, 0x25 :: _ :: _ :: s => ix :: (ix + 1) :: (ix + 2) :: urlDecodeReads (ix + 3) s
  | ix, 0x25 :: _ => [ix, ix + 1, ix + 2]
  | ix, _ :: s => ix :: urlDecodeReads (ix + 1) s

/-- Two characters stand behind every `%` that `url_decode` comes upon. -/
inductive WholeEscapes : Bytes → Prop
  | nil : WholeEscapes []
  | plain {x : Byte} {s : Bytes} (hx : x ≠ 0x25) (h : WholeEscapes s) : WholeEscapes (x :: s)
  | escape (hi lo : Byte) {s : Bytes} (h : WholeEscapes s) : WholeEscapes (0x25 :: hi :: lo :: s)

theorem length_escape (ix : ℕ) (x hi lo : Byte) (s : Bytes) :
    ix + (x :: hi :: lo :: s).length = ix + 3 + s.length := by
  rw [List.length_cons, List.length_cons, List.length_cons]
  omega

theorem map_eq_error_iff (out : Except Fault Bytes) (g : Bytes → Bytes) (e : Fault) :
    out.map g = .error e ↔ out = .error e := by
  cases out with
  | error e' => exact Iff.rfl
  | ok s => exact iff_of_false nofun nofun

/-- **The string is read from the inside only** when no escape is cut off at its end. -/
theorem forall_urlDecodeReads_lt_iff (ix : ℕ) (s : Bytes) :
    (∀ p ∈ urlDecodeReads ix s, p < ix + s.length) ↔ WholeEscapes s := by
  fun_induction urlDecodeReads ix s with
  | case1 ix => exact iff_of_true (fun _ hp => absurd hp List.not_mem_nil) .nil
  | case2 ix hi lo s ih =>
    rw [length_escape, List.forall_mem_cons, List.forall_mem_cons, List.forall_mem_cons, ih]
    constructor
    · exact fun h => .escape hi lo h.2.2.2
    · intro h
      refine ⟨by omega, by omega, by omega, ?_⟩
      cases h with
      | plain hx h => exact absurd rfl hx
      | escape hi lo h => exact h
  | case3 ix s hshort =>
    refine iff_of_false (fun h => ?_) (fun h => ?_)
    · have hin := h (ix + 2) (List.mem_of_getElem? (i := 2) rfl)
      rw [List.length_cons] at hin
      obtain _ | ⟨x, _ | ⟨y, t⟩⟩ := s
      · rw [List.length_nil] at hin
        omega
      · rw [List.length_singleton] at hin
        omega
      · exact hshort x y t rfl
    · cases h with
      | plain hx h => exact hx rfl
      | escape hi lo h => exact hshort hi lo _ rfl
  | case4 ix x s _ hx ih =>
    have hlen : ix + (x :: s).length = ix + 1 + s.length := by
      rw [List.length_cons]
      omega
    rw [List.forall_mem_cons, hlen, ih]
    constructor
    · exact fun h => .plain hx h.2
    · intro h
      refine ⟨by omega, ?_⟩
      cases h with
      | plain _ h => exact h
      | escape hi lo h => exact absurd rfl hx

/-- Reading behind the NUL at the end is the only way to fail. -/
theorem urlDecode_eq_error_iff (ix : ℕ) (s : Bytes) :
    urlDecode s = .error .outOfBounds ↔ ∃ p ∈ urlDecodeReads ix s, ix + s.length < p := by
  fun_induction urlDecodeReads ix s with
  | case1 ix => exact iff_of_false nofun (fun ⟨_, hp, _⟩ => absurd hp List.not_mem_nil)
  | case2 ix hi lo s ih =>
    rw [show urlDecode (0x25#8 :: hi :: lo :: s) = _ from urlDecode_escape hi lo s, length_escape,
      List.exists_mem_cons_iff, List.exists_mem_cons_iff, List.exists_mem_cons_iff, ← ih,
      map_eq_error_iff]
    constructor
    · exact fun h => .inr (.inr (.inr h))
    · rintro (h | h | h | h)
      · omega
      · omega
      · omega
      · exact h
  | case3 ix s hshort =>
    obtain _ | ⟨x, _ | ⟨y, t⟩⟩ := s
    · exact iff_of_true rfl ⟨ix + 2, List.mem_of_getElem? (i := 2) rfl, by simp⟩
    · refine iff_of_false nofun ?_
      simp
    · exact absurd rfl (hshort x y t)
  | case4 ix x s _ hx ih =>
    have hlen : ix + (x :: s).length = ix + 1 + s.length := by
      rw [List.length_cons]
      omega
    rw [urlDecode_cons hx, hlen, List.exists_mem_cons_iff, ← ih, map_eq_error_iff]
    constructor
    · exact .inr
    · rintro (h | h)
      · omega
      · exact h

/-! ## What is read back -/

/-- A digit of the number `n`, uppercase or lowercase. -/
def IsDigitOf (n : ℕ) (x : Byte) : Prop := x = upperHex n ∨ x = lowerHex n

/-- **The text `e` is a percent-encoding of `v`**: each byte as it is, unless it is `%` or `+`, or
as `%` and two digits; a space also as `+`. -/
inductive PercentEncodes : Bytes → Bytes → Prop
  | nil : PercentEncodes [] []
  | literal {x : Byte} {v e : Bytes} (hpercent : x ≠ 0x25) (hplus : x ≠ 0x2b)
      (h : PercentEncodes v e) : PercentEncodes (x :: v) (x :: e)
  | escape {v e : Bytes} {x hi lo : Byte} (hhi : IsDigitOf (x.toNat / 16) hi)
      (hlo : IsDigitOf (x.toNat % 16) lo) (h : PercentEncodes v e) :
      PercentEncodes (x :: v) (0x25 :: hi :: lo :: e)
  | plus {v e : Bytes} (h : PercentEncodes v e) : PercentEncodes (0x20 :: v) (0x2b :: e)

/-- The second digit is no lowercase letter, or the first one stands for a number with the bit `2`,
which is the bit `0x20` of the byte. -/
def LowDigitFits (hi lo : Byte) : Prop := lo.toNat < 0x61 ∨ (fromHex hi).toNat.testBit 1 = true

instance (hi lo : Byte) : Decidable (LowDigitFits hi lo) := inferInstanceAs (Decidable (_ ∨ _))

/-- The second digits of all escapes fit. -/
def LowDigitsFit : Bytes → Prop
  | 0x25 :: hi :: lo :: s => LowDigitFits hi lo ∧ LowDigitsFit s
  | _ :: s => LowDigitsFit s
  | [] => True

/-- One escape of a byte, whichever way its digits are written. -/
theorem unescaped_eq_iff (x : Byte) {hi lo : Byte} (hhi : IsDigitOf (x.toNat / 16) hi)
    (hlo : IsDigitOf (x.toNat % 16) lo) : unescaped hi lo = x ↔ LowDigitFits hi lo := by
  rcases hhi with rfl | rfl
  · rcases hlo with rfl | rfl
    · revert x
      decide +kernel
    · revert x
      decide +kernel
  · rcases hlo with rfl | rfl
    · revert x
      decide +kernel
    · revert x
      decide +kernel

theorem lowDigitsFit_cons {x : Byte} (hx : x ≠ 0x25) (s : Bytes) :
    LowDigitsFit (x :: s) ↔ LowDigitsFit s := by
  rw [LowDigitsFit.eq_def]
  split
  · rename_i heq
    exact absurd (List.cons.inj heq).1 hx
  · rename_i heq
    rw [(List.cons.inj heq).2]
  · rename_i heq
    cases heq

theorem lowDigitsFit_escape (hi lo : Byte) (s : Bytes) :
    LowDigitsFit (0x25 :: hi :: lo :: s) ↔ LowDigitFits hi lo ∧ LowDigitsFit s := Iff.rfl

theorem map_cons_eq_ok_iff (out : Except Fault Bytes) (x y : Byte) (v : Bytes) :
    out.map (y :: ·) = .ok (x :: v) ↔ y = x ∧ out = .ok v := by
  cases out with
  | error e => exact iff_of_false nofun (fun h => nomatch h.2)
  | ok s =>
    change Except.ok (y :: s) = _ ↔ _
    rw [Except.ok.injEq, Except.ok.injEq, List.cons_eq_cons]

/-- **An encoding is read back** when its second digits fit. -/
theorem PercentEncodes.urlDecode_iff {v e : Bytes} (h : PercentEncodes v e) :
    urlDecode e = .ok v ↔ LowDigitsFit e := by
  induction h with
  | nil => exact iff_of_true rfl trivial
  | literal hpercent hplus h ih =>
    rw [urlDecode_cons hpercent, if_neg hplus, map_cons_eq_ok_iff, lowDigitsFit_cons hpercent, ih]
    exact and_iff_right rfl
  | @escape v e x hi lo hhi hlo h ih =>
    rw [urlDecode_escape, map_cons_eq_ok_iff, ih, ← unescaped, unescaped_eq_iff x hhi hlo,
      lowDigitsFit_escape]
  | plus h ih =>
    rw [urlDecode_cons (by decide), if_pos rfl, map_cons_eq_ok_iff, lowDigitsFit_cons (by decide),
      ih]
    exact and_iff_right rfl

/-- **`url_decode`** reads a string from the inside exactly when every `%` it comes upon has two
characters behind it, and reads an encoding back exactly when the second digits fit. -/
theorem url_decode_iff (s v e : Bytes) :
    ((∀ p ∈ urlDecodeReads 0 s, p < s.length) ↔ WholeEscapes s) ∧
      (PercentEncodes v e → (urlDecode e = .ok v ↔ LowDigitsFit e)) := by
  refine ⟨?_, fun h => h.urlDecode_iff⟩
  have h := forall_urlDecodeReads_lt_iff 0 s
  rwa [Nat.zero_add] at h

/-- **An escape that is cut off is read behind the end, and a lowercase digit is misread.** -/
theorem url_decode_fails :
    (∃ p ∈ urlDecodeReads 0 (text "a%4"), (text "a%4").length ≤ p) ∧
      PercentEncodes (text "J") (text "%4a") ∧ urlDecode (text "%4a") ≠ .ok (text "J") :=
  ⟨⟨3, by decide, by decide⟩, .escape (.inl rfl) (.inr rfl) .nil, by decide⟩

end SmartStreaming
