import Mathlib.Data.List.TakeWhile
import Mathlib.Data.Nat.Find
import SmartStreaming.Base.Defs

/-!
# Base/StdString — `std::string` searches and cuts, C strings, `split_string`, `url_decode`

A position is a natural number and `npos` is `none`.  Lengths given to `substr` are differences of
`size_t`, which wrap when they are negative (`sizeDiff`); every position given to it lies in the
string, so that `std::out_of_range` is never thrown.
-/

namespace SmartStreaming

/-! ## Searching -/

/-- The first position from `i` on, where `s` is what is left at position `i`. -/
def findFrom (pattern : Bytes) : Bytes → ℕ → Option ℕ
  | [], i => if pattern = [] then some i else none
  | x :: s, i => if pattern.isPrefixOf (x :: s) then some i else findFrom pattern s (i + 1)

/-- `s.find(pattern, pos)`. -/
def find (s pattern : Bytes) (pos : ℕ) : Option ℕ :=
  if pos ≤ s.length then findFrom pattern (s.drop pos) pos else none

/-- `s.find(pattern) != npos`. -/
def contains (s pattern : Bytes) : Bool := (find s pattern 0).isSome

/-- `s.find_last_of(c)` for a single character. -/
def findLastOf (s : Bytes) (c : Byte) : Option ℕ :=
  (List.range s.length).reverse.find? fun i => s[i]? = some c

/-- Where `findFrom` stops: at the first position where the pattern begins. -/
theorem findFrom_eq_some_iff {pattern s : Bytes} {i j : ℕ} :
    findFrom pattern s i = some j
      ↔ ∃ k, j = i + k ∧ k ≤ s.length ∧ pattern <+: s.drop k
        ∧ ∀ k' < k, ¬ pattern <+: s.drop k' := by
  induction s generalizing i with
  | nil =>
    simp only [findFrom, Option.ite_none_right_eq_some, Option.some.injEq, List.length_nil,
      Nat.le_zero, List.drop_nil, List.prefix_nil]
    constructor
    · rintro ⟨hp, rfl⟩
      exact ⟨0, rfl, rfl, hp, fun k' hk' => absurd hk' (Nat.not_lt_zero k')⟩
    · rintro ⟨k, rfl, rfl, hp, -⟩
      exact ⟨hp, rfl⟩
  | cons x s ih =>
    rw [findFrom]
    split
    · rename_i hpre
      have hpre' := List.isPrefixOf_iff_prefix.1 hpre
      constructor
      · intro h
        obtain rfl := Option.some.inj h
        exact ⟨0, rfl, Nat.zero_le _, hpre', fun k' hk' => absurd hk' (Nat.not_lt_zero k')⟩
      · rintro ⟨k, rfl, -, -, hfirst⟩
        rcases Nat.eq_zero_or_pos k with rfl | hk
        · rfl
        · exact absurd hpre' (hfirst 0 hk)
    · rename_i hpre
      have hpre' : ¬ pattern <+: x :: s := mt List.isPrefixOf_iff_prefix.2 hpre
      rw [ih]
      constructor
      · rintro ⟨k, rfl, hk, hp, hfirst⟩
        refine ⟨k + 1, by omega, by rw [List.length_cons]; omega, hp, fun k' hk' => ?_⟩
        cases k' with
        | zero => exact hpre'
        | succ k' => exact hfirst k' (by omega)
      · rintro ⟨k, rfl, hk, hp, hfirst⟩
        cases k with
        | zero => exact absurd hp hpre'
        | succ k =>
          refine ⟨k, by omega, by rw [List.length_cons] at hk; omega, hp, fun k' hk' => ?_⟩
          exact hfirst (k' + 1) (by omega)

/-- **`find` returns the first position from `pos` on where the pattern begins.** -/
theorem find_eq_some_iff {s pattern : Bytes} {pos j : ℕ} :
    find s pattern pos = some j
      ↔ pos ≤ j ∧ j ≤ s.length ∧ pattern <+: s.drop j
        ∧ ∀ k, pos ≤ k → k < j → ¬ pattern <+: s.drop k := by
  rw [find]
  split
  · rename_i hpos
    rw [findFrom_eq_some_iff]
    constructor
    · rintro ⟨k, rfl, hk, hp, hfirst⟩
      rw [List.length_drop] at hk
      rw [List.drop_drop] at hp
      refine ⟨by omega, by omega, hp, fun k' h₁ h₂ => ?_⟩
      have hno := hfirst (k' - pos) (by omega)
      rwa [List.drop_drop, Nat.add_sub_cancel' h₁] at hno
    · rintro ⟨h₁, h₂, hp, hfirst⟩
      refine ⟨j - pos, by omega, by rw [List.length_drop]; omega, ?_, fun k' hk' => ?_⟩
      · rwa [List.drop_drop, Nat.add_sub_cancel' h₁]
      · rw [List.drop_drop]
        exact hfirst _ (by omega) (by omega)
  · rename_i hpos
    constructor
    · intro h
      cases h
    · rintro ⟨h₁, h₂, -, -⟩
      omega

/-- What is found lies in the string. -/
theorem find_add_length_le {s pattern : Bytes} {pos j : ℕ} (h : find s pattern pos = some j) :
    j + pattern.length ≤ s.length := by
  obtain ⟨-, hj, hp, -⟩ := find_eq_some_iff.1 h
  have hle := hp.length_le
  rw [List.length_drop] at hle
  omega

/-- **What is found first stays first** when more bytes follow. -/
theorem find_append {s pattern : Bytes} {pos j : ℕ} (h : find s pattern pos = some j) (x : Bytes) :
    find (s ++ x) pattern pos = some j := by
  have hfits := find_add_length_le h
  obtain ⟨h₁, h₂, hp, hfirst⟩ := find_eq_some_iff.1 h
  refine find_eq_some_iff.2 ⟨h₁, by rw [List.length_append]; omega, ?_, fun k hk hkj hpre => ?_⟩
  · rw [List.drop_append_of_le_length h₂]
    exact hp.trans (List.prefix_append _ _)
  · rw [List.drop_append_of_le_length (by omega)] at hpre
    refine hfirst k hk hkj (List.prefix_of_prefix_length_le hpre (List.prefix_append _ _) ?_)
    rw [List.length_drop]
    omega

/-- Where a pattern begins, it is found, or found earlier. -/
theorem exists_find {s pattern : Bytes} {pos i : ℕ} (h₁ : pos ≤ i) (h₂ : i ≤ s.length)
    (hp : pattern <+: s.drop i) : ∃ j ≤ i, find s pattern pos = some j := by
  classical
  have hex : ∃ j, pos ≤ j ∧ pattern <+: s.drop j := ⟨i, h₁, hp⟩
  have hle := Nat.find_min' hex ⟨h₁, hp⟩
  refine ⟨Nat.find hex, hle, find_eq_some_iff.2 ⟨(Nat.find_spec hex).1, hle.trans h₂,
    (Nat.find_spec hex).2, fun k hk hlt hpre => Nat.find_min hex hlt ⟨hk, hpre⟩⟩⟩

/-- What is found only with the bytes that follow is not found without them. -/
theorem find_eq_none_of_append {s x pattern : Bytes} {pos j : ℕ}
    (h : find (s ++ x) pattern pos = some j) (hlong : s.length < j + pattern.length) :
    find s pattern pos = none := by
  rcases hfind : find s pattern pos with _ | i
  · rfl
  · have hfits := find_add_length_le hfind
    obtain rfl := Option.some.inj ((find_append hfind x).symm.trans h)
    omega

/-! ## Cutting -/

/-- `a - b` of two `size_t`. -/
def sizeDiff (a b : ℕ) : ℕ := (a + 2 ^ 64 - b) % 2 ^ 64

/-- `s.substr(pos, n)` for `pos <= s.size()`. -/
def substr (s : Bytes) (pos n : ℕ) : Bytes := (s.drop pos).take n

/-- `std::string(const char*)`: up to the first NUL. -/
def cString (mem : Bytes) : Bytes := mem.takeWhile (· ≠ 0)

/-- What lies behind a NUL is not part of a C string. -/
theorem cString_append_nul (s mem : Bytes) : cString (s ++ 0 :: mem) = cString s := by
  induction s with
  | nil => rfl
  | cons x s ih =>
    rw [cString, cString, List.cons_append, List.takeWhile_cons, List.takeWhile_cons]
    split
    · exact congrArg _ ih
    · rfl

/-- What a C string begins with. -/
theorem cString_append {p : Bytes} (hp : 0 ∉ p) (s : Bytes) : cString (p ++ s) = p ++ cString s :=
  List.takeWhile_append_of_pos fun _ hx => decide_eq_true (ne_of_mem_of_not_mem hx hp)

/-- Text without a NUL is a C string. -/
theorem cString_eq_self {s : Bytes} (hs : 0 ∉ s) : cString s = s :=
  List.takeWhile_eq_self_iff.2 fun _ hx => decide_eq_true (ne_of_mem_of_not_mem hx hs)

theorem cString_take (s : Bytes) (n : ℕ) : cString (s.take n) = (cString s).take n := by
  induction s generalizing n with
  | nil => rw [List.take_nil, show cString [] = [] from rfl, List.take_nil]
  | cons x s ih =>
    cases n with
    | zero => rw [List.take_zero, List.take_zero]; rfl
    | succ n =>
      rw [List.take_succ_cons, cString, cString, List.takeWhile_cons, List.takeWhile_cons]
      split
      · rw [List.take_succ_cons]
        exact congrArg _ (ih n)
      · rw [List.take_nil]

/-- What fills the text up with zeros is not seen. -/
theorem cString_append_zeros (s : Bytes) {n : ℕ} (h : n ≠ 0) :
    cString (s ++ List.replicate n 0) = cString s := by
  obtain ⟨n, rfl⟩ := Nat.exists_eq_succ_of_ne_zero h
  rw [List.replicate_succ, cString_append_nul]

theorem mem_head?_of_cString {s : Bytes} {x : Byte} (h : x ∈ (cString s).head?) : x ∈ s.head? := by
  cases s with
  | nil => exact h
  | cons y s =>
    rw [cString, List.takeWhile_cons] at h
    split at h
    · exact h
    · cases h

/-- The digits of a text end where it goes on with another letter. -/
theorem takeWhile_append_stop {p : Byte → Bool} {a s : Bytes} (ha : ∀ x ∈ a, p x = true)
    (hs : ∀ x ∈ s.head?, p x = false) : (a ++ s).takeWhile p = a := by
  have hend : s.takeWhile p = [] := by
    cases s with
    | nil => rfl
    | cons x s => exact List.takeWhile_cons_of_neg (by rw [hs x rfl]; exact Bool.false_ne_true)
  rw [List.takeWhile_append_of_pos ha, hend, List.append_nil]

/-- The loop of `split_string` for a separator of one character. -/
def splitAt (sep : Byte) : Bytes → Bytes → List Bytes
  | tempData, [] => [tempData]
  | tempData, x :: s =>
    if x = sep then tempData :: splitAt sep [] s else splitAt sep (tempData ++ [x]) s

/-- `split_string(s, sep)`: nothing for an empty string. -/
def splitString (s : Bytes) (sep : Byte) : List Bytes := if s = [] then [] else splitAt sep [] s

/-! ## Numbers -/

/-- `isdigit`. -/
def isDigit (x : Byte) : Bool := 0x30 ≤ x ∧ x ≤ 0x39

/-- `isspace` in the C locale. -/
def isSpace (x : Byte) : Bool := x = 0x20 ∨ (0x09 ≤ x ∧ x ≤ 0x0d)

/-- The decimal digits at the beginning of a string. -/
def digitsValue (s : Bytes) : ℕ :=
  (s.takeWhile isDigit).foldl (fun n x => 10 * n + (x.toNat - 0x30)) 0

/-- `strtol(s, NULL, 10)`: white space, a sign, digits; the value saturates. -/
def strtol (s : Bytes) : ℤ :=
  match s.dropWhile isSpace with
  | 0x2d :: s => max (-(digitsValue s)) (-2 ^ 63)
  | 0x2b :: s => min (digitsValue s) (2 ^ 63 - 1)
  | s => min (digitsValue s) (2 ^ 63 - 1)

/-- `atoi(s)`, as `unsigned int`. -/
def atoi (s : Bytes) : BitVec 32 := BitVec.ofInt 32 (strtol (cString s))

/-! ## Printing -/

/-- The decimal digits of a number. -/
def decimal (n : ℕ) : Bytes := (Nat.toDigits 10 n).map fun c => BitVec.ofNat 8 c.toNat

/-- `to_string(n)`. -/
def toStringInt : ℤ → Bytes
  | .ofNat n => decimal n
  | .negSucc n => 0x2d :: decimal (n + 1)

/-- `GetStrFromUInt32(value)`. -/
def getStrFromUInt32 (value : BitVec 32) : Bytes := decimal value.toNat

example : toStringInt (-120) = text "-120" := by decide

theorem toNat_ofDigit {c : Char} (h : c.isDigit = true) :
    (BitVec.ofNat 8 c.toNat).toNat = c.toNat ∧ isDigit (BitVec.ofNat 8 c.toNat) = true := by
  obtain ⟨h₁, h₂⟩ : 0x30 ≤ c.toNat ∧ c.toNat ≤ 0x39 := Char.isDigit_iff_toNat.1 h
  have hnat : (BitVec.ofNat 8 c.toNat).toNat = c.toNat := by
    rw [BitVec.toNat_ofNat, Nat.mod_eq_of_lt (by omega)]
  refine ⟨hnat, ?_⟩
  rw [isDigit, decide_eq_true_iff, BitVec.le_def, BitVec.le_def, hnat]
  exact ⟨h₁, h₂⟩

theorem foldl_digits {cs : List Char} (h : ∀ c ∈ cs, c.isDigit = true) (n : ℕ) :
    (cs.map fun c => BitVec.ofNat 8 c.toNat).foldl (fun n (x : Byte) => 10 * n + (x.toNat - 0x30)) n
      = Nat.ofDigitChars 10 cs n := by
  induction cs generalizing n with
  | nil => rfl
  | cons c cs ih =>
    rw [List.map_cons, List.foldl_cons, Nat.ofDigitChars_cons,
      ih fun c hc => h c (List.mem_cons_of_mem _ hc), (toNat_ofDigit (h c List.mem_cons_self)).1]
    rfl

theorem isDigit_of_mem_decimal {n : ℕ} {x : Byte} (h : x ∈ decimal n) : isDigit x = true := by
  obtain ⟨c, hc, rfl⟩ := List.mem_map.1 h
  exact (toNat_ofDigit (Nat.isDigit_of_mem_toDigits (by decide) (by decide) hc)).2

/-- **What is printed is read back.** -/
theorem digitsValue_decimal (n : ℕ) : digitsValue (decimal n) = n := by
  have hall : (decimal n).takeWhile isDigit = decimal n :=
    List.takeWhile_eq_self_iff.2 fun x hx => isDigit_of_mem_decimal hx
  rw [digitsValue, hall, decimal,
    foldl_digits fun c hc => Nat.isDigit_of_mem_toDigits (by decide) (by decide) hc,
    Nat.ofDigitChars_toDigits (by decide) (by decide)]

theorem decimal_ne_nil (n : ℕ) : decimal n ≠ [] := by
  intro h
  have hnil : Nat.toDigits 10 n = [] := List.map_eq_nil_iff.1 h
  exact Nat.toDigits_ne_nil hnil

/-- **A number behind a blank is read to its last digit.** -/
theorem strtol_decimal (n : ℕ) {s : Bytes} (hs : ∀ x ∈ s.head?, isDigit x = false) :
    strtol (0x20 :: (decimal n ++ s)) = min (n : ℤ) (2 ^ 63 - 1) := by
  have hvalue : digitsValue (decimal n ++ s) = n := by
    have hall : ∀ x ∈ decimal n, isDigit x = true := fun x => isDigit_of_mem_decimal
    have hself := digitsValue_decimal n
    rw [digitsValue, List.takeWhile_eq_self_iff.2 hall] at hself
    rw [digitsValue, takeWhile_append_stop hall hs, hself]
  obtain ⟨d, ds, hd⟩ := List.exists_cons_of_ne_nil (decimal_ne_nil n)
  have hdigit : isDigit d = true := isDigit_of_mem_decimal (hd ▸ List.mem_cons_self)
  have hspace : ¬ isSpace d = true := by
    rw [isSpace, decide_eq_true_eq, BitVec.le_def, BitVec.le_def]
    rw [isDigit, decide_eq_true_eq, BitVec.le_def, BitVec.le_def] at hdigit
    rintro (rfl | ⟨-, hle⟩)
    · exact absurd hdigit.1 (by decide)
    · exact absurd (hdigit.1.trans hle) (by decide)
  rw [hd] at hvalue
  rw [strtol, List.dropWhile_cons_of_pos (by decide), hd, List.cons_append,
    List.dropWhile_cons_of_neg hspace, ← hvalue]
  split
  · rename_i heq
    rw [(List.cons.inj heq).1] at hdigit
    cases hdigit
  · rename_i heq
    rw [(List.cons.inj heq).1] at hdigit
    cases hdigit
  · rfl

theorem nul_notMem_decimal (n : ℕ) : 0 ∉ decimal n := fun h => by
  have hdigit := isDigit_of_mem_decimal h
  cases hdigit

/-- **A length that is printed behind a blank is read back.** -/
theorem atoi_getStrFromUInt32 (value : BitVec 32) {s : Bytes}
    (hs : ∀ x ∈ s.head?, isDigit x = false) :
    atoi (0x20 :: (getStrFromUInt32 value ++ s)) = value := by
  have hp : 0 ∉ 0x20 :: decimal value.toNat := by
    rw [List.mem_cons, not_or]
    exact ⟨by decide, nul_notMem_decimal _⟩
  have hcut : cString (0x20 :: (decimal value.toNat ++ s))
      = 0x20 :: (decimal value.toNat ++ cString s) := cString_append hp s
  have hs' : ∀ x ∈ (cString s).head?, isDigit x = false := fun x hx =>
    hs x (mem_head?_of_cString hx)
  have hlt := value.isLt
  rw [getStrFromUInt32, atoi, hcut, strtol_decimal _ hs', min_eq_left (by omega),
    BitVec.ofInt_natCast, BitVec.ofNat_toNat, BitVec.setWidth_eq]

theorem toStringInt_injective : Function.Injective toStringInt := by
  have hminus : ∀ m n : ℕ, decimal m ≠ 0x2d :: decimal n := by
    intro m n h
    have hdigit : isDigit 0x2d = true :=
      isDigit_of_mem_decimal (n := m) (h ▸ List.mem_cons_self)
    cases hdigit
  intro a b h
  cases a with
  | ofNat m =>
    cases b with
    | ofNat n =>
      have hvalue := congrArg digitsValue h
      rw [toStringInt, toStringInt, digitsValue_decimal, digitsValue_decimal] at hvalue
      rw [hvalue]
    | negSucc n => exact absurd h (hminus _ _)
  | negSucc m =>
    cases b with
    | ofNat n => exact absurd h.symm (hminus _ _)
    | negSucc n =>
      have hvalue := congrArg digitsValue (List.cons.inj h).2
      rw [digitsValue_decimal, digitsValue_decimal] at hvalue
      rw [Nat.succ_injective hvalue]

/-! ## `url_decode` -/

def fromHex (x : Byte) : Byte := if isDigit x then x - 0x30 else x - 0x41 + 10

/-- `url_decode(s)`: after a `%` two characters are read; the terminating NUL can be one of them,
what lies behind it can not. -/
def urlDecode : Bytes → Except Fault Bytes
  | [] => .ok []
  | 0x25 :: x :: y :: s => do
    let out ← urlDecode s
    return ((fromHex x <<< 4) ||| fromHex y) :: out
  | [0x25, x] => .ok [(fromHex x <<< 4) ||| fromHex 0]
  | [0x25] => .error .outOfBounds
  | x :: s => do
    let out ← urlDecode s
    return (if x = 0x2b then 0x20 else x) :: out

example : urlDecode (text "a%20b+c") = .ok (text "a b c") := by decide

end SmartStreaming
