import Mathlib.Data.List.Infix
import Mathlib.Data.List.TakeDrop

/-!
# Machinery/Occurs — where a pattern begins in a text

The text is put together of parts.  A letter that the pattern lacks separates the parts
(`OccursAt.separated`); a pattern whose first or last letter is missing in a part does not begin
there.  `countLeftmost` counts the occurrences from the left that do not overlap.
-/

namespace Machinery

universe u

variable {α : Type u} {p q s a b : List α} {x : α} {i : ℕ}

/-- The pattern begins at position `i` of the text. -/
def OccursAt (p s : List α) (i : ℕ) : Prop := p <+: s.drop i

/-- The letters of an occurrence are those of the pattern. -/
theorem OccursAt.getElem? (h : OccursAt p s i) {k : ℕ} (hk : k < p.length) :
    s[i + k]? = p[k]? := by
  obtain ⟨t, ht⟩ := h
  rw [← List.getElem?_drop, ← ht, List.getElem?_append_left hk]

/-- An occurrence that ends in the first part. -/
theorem OccursAt.of_append_left (h : OccursAt p (a ++ b) i) (hle : i + p.length ≤ a.length) :
    OccursAt p a i := by
  rw [OccursAt, List.drop_append_of_le_length (by omega)] at h
  refine List.prefix_of_prefix_length_le h (List.prefix_append _ _) ?_
  rw [List.length_drop]
  omega

/-- A letter that the pattern lacks lies behind an occurrence or before it. -/
theorem OccursAt.separated (h : OccursAt p (a ++ x :: b) i) (hx : x ∉ p) :
    i + p.length ≤ a.length ∨ a.length < i := by
  by_contra hno
  obtain ⟨h₁, h₂⟩ := not_or.1 hno
  have hk : a.length - i < p.length := by omega
  have hletter := h.getElem? hk
  rw [show i + (a.length - i) = a.length by omega, List.getElem?_append_right (le_refl _),
    Nat.sub_self, List.getElem?_cons_zero] at hletter
  exact hx (List.mem_of_getElem? hletter.symm)

/-- A pattern does not begin in a part without its first letter. -/
theorem not_occursAt_of_head (hx : x ∉ a) (hi : i < a.length) : ¬ OccursAt (x :: q) (a ++ b) i := by
  intro h
  have hletter := h.getElem? (k := 0) (Nat.succ_pos _)
  rw [Nat.add_zero, List.getElem?_append_left hi, List.getElem?_cons_zero] at hletter
  exact hx (List.mem_of_getElem? hletter)

/-- An occurrence whose last letter, of which the pattern has one only, is not before `x` begins
behind `x`, or ends with it. -/
theorem OccursAt.suffix_or_lt (h : OccursAt (q ++ [x]) (a ++ x :: b) i) (hq : x ∉ q) (ha : x ∉ a) :
    (i + q.length = a.length ∧ q <:+ a) ∨ a.length < i := by
  by_cases hlt : a.length < i
  · exact Or.inr hlt
  have hend := h.getElem? (k := q.length)
    (by rw [List.length_append, List.length_singleton]; omega)
  rw [List.getElem?_append_right (le_refl _), Nat.sub_self, List.getElem?_cons_zero] at hend
  have hge : a.length ≤ i + q.length := by
    by_contra hshort
    rw [List.getElem?_append_left (by omega)] at hend
    exact ha (List.mem_of_getElem? hend)
  have hq' : OccursAt q (a ++ x :: b) i := List.IsPrefix.trans (List.prefix_append _ _) h
  have heq : i + q.length = a.length := by
    rcases hq'.separated hq with hle | hlt'
    · omega
    · exact absurd hlt' hlt
  obtain ⟨t, ht⟩ := hq'.of_append_left (by omega)
  have hnil : t = [] := by
    have hlen := congrArg List.length ht
    rw [List.length_append, List.length_drop] at hlen
    exact List.length_eq_zero_iff.1 (by omega)
  rw [hnil, List.append_nil] at ht
  exact Or.inl ⟨heq, ht ▸ List.drop_suffix i a⟩

/-! ## Occurrences from the left -/

section Leftmost

variable [DecidableEq α]

/-- How often the pattern occurs in the text, taken from the left, none beginning inside the one
before it; the next `skip` letters belong to that one. -/
def countLeftmost (p : List α) : ℕ → List α → ℕ
  | _, [] => 0
  | skip + 1, _ :: s => countLeftmost p skip s
  | 0, x :: s =>
    if p <+: x :: s then countLeftmost p (p.length - 1) s + 1 else countLeftmost p 0 s

theorem countLeftmost_skip (p : List α) (skip : ℕ) (s : List α) :
    countLeftmost p skip s = countLeftmost p 0 (s.drop skip) := by
  induction s generalizing skip with
  | nil => rw [List.drop_nil, countLeftmost, countLeftmost]
  | cons x s ih =>
    cases skip with
    | zero => rfl
    | succ skip => rw [countLeftmost, ih, List.drop_succ_cons]

/-- Positions where the pattern does not begin can be skipped. -/
theorem countLeftmost_drop {n : ℕ} (h : ∀ k < n, ¬ OccursAt p s k) :
    countLeftmost p 0 s = countLeftmost p 0 (s.drop n) := by
  induction n generalizing s with
  | zero => rfl
  | succ n ih =>
    cases s with
    | nil => rw [List.drop_nil]
    | cons x s =>
      have hhere : ¬ p <+: x :: s := h 0 (Nat.succ_pos n)
      have hrest : ∀ k < n, ¬ OccursAt p s k := fun k hk => h (k + 1) (Nat.succ_lt_succ hk)
      rw [countLeftmost, if_neg hhere, ih hrest, List.drop_succ_cons]

/-- **The first occurrence counts**, and then those behind it. -/
theorem countLeftmost_of_first (hp : p ≠ []) {n : ℕ} (h : OccursAt p s n)
    (hfirst : ∀ k < n, ¬ OccursAt p s k) :
    countLeftmost p 0 s = countLeftmost p 0 (s.drop (n + p.length)) + 1 := by
  rw [countLeftmost_drop hfirst, ← List.drop_drop]
  rcases hs : s.drop n with _ | ⟨x, t⟩
  · rw [OccursAt, hs, List.prefix_nil] at h
    exact absurd h hp
  · rw [OccursAt, hs] at h
    have hlen : p.length = p.length - 1 + 1 := by
      have := List.length_pos_iff.2 hp
      omega
    rw [countLeftmost, if_pos h, countLeftmost_skip, hlen, List.drop_succ_cons,
      Nat.add_sub_cancel]

end Leftmost

end Machinery
