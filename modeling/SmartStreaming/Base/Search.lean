import SmartStreaming.Base.StdString
import SmartStreaming.Machinery.Occurs

/-!
# Base/Search — `std::string` searches in a text that is put together of parts

`find` goes part by part: past a part that the pattern cannot begin in, up to a letter that it
lacks, or up to a letter that it ends with.
-/

namespace SmartStreaming

open Machinery

variable {s a b p q : Bytes} {x : Byte} {pos i j : ℕ}

/-! ## One search -/

theorem occursAt_of_find (h : find s p pos = some j) : OccursAt p s j :=
  (find_eq_some_iff.1 h).2.2.1

theorem find_eq_none_iff :
    find s p pos = none ↔ ∀ j, pos ≤ j → j ≤ s.length → ¬ OccursAt p s j := by
  constructor
  · intro h j h₁ h₂ hp
    obtain ⟨k, -, hk⟩ := exists_find h₁ h₂ hp
    rw [h] at hk
    cases hk
  · intro h
    rcases hfind : find s p pos with _ | j
    · rfl
    · obtain ⟨h₁, h₂, hp, -⟩ := find_eq_some_iff.1 hfind
      exact absurd hp (h j h₁ h₂)

theorem contains_iff : contains s p = true ↔ ∃ j ≤ s.length, OccursAt p s j := by
  rw [contains, Option.isSome_iff_exists]
  constructor
  · rintro ⟨j, hj⟩
    exact ⟨j, (find_eq_some_iff.1 hj).2.1, occursAt_of_find hj⟩
  · rintro ⟨j, hle, hj⟩
    obtain ⟨k, -, hk⟩ := exists_find (Nat.zero_le _) hle hj
    exact ⟨k, hk⟩

theorem contains_eq_false_iff : contains s p = false ↔ find s p 0 = none := by
  rw [contains, Option.isSome_eq_false_iff, Option.isNone_iff_eq_none]

/-- **Positions where the pattern does not begin can be skipped.** -/
theorem find_skip (h₁ : pos ≤ i)
    (h : ∀ k, pos ≤ k → k < i → ¬ OccursAt p s k) : find s p pos = find s p i := by
  rcases hfind : find s p i with _ | j
  · rw [find_eq_none_iff] at hfind ⊢
    intro j hj hle
    rcases Nat.lt_or_ge j i with hlt | hge
    · exact h j hj hlt
    · exact hfind j hge hle
  · obtain ⟨hij, hle, hp, hfirst⟩ := find_eq_some_iff.1 hfind
    refine find_eq_some_iff.2 ⟨by omega, hle, hp, fun k hk hkj => ?_⟩
    rcases Nat.lt_or_ge k i with hlt | hge
    · exact h k hk hlt
    · exact hfirst k hge hkj

theorem findFrom_add (p : Bytes) (s : Bytes) (n i : ℕ) :
    findFrom p s (n + i) = (findFrom p s i).map (n + ·) := by
  induction s generalizing i with
  | nil =>
    rw [findFrom, findFrom]
    split <;> rfl
  | cons x s ih =>
    rw [findFrom, findFrom]
    split
    · rfl
    · exact ih (i + 1)

/-- A search that begins in the second part. -/
theorem find_append_right (a b p : Bytes) (i : ℕ) :
    find (a ++ b) p (a.length + i) = (find b p i).map (a.length + ·) := by
  rw [find, find, List.length_append]
  split
  · rw [if_pos (by omega), ← List.drop_drop, List.drop_left, findFrom_add]
  · rw [if_neg (by omega)]
    rfl

/-! ## Parts -/

/-- **Past a part without the first letter of the pattern.** -/
theorem find_of_head (hx : x ∉ a) (b q : Bytes) :
    find (a ++ b) (x :: q) 0 = (find b (x :: q) 0).map (a.length + ·) := by
  rw [find_skip (Nat.zero_le a.length) fun k _ hk => not_occursAt_of_head hx hk]
  exact find_append_right a b (x :: q) 0

/-- **Up to a letter that the pattern lacks, and then behind it.** -/
theorem find_separator (hx : x ∉ p) (a b : Bytes) :
    find (a ++ x :: b) p 0
      = (find a p 0).or ((find b p 0).map (a.length + 1 + ·)) := by
  rcases hfind : find a p 0 with _ | j
  · have hlen : (a ++ [x]).length = a.length + 1 := List.length_append
    have hskip : ∀ k, 0 ≤ k → k < a.length + 1 → ¬ OccursAt p (a ++ x :: b) k := by
      intro k _ hk h
      rcases h.separated hx with hle | hlt
      · exact find_eq_none_iff.1 hfind k (Nat.zero_le k) (by omega) (h.of_append_left hle)
      · omega
    rw [find_skip (Nat.zero_le _) hskip, Option.none_or, ← List.singleton_append,
      ← List.append_assoc, ← hlen]
    exact find_append_right (a ++ [x]) b p 0
  · rw [find_append hfind, Option.some_or]

/-- **Up to the letter that the pattern ends with.** -/
theorem find_until (hq : x ∉ q) (ha : x ∉ a) (b : Bytes) :
    find (a ++ x :: b) (q ++ [x]) 0
      = if q <:+ a then some (a.length - q.length)
        else (find b (q ++ [x]) 0).map (a.length + 1 + ·) := by
  split
  · rename_i hsuffix
    obtain ⟨t, rfl⟩ := hsuffix
    have hlen : (t ++ q).length - q.length = t.length := by
      rw [List.length_append]
      omega
    refine find_eq_some_iff.2 ⟨Nat.zero_le _, ?_, ?_, fun k _ hk h => ?_⟩
    · rw [hlen, List.length_append, List.length_append]
      omega
    · rw [hlen, List.append_assoc, List.drop_left]
      exact ⟨b, by rw [List.append_assoc, List.singleton_append]⟩
    · rcases OccursAt.suffix_or_lt h hq ha with ⟨heq, -⟩ | hlt
      · rw [List.length_append] at heq
        omega
      · rw [List.length_append] at hlt
        omega
  · rename_i hsuffix
    have hlen : (a ++ [x]).length = a.length + 1 := List.length_append
    have hskip : ∀ k, 0 ≤ k → k < a.length + 1 → ¬ OccursAt (q ++ [x]) (a ++ x :: b) k := by
      intro k _ hk h
      rcases h.suffix_or_lt hq ha with ⟨-, hs⟩ | hlt
      · exact hsuffix hs
      · omega
    rw [find_skip (Nat.zero_le _) hskip, ← List.singleton_append, ← List.append_assoc, ← hlen]
    exact find_append_right (a ++ [x]) b (q ++ [x]) 0

/-- Letter by letter. -/
theorem find_cons (x : Byte) (s p : Bytes) :
    find (x :: s) p 0 = if p <+: x :: s then some 0 else (find s p 0).map (1 + ·) := by
  have hrest : find s p 0 = findFrom p s 0 := by rw [find, if_pos (Nat.zero_le _), List.drop_zero]
  rw [hrest, find, if_pos (Nat.zero_le _), List.drop_zero, findFrom, ← findFrom_add]
  split <;> rename_i h
  · rw [if_pos (List.isPrefixOf_iff_prefix.1 h)]
  · rw [if_neg (mt List.isPrefixOf_iff_prefix.2 h)]

theorem find_of_prefix (h : p <+: s) : find s p 0 = some 0 :=
  find_eq_some_iff.2 ⟨Nat.zero_le _, Nat.zero_le _, h, fun _ _ hk => absurd hk (Nat.not_lt_zero _)⟩

/-! ## Single letters -/

theorem find_letter (hx : x ∉ a) (b : Bytes) : find (a ++ x :: b) [x] 0 = some a.length := by
  have hhere : find (x :: b) [x] 0 = some 0 := find_of_prefix ⟨b, rfl⟩
  rw [find_of_head hx, hhere]
  rfl

theorem find_letter_eq_none (hx : x ∉ s) : find s [x] 0 = none := by
  have h := find_of_head hx [] []
  rw [List.append_nil] at h
  rw [h]
  rfl

/-! ## The last letter -/

/-- A text up to the last occurrence of a letter. -/
theorem exists_last (hx : x ∈ s) : ∃ a b, s = a ++ x :: b ∧ x ∉ b := by
  obtain ⟨b, a, h, hb⟩ := List.eq_append_cons_of_mem (List.mem_reverse.2 hx)
  refine ⟨a.reverse, b.reverse, ?_, fun hmem => hb (List.mem_reverse.1 hmem)⟩
  rw [← List.reverse_reverse s, h, List.reverse_append, List.reverse_cons, List.append_assoc,
    List.singleton_append]

/-- **The last occurrence of a letter.** -/
theorem findLastOf_append (hx : x ∉ b) (a : Bytes) :
    findLastOf (a ++ x :: b) x = some a.length := by
  have hlen : (a ++ x :: b).length = a.length + 1 + b.length := by
    rw [List.length_append, List.length_cons]
    omega
  have hlast : ∀ i ∈ ((List.range b.length).map (a.length + 1 + ·)).reverse,
      ¬ decide ((a ++ x :: b)[i]? = some x) = true := by
    intro i hi h
    obtain ⟨k, -, rfl⟩ := List.mem_map.1 (List.mem_reverse.1 hi)
    have hletter := of_decide_eq_true h
    rw [List.getElem?_append_right (by omega), show a.length + 1 + k - a.length = k + 1 by omega,
      List.getElem?_cons_succ] at hletter
    exact hx (List.mem_of_getElem? hletter)
  have hhere : decide ((a ++ x :: b)[a.length]? = some x) = true :=
    decide_eq_true (by rw [List.getElem?_append_right (le_refl _), Nat.sub_self,
      List.getElem?_cons_zero])
  rw [findLastOf, hlen, List.range_add, List.range_succ, List.reverse_append, List.find?_append,
    List.find?_eq_none.2 hlast, Option.none_or, List.reverse_append, List.reverse_singleton,
    List.singleton_append]
  exact List.find?_cons_of_pos hhere

/-! ## Cutting -/

theorem substr_append (a b c : Bytes) : substr (a ++ (b ++ c)) a.length b.length = b := by
  rw [substr, List.drop_left, List.take_left]

theorem sizeDiff_of_le {m n : ℕ} (h : n ≤ m) (hlt : m - n < 2 ^ 64) : sizeDiff m n = m - n := by
  rw [sizeDiff, show m + 2 ^ 64 - n = m - n + 2 ^ 64 by omega, Nat.add_mod_right,
    Nat.mod_eq_of_lt hlt]

end SmartStreaming
