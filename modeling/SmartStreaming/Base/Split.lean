import SmartStreaming.Base.Search

/-!
# Base/Split — `split_string` of `util.cpp`, for any separator

The loop looks for the separator from `oldPos` on and has no bound of its own.  With a separator
that is not empty every round but the last passes over an occurrence, so that the loop ends, and
the pieces are those between the leftmost occurrences (`splitStringInto_pieces`).  An empty
separator is found again and again (`splitLoop_nil`).
-/

namespace SmartStreaming

open Machinery

/-- `while (1)` of `split_string`, if it ends within the given number of rounds. -/
def splitLoop (srcStr splitStr : Bytes) : ℕ → ℕ → List Bytes → Option (ℤ × List Bytes)
  | 0, _, _ => none
  | rounds + 1, oldPos, destVec =>
    match find srcStr splitStr oldPos with
    | some newPos =>
      splitLoop srcStr splitStr rounds (newPos + splitStr.length)
        (destVec ++ [substr srcStr oldPos (newPos - oldPos)])
    | none =>
      if oldPos ≤ srcStr.length then some (0, destVec ++ [srcStr.drop oldPos])
      else some (0, destVec)

/-- `split_string(srcStr, splitStr, destVec)`. -/
def splitStringInto (rounds : ℕ) (srcStr splitStr : Bytes) (destVec : List Bytes) :
    Option (ℤ × List Bytes) :=
  if srcStr.length = 0 then some (0, destVec) else splitLoop srcStr splitStr rounds 0 destVec

section Pieces

variable {s d : Bytes} {pos n : ℕ}

/-- What lies before the first occurrence does not contain the separator. -/
theorem not_infix_of_first {t : Bytes} (hd : d ≠ []) (hn : n ≤ t.length)
    (hfirst : ∀ k < n, ¬ OccursAt d t k) : ¬ d <:+: t.take n := by
  rintro ⟨a, b, hab⟩
  have hlen := congrArg List.length hab
  rw [List.length_append, List.length_append, List.length_take, min_eq_left hn] at hlen
  have hpos := List.length_pos_iff.2 hd
  refine hfirst a.length (by omega) ⟨b ++ t.drop n, ?_⟩
  have ht : t = a ++ (d ++ (b ++ t.drop n)) := by
    rw [← List.append_assoc, ← List.append_assoc, hab, List.take_append_drop]
  have hdrop := congrArg (List.drop a.length) ht
  rw [List.drop_left] at hdrop
  exact hdrop.symm

/-- **The pieces of what is left at `oldPos`.**  The induction is on the length of that; every round
but the last passes over a separator. -/
theorem splitLoop_pieces (hd : d ≠ []) (hpos : pos ≤ s.length) :
    ∃ pieces, (∀ rounds, s.length - pos < rounds → ∀ destVec,
        splitLoop s d rounds pos destVec = some (0, destVec ++ pieces))
      ∧ pieces ≠ [] ∧ d.intercalate pieces = s.drop pos ∧ (∀ piece ∈ pieces, ¬ d <:+: piece)
      ∧ pieces.length = countLeftmost d 0 (s.drop pos) + 1 := by
  have hlen := List.length_pos_iff.2 hd
  induction hn : s.length - pos using Nat.strong_induction_on generalizing pos with
  | _ n ih =>
    rcases hfind : find s d pos with _ | newPos
    · have hnone : ∀ k < (s.drop pos).length, ¬ OccursAt d (s.drop pos) k := by
        intro k hk h
        rw [List.length_drop] at hk
        rw [OccursAt, List.drop_drop] at h
        exact find_eq_none_iff.1 hfind (pos + k) (by omega) (by omega) h
      refine ⟨[s.drop pos], fun rounds hrounds destVec => ?_, List.cons_ne_nil _ _,
        List.intercalate_singleton, fun piece hpiece => ?_, ?_⟩
      · obtain ⟨rounds, rfl⟩ := Nat.exists_eq_succ_of_ne_zero (by omega : rounds ≠ 0)
        rw [splitLoop, hfind]
        exact if_pos hpos
      · rw [List.mem_singleton.1 hpiece]
        have h := not_infix_of_first hd (le_refl _) hnone
        rwa [List.take_length] at h
      · rw [countLeftmost_drop hnone, List.drop_length, countLeftmost, List.length_singleton]
    · obtain ⟨h₁, h₂, hocc, hno⟩ := find_eq_some_iff.1 hfind
      have hfits := find_add_length_le hfind
      have hat : OccursAt d (s.drop pos) (newPos - pos) := by
        rwa [OccursAt, List.drop_drop, Nat.add_sub_cancel' h₁]
      have hfirst : ∀ k < newPos - pos, ¬ OccursAt d (s.drop pos) k := by
        intro k hk h
        rw [OccursAt, List.drop_drop] at h
        exact hno (pos + k) (by omega) (by omega) h
      have hbehind : (s.drop pos).drop (newPos - pos + d.length) = s.drop (newPos + d.length) := by
        rw [List.drop_drop]
        exact congrArg s.drop (by omega)
      obtain ⟨pieces, hrun, hne, hjoin, hclean, hcount⟩ := ih _ (by omega) hfits rfl
      obtain ⟨piece, rest, rfl⟩ := List.exists_cons_of_ne_nil hne
      refine ⟨substr s pos (newPos - pos) :: piece :: rest, fun rounds hrounds destVec => ?_,
        List.cons_ne_nil _ _, ?_, ?_, ?_⟩
      · obtain ⟨rounds, rfl⟩ := Nat.exists_eq_succ_of_ne_zero (by omega : rounds ≠ 0)
        rw [splitLoop, hfind]
        dsimp only
        rw [hrun rounds (by omega), List.append_assoc, List.singleton_append]
      · obtain ⟨t, ht⟩ := hat
        rw [List.intercalate_cons_cons, hjoin, ← hbehind, ← List.drop_drop, ← ht, List.drop_left,
          List.append_assoc, ht, substr, List.take_append_drop]
      · intro piece' hpiece
        rcases List.mem_cons.1 hpiece with rfl | hpiece
        · exact not_infix_of_first hd (by rw [List.length_drop]; omega) hfirst
        · exact hclean piece' hpiece
      · rw [List.length_cons, hcount, countLeftmost_of_first hd hat hfirst, hbehind]

/-- **`split_string` cuts a text at its separators**: it ends, and the pieces it appends are free of
the separator, give the text when they are joined with it, and are one more than it has leftmost
occurrences. -/
theorem splitStringInto_pieces (s d : Bytes) (hs : s ≠ []) (hd : d ≠ []) (destVec : List Bytes) :
    ∃ pieces, (∀ rounds, s.length < rounds →
        splitStringInto rounds s d destVec = some (0, destVec ++ pieces))
      ∧ d.intercalate pieces = s ∧ (∀ piece ∈ pieces, ¬ d <:+: piece)
      ∧ pieces.length = countLeftmost d 0 s + 1 := by
  obtain ⟨pieces, hrun, -, hjoin, hclean, hcount⟩ :=
    splitLoop_pieces (s := s) hd (Nat.zero_le _)
  rw [List.drop_zero] at hjoin hcount
  refine ⟨pieces, fun rounds hrounds => ?_, hjoin, hclean, hcount⟩
  rw [splitStringInto, if_neg (mt List.length_eq_zero_iff.1 hs), hrun rounds hrounds destVec]

theorem splitStringInto_pieces_comma :
    ∃ pieces, (∀ rounds, (text ",a,,b").length < rounds →
        splitStringInto rounds (text ",a,,b") (text ",") [] = some (0, [] ++ pieces))
      ∧ (text ",").intercalate pieces = text ",a,,b" ∧ (∀ piece ∈ pieces, ¬ text "," <:+: piece)
      ∧ pieces.length = countLeftmost (text ",") 0 (text ",a,,b") + 1 :=
  splitStringInto_pieces (text ",a,,b") (text ",") (by decide) (by decide) []

example : splitStringInto 8 (text "aaaab") (text "aa") []
    = some (0, [text "", text "", text "b"]) := by decide

/-- With an empty separator the loop does not end. -/
theorem splitLoop_nil (s : Bytes) (rounds : ℕ) (destVec : List Bytes) :
    splitLoop s [] rounds 0 destVec = none := by
  induction rounds generalizing destVec with
  | zero => rfl
  | succ rounds ih =>
    rw [splitLoop, find_of_prefix List.nil_prefix]
    exact ih _

/-- With a separator of one letter the loop of `splitString` cuts at every one. -/
theorem splitAt_eq (sep : Byte) (s : Bytes) :
    ∀ tempData, splitAt sep tempData s = (s.splitOn sep).modifyHead (tempData ++ ·) := by
  induction s with
  | nil =>
    intro tempData
    rw [splitAt, List.splitOn_nil, List.modifyHead_cons, List.append_nil]
  | cons x s ih =>
    intro tempData
    rw [splitAt, List.splitOn_cons_eq_if_modifyHead]
    by_cases hx : x = sep
    · rw [if_pos hx, if_pos (beq_iff_eq.2 hx), ih, List.modifyHead_cons, List.append_nil]
      refine congrArg _ ?_
      cases s.splitOn sep <;> rfl
    · rw [if_neg hx, if_neg (mt beq_iff_eq.1 hx), ih]
      cases s.splitOn sep with
      | nil => rfl
      | cons a as =>
        rw [List.modifyHead_cons, List.modifyHead_cons, List.modifyHead_cons, List.append_assoc]
        rfl

end Pieces

end SmartStreaming
