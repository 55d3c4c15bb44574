import SmartStreaming.Base.Search
import SmartStreaming.Http.Stack

/-!
# Http/Lines — a message as lines

A text that reaches over no line end is searched line by line (`find_joinLines`).  A header block
is a text up to its first blank line; lines that are not empty make one (`isHeader_joinLines`).
-/

namespace SmartStreaming

open CHttp

/-! ## Lines -/

/-- A text without a line end in it. -/
def IsLine (l : Bytes) : Prop := find l crlf 0 = none

instance (l : Bytes) : Decidable (IsLine l) := inferInstanceAs (Decidable (_ = _))

theorem isLine_of_notMem {l : Bytes} (h : 0x0d ∉ l) : IsLine l := by
  have hnone := find_of_head h [] [0x0a]
  rw [List.append_nil] at hnone
  exact hnone

/-- **The end of a line is the first line end behind it.** -/
theorem find_crlf_line {l : Bytes} (hl : IsLine l) {j : ℕ} (hj : j ≤ l.length) (b : Bytes) :
    find (l ++ (crlf ++ b)) crlf j = some l.length := by
  have hend : crlf <+: (l ++ (crlf ++ b)).drop l.length := by
    rw [List.drop_left]
    exact List.prefix_append _ _
  refine find_eq_some_iff.2 ⟨hj, by rw [List.length_append]; omega, hend, fun k _ hk h => ?_⟩
  have hoccurs : Machinery.OccursAt crlf (l ++ (crlf ++ b)) k := h
  rcases Nat.lt_or_ge l.length (k + 2) with hlast | hin
  · -- the line end would begin with the last letter of the line, in front of a carriage return
    have hnext := hoccurs.getElem? (k := 1) (by decide)
    rw [show k + 1 = l.length by omega, List.getElem?_append_right (le_refl _), Nat.sub_self]
      at hnext
    cases hnext
  · exact find_eq_none_iff.1 hl k (Nat.zero_le _) (by omega) (hoccurs.of_append_left hin)

/-- What stands from a position on, up to the end of its line. -/
def lineFrom (data : Bytes) (start : ℕ) : Option Bytes :=
  (find data crlf start).map fun stop => substr data start (sizeDiff stop start)

/-- The rest of a line. -/
theorem lineFrom_line {a l b : Bytes} (hl : IsLine l) {j : ℕ} (hj : j ≤ l.length)
    (hlen : l.length < 2 ^ 64) :
    lineFrom (a ++ (l ++ (crlf ++ b))) (a.length + j) = some (l.drop j) := by
  rw [lineFrom, find_append_right, find_crlf_line hl hj, Option.map_some, Option.map_some,
    sizeDiff_of_le (by omega) (by omega), substr, ← List.drop_drop, List.drop_left,
    List.drop_append_of_le_length hj, List.take_left' (by rw [List.length_drop]; omega)]

/-- What follows a text is read alike without it. -/
theorem lineFrom_append_right (a b : Bytes) (i : ℕ) (hlen : (a ++ b).length < 2 ^ 64) :
    lineFrom (a ++ b) (a.length + i) = lineFrom b i := by
  rw [List.length_append] at hlen
  rw [lineFrom, lineFrom, find_append_right]
  cases hstop : find b crlf i with
  | none => rw [Option.map_none, Option.map_none, Option.map_none]
  | some stop =>
    have hle := (find_eq_some_iff.1 hstop).1
    have hfits := (find_eq_some_iff.1 hstop).2.1
    have hleft : sizeDiff (a.length + stop) (a.length + i) = stop - i := by
      rw [sizeDiff_of_le (by omega) (by omega), Nat.add_sub_add_left]
    have hright : sizeDiff stop i = stop - i := sizeDiff_of_le hle (by omega)
    have hcut : substr (a ++ b) (a.length + i) (stop - i) = substr b i (stop - i) := by
      rw [substr, substr, ← List.drop_drop, List.drop_left]
    rw [Option.map_some, Option.map_some, Option.map_some, hleft, hright, hcut]

/-- Lines, each with its end. -/
def joinLines (ls : List Bytes) : Bytes := ls.flatMap (· ++ crlf)

@[simp] theorem joinLines_nil : joinLines [] = [] := rfl

theorem joinLines_cons (l : Bytes) (ls : List Bytes) :
    joinLines (l :: ls) = l ++ (crlf ++ joinLines ls) := by
  rw [joinLines, List.flatMap_cons, List.append_assoc, joinLines]

theorem joinLines_append (ls ls' : List Bytes) :
    joinLines (ls ++ ls') = joinLines ls ++ joinLines ls' := List.flatMap_append

/-! ## Searching line by line -/

section Search

variable {p l : Bytes}

/-- A text that reaches over no line end. -/
structure InLine (p : Bytes) : Prop where
  ne_nil : p ≠ []
  cr : 0x0d ∉ p
  lf : 0x0a ∉ p

theorem find_line (hp : InLine p) (l b : Bytes) :
    find (l ++ (crlf ++ b)) p 0 = (find l p 0).or ((find b p 0).map (l.length + 2 + ·)) := by
  have hlf := find_separator hp.lf [] b
  have hnil : find [] p 0 = none := by
    rw [find, if_pos (Nat.zero_le _), List.drop_zero, findFrom, if_neg hp.ne_nil]
  rw [hnil, Option.none_or, List.nil_append] at hlf
  have hcr := find_separator hp.cr l (0x0a :: b)
  rw [hlf, Option.map_map] at hcr
  refine hcr.trans (congrArg _ (congrArg (Option.map · _) (funext fun i => ?_)))
  simp only [Function.comp_apply, List.length_nil]
  omega

/-- Past the lines in which the text does not stand. -/
theorem find_joinLines (hp : InLine p) {ls : List Bytes} (h : ∀ l ∈ ls, contains l p = false)
    (b : Bytes) :
    find (joinLines ls ++ b) p 0 = (find b p 0).map ((joinLines ls).length + ·) := by
  induction ls with
  | nil =>
    have hid : (fun i => (joinLines []).length + i) = id := funext fun i => Nat.zero_add i
    rw [hid, Option.map_id]
    rfl
  | cons l ls ih =>
    have hl := contains_eq_false_iff.1 (h l List.mem_cons_self)
    have hrest := ih fun l' hl' => h l' (List.mem_cons_of_mem _ hl')
    have hjoin : joinLines (l :: ls) ++ b = l ++ (crlf ++ (joinLines ls ++ b)) := by
      rw [joinLines_cons, List.append_assoc, List.append_assoc]
    have hlen : (joinLines (l :: ls)).length = l.length + 2 + (joinLines ls).length := by
      rw [joinLines_cons, List.length_append, List.length_append, ← Nat.add_assoc]
      rfl
    rw [hjoin, find_line hp, hl, Option.none_or, hrest, Option.map_map, hlen]
    refine congrArg (Option.map · _) (funext fun i => ?_)
    simp only [Function.comp_apply]
    omega

end Search

/-! ## Header blocks -/

/-- A header block: a text that its first blank line ends. -/
def IsHeader (header : Bytes) : Prop :=
  find header blankLine 0 = some (header.length - blankLine.length)

section Header

variable {l b : Bytes}

/-- No line end, and so no blank line, begins in a line. -/
theorem not_blankLine_in_line (hl : IsLine l) (b : Bytes) {k : ℕ} (hk : k < l.length) :
    ¬ Machinery.OccursAt blankLine (l ++ (crlf ++ b)) k := by
  intro h
  have hcrlf : crlf <+: (l ++ (crlf ++ b)).drop k := List.IsPrefix.trans ⟨crlf, rfl⟩ h
  exact (find_eq_some_iff.1 (find_crlf_line hl (Nat.zero_le _) b)).2.2.2 k (Nat.zero_le _) hk hcrlf

/-- The last line is followed by the blank one. -/
theorem find_blankLine_last (hl : IsLine l) (b : Bytes) :
    find (l ++ (crlf ++ (crlf ++ b))) blankLine 0 = some l.length := by
  refine find_eq_some_iff.2 ⟨Nat.zero_le _, ?_, ?_, fun k _ hk =>
    not_blankLine_in_line hl (crlf ++ b) hk⟩
  · rw [List.length_append]
    omega
  · rw [List.drop_left]
    exact ⟨b, rfl⟩

/-- A line in front of others. -/
theorem find_blankLine_line (hl : IsLine l) (hb : ¬ crlf <+: b) :
    find (l ++ (crlf ++ b)) blankLine 0 = (find b blankLine 0).map (l.length + 2 + ·) := by
  have hskip : ∀ k, 0 ≤ k → k < l.length + 2 →
      ¬ Machinery.OccursAt blankLine (l ++ (crlf ++ b)) k := by
    intro k _ hk h
    rcases Nat.lt_or_ge k l.length with hlt | hge
    · exact not_blankLine_in_line hl b hlt h
    obtain rfl | rfl : k = l.length ∨ k = l.length + 1 := by omega
    · have hpre : blankLine <+: crlf ++ b := by
        rwa [Machinery.OccursAt, List.drop_left] at h
      exact hb ((List.prefix_append_right_inj crlf).1 hpre)
    · have hletter := h.getElem? (k := 0) (by decide)
      rw [Nat.add_zero, List.getElem?_append_right (by omega), Nat.add_sub_cancel_left] at hletter
      cases hletter
  have hlen : (l ++ crlf).length = l.length + 2 := List.length_append
  rw [find_skip (Nat.zero_le _) hskip, ← List.append_assoc, ← hlen]
  exact find_append_right (l ++ crlf) b blankLine 0

/-- **Lines that are not empty, and the blank line behind them.** -/
theorem isHeader_joinLines {ls : List Bytes} (hne : ls ≠ []) (h : ∀ l ∈ ls, IsLine l ∧ l ≠ []) :
    IsHeader (joinLines ls ++ crlf) := by
  have hfind : find (joinLines ls ++ crlf) blankLine 0 = some ((joinLines ls).length - 2) := by
    induction ls with
    | nil => exact absurd rfl hne
    | cons l ls ih =>
      have hl := (h l List.mem_cons_self).1
      rw [joinLines_cons, List.append_assoc, List.append_assoc]
      cases ls with
      | nil =>
        have hlast := find_blankLine_last hl []
        rw [List.append_nil] at hlast
        rw [joinLines_nil, List.nil_append, hlast, List.append_nil, List.length_append]
        rfl
      | cons l' ls =>
        have hl' := h l' (List.mem_cons_of_mem _ List.mem_cons_self)
        have hpos := List.length_pos_of_ne_nil hl'.2
        have hlen : 2 ≤ (joinLines (l' :: ls)).length := by
          rw [joinLines_cons, List.length_append, List.length_append,
            show crlf.length = 2 from rfl]
          omega
        -- a line that is not empty does not begin with its end
        have hno : ¬ crlf <+: joinLines (l' :: ls) ++ crlf := by
          intro hpre
          rw [joinLines_cons, List.append_assoc, List.append_assoc] at hpre
          exact (find_eq_some_iff.1 (find_crlf_line hl'.1 (Nat.zero_le _) _)).2.2.2 0
            (Nat.zero_le _) hpos hpre
        rw [find_blankLine_line hl hno, ih (List.cons_ne_nil _ _)
          fun l'' hl'' => h l'' (List.mem_cons_of_mem _ hl''), Option.map_some, List.length_append,
          List.length_append, show crlf.length = 2 from rfl]
        refine congrArg some ?_
        omega
  rw [IsHeader, hfind, List.length_append]
  rfl

end Header

end SmartStreaming
