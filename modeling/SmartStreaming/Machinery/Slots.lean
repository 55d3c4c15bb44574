import SmartStreaming.Machinery.EntryMap
import Mathlib.Algebra.Order.Ring.Int

/-!
# Machinery/Slots — a map that is filled at ascending numbers

What is put into such a map comes to its end, and what is erased leaves its number empty: the map is
a list of slots, seen with their numbers (`numbered`).
-/

namespace Machinery

section Slots

variable {α : Type*}

/-- The slots that are filled, with their numbers from `i` on. -/
def numbered : ℤ → List (Option α) → List (ℤ × α)
  | _, [] => []
  | i, none :: slots => numbered (i + 1) slots
  | i, some a :: slots => (i, a) :: numbered (i + 1) slots

/-- The slot with the number `n` is left empty, if there is one. -/
def clearSlot (n : ℤ) (slots : List (Option α)) : List (Option α) :=
  if n < 0 then slots else slots.set n.toNat none

variable {i n : ℤ} {slots : List (Option α)} {e : ℤ × α}

theorem mem_numbered_bounds (h : e ∈ numbered i slots) : i ≤ e.1 ∧ e.1 < i + slots.length := by
  induction slots generalizing i with
  | nil => exact absurd h List.not_mem_nil
  | cons slot slots ih =>
    rw [List.length_cons]
    cases slot with
    | none =>
      have hrest := ih h
      omega
    | some a =>
      rcases List.mem_cons.1 h with rfl | h
      · dsimp only
        omega
      · have hrest := ih h
        omega

/-- A new slot has the next number. -/
theorem numbered_append (i : ℤ) (slots : List (Option α)) (a : α) :
    numbered i (slots ++ [some a]) = numbered i slots ++ [(i + slots.length, a)] := by
  induction slots generalizing i with
  | nil =>
    rw [List.nil_append, numbered, List.length_nil, Nat.cast_zero, add_zero]
    rfl
  | cons slot slots ih =>
    have hlength : i + 1 + (slots.length : ℤ) = i + ((slot :: slots).length : ℤ) := by
      rw [List.length_cons]
      omega
    cases slot with
    | none => rw [List.cons_append, numbered, ih, hlength, numbered]
    | some b => rw [List.cons_append, numbered, ih, hlength, numbered, List.cons_append]

/-- Numbers below the first one are not met. -/
theorem filter_numbered_of_lt (h : n < i) :
    (numbered i slots).filter (fun e => decide (e.1 ≠ n)) = numbered i slots := by
  rw [List.filter_eq_self]
  intro e he
  have hbounds := (mem_numbered_bounds he).1
  exact decide_eq_true (by omega)

/-- A slot that is left empty has lost its number. -/
theorem filter_numbered_of_le (h : i ≤ n) :
    (numbered i slots).filter (fun e => decide (e.1 ≠ n))
      = numbered i (slots.set (n - i).toNat none) := by
  induction slots generalizing i with
  | nil => rfl
  | cons slot slots ih =>
    rcases h.eq_or_lt with rfl | hlt
    · rw [sub_self, Int.toNat_zero, List.set_cons_zero, numbered]
      cases slot with
      | none =>
        rw [numbered]
        exact filter_numbered_of_lt (by omega)
      | some a =>
        rw [numbered, List.filter_cons_of_neg (by simp)]
        exact filter_numbered_of_lt (by omega)
    · have hnext : (n - i).toNat = (n - (i + 1)).toNat + 1 := by omega
      rw [hnext, List.set_cons_succ]
      cases slot with
      | none => exact ih (by omega)
      | some a =>
        rw [numbered, numbered, List.filter_cons_of_pos (by simp; omega), ih (by omega)]

theorem filter_numbered (n : ℤ) (slots : List (Option α)) :
    (numbered 0 slots).filter (fun e => decide (e.1 ≠ n)) = numbered 0 (clearSlot n slots) := by
  rw [clearSlot]
  split
  · exact filter_numbered_of_lt ‹_›
  · rw [filter_numbered_of_le (by omega), sub_zero]

/-- Without their numbers, the filled slots. -/
theorem map_snd_numbered (i : ℤ) (slots : List (Option α)) :
    (numbered i slots).map Prod.snd = slots.filterMap id := by
  induction slots generalizing i with
  | nil => rfl
  | cons slot slots ih =>
    cases slot with
    | none => rw [numbered, ih, List.filterMap_cons_none rfl]
    | some a =>
      rw [numbered, List.map_cons, ih, List.filterMap_cons_some (f := id) rfl]

end Slots

/-! ## The map -/

namespace EntryMap

variable {α : Type*} {m : EntryMap ℤ α} {slots : List (Option α)}

/-- **The map is the list of slots.** -/
def Numbers (m : EntryMap ℤ α) (slots : List (Option α)) : Prop := m.entries = numbered 0 slots

/-- A number above all others comes to the end of the map. -/
theorem entries_insert_of_lt {k : ℤ} (h : ∀ e ∈ m.entries, e.1 < k) (a : α) :
    (m.insert (· ≤ ·) k a).entries = m.entries ++ [(k, a)] := by
  have hnew : k ∉ m.entries.map Prod.fst := by
    rw [List.mem_map]
    rintro ⟨e, he, rfl⟩
    exact lt_irrefl _ (h e he)
  rw [insert]
  simp only [if_neg hnew, List.orderedInsert_eq_take_drop]
  have htake : ∀ e ∈ m.entries, decide ¬ k ≤ e.1 = true := fun e he =>
    decide_eq_true (not_le.2 (h e he))
  rw [List.takeWhile_eq_self_iff.2 htake, List.dropWhile_eq_nil_iff.2 htake]

theorem Numbers.insert (h : m.Numbers slots) (a : α) :
    (m.insert (· ≤ ·) slots.length a).Numbers (slots ++ [some a]) := by
  have hlt : ∀ e ∈ m.entries, e.1 < slots.length := by
    intro e he
    rw [h] at he
    have hbounds := (mem_numbered_bounds he).2
    omega
  rw [Numbers, entries_insert_of_lt hlt, h, numbered_append, zero_add]

theorem Numbers.erase (h : m.Numbers slots) (n : ℤ) : (m.erase n).Numbers (clearSlot n slots) := by
  rw [Numbers, ← filter_numbered, ← h]
  rfl

end EntryMap

end Machinery
