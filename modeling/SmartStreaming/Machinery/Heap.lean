import Mathlib.Data.List.Nodup
import Mathlib.Logic.Function.Iterate
import Mathlib.Tactic.Common

/-!
# Machinery/Heap — one call on each object of a list of references

A heap maps references to objects.  `forEach f heap refs` makes the call `f` on the object of each
reference in turn, once for each time it is in the list (`forEach_eq_iterate`).
-/

namespace Machinery

variable {ρ α : Type*} [DecidableEq ρ]

/-- The heap after the call `f` on each of the objects of `refs`. -/
def forEach (f : ρ → α → α) (heap : ρ → α) : List ρ → ρ → α
  | [] => heap
  | ref :: refs => forEach f (Function.update heap ref (f ref (heap ref))) refs

variable {f : ρ → α → α}

/-- **An object is called once for each reference to it.** -/
theorem forEach_eq_iterate (heap : ρ → α) (refs : List ρ) (ref : ρ) :
    forEach f heap refs ref = (f ref)^[refs.count ref] (heap ref) := by
  induction refs generalizing heap with
  | nil => rfl
  | cons r refs ih =>
    rw [forEach, ih]
    by_cases hr : ref = r
    · rw [hr, Function.update_self, List.count_cons_self, Function.iterate_succ_apply]
    · rw [Function.update_of_ne hr, List.count_cons_of_ne (Ne.symm hr)]

/-- An object that no reference points to is not called. -/
theorem forEach_of_not_mem {refs : List ρ} {ref : ρ} (h : ref ∉ refs) (heap : ρ → α) :
    forEach f heap refs ref = heap ref := by
  rw [forEach_eq_iterate, List.count_eq_zero_of_not_mem h, Function.iterate_zero_apply]

/-- **Every object of the list is called**, once if a second call changes nothing. -/
theorem forEach_of_mem (hf : ∀ ref a, f ref (f ref a) = f ref a) {refs : List ρ} {ref : ρ}
    (h : ref ∈ refs) (heap : ρ → α) : forEach f heap refs ref = f ref (heap ref) := by
  obtain ⟨n, hn⟩ := Nat.exists_eq_succ_of_ne_zero (Nat.ne_of_gt (List.count_pos_iff.2 h))
  rw [forEach_eq_iterate, hn, Function.iterate_succ_apply]
  exact Function.iterate_fixed (hf ref (heap ref)) n

/-- With each reference once in the list, its object is called once. -/
theorem forEach_of_nodup {refs : List ρ} (hrefs : refs.Nodup) {ref : ρ} (h : ref ∈ refs)
    (heap : ρ → α) : forEach f heap refs ref = f ref (heap ref) := by
  rw [forEach_eq_iterate, List.count_eq_one_of_mem hrefs h, Function.iterate_one]

/-- What every call leaves alone, `forEach` leaves alone. -/
theorem forEach_keeps {β : Type*} {view : α → β} (hf : ∀ ref a, view (f ref a) = view a)
    (heap : ρ → α) (refs : List ρ) (ref : ρ) :
    view (forEach f heap refs ref) = view (heap ref) := by
  induction refs generalizing heap with
  | nil => rfl
  | cons r refs ih =>
    rw [forEach, ih]
    by_cases hr : ref = r
    · rw [hr, Function.update_self, hf]
    · rw [Function.update_of_ne hr]

end Machinery
