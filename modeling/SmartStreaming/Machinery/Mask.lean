import Mathlib.Data.List.Induction

/-!
# Machinery/Mask — bit masks as sets of flags

`Within a m` says that a mask has all flags of `a`; `orAll f l` is the mask of a list, as a loop
over it collects it.
-/

namespace Machinery

variable {w : ℕ} {α : Type*}

/-- Every bit of `a` is set in `m`. -/
def Within (a m : BitVec w) : Prop := m &&& a = a

instance (a m : BitVec w) : Decidable (Within a m) := inferInstanceAs (Decidable (_ = _))

theorem within_refl (a : BitVec w) : Within a a := BitVec.and_self

theorem Within.or_left {a m : BitVec w} (h : Within a m) (x : BitVec w) : Within a (x ||| m) := by
  rw [Within, BitVec.and_comm, BitVec.and_or_distrib_left, BitVec.and_comm a m, h]
  ext i hi
  rw [BitVec.getElem_or, BitVec.getElem_and]
  cases a[i] <;> simp

theorem Within.or_right {a m : BitVec w} (h : Within a m) (x : BitVec w) : Within a (m ||| x) := by
  rw [BitVec.or_comm]
  exact h.or_left x

/-- A flag that is set is not apart. -/
theorem Within.eq_zero {a m : BitVec w} (h : Within a m) (hapart : m &&& a = 0) : a = 0 :=
  h.symm.trans hapart

theorem or_and_eq_zero {x y a : BitVec w} (hx : x &&& a = 0) (hy : y &&& a = 0) :
    (x ||| y) &&& a = 0 := by
  rw [BitVec.and_comm, BitVec.and_or_distrib_left, BitVec.and_comm a x, BitVec.and_comm a y, hx, hy]
  exact BitVec.or_self

/-- The mask of a list. -/
def orAll (f : α → BitVec w) (l : List α) : BitVec w := l.foldl (fun m x => m ||| f x) 0

section OrAll

variable {f : α → BitVec w} {l : List α} {x : α} {a : BitVec w}

theorem orAll_append_singleton (f : α → BitVec w) (l : List α) (x : α) :
    orAll f (l ++ [x]) = orAll f l ||| f x := by
  rw [orAll, List.foldl_append]
  rfl

theorem within_orAll (h : x ∈ l) : Within (f x) (orAll f l) := by
  induction l using List.reverseRecOn with
  | nil => cases h
  | append_singleton l y ih =>
    rw [orAll_append_singleton]
    rcases List.mem_append.1 h with hold | hnew
    · exact (ih hold).or_right _
    · rw [List.mem_singleton.1 hnew]
      exact (within_refl _).or_left _

theorem orAll_and_eq_zero (h : ∀ x ∈ l, f x &&& a = 0) : orAll f l &&& a = 0 := by
  induction l using List.reverseRecOn with
  | nil => exact BitVec.zero_and
  | append_singleton l y ih =>
    rw [orAll_append_singleton]
    refine or_and_eq_zero (ih fun x hx => h x (List.mem_append_left _ hx)) (h y ?_)
    exact List.mem_append_right _ (List.mem_singleton_self y)

/-- A list of flags that are not empty has a mask that is not. -/
theorem orAll_eq_zero_iff (hf : ∀ x ∈ l, f x ≠ 0) : orAll f l = 0 ↔ l = [] := by
  constructor
  · intro hzero
    rcases List.eq_nil_or_concat l with rfl | ⟨l', x, rfl⟩
    · rfl
    · have hx : x ∈ l'.concat x := by simp
      have hwithin := within_orAll (f := f) hx
      rw [hzero] at hwithin
      exact absurd (hwithin.eq_zero BitVec.zero_and) (hf x hx)
  · rintro rfl
    rfl

end OrAll

end Machinery
