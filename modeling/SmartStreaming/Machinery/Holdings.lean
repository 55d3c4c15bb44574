import Mathlib.Data.List.Nodup
import Mathlib.Logic.Function.Basic
import Mathlib.Tactic.Common

/-!
# Machinery/Holdings — resources, each held by one owner or by nobody

Owners acquire resources, give them back, or forget what they hold.  What is open is what some owner
holds and what has been forgotten: the first is still given back, the second never.
-/

namespace Machinery

/-- Who holds what; the resources up to `fresh` have been made, and those of `opened` are open. -/
@[ext]
structure Holdings (ι : Type*) where
  holds : ι → Option ℕ
  opened : List ℕ
  lost : List ℕ
  fresh : ℕ
  nodup : opened.Nodup
  lt_fresh : ∀ r ∈ opened, r < fresh
  mem_opened_iff : ∀ r, r ∈ opened ↔ (∃ i, holds i = some r) ∨ r ∈ lost
  not_lost : ∀ i r, holds i = some r → r ∉ lost
  single : ∀ i j r, holds i = some r → holds j = some r → i = j

namespace Holdings

variable {ι : Type*}

/-- Nobody holds anything. -/
def new : Holdings ι where
  holds _ := none
  opened := []
  lost := []
  fresh := 0
  nodup := List.nodup_nil
  lt_fresh _ h := absurd h List.not_mem_nil
  mem_opened_iff r := by simp
  not_lost _ _ h := by cases h
  single _ _ _ h := by cases h

theorem mem_of_holds {i : ι} {s : Holdings ι} {r : ℕ} (h : s.holds i = some r) : r ∈ s.opened :=
  (s.mem_opened_iff r).2 (.inl ⟨i, h⟩)

variable [DecidableEq ι] (i : ι) (s : Holdings ι)

/-- What an owner other than `i` holds. -/
theorem holds_update_none {holds : ι → Option ℕ} {i j : ι} {r : ℕ} :
    Function.update holds i none j = some r ↔ j ≠ i ∧ holds j = some r := by
  by_cases hj : j = i
  · rw [hj, Function.update_self]
    simp
  · rw [Function.update_of_ne hj]
    simp [hj]

/-- `i` forgets what it holds. -/
def forget : Holdings ι where
  holds := Function.update s.holds i none
  opened := s.opened
  lost := (s.holds i).toList ++ s.lost
  fresh := s.fresh
  nodup := s.nodup
  lt_fresh := s.lt_fresh
  mem_opened_iff r := by
    rw [s.mem_opened_iff r, List.mem_append, Option.mem_toList]
    constructor
    · rintro (⟨j, hj⟩ | hlost)
      · by_cases hji : j = i
        · exact .inr (.inl (hji ▸ hj))
        · exact .inl ⟨j, holds_update_none.2 ⟨hji, hj⟩⟩
      · exact .inr (.inr hlost)
    · rintro (⟨j, hj⟩ | hi | hlost)
      · exact .inl ⟨j, (holds_update_none.1 hj).2⟩
      · exact .inl ⟨i, hi⟩
      · exact .inr hlost
  not_lost j r hj := by
    obtain ⟨hji, hj⟩ := holds_update_none.1 hj
    rw [List.mem_append, Option.mem_toList, not_or]
    exact ⟨fun hi => hji (s.single j i r hj hi), s.not_lost j r hj⟩
  single j k r hj hk := s.single j k r (holds_update_none.1 hj).2 (holds_update_none.1 hk).2

/-- `i` gives back what it holds. -/
def release : Holdings ι where
  holds := Function.update s.holds i none
  opened := s.opened.filter fun r => s.holds i ≠ some r
  lost := s.lost
  fresh := s.fresh
  nodup := s.nodup.filter _
  lt_fresh r h := s.lt_fresh r (List.mem_of_mem_filter h)
  mem_opened_iff r := by
    rw [List.mem_filter, decide_eq_true_eq, s.mem_opened_iff r]
    constructor
    · rintro ⟨⟨j, hj⟩ | hlost, hi⟩
      · exact .inl ⟨j, holds_update_none.2 ⟨fun hji => hi (hji ▸ hj), hj⟩⟩
      · exact .inr hlost
    · rintro (⟨j, hj⟩ | hlost)
      · obtain ⟨hji, hj⟩ := holds_update_none.1 hj
        exact ⟨.inl ⟨j, hj⟩, fun hi => hji (s.single j i r hj hi)⟩
      · exact ⟨.inr hlost, fun hi => s.not_lost i r hi hlost⟩
  not_lost j r hj := s.not_lost j r (holds_update_none.1 hj).2
  single j k r hj hk := s.single j k r (holds_update_none.1 hj).2 (holds_update_none.1 hk).2

/-- `i`, which holds nothing, is given a new resource. -/
def give (h : s.holds i = none) : Holdings ι where
  holds := Function.update s.holds i (some s.fresh)
  opened := s.fresh :: s.opened
  lost := s.lost
  fresh := s.fresh + 1
  nodup := List.nodup_cons.2 ⟨fun hmem => Nat.lt_irrefl _ (s.lt_fresh _ hmem), s.nodup⟩
  lt_fresh r hr := by
    rcases List.mem_cons.1 hr with rfl | hr
    · exact Nat.lt_succ_self _
    · exact Nat.lt_succ_of_lt (s.lt_fresh r hr)
  mem_opened_iff r := by
    rw [List.mem_cons, s.mem_opened_iff r]
    constructor
    · rintro (rfl | ⟨j, hj⟩ | hlost)
      · exact .inl ⟨i, Function.update_self ..⟩
      · have hji : j ≠ i := by
          rintro rfl
          rw [h] at hj
          cases hj
        exact .inl ⟨j, by rw [Function.update_of_ne hji, hj]⟩
      · exact .inr hlost
    · rintro (⟨j, hj⟩ | hlost)
      · by_cases hji : j = i
        · rw [hji, Function.update_self] at hj
          exact .inl (Option.some.inj hj).symm
        · rw [Function.update_of_ne hji] at hj
          exact .inr (.inl ⟨j, hj⟩)
      · exact .inr (.inr hlost)
  not_lost j r hj := by
    have hfresh : s.fresh ∉ s.lost := fun hlost =>
      Nat.lt_irrefl _ (s.lt_fresh _ ((s.mem_opened_iff _).2 (.inr hlost)))
    by_cases hji : j = i
    · rw [hji, Function.update_self] at hj
      rwa [← Option.some.inj hj]
    · rw [Function.update_of_ne hji] at hj
      exact s.not_lost j r hj
  single j k r hj hk := by
    have hold : ∀ {l : ι}, s.holds l ≠ some s.fresh := fun hl =>
      Nat.lt_irrefl _ (s.lt_fresh _ (mem_of_holds hl))
    by_cases hji : j = i <;> by_cases hki : k = i
    · rw [hji, hki]
    · rw [hji, Function.update_self] at hj
      rw [Function.update_of_ne hki, ← hj] at hk
      exact absurd hk hold
    · rw [hki, Function.update_self] at hk
      rw [Function.update_of_ne hji, ← hk] at hj
      exact absurd hj hold
    · rw [Function.update_of_ne hji] at hj
      rw [Function.update_of_ne hki] at hk
      exact s.single j k r hj hk

theorem holds_forget : (s.forget i).holds i = none := Function.update_self ..

/-- `i` is given a new resource, and forgets the one it holds. -/
def acquire : Holdings ι := (s.forget i).give i (s.holds_forget i)

variable {i : ι} {s : Holdings ι} {j : ι} {r : ℕ}

@[simp] theorem holds_forget_of_ne (h : j ≠ i) : (s.forget i).holds j = s.holds j :=
  Function.update_of_ne h ..

/-- There is nothing to forget. -/
theorem forget_of_holds_none (h : s.holds i = none) : s.forget i = s := by
  have hholds : Function.update s.holds i none = s.holds := by
    rw [← h, Function.update_eq_self]
  have hlost : (s.holds i).toList ++ s.lost = s.lost := by
    rw [h]
    rfl
  exact Holdings.ext hholds rfl hlost rfl

@[simp] theorem holds_release : (s.release i).holds i = none := Function.update_self ..

@[simp] theorem holds_release_of_ne (h : j ≠ i) : (s.release i).holds j = s.holds j :=
  Function.update_of_ne h ..

@[simp] theorem holds_acquire : (s.acquire i).holds i = some s.fresh := Function.update_self ..

@[simp] theorem holds_acquire_of_ne (h : j ≠ i) : (s.acquire i).holds j = s.holds j :=
  (Function.update_of_ne h ..).trans (holds_forget_of_ne h)

@[simp] theorem opened_forget : (s.forget i).opened = s.opened := rfl

@[simp] theorem length_opened_acquire : (s.acquire i).opened.length = s.opened.length + 1 := rfl

/-- What is given back is one less. -/
theorem length_opened_release (h : s.holds i = some r) :
    (s.release i).opened.length + 1 = s.opened.length := by
  have hmem : r ∈ s.opened := mem_of_holds h
  have hopened : (s.release i).opened = s.opened.erase r := by
    rw [s.nodup.erase_eq_filter, release]
    refine List.filter_congr fun x _ => ?_
    by_cases hx : x = r
    · simp [h, hx]
    · simp [h, hx, Ne.symm hx]
  rw [hopened, List.length_erase_of_mem hmem]
  exact Nat.succ_pred_eq_of_pos (List.length_pos_of_mem hmem)

end Holdings

end Machinery
