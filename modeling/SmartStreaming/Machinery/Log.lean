import Mathlib.Tactic.Common

/-!
# Machinery/Log — readers of an append-only log

A `Slice` is what one read has brought, and where it was read.  It stays a slice of the log when
the log grows (`Slice.Of.mono`), and a reader whose reads follow one another has seen a prefix of
the log (`Advances.flatten_prefix`).
-/

namespace Machinery

variable {α : Type*}

/-- The cells that a read has brought, from `offset` on. -/
structure Slice (α : Type*) where
  offset : ℕ
  cells : List α

namespace Slice

variable {s : Slice α} {log log' : List α}

/-- The cells are those of the log. -/
def Of (s : Slice α) (log : List α) : Prop :=
  s.offset ≤ log.length ∧ s.cells <+: log.drop s.offset

/-- **A log that grows keeps its slices.** -/
theorem Of.mono (h : s.Of log) (hlog : log <+: log') : s.Of log' := by
  obtain ⟨more, rfl⟩ := hlog
  refine ⟨?_, ?_⟩
  · rw [List.length_append]
    exact Nat.le_add_right_of_le h.1
  · rw [List.drop_append_of_le_length h.1]
    exact h.2.trans (List.prefix_append _ _)

end Slice

/-- Each read begins where the one before it has ended, the first one at `offset`. -/
def Advances : ℕ → List (Slice α) → Prop
  | _, [] => True
  | offset, s :: ss => s.offset = offset ∧ Advances (offset + s.cells.length) ss

/-- What a reader has seen that begins at `offset`. -/
theorem Advances.prefix_drop {log : List α} :
    ∀ {offset : ℕ} {ss : List (Slice α)}, Advances offset ss → (∀ s ∈ ss, s.Of log) →
      (ss.map Slice.cells).flatten <+: log.drop offset
  | _, [], _, _ => List.nil_prefix
  | offset, s :: ss, h, hof => by
    obtain ⟨hs, hss⟩ := h
    obtain ⟨more, hmore⟩ := (hof s List.mem_cons_self).2
    have ih := hss.prefix_drop fun t ht => hof t (List.mem_cons_of_mem _ ht)
    rw [hs] at hmore
    rw [← List.drop_drop, ← hmore, List.drop_left] at ih
    rw [List.map_cons, List.flatten_cons, ← hmore]
    exact (List.prefix_append_right_inj _).mpr ih

/-- **A reader that advances from the beginning has seen a prefix of the log.** -/
theorem Advances.flatten_prefix {log : List α} {ss : List (Slice α)} (h : Advances 0 ss)
    (hof : ∀ s ∈ ss, s.Of log) : (ss.map Slice.cells).flatten <+: log := by
  have := h.prefix_drop hof
  rwa [List.drop_zero] at this

end Machinery
