import SmartStreaming.Machinery.Comp

/-!
# Machinery/Blocks — blocks of memory that are allocated and freed

A block has an address and some contents while it is allocated.  `free` is partial: there is nothing
to free at an address where no block is allocated, so freeing twice is the absence of a result.
-/

namespace Machinery

/-- Blocks of cells of type `α`; `fresh` and every later address has never been allocated. -/
structure Blocks (α : Type) where
  get : ℕ → Option (List α)
  fresh : ℕ

namespace Blocks

variable {α : Type} (m : Blocks α)

/-- A block with the given contents at an address not used before. -/
def alloc (contents : List α) : ℕ × Blocks α :=
  (m.fresh, ⟨fun p => if p = m.fresh then some contents else m.get p, m.fresh + 1⟩)

/-- The blocks without the one at `p`. -/
def free (p : ℕ) : Option (Blocks α) :=
  if (m.get p).isSome then some ⟨fun q => if q = p then none else m.get q, m.fresh⟩ else none

/-- The block at `p` replaced. -/
def set (p : ℕ) (contents : List α) : Blocks α :=
  ⟨fun q => if q = p then some contents else m.get q, m.fresh⟩

variable {m}

/-- **A freed block is gone.** -/
theorem get_of_free {m' : Blocks α} {p : ℕ} (h : m.free p = some m') : m'.get p = none := by
  rw [free] at h
  split at h
  · obtain rfl := Option.some.inj h
    exact if_pos rfl
  · cases h

end Blocks

end Machinery
