import Mathlib.Data.List.Basic

/-!
# Machinery/Trace — what holds along a trace

A trace from `s` is the list of its labels, each with the state it leads to.  `Along R s tr` says
that every step is an `R`: with the transitions of a machine for `R` it says that `tr` is a trace of
the machine, with a condition that it meets the condition all along.
-/

namespace Machinery

variable {σ ι : Type*}

/-- Every step of the trace is an `R`. -/
def Along (R : σ → ι → σ → Prop) : σ → List (ι × σ) → Prop
  | _, [] => True
  | s, (a, s') :: tr => R s a s' ∧ Along R s' tr

namespace Along

variable {step Q R : σ → ι → σ → Prop} {I : σ → Prop} {s : σ} {tr : List (ι × σ)}

/-- **A trace whose steps meet `Q`**, where `Q` keeps the invariant and makes each step an `R`. -/
theorem of_guarded
    (hstep : ∀ s a s', I s → step s a s' → Q s a s' → R s a s' ∧ I s') (hs : I s)
    (h : Along step s tr) (hQ : Along Q s tr) : Along R s tr := by
  induction tr generalizing s with
  | nil => trivial
  | cons x tr ih =>
    obtain ⟨hR, hs'⟩ := hstep _ _ _ hs h.1 hQ.1
    exact ⟨hR, ih hs' h.2 hQ.2⟩

/-- **Along a trace two properties of steps are the same** if each implies the other from a state
with the invariant, and keeps it. -/
theorem iff_of_inv
    (hstep : ∀ s a s', I s → step s a s' → (R s a s' ↔ Q s a s') ∧ (Q s a s' → I s'))
    (hs : I s) (h : Along step s tr) : Along R s tr ↔ Along Q s tr := by
  induction tr generalizing s with
  | nil => exact Iff.rfl
  | cons x tr ih =>
    obtain ⟨hiff, hinv⟩ := hstep _ _ _ hs h.1
    constructor
    · rintro ⟨hR, hrest⟩
      exact ⟨hiff.1 hR, (ih (hinv (hiff.1 hR)) h.2).1 hrest⟩
    · rintro ⟨hQ, hrest⟩
      exact ⟨hiff.2 hQ, (ih (hinv hQ) h.2).2 hrest⟩

/-- What every step says of the state it leads to, every state reached satisfies. -/
theorem forall_mem {P : σ → Prop} (hP : ∀ s a s', R s a s' → P s') (h : Along R s tr) :
    ∀ x ∈ tr, P x.2 := by
  induction tr generalizing s with
  | nil => exact fun _ hx => absurd hx List.not_mem_nil
  | cons y tr ih =>
    rintro x hx
    rcases List.mem_cons.1 hx with rfl | hx
    · exact hP _ _ _ h.1
    · exact ih h.2 x hx

end Along

/-- The trace of the labels, as far as the machine can take them. -/
def trace (step : σ → ι → Option σ) : σ → List ι → List (ι × σ)
  | _, [] => []
  | s, a :: as =>
    match step s a with
    | none => []
    | some s' => (a, s') :: trace step s' as

theorem along_trace (step : σ → ι → Option σ) (s : σ) (as : List ι) :
    Along (fun s a s' => step s a = some s') s (trace step s as) := by
  induction as generalizing s with
  | nil => trivial
  | cons a as ih =>
    rw [trace]
    split
    · trivial
    · rename_i s' hstep
      exact ⟨hstep, ih s'⟩

end Machinery
