import SmartStreaming.Machinery.Comp

/-!
# Machinery/Refine — a run of calls refines a run of an abstract machine

An abstract machine is a step relation `step : κ → ι → α → κ → Prop` on inputs `ι` and replies `α`.
A concrete call per input that simulates one step (`Refines`) simulates whole runs: what `List.mapM`
returns is a run of the machine, and where it stops the machine has come to an input at which the
call may stop (`Refines.mapM`).
-/

namespace Machinery

universe u

variable {φ σ ε ι α κ : Type u}

/-- A run of an abstract machine: the replies to a list of inputs, and the state reached. -/
inductive Runs (step : κ → ι → α → κ → Prop) : κ → List ι → List α → κ → Prop
  | nil (q : κ) : Runs step q [] [] q
  | cons {q q₁ q₂ : κ} {i : ι} {a : α} {is : List ι} {as : List α} (h : step q i a q₁)
      (hs : Runs step q₁ is as q₂) : Runs step q (i :: is) (a :: as) q₂

/-- Some run of the machine comes to an input at which `P` holds. -/
inductive ComesTo (step : κ → ι → α → κ → Prop) (P : κ → ι → Prop) : κ → List ι → Prop
  | here {q : κ} {i : ι} {is : List ι} (h : P q i) : ComesTo step P q (i :: is)
  | later {q q₁ : κ} {i : ι} {a : α} {is : List ι} (h : step q i a q₁)
      (hs : ComesTo step P q₁ is) : ComesTo step P q (i :: is)

theorem ComesTo.exists_mem {step : κ → ι → α → κ → Prop} {P : κ → ι → Prop} {q : κ} {is : List ι}
    (h : ComesTo step P q is) : ∃ i ∈ is, ∃ q, P q i := by
  induction h with
  | here h => exact ⟨_, List.mem_cons_self, _, h⟩
  | later _ _ ih =>
    obtain ⟨i, hi, h⟩ := ih
    exact ⟨i, List.mem_cons_of_mem _ hi, h⟩

/-- What every step says of its reply, every reply of a run satisfies. -/
theorem Runs.forall_mem {step : κ → ι → α → κ → Prop} {P : α → Prop}
    (h : ∀ q i a q', step q i a q' → P a) {q q' : κ} {is : List ι} {as : List α}
    (hruns : Runs step q is as q') : ∀ a ∈ as, P a := by
  induction hruns with
  | nil q => exact fun _ ha => absurd ha List.not_mem_nil
  | cons hstep _ ih =>
    intro a ha
    rcases List.mem_cons.1 ha with rfl | ha
    · exact h _ _ _ _ hstep
    · exact ih a ha

namespace Comp

/-- **One call simulates one step**: from a state related to `q` it stops only with an `F q`, never
fails, and its reply and the state it leaves are those of a step from `q`. -/
def Refines (F : κ → ι → φ → Prop) (R : σ → κ → Prop) (step : κ → ι → α → κ → Prop)
    (f : ι → Comp φ σ ε α) (i : ι) : Prop :=
  ∀ s q, R s q →
    Holds (F q i) (fun _ _ => False) (fun a s' => ∃ q', step q i a q' ∧ R s' q') (f i) s

variable {R : σ → κ → Prop} {step : κ → ι → α → κ → Prop} {f : ι → Comp φ σ ε α}

/-- **Calls that simulate steps simulate runs.** -/
theorem Refines.mapM {F : κ → ι → φ → Prop} {is : List ι} (h : ∀ i ∈ is, Refines F R step f i)
    {s : σ} {q : κ} (hR : R s q) :
    Holds (fun e => ComesTo step (fun q i => F q i e) q is) (fun _ _ => False)
      (fun as s' => ∃ q', Runs step q is as q' ∧ R s' q') (is.mapM f) s := by
  induction is generalizing s q with
  | nil => exact ⟨q, Runs.nil q, hR⟩
  | cons i is ih =>
    rw [List.mapM_cons, holds_bind]
    refine (h i List.mem_cons_self s q hR).mono (fun e he => .here he) (fun _ _ => id) ?_
    rintro a s₁ ⟨q₁, hstep, hR₁⟩
    rw [holds_bind]
    refine (ih (fun j hj => h j (List.mem_cons_of_mem i hj)) hR₁).mono
      (fun e he => .later hstep he) (fun _ _ => id) ?_
    rintro as s₂ ⟨q₂, hruns, hR₂⟩
    exact ⟨q₂, Runs.cons hstep hruns, hR₂⟩

/-- Calls that stop with the same faults wherever they come to. -/
theorem Refines.mapM_const {F : φ → Prop} {is : List ι}
    (h : ∀ i ∈ is, Refines (fun _ _ => F) R step f i) {s : σ} {q : κ} (hR : R s q) :
    Holds F (fun _ _ => False) (fun as s' => ∃ q', Runs step q is as q' ∧ R s' q')
      (is.mapM f) s := by
  refine (Refines.mapM h hR).mono (fun e he => ?_) (fun _ _ => id) fun _ _ => id
  obtain ⟨-, -, -, hF⟩ := he.exists_mem
  exact hF

end Comp

end Machinery
