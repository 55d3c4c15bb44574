import SmartStreaming.Machinery.Comp

/-!
# Machinery/Mirror — a call that returns as another one does

`Mirrors V f g`: what `f` returns, `g` returns from the state that `V` shows, and `V` shows the
state it leaves.  Nothing is said of an `f` that fails or stops, so `g` may be `f` on a state where
it fails less.  There is a rule for each way to build a call.

`Within f g`: `f` is `g`, but stops where `g` would go on, at an access out of its bounds for one.
-/

namespace Machinery

universe u

variable {φ σ τ ε α β γ δ : Type u}

namespace Comp

/-- **What `f` returns, `g` returns** from the state that `V` shows. -/
def Mirrors (V : σ → τ) (f : Comp φ σ ε α) (g : Comp φ τ ε α) : Prop :=
  ∀ s a s', f s = .ok (.ok a, s') → g (V s) = .ok (.ok a, V s')

variable {V : σ → τ}

theorem mirrors_pure (a : α) : Mirrors V (pure a : Comp φ σ ε α) (pure a) := by
  intro s b s' hrun
  cases hrun
  rfl

theorem mirrors_fail (c : ε) (g : Comp φ τ ε α) : Mirrors V (fail c) g := by
  intro s a s' hrun
  cases hrun

theorem mirrors_stop (e : φ) (g : Comp φ τ ε α) : Mirrors V (stop e) g := by
  intro s a s' hrun
  cases hrun

theorem mirrors_ofOption (e : φ) (a : Option α) :
    Mirrors V (ofOption e a : Comp φ σ ε α) (ofOption e a) := by
  cases a with
  | none => exact mirrors_stop e _
  | some a => exact mirrors_pure a

theorem mirrors_put {s : σ} {t : τ} (h : V s = t) :
    Mirrors V (put s : Comp φ σ ε PUnit) (put t) := by
  intro s₀ a s' hrun
  cases hrun
  rw [run_put, h]

theorem Mirrors.bind {f : Comp φ σ ε α} {f' : Comp φ τ ε α} {g : α → Comp φ σ ε β}
    {g' : α → Comp φ τ ε β} (hf : Mirrors V f f') (hg : ∀ a, Mirrors V (g a) (g' a)) :
    Mirrors V (f >>= g) (f' >>= g') := by
  intro s b s' hrun
  obtain ⟨a, s₁, hfirst, hsecond⟩ := run_bind_eq_ok hrun
  rw [run_bind_ok (hf s a s₁ hfirst)]
  exact hg a s₁ b s' hsecond

theorem Mirrors.get_bind {g : σ → Comp φ σ ε α} {g' : τ → Comp φ τ ε α}
    (hg : ∀ s, Mirrors V (g s) (g' (V s))) : Mirrors V (get >>= g) (get >>= g') := by
  intro s a s' hrun
  rw [run_get_bind] at hrun ⊢
  exact hg s s a s' hrun

theorem Mirrors.ite {p : Prop} [Decidable p] {f g : Comp φ σ ε α} {f' g' : Comp φ τ ε α}
    (hf : p → Mirrors V f f') (hg : ¬ p → Mirrors V g g') :
    Mirrors V (if p then f else g) (if p then f' else g') := by
  by_cases hp : p
  · rw [if_pos hp, if_pos hp]
    exact hf hp
  · rw [if_neg hp, if_neg hp]
    exact hg hp

/-- A call on a component is mirrored on the component. -/
theorem Mirrors.zoom {W : γ → δ} {read : γ → σ} {write : σ → γ → γ} {read' : δ → τ}
    {write' : τ → δ → δ} {f : Comp φ σ ε α} {f' : Comp φ τ ε α} (hf : Mirrors V f f')
    (hread : ∀ t, read' (W t) = V (read t)) (hwrite : ∀ s t, W (write s t) = write' (V s) (W t)) :
    Mirrors W (zoom read write f) (zoom read' write' f') := by
  intro t a t' hrun
  rcases hf₀ : f (read t) with e | ⟨r, s⟩
  · rw [run_zoom_fault hf₀] at hrun
    cases hrun
  · rw [run_zoom_ok hf₀] at hrun
    cases hrun
    rw [Comp.zoom, hread, hf (read t) a s hf₀, hwrite]

/-! ## Calls that stop where others go on -/

/-- **Where `f` does not stop, `g` does the same.** -/
def Within (f g : Comp φ σ ε α) : Prop := ∀ s r, f s = .ok r → g s = .ok r

theorem Within.refl (f : Comp φ σ ε α) : Within f f := fun _ _ => id

theorem Within.bind {f : Comp φ σ ε α} {g g' : α → Comp φ σ ε β}
    (h : ∀ s a s', f s = .ok (.ok a, s') → Within (g a) (g' a)) :
    Within (f >>= g) (f >>= g') := by
  intro s r hrun
  rcases hf : f s with e | ⟨c | a, s'⟩
  · rw [run_bind_fault hf] at hrun
    cases hrun
  · rw [run_bind_error hf] at hrun ⊢
    exact hrun
  · rw [run_bind_ok hf] at hrun ⊢
    exact h s a s' hf s' r hrun

theorem Within.seq {f f' : Comp φ σ ε α} (h : Within f f') (g : α → Comp φ σ ε β) :
    Within (f >>= g) (f' >>= g) := by
  intro s r hrun
  rcases hf : f s with e | ⟨c | a, s'⟩
  · rw [run_bind_fault hf] at hrun
    cases hrun
  · rw [run_bind_error hf] at hrun
    rw [run_bind_error (h s _ hf)]
    exact hrun
  · rw [run_bind_ok hf] at hrun
    rw [run_bind_ok (h s _ hf)]
    exact hrun

theorem Within.ite {p : Prop} [Decidable p] {f f' g g' : Comp φ σ ε α} (hf : p → Within f f')
    (hg : ¬ p → Within g g') : Within (if p then f else g) (if p then f' else g') := by
  by_cases hp : p
  · rw [if_pos hp, if_pos hp]
    exact hf hp
  · rw [if_neg hp, if_neg hp]
    exact hg hp

theorem Within.zoom {read : γ → σ} {write : σ → γ → γ} {f g : Comp φ σ ε α} (h : Within f g) :
    Within (zoom read write f) (zoom read write g) := by
  intro t r hrun
  rcases hf : f (read t) with e | ⟨r', s⟩
  · rw [run_zoom_fault hf] at hrun
    cases hrun
  · rw [run_zoom_ok hf] at hrun
    rw [run_zoom_ok (h (read t) _ hf)]
    exact hrun

end Comp

end Machinery
