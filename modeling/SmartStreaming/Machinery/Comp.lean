import Mathlib.Logic.Basic
import Mathlib.Tactic.Common

/-!
# Machinery/Comp — calls that return, fail, or stop the program

A call of an imperative program over a mutable state `σ` ends in one of three ways: it returns a
value, it returns an error code, or it stops the whole program (a failed assertion, a bad memory
access).  `Comp` is the monad of such calls — an error code keeps the state reached so far, a
stopped program has no state.

* `Comp.Holds` is the weakest precondition: one postcondition for each of the three ends.
  `holds_bind` runs a sequence of calls, `Holds.mono` weakens, `Holds.elim` reads it back.
* `Comp.Keeps` is what a call keeps however it ends, with a rule for each way to build a call.
* `Comp.Via` is the weakest precondition of a call whose end depends only on what an abstraction
  `V` of the state shows, with rules of the same shape (`Via.bind`, `Via.mono`).
-/

namespace Machinery

universe u

/-- What a mapped result has been mapped from. -/
theorem exists_of_map_eq_ok {φ α β : Type u} {f : α → β} {x : Except φ α} {b : β}
    (h : x.map f = .ok b) : ∃ a, x = .ok a ∧ f a = b := by
  cases x with
  | error e => cases h
  | ok a =>
    cases h
    exact ⟨a, rfl, rfl⟩

/-- A call over the state `σ`: it stops the program with `φ`, or leaves a state together with an
error code `ε` or a value `α`. -/
def Comp (φ σ ε α : Type u) : Type u := σ → Except φ (Except ε α × σ)

namespace Comp

variable {φ σ τ ε α β γ : Type u}

/-- Continue after a returned value; an error code and a stopped program are passed on. -/
def bind (f : Comp φ σ ε α) (g : α → Comp φ σ ε β) : Comp φ σ ε β := fun s =>
  match f s with
  | .error e => .error e
  | .ok (.error c, s') => .ok (.error c, s')
  | .ok (.ok a, s') => g a s'

instance : Monad (Comp φ σ ε) where
  pure a := fun s => .ok (.ok a, s)
  bind := bind

theorem bind_pure_id (f : Comp φ σ ε α) : bind f (fun a => pure (id a)) = f := by
  funext s
  unfold bind
  rcases f s with e | ⟨c | a, s'⟩ <;> rfl

theorem bind_bind (f : Comp φ σ ε α) (g : α → Comp φ σ ε β) (h : β → Comp φ σ ε γ) :
    bind (bind f g) h = bind f fun a => bind (g a) h := by
  funext s
  unfold bind
  rcases f s with e | ⟨c | a, s'⟩ <;> rfl

instance : LawfulMonad (Comp φ σ ε) :=
  LawfulMonad.mk' _ bind_pure_id (fun _ _ => rfl) bind_bind

/-- Return an error code, keeping the state. -/
def fail (c : ε) : Comp φ σ ε α := fun s => .ok (.error c, s)

/-- Stop the program. -/
def stop (e : φ) : Comp φ σ ε α := fun _ => .error e

/-- The current state. -/
def get : Comp φ σ ε σ := fun s => .ok (.ok s, s)

/-- Replace the state. -/
def put (s : σ) : Comp φ σ ε PUnit := fun _ => .ok (.ok ⟨⟩, s)

/-- Return the value when there is one, stop the program when there is none. -/
def ofOption (e : φ) : Option α → Comp φ σ ε α
  | some a => pure a
  | none => stop e

/-- Fail with `c` unless `p`. -/
def ensure (p : Prop) [Decidable p] (c : ε) : Comp φ σ ε PUnit :=
  if p then pure ⟨⟩ else fail c

/-- The call only where `p` holds. -/
def onlyIf (p : Prop) [Decidable p] (f : Comp φ σ ε PUnit) : Comp φ σ ε PUnit :=
  if p then f else pure ⟨⟩

/-- The error code of a call as a value: the call itself no longer fails. -/
def attempt (f : Comp φ σ ε α) : Comp φ σ ε (Except ε α) := fun s =>
  match f s with
  | .error e => .error e
  | .ok (r, s') => .ok (.ok r, s')

/-- Run a call on one component of a larger state. -/
def zoom (get : τ → σ) (set : σ → τ → τ) (f : Comp φ σ ε α) : Comp φ τ ε α := fun t =>
  match f (get t) with
  | .error e => .error e
  | .ok (r, s) => .ok (r, set s t)

/-- The error code that ends the call, if one does. -/
def failure (f : Comp φ σ ε α) (s : σ) : Option ε :=
  match f s with
  | .ok (.error c, _) => some c
  | _ => none

/-- What stops the program in the call, if anything does. -/
def fault (f : Comp φ σ ε α) (s : σ) : Option φ :=
  match f s with
  | .error e => some e
  | _ => none

/-! ## Running a call -/

@[simp] theorem run_pure (a : α) (s : σ) :
    (Pure.pure a : Comp φ σ ε α) s = .ok (.ok a, s) := rfl

@[simp] theorem run_get_bind (g : σ → Comp φ σ ε α) (s : σ) : (get >>= g) s = g s s := rfl

@[simp] theorem run_put_bind (g : PUnit → Comp φ σ ε α) (s' s : σ) :
    (put s' >>= g) s = g ⟨⟩ s' := rfl

@[simp] theorem run_put (s' s : σ) : (put s' : Comp φ σ ε PUnit) s = .ok (.ok ⟨⟩, s') := rfl

@[simp] theorem run_some_bind (e : φ) (a : α) (g : α → Comp φ σ ε β) (s : σ) :
    (ofOption e (some a) >>= g) s = g a s := rfl

@[simp] theorem run_none_bind (e : φ) (g : α → Comp φ σ ε β) (s : σ) :
    (ofOption e (none : Option α) >>= g) s = .error e := rfl

@[simp] theorem run_stop_bind (e : φ) (g : α → Comp φ σ ε β) (s : σ) :
    (stop e >>= g) s = .error e := rfl

@[simp] theorem run_fail_bind (c : ε) (g : α → Comp φ σ ε β) (s : σ) :
    (fail c >>= g) s = .ok (.error c, s) := rfl

@[simp] theorem run_ite {p : Prop} [Decidable p] (f g : Comp φ σ ε α) (s : σ) :
    (if p then f else g) s = if p then f s else g s := by
  split <;> rfl

/-- A call that returns hands its value and its state on. -/
theorem run_bind_ok {f : Comp φ σ ε α} {g : α → Comp φ σ ε β} {s s' : σ} {a : α}
    (h : f s = .ok (.ok a, s')) : (f >>= g) s = g a s' := by
  change bind f g s = _
  rw [bind, h]

/-- A call that fails ends the sequence. -/
theorem run_bind_error {f : Comp φ σ ε α} {g : α → Comp φ σ ε β} {s s' : σ} {c : ε}
    (h : f s = .ok (.error c, s')) : (f >>= g) s = .ok (.error c, s') := by
  change bind f g s = _
  rw [bind, h]

/-- A stopped program makes no further calls. -/
theorem run_bind_fault {f : Comp φ σ ε α} {s : σ} {e : φ} (h : f s = .error e)
    (g : α → Comp φ σ ε β) : (f >>= g) s = .error e := by
  change bind f g s = _
  rw [bind, h]

/-- A call on a component leaves the rest of the state. -/
theorem run_zoom_ok {get : τ → σ} {set : σ → τ → τ} {f : Comp φ σ ε α} {t : τ} {r : Except ε α}
    {s : σ} (h : f (get t) = .ok (r, s)) : zoom get set f t = .ok (r, set s t) := by
  rw [zoom, h]

theorem run_zoom_fault {get : τ → σ} {set : σ → τ → τ} {f : Comp φ σ ε α} {t : τ} {e : φ}
    (h : f (get t) = .error e) : zoom get set f t = .error e := by
  rw [zoom, h]

/-- A call that returns is two calls that return. -/
theorem run_bind_eq_ok {f : Comp φ σ ε α} {g : α → Comp φ σ ε β} {s s' : σ} {b : β}
    (h : (f >>= g) s = .ok (.ok b, s')) :
    ∃ a s₁, f s = .ok (.ok a, s₁) ∧ g a s₁ = .ok (.ok b, s') := by
  rcases hf : f s with e | ⟨c | a, s₁⟩
  · rw [run_bind_fault hf] at h
    cases h
  · rw [run_bind_error hf] at h
    cases h
  · rw [run_bind_ok hf] at h
    exact ⟨a, s₁, rfl, h⟩

/-- An attempted call is the call, its end taken as a value. -/
theorem run_of_attempt {f : Comp φ σ ε α} {s s' : σ} {r : Except ε α}
    (h : attempt f s = .ok (.ok r, s')) : f s = .ok (r, s') := by
  rw [attempt] at h
  rcases hf : f s with e | ⟨r', s₁⟩
  · rw [hf] at h
    cases h
  · rw [hf] at h
    cases h
    rfl

theorem run_attempt {f : Comp φ σ ε α} {s s' : σ} {r : Except ε α} (h : f s = .ok (r, s')) :
    attempt f s = .ok (.ok r, s') := by
  rw [attempt, h]

/-- A call ends in one way. -/
theorem run_unique {f : Comp φ σ ε α} {s s' s'' : σ} {r r' : Except ε α} (h : f s = .ok (r, s'))
    (h' : f s = .ok (r', s'')) : r = r' ∧ s' = s'' :=
  Prod.mk.inj (Except.ok.inj (h.symm.trans h'))

/-! ## Weakest preconditions -/

/-- **The weakest precondition of a call**: from `s` it stops the program only with an `F`, fails
only with an `E`, and returns only a `Q`. -/
def Holds (F : φ → Prop) (E : ε → σ → Prop) (Q : α → σ → Prop) (f : Comp φ σ ε α) (s : σ) : Prop :=
  match f s with
  | .error e => F e
  | .ok (.error c, s') => E c s'
  | .ok (.ok a, s') => Q a s'

variable {F : φ → Prop} {E : ε → σ → Prop} {Q : α → σ → Prop}

@[simp] theorem holds_pure (a : α) (s : σ) :
    Holds F E Q (pure a : Comp φ σ ε α) s ↔ Q a s := Iff.rfl

@[simp] theorem holds_fail (c : ε) (s : σ) :
    Holds F E Q (fail c : Comp φ σ ε α) s ↔ E c s := Iff.rfl

@[simp] theorem holds_stop (e : φ) (s : σ) :
    Holds F E Q (stop e : Comp φ σ ε α) s ↔ F e := Iff.rfl

@[simp] theorem holds_get {Q : σ → σ → Prop} (s : σ) :
    Holds F E Q (get : Comp φ σ ε σ) s ↔ Q s s := Iff.rfl

@[simp] theorem holds_put {Q : PUnit → σ → Prop} (s' s : σ) :
    Holds F E Q (put s' : Comp φ σ ε PUnit) s ↔ Q ⟨⟩ s' := Iff.rfl

@[simp] theorem holds_some (e : φ) (a : α) (s : σ) :
    Holds F E Q (ofOption e (some a) : Comp φ σ ε α) s ↔ Q a s := Iff.rfl

@[simp] theorem holds_none (e : φ) (s : σ) :
    Holds F E Q (ofOption e none : Comp φ σ ε α) s ↔ F e := Iff.rfl

/-- **Sequencing**: the first call establishes the weakest precondition of the second. -/
@[simp] theorem holds_bind {Q : β → σ → Prop} (f : Comp φ σ ε α) (g : α → Comp φ σ ε β) (s : σ) :
    Holds F E Q (f >>= g) s ↔ Holds F E (fun a s' => Holds F E Q (g a) s') f s := by
  change Holds F E Q (bind f g) s ↔ _
  unfold bind
  rcases hf : f s with e | ⟨c | a, s'⟩ <;> simp [Holds, hf]

@[simp] theorem holds_attempt {Q : Except ε α → σ → Prop} (f : Comp φ σ ε α) (s : σ) :
    Holds F E Q (attempt f) s
      ↔ Holds F (fun c s' => Q (.error c) s') (fun a s' => Q (.ok a) s') f s := by
  rcases hf : f s with e | ⟨c | a, s'⟩ <;> simp [Holds, attempt, hf]

/-- A call on a component leaves the rest of the state. -/
@[simp] theorem holds_zoom {E : ε → τ → Prop} {Q : α → τ → Prop} (get : τ → σ) (set : σ → τ → τ)
    (f : Comp φ σ ε α) (t : τ) :
    Holds F E Q (zoom get set f) t
      ↔ Holds F (fun c s => E c (set s t)) (fun a s => Q a (set s t)) f (get t) := by
  rcases hf : f (get t) with e | ⟨c | a, s'⟩ <;> simp [Holds, zoom, hf]

/-- The postcondition of a call whose run is known. -/
theorem holds_of_run {f : Comp φ σ ε α} {s s' : σ} {a : α} (hf : f s = .ok (.ok a, s'))
    (h : Q a s') : Holds F E Q f s := by
  simpa [Holds, hf] using h

theorem holds_ite {p : Prop} [Decidable p] {f g : Comp φ σ ε α} {s : σ} :
    Holds F E Q (if p then f else g) s
      ↔ (p → Holds F E Q f s) ∧ (¬ p → Holds F E Q g s) := by
  split <;> simp_all

@[simp] theorem holds_ensure {Q : PUnit → σ → Prop} (p : Prop) [Decidable p] (c : ε) (s : σ) :
    Holds F E Q (ensure p c : Comp φ σ ε PUnit) s ↔ (p → Q ⟨⟩ s) ∧ (¬ p → E c s) := by
  rw [ensure, holds_ite, holds_pure, holds_fail]

/-- Weakening all three postconditions. -/
theorem Holds.mono {F' : φ → Prop} {E' : ε → σ → Prop} {Q' : α → σ → Prop} {f : Comp φ σ ε α}
    {s : σ} (h : Holds F E Q f s) (hF : ∀ e, F e → F' e) (hE : ∀ c s', E c s' → E' c s')
    (hQ : ∀ a s', Q a s' → Q' a s') : Holds F' E' Q' f s := by
  unfold Holds at h ⊢
  split <;> simp_all

/-- However a call ends. -/
theorem holds_true (f : Comp φ σ ε α) (s : σ) :
    Holds (fun _ => True) (fun _ _ => True) (fun _ _ => True) f s := by
  unfold Holds
  split <;> trivial

/-- Weakening the postconditions of a call that does not stop differently. -/
theorem Holds.imp {E' : ε → σ → Prop} {Q' : α → σ → Prop} {f : Comp φ σ ε α} {s : σ}
    (h : Holds F E Q f s) (hE : ∀ c s', E c s' → E' c s') (hQ : ∀ a s', Q a s' → Q' a s') :
    Holds F E' Q' f s :=
  h.mono (fun _ => id) hE hQ

/-- A postcondition may speak of the run that it is about. -/
theorem holds_of_runs {f : Comp φ σ ε α} {s : σ}
    (hE : ∀ c s', f s = .ok (.error c, s') → E c s')
    (hQ : ∀ a s', f s = .ok (.ok a, s') → Q a s') : Holds (fun _ => True) E Q f s := by
  unfold Holds
  rcases hf : f s with e | ⟨c | a, s'⟩
  · trivial
  · exact hE c s' hf
  · exact hQ a s' hf

/-- Two weakest preconditions of one call. -/
theorem Holds.and {Q' : α → σ → Prop} {f : Comp φ σ ε α} {s : σ} (h : Holds F E Q f s)
    (h' : Holds F E Q' f s) : Holds F E (fun a s' => Q a s' ∧ Q' a s') f s := by
  unfold Holds at h h' ⊢
  split <;> simp_all

/-- What a call that returned has established. -/
theorem Holds.elim_ok {f : Comp φ σ ε α} {s s' : σ} {a : α} (h : Holds F E Q f s)
    (hf : f s = .ok (.ok a, s')) : Q a s' := by
  simpa [Holds, hf] using h

/-- A call that can neither fail nor fault returns. -/
theorem Holds.returns {f : Comp φ σ ε α} {s : σ}
    (h : Holds (fun _ => False) (fun _ _ => False) Q f s) :
    ∃ a s', f s = .ok (.ok a, s') ∧ Q a s' := by
  unfold Holds at h
  rcases hf : f s with e | ⟨c | a, s'⟩ <;> rw [hf] at h
  · exact h.elim
  · exact h.elim
  · exact ⟨a, s', rfl, h⟩

/-- The two ends of a call that does not fail. -/
theorem Holds.stops_or_returns {f : Comp φ σ ε α} {s : σ} (h : Holds F (fun _ _ => False) Q f s) :
    (∃ e, f s = .error e ∧ F e) ∨ ∃ a s', f s = .ok (.ok a, s') ∧ Q a s' := by
  unfold Holds at h
  rcases hf : f s with e | ⟨c | a, s'⟩ <;> rw [hf] at h
  · exact Or.inl ⟨e, rfl, h⟩
  · exact h.elim
  · exact Or.inr ⟨a, s', rfl, h⟩

/-- The state that a call has left, whichever way it ended. -/
theorem Holds.elim_state {P : σ → Prop} {f : Comp φ σ ε α} {s s' : σ} {r : Except ε α}
    (h : Holds F (fun _ => P) (fun _ => P) f s) (hf : f s = .ok (r, s')) : P s' := by
  rcases r with c | a <;> simpa [Holds, hf] using h

/-! ## Properties of the state that a call keeps -/

/-- However the call ends, the state it leaves has the property. -/
def Keeps (P : σ → Prop) (f : Comp φ σ ε α) : Prop :=
  ∀ s, P s → Holds (fun _ => True) (fun _ s' => P s') (fun _ s' => P s') f s

section Keeps

variable {P : σ → Prop}

/-- A property that is kept, beside what is known of one call. -/
theorem Holds.keeps {f : Comp φ σ ε α} {s : σ} (h : Holds F E Q f s) (hf : Keeps P f) (hs : P s) :
    Holds F (fun c s' => E c s' ∧ P s') (fun a s' => Q a s' ∧ P s') f s := by
  have hP := hf s hs
  unfold Holds at h hP ⊢
  split <;> simp_all

theorem keeps_true (f : Comp φ σ ε α) : Keeps (fun _ => True) f := fun s _ => holds_true f s

theorem keeps_pure (a : α) : Keeps P (pure a : Comp φ σ ε α) := fun _ => id

theorem keeps_fail (c : ε) : Keeps P (fail c : Comp φ σ ε α) := fun _ => id

theorem keeps_stop (e : φ) : Keeps P (stop e : Comp φ σ ε α) := fun _ _ => trivial

theorem keeps_ofOption (e : φ) : ∀ a : Option α, Keeps P (ofOption e a : Comp φ σ ε α)
  | some a => keeps_pure a
  | none => keeps_stop e

theorem keeps_put {s : σ} (h : P s) : Keeps P (put s : Comp φ σ ε PUnit) := fun _ _ => h

theorem Keeps.bind {f : Comp φ σ ε α} {g : α → Comp φ σ ε β} (hf : Keeps P f)
    (hg : ∀ a, Keeps P (g a)) : Keeps P (f >>= g) := by
  intro s hs
  rw [holds_bind]
  exact (hf s hs).imp (fun _ _ => id) fun a s' => hg a s'

/-- What follows may use that the property holds of the state it has read. -/
theorem Keeps.get_bind {g : σ → Comp φ σ ε β} (hg : ∀ s, P s → Keeps P (g s)) :
    Keeps P (get >>= g) := by
  intro s hs
  rw [holds_bind, holds_get]
  exact hg s hs s hs

theorem Keeps.ite {p : Prop} [Decidable p] {f g : Comp φ σ ε α} (hf : Keeps P f)
    (hg : Keeps P g) : Keeps P (if p then f else g) := by
  split
  · exact hf
  · exact hg

/-- A call on a component. -/
theorem Keeps.zoom {R : τ → Prop} {get : τ → σ} {set : σ → τ → τ} {f : Comp φ σ ε α}
    (hf : Keeps P f) (hget : ∀ t, R t → P (get t)) (hset : ∀ s t, R t → P s → R (set s t)) :
    Keeps R (zoom get set f) := by
  intro t ht
  rw [holds_zoom]
  exact (hf _ (hget t ht)).imp (fun _ s => hset s t ht) fun _ s => hset s t ht

end Keeps

/-! ## Calls seen through an abstraction -/

variable {V : σ → γ → Prop}

/-- How a call ends from every state that shows `c` under `V`: it always stops alike, or it always
gives the same code or value and leaves states that show the same `c'`. -/
def Ends (V : σ → γ → Prop) (f : Comp φ σ ε α) (c : γ) : Except φ (Except ε α × γ) → Prop
  | .error e => ∀ s, V s c → f s = .error e
  | .ok (r, c') => ∀ s, V s c → ∃ s', f s = .ok (r, s') ∧ V s' c'

/-- **The weakest precondition through an abstraction**: the end of the call is a function of what
its state shows, and has the postcondition of its kind. -/
def Via (V : σ → γ → Prop) (F : φ → Prop) (E : ε → γ → Prop) (Q : α → γ → Prop)
    (f : Comp φ σ ε α) (c : γ) : Prop :=
  (∃ e, Ends V f c (.error e) ∧ F e) ∨ (∃ x c', Ends V f c (.ok (.error x, c')) ∧ E x c')
    ∨ ∃ a c', Ends V f c (.ok (.ok a, c')) ∧ Q a c'

section Via

variable {c : γ} {F : φ → Prop} {E : ε → γ → Prop} {Q : α → γ → Prop}

theorem Via.ok {f : Comp φ σ ε α} {a : α} {c' : γ}
    (h : ∀ s, V s c → ∃ s', f s = .ok (.ok a, s') ∧ V s' c') (hQ : Q a c') : Via V F E Q f c :=
  Or.inr (Or.inr ⟨a, c', h, hQ⟩)

theorem Via.error {f : Comp φ σ ε α} {x : ε} {c' : γ}
    (h : ∀ s, V s c → ∃ s', f s = .ok (.error x, s') ∧ V s' c') (hE : E x c') : Via V F E Q f c :=
  Or.inr (Or.inl ⟨x, c', h, hE⟩)

theorem Via.fault {f : Comp φ σ ε α} {e : φ} (h : ∀ s, V s c → f s = .error e) (hF : F e) :
    Via V F E Q f c :=
  Or.inl ⟨e, h, hF⟩

theorem Via.pure {a : α} (h : Q a c) : Via V F E Q (pure a) c :=
  Via.ok (fun s hs => ⟨s, rfl, hs⟩) h

theorem Via.fail {x : ε} (h : E x c) : Via V F E Q (fail x) c :=
  Via.error (fun s hs => ⟨s, rfl, hs⟩) h

theorem Via.stop {e : φ} (h : F e) : Via V F E Q (stop e) c :=
  Via.fault (fun _ _ => rfl) h

/-- Reading the state is allowed where what follows depends only on what it shows. -/
theorem Via.get_bind {g : σ → Comp φ σ ε α} {f : Comp φ σ ε α} (hg : ∀ s, V s c → g s = f)
    (h : Via V F E Q f c) : Via V F E Q (get >>= g) c := by
  have hrun : ∀ s, V s c → (get >>= g) s = f s := fun s hs => by rw [run_get_bind, hg s hs]
  rcases h with ⟨e, hf, hF⟩ | ⟨x, c', hf, hE⟩ | ⟨a, c', hf, hQ⟩
  · exact Via.fault (fun s hs => (hrun s hs).trans (hf s hs)) hF
  · refine Via.error (fun s hs => ?_) hE
    rw [hrun s hs]
    exact hf s hs
  · refine Via.ok (fun s hs => ?_) hQ
    rw [hrun s hs]
    exact hf s hs

/-- **Sequencing through an abstraction.** -/
theorem Via.bind {Q : β → γ → Prop} {f : Comp φ σ ε α} {g : α → Comp φ σ ε β}
    (h : Via V F E (fun a c' => Via V F E Q (g a) c') f c) : Via V F E Q (f >>= g) c := by
  have hbind : ∀ s, (f >>= g) s = Comp.bind f g s := fun _ => rfl
  rcases h with ⟨e, hf, hF⟩ | ⟨x, c', hf, hE⟩ | ⟨a, c', hf, hg⟩
  · exact Via.fault (fun s hs => by rw [hbind, Comp.bind, hf s hs]) hF
  · refine Via.error (fun s hs => ?_) hE
    obtain ⟨s', hs', hV⟩ := hf s hs
    exact ⟨s', by rw [hbind, Comp.bind, hs'], hV⟩
  · have hstep : ∀ s, V s c → ∃ s', (f >>= g) s = g a s' ∧ V s' c' := fun s hs => by
      obtain ⟨s', hs', hV⟩ := hf s hs
      exact ⟨s', by rw [hbind, Comp.bind, hs'], hV⟩
    rcases hg with ⟨e, hg, hF⟩ | ⟨x, c'', hg, hE⟩ | ⟨b, c'', hg, hQ⟩
    · refine Via.fault (fun s hs => ?_) hF
      obtain ⟨s', hs', hV⟩ := hstep s hs
      rw [hs', hg s' hV]
    · refine Via.error (fun s hs => ?_) hE
      obtain ⟨s', hs', hV⟩ := hstep s hs
      rw [hs']
      exact hg s' hV
    · refine Via.ok (fun s hs => ?_) hQ
      obtain ⟨s', hs', hV⟩ := hstep s hs
      rw [hs']
      exact hg s' hV

theorem Via.ite {p : Prop} [Decidable p] {f g : Comp φ σ ε α} (h₁ : p → Via V F E Q f c)
    (h₂ : ¬ p → Via V F E Q g c) : Via V F E Q (if p then f else g) c := by
  split
  · exact h₁ ‹_›
  · exact h₂ ‹_›

theorem Via.ensure {p : Prop} [Decidable p] {x : ε} {Q : PUnit → γ → Prop} (h₁ : p → Q ⟨⟩ c)
    (h₂ : ¬ p → E x c) : Via V F E Q (ensure p x) c :=
  Via.ite (fun hp => Via.pure (h₁ hp)) fun hp => Via.fail (h₂ hp)

theorem Via.onlyIf {p : Prop} [Decidable p] {Q : PUnit → γ → Prop} {f : Comp φ σ ε PUnit}
    (h₁ : p → Via V F E Q f c) (h₂ : ¬ p → Q ⟨⟩ c) : Via V F E Q (onlyIf p f) c :=
  Via.ite h₁ fun hp => Via.pure (h₂ hp)

theorem Via.attempt {Q : Except ε α → γ → Prop} {f : Comp φ σ ε α}
    (h : Via V F (fun x c' => Q (.error x) c') (fun a c' => Q (.ok a) c') f c) :
    Via V F E Q (attempt f) c := by
  rcases h with ⟨e, hf, hF⟩ | ⟨x, c', hf, hE⟩ | ⟨a, c', hf, hQ⟩
  · exact Via.fault (fun s hs => by rw [Comp.attempt, hf s hs]) hF
  · refine Via.ok (fun s hs => ?_) hE
    obtain ⟨s', hs', hV⟩ := hf s hs
    exact ⟨s', by rw [Comp.attempt, hs'], hV⟩
  · refine Via.ok (fun s hs => ?_) hQ
    obtain ⟨s', hs', hV⟩ := hf s hs
    exact ⟨s', by rw [Comp.attempt, hs'], hV⟩

/-- Weakening the postconditions. -/
theorem Via.mono {F' : φ → Prop} {E' : ε → γ → Prop} {Q' : α → γ → Prop} {f : Comp φ σ ε α}
    (h : Via V F E Q f c) (hF : ∀ e, F e → F' e) (hE : ∀ x c', E x c' → E' x c')
    (hQ : ∀ a c', Q a c' → Q' a c') : Via V F' E' Q' f c := by
  rcases h with ⟨e, hf, h⟩ | ⟨x, c', hf, h⟩ | ⟨a, c', hf, h⟩
  · exact Or.inl ⟨e, hf, hF e h⟩
  · exact Or.inr (Or.inl ⟨x, c', hf, hE x c' h⟩)
  · exact Or.inr (Or.inr ⟨a, c', hf, hQ a c' h⟩)

/-- Weakening what a returned value establishes. -/
theorem Via.imp {Q' : α → γ → Prop} {f : Comp φ σ ε α} (h : Via V F E Q f c)
    (hQ : ∀ a c', Q a c' → Q' a c') : Via V F E Q' f c :=
  h.mono (fun _ => id) (fun _ _ => id) hQ

/-- What follows may know how the call has ended. -/
theorem Via.ends {f : Comp φ σ ε α} (h : Via V F E Q f c) :
    Via V F E (fun a c' => Q a c' ∧ Ends V f c (.ok (.ok a, c'))) f c := by
  rcases h with ⟨e, hf, h⟩ | ⟨x, c', hf, h⟩ | ⟨a, c', hf, h⟩
  · exact Or.inl ⟨e, hf, h⟩
  · exact Or.inr (Or.inl ⟨x, c', hf, h⟩)
  · exact Or.inr (Or.inr ⟨a, c', hf, h, hf⟩)

/-- Sequencing from what the first call establishes. -/
theorem Via.seq {Q' : β → γ → Prop} {f : Comp φ σ ε α} {g : α → Comp φ σ ε β}
    (h : Via V F E Q f c) (hg : ∀ a c', Q a c' → Via V F E Q' (g a) c') :
    Via V F E Q' (f >>= g) c :=
  Via.bind (h.imp hg)

theorem Via.map {Q' : β → γ → Prop} {f : Comp φ σ ε α} (g : α → β) (h : Via V F E Q f c)
    (hQ : ∀ a c', Q a c' → Q' (g a) c') : Via V F E Q' (g <$> f) c := by
  rw [map_eq_pure_bind]
  exact h.seq fun a c' ha => Via.pure (hQ a c' ha)

/-- What a call seen through an abstraction does to a single state. -/
theorem Via.holds {f : Comp φ σ ε α} {s : σ} (h : Via V F E Q f c) (hs : V s c) :
    Holds F (fun x s' => ∃ c', V s' c' ∧ E x c') (fun a s' => ∃ c', V s' c' ∧ Q a c') f s := by
  rcases h with ⟨e, hf, h⟩ | ⟨x, c', hf, h⟩ | ⟨a, c', hf, h⟩
  · simpa [Holds, hf s hs] using h
  · obtain ⟨s', hs', hV⟩ := hf s hs
    simpa [Holds, hs'] using ⟨c', hV, h⟩
  · obtain ⟨s', hs', hV⟩ := hf s hs
    simpa [Holds, hs'] using ⟨c', hV, h⟩

end Via

end Comp

end Machinery
