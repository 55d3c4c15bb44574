import SmartStreaming.Base.Defs
import SmartStreaming.Machinery.Trace

/-!
# Base/Coroutine — `STCoroutine`: starting a thread and waiting for its end

    thread:  ready ──▸ running ──▸ cycled ──broadcast──▸ disposed ──▸ cycle_done ──▸ returned
               ╰── no handler ────────────────────────────────────────────────────────▴
    stop:    disposed ──▸ interrupt ──▸ wait for the broadcast

The broadcast has no memory: who waits after it, or for a thread that never makes it, waits for
good.  A stopped thread leaves nobody waiting as long as a thread with waiters finds its handler and
nobody begins to wait between the broadcast and `disposed` (`no_caller_left_waiting`).
-/

namespace SmartStreaming

open Machinery

/-- Where the thread of a coroutine is; `err` is what its handler's `cycle` has returned. -/
inductive ThreadAt
  | absent
  | ready
  | running
  | cycled (err : ℤ)
  | broadcasted (err : ℤ)
  | disposedSet (err : ℤ)
  | cycleDoneSet (err : ℤ)
  | leaving (err : ℤ)
  | returned
  deriving DecidableEq, Repr

/-- `class STCoroutine`, called by the coroutines of `κ`: the null pointer `trd` is the absent
thread, `cond` is who waits for it and who was woken and has not run yet. -/
structure STCoroutine (κ : Type) where
  trd : ThreadAt := .absent
  trdErr : ℤ := errorSuccess
  started : Bool := false
  interrupted : Bool := false
  disposed : Bool := false
  cycleDone : Bool := false
  /-- `handler.lock()` finds the handler. -/
  handler : Bool := true
  waiting : List κ := []
  woken : List κ := []
  deriving DecidableEq

namespace STCoroutine

variable {κ : Type}

/-- `start()`; `created` is whether there is a thread to be had. -/
def start (created : Bool) (co : STCoroutine κ) : ℤ × STCoroutine κ :=
  if co.started || co.disposed then
    (errorCothreadStart,
      { co with trdErr := if co.trdErr = errorSuccess then errorCothreadStart else co.trdErr })
  else if created then
    (errorSuccess, { co with trd := .ready, started := true })
  else
    (errorCothreadStart, { co with trd := .absent, trdErr := errorCothreadStart })

def interrupt (co : STCoroutine κ) : STCoroutine κ :=
  if !co.started || co.interrupted || co.cycleDone then co
  else
    { co with
      interrupted := true
      trdErr := if co.trdErr = errorSuccess then errorCothreadInterrupt else co.trdErr }

/-- The end of `stop()`. -/
def stopped (co : STCoroutine κ) : STCoroutine κ :=
  if co.trdErr = errorSuccess ∧ co.cycleDone = false then { co with trdErr := errorCothreadStop }
  else co

/-- `stop()` up to the wait of its caller, if it waits. -/
def stop (caller : κ) (co : STCoroutine κ) : STCoroutine κ :=
  if co.disposed then co
  else
    let co := interrupt { co with disposed := true }
    if co.trd = .absent then co.stopped else { co with waiting := co.waiting ++ [caller] }

/-- `cycle()`, as far as it goes without the handler: what the thread does next. -/
def cycle (co : STCoroutine κ) : Option (STCoroutine κ) :=
  match co.trd with
  | .ready => some { co with trd := if co.handler then .running else .returned }
  | .cycled err =>
    some { co with trd := .broadcasted err, waiting := [], woken := co.woken ++ co.waiting }
  | .broadcasted err => some { co with trd := .disposedSet err, disposed := true }
  | .disposedSet err => some { co with trd := .cycleDoneSet err, cycleDone := true }
  | .cycleDoneSet err => some { co with trd := .leaving err }
  | .leaving err =>
    some { co with trd := .returned, trdErr := if err ≠ errorSuccess then err else co.trdErr }
  | _ => none

/-! ## Runs -/

/-- What happens to a coroutine: its thread moves, its handler goes, another coroutine calls. -/
inductive Action (κ : Type)
  | start (created : Bool)
  | cycle
  | handlerReturns (err : ℤ)
  | destroyHandler
  | interrupt
  | stop (caller : κ)
  | resume (caller : κ)

/-- One action, if it can happen.  A caller of `stop` comes back when a broadcast has woken it. -/
def step [DecidableEq κ] (co : STCoroutine κ) : Action κ → Option (STCoroutine κ)
  | .start created => some (co.start created).2
  | .cycle => co.cycle
  | .handlerReturns err => if co.trd = .running then some { co with trd := .cycled err } else none
  | .destroyHandler => some { co with handler := false }
  | .interrupt => some co.interrupt
  | .stop caller =>
    if caller ∈ co.waiting ∨ caller ∈ co.woken then none else some (co.stop caller)
  | .resume caller =>
    if caller ∈ co.woken then some (stopped { co with woken := co.woken.erase caller }) else none

/-- A step of the machine. -/
def Next [DecidableEq κ] (co : STCoroutine κ) (a : Action κ) (co' : STCoroutine κ) : Prop :=
  co.step a = some co'

/-- **A caller waits for good**: the thread has returned. -/
def Hung (co : STCoroutine κ) : Prop := co.trd = .returned ∧ co.waiting ≠ []

/-- The broadcast is still to come. -/
def Ahead : ThreadAt → Prop
  | .ready => True
  | .running => True
  | .cycled _ => True
  | _ => False

/-- **Nobody is left behind**: who waits has disposed of the coroutine, and the broadcast is still
to come. -/
structure Attended (co : STCoroutine κ) : Prop where
  ahead : co.waiting ≠ [] → Ahead co.trd
  disposed : co.waiting ≠ [] → co.disposed = true

/-- **The actions that leave nobody behind**: a thread with waiters begins with its handler, and
who calls `stop` does not wait, or waits for a broadcast that is still to come. -/
def Safe (co : STCoroutine κ) (a : Action κ) (_ : STCoroutine κ) : Prop :=
  match a with
  | .cycle => co.trd = .ready → co.handler = true ∨ co.waiting = []
  | .stop _ => co.disposed = true ∨ co.trd = .absent ∨ Ahead co.trd
  | _ => True

/-! ## One step -/

section Steps

variable {co co' : STCoroutine κ} {caller : κ}

@[simp] theorem trd_interrupt (co : STCoroutine κ) : co.interrupt.trd = co.trd := by
  unfold interrupt
  split <;> rfl

@[simp] theorem waiting_interrupt (co : STCoroutine κ) : co.interrupt.waiting = co.waiting := by
  unfold interrupt
  split <;> rfl

@[simp] theorem disposed_interrupt (co : STCoroutine κ) : co.interrupt.disposed = co.disposed := by
  unfold interrupt
  split <;> rfl

@[simp] theorem trd_stopped (co : STCoroutine κ) : co.stopped.trd = co.trd := by
  unfold stopped
  split <;> rfl

@[simp] theorem waiting_stopped (co : STCoroutine κ) : co.stopped.waiting = co.waiting := by
  unfold stopped
  split <;> rfl

@[simp] theorem disposed_stopped (co : STCoroutine κ) : co.stopped.disposed = co.disposed := by
  unfold stopped
  split <;> rfl

/-- An action that touches neither the thread nor its waiters. -/
theorem Attended.congr (h : co.Attended) (htrd : co'.trd = co.trd)
    (hwaiting : co'.waiting = co.waiting) (hdisposed : co'.disposed = co.disposed) :
    co'.Attended := by
  refine ⟨fun hwait => ?_, fun hwait => ?_⟩
  · rw [htrd]
    exact h.ahead (hwaiting ▸ hwait)
  · rw [hdisposed]
    exact h.disposed (hwaiting ▸ hwait)

theorem attended_of_nil (h : co.waiting = []) : co.Attended :=
  ⟨fun hne => absurd h hne, fun hne => absurd h hne⟩

theorem Attended.waiting_eq_nil (h : co.Attended) (hpast : ¬ Ahead co.trd) : co.waiting = [] := by
  by_contra hwait
  exact hpast (h.ahead hwait)

/-- Where somebody waits, `start` is refused. -/
theorem Attended.start (h : co.Attended) (created : Bool) : (co.start created).2.Attended := by
  by_cases hwait : co.waiting = []
  · refine attended_of_nil ?_
    unfold STCoroutine.start
    split
    · exact hwait
    · split <;> exact hwait
  · have hrefused : (co.started || co.disposed) = true := by
      rw [h.disposed hwait, Bool.or_true]
    rw [STCoroutine.start, if_pos hrefused]
    exact h.congr rfl rfl rfl

/-- **`stop` leaves somebody behind** exactly if its caller waits for a broadcast that has been. -/
theorem Attended.stop_iff (h : co.Attended) (caller : κ) :
    (co.stop caller).Attended ↔ co.disposed = true ∨ co.trd = .absent ∨ Ahead co.trd := by
  rcases hdisposed : co.disposed with _ | _
  · have hstop : co.stop caller
        = if co.trd = .absent then stopped (interrupt { co with disposed := true })
          else { interrupt { co with disposed := true } with
            waiting := co.waiting ++ [caller] } := by
      rw [stop, if_neg (by rw [hdisposed]; exact Bool.false_ne_true)]
      simp only [trd_interrupt, waiting_interrupt]
    have hnil : co.waiting = [] := by
      by_contra hwait
      rw [h.disposed hwait] at hdisposed
      cases hdisposed
    rw [hstop]
    split
    · rename_i habsent
      refine iff_of_true (attended_of_nil ?_) (Or.inr (Or.inl habsent))
      rw [waiting_stopped, waiting_interrupt]
      exact hnil
    · rename_i hpresent
      constructor
      · intro hattended
        have hahead := hattended.ahead (List.append_ne_nil_of_right_ne_nil _ (List.cons_ne_nil _ _))
        rw [trd_interrupt] at hahead
        exact Or.inr (Or.inr hahead)
      · rintro (hfalse | habsent | hahead)
        · cases hfalse
        · exact absurd habsent hpresent
        · refine ⟨fun _ => ?_, fun _ => ?_⟩
          · rw [trd_interrupt]
            exact hahead
          · exact disposed_interrupt _
  · rw [stop, if_pos hdisposed]
    exact iff_of_true h (Or.inl rfl)

/-- Past the broadcast nobody waits. -/
theorem Attended.past_iff (h : co.Attended) (hpast : ¬ Ahead co.trd)
    (hwaiting : co'.waiting = co.waiting) :
    co'.Attended ↔ (co.trd = .ready → co.handler = true ∨ co.waiting = []) :=
  iff_of_true (attended_of_nil (hwaiting.trans (h.waiting_eq_nil hpast))) fun hready =>
    absurd (by rw [hready]; trivial) hpast

/-- **The thread leaves somebody behind** exactly if it does not find its handler. -/
theorem Attended.cycle_iff (h : co.Attended) (hcycle : co.cycle = some co') :
    co'.Attended ↔ (co.trd = .ready → co.handler = true ∨ co.waiting = []) := by
  unfold cycle at hcycle
  split at hcycle
  · rename_i hready
    cases hcycle
    rcases hhandler : co.handler with _ | _
    · constructor
      · intro hattended _
        by_contra hwait
        exact hattended.ahead (fun hnil => hwait (Or.inr hnil))
      · intro hempty
        exact attended_of_nil ((hempty hready).resolve_left Bool.false_ne_true)
    · exact iff_of_true ⟨fun _ => trivial, h.disposed⟩ fun _ => Or.inl rfl
  · rename_i hat
    cases hcycle
    refine iff_of_true (attended_of_nil rfl) fun hready => ?_
    rw [hat] at hready
    cases hready
  · rename_i hat
    cases hcycle
    exact h.past_iff (by rw [hat]; exact id) rfl
  · rename_i hat
    cases hcycle
    exact h.past_iff (by rw [hat]; exact id) rfl
  · rename_i hat
    cases hcycle
    exact h.past_iff (by rw [hat]; exact id) rfl
  · rename_i hat
    cases hcycle
    exact h.past_iff (by rw [hat]; exact id) rfl
  · cases hcycle

/-- **One action leaves nobody behind** exactly if it is safe. -/
theorem Attended.step_iff [DecidableEq κ] (h : co.Attended) {a : Action κ} (hnext : co.Next a co') :
    co'.Attended ↔ co.Safe a co' := by
  cases a with
  | start created =>
    cases hnext
    exact iff_of_true (h.start created) trivial
  | cycle => exact h.cycle_iff hnext
  | handlerReturns err =>
    rw [Next, step] at hnext
    split at hnext
    · cases hnext
      exact iff_of_true ⟨fun _ => trivial, h.disposed⟩ trivial
    · cases hnext
  | destroyHandler =>
    cases hnext
    exact iff_of_true (h.congr rfl rfl rfl) trivial
  | interrupt =>
    cases hnext
    exact iff_of_true (h.congr (trd_interrupt co) (waiting_interrupt co) (disposed_interrupt co))
      trivial
  | stop caller =>
    rw [Next, step] at hnext
    split at hnext
    · cases hnext
    · cases hnext
      exact h.stop_iff caller
  | resume caller =>
    rw [Next, step] at hnext
    split at hnext
    · cases hnext
      exact iff_of_true (h.congr (trd_stopped _) (waiting_stopped _) (disposed_stopped _)) trivial
    · cases hnext

/-- Somebody waits and the broadcast has been, or will not be. -/
structure Stranded (co : STCoroutine κ) : Prop where
  waiting : co.waiting ≠ []
  disposed : co.disposed = true
  present : co.trd ≠ .absent
  past : ¬ Ahead co.trd

theorem Stranded.hung (h : co.Stranded) (hreturned : co.trd = .returned) : co.Hung :=
  ⟨hreturned, h.waiting⟩

theorem Stranded.congr (h : co.Stranded) (htrd : co'.trd = co.trd)
    (hwaiting : co'.waiting = co.waiting) (hdisposed : co'.disposed = co.disposed) :
    co'.Stranded :=
  ⟨hwaiting ▸ h.waiting, hdisposed.trans h.disposed, htrd ▸ h.present, htrd ▸ h.past⟩

theorem Attended.not_hung (h : co.Attended) : ¬ co.Hung := by
  rintro ⟨hreturned, hwait⟩
  have hahead := h.ahead hwait
  rw [hreturned] at hahead
  exact hahead

end Steps

/-! ## Every interleaving -/

section Interleavings

variable [DecidableEq κ] {tr : List (Action κ × STCoroutine κ)}

/-- Nobody is left behind along a run exactly if its actions are safe. -/
theorem attended_iff_safe (h : Along Next ({} : STCoroutine κ) tr) :
    Along (fun _ _ co => co.Attended) ({} : STCoroutine κ) tr ↔ Along Safe {} tr :=
  Along.iff_of_inv (I := Attended)
    (fun _ _ _ hco hnext => ⟨hco.step_iff hnext, (hco.step_iff hnext).2⟩) (attended_of_nil rfl) h

/-- **No caller of `stop` waits for a thread that has returned**, in any state that safe actions of
the thread, of the callers and of the owners of the handler lead to, in any order. -/
theorem no_caller_left_waiting (h : Along Next ({} : STCoroutine κ) tr)
    (hsafe : Along Safe ({} : STCoroutine κ) tr) : ∀ x ∈ tr, ¬ x.2.Hung :=
  ((attended_iff_safe h).2 hsafe).forall_mem fun _ _ _ hco => hco.not_hung

/-! ### Nothing repairs an unsafe action -/

variable {co co' : STCoroutine κ} {a : Action κ}

/-- **Who is left behind stays so**: no action makes another broadcast. -/
theorem Stranded.step (h : co.Stranded) (hnext : co.Next a co') : co'.Stranded := by
  cases a with
  | start created =>
    have hrefused : (co.started || co.disposed) = true := by
      rw [h.disposed, Bool.or_true]
    rw [Next, STCoroutine.step, STCoroutine.start, if_pos hrefused] at hnext
    cases hnext
    exact h.congr rfl rfl rfl
  | cycle =>
    have hpast := h.past
    rw [Next, STCoroutine.step, cycle] at hnext
    split at hnext
    · rename_i hat
      rw [hat] at hpast
      exact absurd trivial hpast
    · rename_i hat
      rw [hat] at hpast
      exact absurd trivial hpast
    · cases hnext
      exact ⟨h.waiting, rfl, nofun, id⟩
    · cases hnext
      exact ⟨h.waiting, h.disposed, nofun, id⟩
    · cases hnext
      exact ⟨h.waiting, h.disposed, nofun, id⟩
    · cases hnext
      exact ⟨h.waiting, h.disposed, nofun, id⟩
    · cases hnext
  | handlerReturns err =>
    have hpast := h.past
    rw [Next, STCoroutine.step] at hnext
    split at hnext
    · rename_i hat
      rw [hat] at hpast
      exact absurd trivial hpast
    · cases hnext
  | destroyHandler =>
    cases hnext
    exact h.congr rfl rfl rfl
  | interrupt =>
    cases hnext
    exact h.congr (trd_interrupt co) (waiting_interrupt co) (disposed_interrupt co)
  | stop caller =>
    rw [Next, STCoroutine.step] at hnext
    split at hnext
    · cases hnext
    · cases hnext
      rw [stop, if_pos h.disposed]
      exact h
  | resume caller =>
    rw [Next, STCoroutine.step] at hnext
    split at hnext
    · cases hnext
      exact h.congr (trd_stopped _) (waiting_stopped _) (disposed_stopped _)
    · cases hnext

/-- **An unsafe action leaves somebody behind.** -/
theorem Attended.stranded_of_not_safe (h : co.Attended) (hnext : co.Next a co')
    (hstray : ¬ co.Safe a co') : co'.Stranded := by
  cases a with
  | cycle =>
    obtain ⟨hready, hwait⟩ := Classical.not_imp.1 hstray
    obtain ⟨hhandler, hwaiting⟩ := not_or.1 hwait
    rw [Next, STCoroutine.step, cycle, hready] at hnext
    cases hnext
    refine ⟨hwaiting, h.disposed hwaiting, ?_, ?_⟩
    · dsimp only
      rw [if_neg hhandler]
      exact nofun
    · dsimp only
      rw [if_neg hhandler]
      exact id
  | stop caller =>
    obtain ⟨hdisposed, hpast⟩ := not_or.1 hstray
    obtain ⟨hpresent, hpast⟩ := not_or.1 hpast
    rw [Next, STCoroutine.step] at hnext
    split at hnext
    · cases hnext
    · cases hnext
      have hstop : co.stop caller = { interrupt { co with disposed := true } with
          waiting := co.waiting ++ [caller] } := by
        rw [stop, if_neg hdisposed]
        simp only [trd_interrupt, waiting_interrupt]
        rw [if_neg hpresent]
      rw [hstop]
      refine ⟨List.append_ne_nil_of_right_ne_nil _ (List.cons_ne_nil _ _), disposed_interrupt _, ?_,
        ?_⟩
      · dsimp only
        rw [trd_interrupt]
        exact hpresent
      · dsimp only
        rw [trd_interrupt]
        exact hpast
  | start _ => exact absurd trivial hstray
  | handlerReturns _ => exact absurd trivial hstray
  | destroyHandler => exact absurd trivial hstray
  | interrupt => exact absurd trivial hstray
  | resume _ => exact absurd trivial hstray

/-- Who is left behind is so at the end. -/
theorem Stranded.last {x : Action κ × STCoroutine κ} (h : x.2.Stranded)
    (hrun : Along Next x.2 tr) : ∃ y, (x :: tr).getLast? = some y ∧ y.2.Stranded := by
  induction tr generalizing x with
  | nil => exact ⟨x, rfl, h⟩
  | cons y tr ih =>
    rw [List.getLast?_cons_cons]
    exact ih (h.step hrun.1) hrun.2

/-- A run that leaves somebody behind ends so. -/
theorem Attended.last_stranded (h : co.Attended) (hrun : Along Next co tr)
    (hstray : ¬ Along Safe co tr) : ∃ x, tr.getLast? = some x ∧ x.2.Stranded := by
  induction tr generalizing co with
  | nil => exact absurd trivial hstray
  | cons x tr ih =>
    by_cases hsafe : co.Safe x.1 x.2
    · obtain ⟨y, hlast, hy⟩ := ih ((h.step_iff hrun.1).2 hsafe) hrun.2
        fun hrest => hstray ⟨hsafe, hrest⟩
      refine ⟨y, ?_, hy⟩
      rw [List.getLast?_cons, hlast]
      rfl
    · exact (h.stranded_of_not_safe hrun.1 hsafe).last hrun.2

/-- **Over whole runs the condition is exact**: of the runs in which the thread has returned, those
of safe actions are the ones that leave no caller waiting. -/
theorem returned_run_iff (h : Along Next ({} : STCoroutine κ) tr) {x : Action κ × STCoroutine κ}
    (hlast : tr.getLast? = some x) (hreturned : x.2.trd = .returned) :
    (∀ y ∈ tr, ¬ y.2.Hung) ↔ Along Safe ({} : STCoroutine κ) tr := by
  constructor
  · intro hnone
    by_contra hstray
    obtain ⟨y, hy, hstranded⟩ := (attended_of_nil rfl).last_stranded h hstray
    obtain rfl := Option.some.inj (hlast.symm.trans hy)
    exact hnone x (List.mem_of_getLast? hlast) (hstranded.hung hreturned)
  · intro hsafe
    exact ((attended_iff_safe h).2 hsafe).forall_mem fun _ _ _ hco => hco.not_hung

end Interleavings

/-- A caller stops a running thread and is woken by its broadcast. -/
def stoppedWhileRunning : List (Action ℕ) :=
  [.start true, .cycle, .stop 0, .handlerReturns 0, .cycle, .resume 0,
    .cycle, .cycle, .cycle, .cycle]

theorem no_caller_left_waiting_stopped :
    ¬ ∃ x ∈ trace step ({} : STCoroutine ℕ) stoppedWhileRunning, x.2.Hung := by
  rintro ⟨x, hx, hhung⟩
  exact no_caller_left_waiting (along_trace step {} stoppedWhileRunning)
    ⟨trivial, fun _ => Or.inl rfl, Or.inr (Or.inr trivial), trivial, nofun, trivial, nofun, nofun,
      nofun, nofun, trivial⟩ x hx hhung

/-- **A stop that is never answered**: the handler goes and its coroutine is stopped before the
thread has run. -/
theorem stop_waits_forever :
    ∃ tr, Along Next ({} : STCoroutine ℕ) tr ∧ ∃ x ∈ tr, x.2.Hung :=
  ⟨trace step {} [.start true, .destroyHandler, .stop 0, .cycle], along_trace step {} _, _,
    .tail _ (.tail _ (.tail _ (.head _))), rfl, List.cons_ne_nil _ _⟩

end STCoroutine

end SmartStreaming
