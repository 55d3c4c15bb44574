import SmartStreaming.Machinery.Mask
import SmartStreaming.Machinery.Trace
import SmartStreaming.Transport.Srt
import Mathlib.Logic.Function.Basic

/-!
# Transport/SrtDispatch — `SrtStDispatch`: coroutines waiting for events of sockets

    st_srt_epoll:  mask |= event | ERR ──▸ conditions[fd] += self ──▸ wait
                   ──▸ conditions[fd] -= self ──▸ mask = the others' events, or none
    cycle:         event ──▸ conditions[fd] -= notified ──▸ wake them

A coroutine that comes back sets the mask to the events of those who still wait, without
`ST_SRT_ERR`; one that timed out alone takes the socket out of the epoll set and leaves its empty
entry, for which the next call updates a socket that is not there (`watched_iff_safe`).
-/

namespace SmartStreaming

open Machinery

/-! ## The model -/

def errorSrtSocketBroken : ℤ := 10112
def errorSrtSocketClosing : ℤ := 10113
def errorSrtSocketNoexist : ℤ := 10114
def errorSrtSocketOther : ℤ := 10115
def errorSrtSocketEintr : ℤ := 10116

/-- `enum StSrtEvent` -/
inductive StSrtEvent
  | srtIn
  | srtOut
  | srtErr
  | srtConn
  | srtAccept
  deriving DecidableEq, Repr

/-- The flags of the library, whatever their values are: `ST_SRT_ERR` is apart from the others. -/
structure SrtEpollOpt where
  bits : StSrtEvent → BitVec 32
  etonly : BitVec 32
  bits_ne : ∀ e, bits e ≠ 0
  err_apart : ∀ e, e ≠ .srtErr → bits e &&& bits .srtErr = 0
  etonly_apart : etonly &&& bits .srtErr = 0

/-- `enum SRT_SOCKSTATUS`, as far as `st_srt_socket_error` tells them apart. -/
inductive SrtSockStatus
  | broken
  | closing
  | closed
  | nonexist
  | other

def stSrtSocketError : SrtSockStatus → ℤ
  | .broken => errorSrtSocketBroken
  | .closing => errorSrtSocketClosing
  | .closed => errorSrtSocketAlreadyClosed
  | .nonexist => errorSrtSocketNoexist
  | .other => errorSrtSocketOther

/-- An epoll set: the masks of its sockets.  `strays` are the sockets that `epoll_update_usock` was
called for when they were not in it. -/
structure Epoll where
  mask : ℤ → Option (BitVec 32) := fun _ => none
  strays : List ℤ := []

namespace Epoll

/-- `epoll_add_usock`; a call that fails changes nothing. -/
def addUsock (fd : ℤ) (evt : BitVec 32) (ok : Bool) (e : Epoll) : Epoll :=
  if ok then { e with mask := Function.update e.mask fd (some evt) } else e

/-- `epoll_update_usock` -/
def updateUsock (fd : ℤ) (evt : BitVec 32) (ok : Bool) (e : Epoll) : Epoll :=
  addUsock fd evt ok { e with strays := if e.mask fd = none then fd :: e.strays else e.strays }

/-- `epoll_remove_usock` -/
def removeUsock (fd : ℤ) (ok : Bool) (e : Epoll) : Epoll :=
  if ok then { e with mask := Function.update e.mask fd none } else e

section Masks

variable {fd fd' : ℤ} {evt : BitVec 32} {ok : Bool} {e : Epoll}

theorem mask_addUsock_self : (e.addUsock fd evt true).mask fd = some evt :=
  Function.update_self fd _ _

theorem mask_addUsock_of_ne (h : fd' ≠ fd) : (e.addUsock fd evt ok).mask fd' = e.mask fd' := by
  cases ok with
  | false => rfl
  | true => exact Function.update_of_ne h _ _

@[simp] theorem strays_addUsock : (e.addUsock fd evt ok).strays = e.strays := by
  cases ok <;> rfl

theorem mask_updateUsock_self : (e.updateUsock fd evt true).mask fd = some evt :=
  mask_addUsock_self

theorem mask_updateUsock_failed : (e.updateUsock fd evt false).mask = e.mask := rfl

theorem mask_updateUsock_of_ne (h : fd' ≠ fd) :
    (e.updateUsock fd evt ok).mask fd' = e.mask fd' :=
  mask_addUsock_of_ne h

theorem strays_updateUsock_eq_nil_iff :
    (e.updateUsock fd evt ok).strays = [] ↔ e.strays = [] ∧ e.mask fd ≠ none := by
  rw [updateUsock, strays_addUsock]
  dsimp only
  split
  · rename_i hnone
    exact iff_of_false (List.cons_ne_nil _ _) fun hboth => hboth.2 hnone
  · rename_i hsome
    exact (and_iff_left hsome).symm

theorem mask_removeUsock_of_ne (h : fd' ≠ fd) : (e.removeUsock fd ok).mask fd' = e.mask fd' := by
  cases ok with
  | false => rfl
  | true => exact Function.update_of_ne h _ _

@[simp] theorem strays_removeUsock : (e.removeUsock fd ok).strays = e.strays := by
  cases ok <;> rfl

end Masks

end Epoll

/-- `class SrtEventCondition`, on the stack of its caller. -/
structure SrtEventCondition (κ : Type) where
  caller : κ
  event : StSrtEvent
  err : ℤ := errorSuccess
  deriving DecidableEq

/-- How `st_cond_timedwait` returns. -/
inductive CondWait
  | woken
  | timedOut
  | interrupted
  | failed
  deriving DecidableEq

/-- What the wait alone makes `st_srt_epoll` return. -/
def CondWait.code : CondWait → ℤ
  | woken => errorSuccess
  | timedOut => errorSrtSocketTimeout
  | interrupted => errorSrtSocketEintr
  | failed => errorSrtSocketOther

/-- `class SrtStDispatch`, called by the coroutines of `κ`: `calling` are those in a call, `woken`
the conditions that the dispatcher has notified and whose callers have not come back yet. -/
structure SrtStDispatch (κ : Type) where
  conditions : ℤ → Option (List (SrtEventCondition κ)) := fun _ => none
  epoll : Epoll := {}
  woken : List (ℤ × SrtEventCondition κ) := []
  calling : List κ := []

namespace SrtStDispatch

variable {κ : Type}

/-- The conditions of a socket. -/
def registered (fd : ℤ) (d : SrtStDispatch κ) : List (SrtEventCondition κ) :=
  (d.conditions fd).getD []

section Model

variable (opt : SrtEpollOpt)

/-- `get_exits_evt(fd)` -/
def getExitsEvt (fd : ℤ) (d : SrtStDispatch κ) : BitVec 32 :=
  match d.conditions fd with
  | none => 0
  | some sets => orAll (fun e => opt.bits e.event) sets

/-- The epoll set with the events of a call that begins. -/
def watch (fd : ℤ) (event : StSrtEvent) (ok : Bool) (d : SrtStDispatch κ) : Epoll :=
  match d.conditions fd with
  | none => d.epoll.addUsock fd (opt.bits event ||| opt.bits .srtErr) ok
  | some _ =>
    d.epoll.updateUsock fd
      (d.getExitsEvt opt fd ||| opt.bits event ||| opt.bits .srtErr ||| opt.etonly) ok

/-- The epoll set without those of a call that ends. -/
def unwatch (fd : ℤ) (ok : Bool) (d : SrtStDispatch κ) : Epoll :=
  if d.getExitsEvt opt fd = 0 then d.epoll.removeUsock fd ok
  else d.epoll.updateUsock fd (d.getExitsEvt opt fd ||| opt.etonly) ok

/-- `st_srt_epoll(fd, event, timeout, err)` up to the wait, or what it returns before it. -/
def stSrtEpoll (fd : ℤ) (event : StSrtEvent) (caller : κ) (ok : Bool) (d : SrtStDispatch κ) :
    Option ℤ × SrtStDispatch κ :=
  if ok then
    (none,
      { d with
        epoll := d.watch opt fd event ok
        conditions :=
          Function.update d.conditions fd (some (d.registered fd ++ [{ caller, event }]))
        calling := caller :: d.calling })
  else (some srtError, { d with epoll := d.watch opt fd event ok })

variable [DecidableEq κ]

/-- The conditions of a socket other than the caller's. -/
def others (fd : ℤ) (caller : κ) (d : SrtStDispatch κ) : List (SrtEventCondition κ) :=
  (d.registered fd).filter fun e => e.caller ≠ caller

/-- `st_srt_epoll` after the wait, and what it returns. -/
def stSrtEpollResumed (fd : ℤ) (cnd : SrtEventCondition κ) (wait : CondWait) (ok : Bool)
    (d : SrtStDispatch κ) : ℤ × SrtStDispatch κ :=
  let d := { d with
    conditions :=
      Function.update d.conditions fd ((d.conditions fd).map fun _ => d.others fd cnd.caller)
    woken := d.woken.erase (fd, cnd)
    calling := d.calling.erase cnd.caller }
  (if cnd.err ≠ errorSuccess then cnd.err else wait.code,
    { d with epoll := d.unwatch opt fd ok })

/-- Whether the dispatcher notifies a condition of a socket with these events. -/
def notifies (events : BitVec 32) (cnd : SrtEventCondition κ) : Bool :=
  events &&& opt.bits .srtErr ≠ 0 ∨ events &&& opt.bits cnd.event ≠ 0

/-- One event of a pass of `cycle`; an unknown socket has no condition (`epoll_remove_ssock` takes
system sockets out of the set, no SRT ones). -/
def dispatch (fd : ℤ) (events : BitVec 32) (status : SrtSockStatus) (d : SrtStDispatch κ) :
    SrtStDispatch κ :=
  match d.conditions fd with
  | none => d
  | some sets =>
    let mark : SrtEventCondition κ → SrtEventCondition κ := fun cnd =>
      if events &&& opt.bits .srtErr ≠ 0 then { cnd with err := stSrtSocketError status } else cnd
    let rest := sets.filter fun cnd => !notifies opt events cnd
    { d with
      conditions := Function.update d.conditions fd (if rest = [] then none else some rest)
      woken := d.woken ++ (sets.filter (notifies opt events)).map fun cnd => (fd, mark cnd) }

/-- What happens to the dispatcher: a coroutine calls, or comes back from its wait; the cycle
handles an event. -/
inductive Action (κ : Type)
  | call (fd : ℤ) (event : StSrtEvent) (caller : κ) (ok : Bool)
  | resume (fd : ℤ) (cnd : SrtEventCondition κ) (wait : CondWait) (ok : Bool)
  | event (fd : ℤ) (events : BitVec 32) (status : SrtSockStatus)

/-- One action, if it can happen: a coroutine waits in one call at a time, and comes back woken by
the dispatcher or otherwise. -/
def step (d : SrtStDispatch κ) : Action κ → Option (SrtStDispatch κ)
  | .call fd event caller ok =>
    if caller ∈ d.calling then none else some (d.stSrtEpoll opt fd event caller ok).2
  | .resume fd cnd wait ok =>
    if (fd, cnd) ∈ d.woken ∨ cnd ∈ d.registered fd ∧ wait ≠ .woken then
      some (d.stSrtEpollResumed opt fd cnd wait ok).2
    else none
  | .event fd events status => some (d.dispatch opt fd events status)

/-- A step of the machine. -/
def Next (d : SrtStDispatch κ) (a : Action κ) (d' : SrtStDispatch κ) : Prop :=
  d.step opt a = some d'

/-- The mask of a socket with waiters has `ST_SRT_ERR` and what each of them waits for. -/
def Covered (d : SrtStDispatch κ) (fd : ℤ) : Prop :=
  d.registered fd ≠ [] → ∃ m, d.epoll.mask fd = some m
    ∧ Within (opt.bits .srtErr) m ∧ ∀ cnd ∈ d.registered fd, Within (opt.bits cnd.event) m

/-- **Every socket with waiters is watched**, and only sockets of the epoll set were updated. -/
structure Watched (d : SrtStDispatch κ) : Prop where
  covered : ∀ fd, d.Covered opt fd
  strays : d.epoll.strays = []

/-- **The actions that keep the sockets watched**: a call does not find the entry that a waiter has
left empty behind a socket taken out of the set; who comes back leaves no other waiter, or one for
`ST_SRT_ERR` itself, or fails to update the mask. -/
def Safe (d : SrtStDispatch κ) (a : Action κ) (_ : SrtStDispatch κ) : Prop :=
  match a with
  | .call fd _ _ _ => d.conditions fd = some [] → d.epoll.mask fd ≠ none
  | .resume fd cnd _ ok =>
    ok = false ∨ d.others fd cnd.caller = [] ∨ ∃ e ∈ d.others fd cnd.caller, e.event = .srtErr
  | .event _ _ _ => True

end Model

/-! ## One action -/

section Steps

variable {opt : SrtEpollOpt} {d d' : SrtStDispatch κ} {fd : ℤ}

theorem getExitsEvt_eq :
    d.getExitsEvt opt fd = orAll (fun e => opt.bits e.event) (d.registered fd) := by
  rw [getExitsEvt, registered]
  cases d.conditions fd <;> rfl

/-- What a coroutine waits for is among the events of the socket. -/
theorem within_getExitsEvt {cnd : SrtEventCondition κ} (h : cnd ∈ d.registered fd) :
    Within (opt.bits cnd.event) (d.getExitsEvt opt fd) := by
  rw [getExitsEvt_eq]
  exact within_orAll (f := fun e => opt.bits e.event) h

/-- Where only one socket's conditions and mask change, only that socket is to be looked at. -/
theorem Watched.iff_at (h : d.Watched opt) (fd : ℤ)
    (hregistered : ∀ fd', fd' ≠ fd → d'.registered fd' = d.registered fd')
    (hmask : ∀ fd', fd' ≠ fd → d'.epoll.mask fd' = d.epoll.mask fd') :
    d'.Watched opt ↔ d'.Covered opt fd ∧ d'.epoll.strays = [] := by
  refine ⟨fun hw => ⟨hw.covered fd, hw.strays⟩, fun ⟨hcovered, hstrays⟩ => ⟨fun fd' => ?_, hstrays⟩⟩
  rcases eq_or_ne fd' fd with rfl | hne
  · exact hcovered
  · rw [Covered, hregistered fd' hne, hmask fd' hne]
    exact h.covered fd'

/-- A socket with an entry that is not empty is in the epoll set. -/
theorem Watched.mask_ne_none (h : d.Watched opt) (hwait : d.registered fd ≠ []) :
    d.epoll.mask fd ≠ none := by
  obtain ⟨m, hm, -⟩ := h.covered fd hwait
  rw [hm]
  exact Option.some_ne_none m

theorem registered_update_of_ne {fd' : ℤ} {v : Option (List (SrtEventCondition κ))}
    {epoll : Epoll} {woken : List (ℤ × SrtEventCondition κ)} {calling : List κ} (h : fd' ≠ fd) :
    (SrtStDispatch.mk (Function.update d.conditions fd v) epoll woken calling).registered fd'
      = d.registered fd' := by
  rw [registered]
  dsimp only
  rw [Function.update_of_ne h]
  rfl

theorem registered_update_self {v : Option (List (SrtEventCondition κ))} {epoll : Epoll}
    {woken : List (ℤ × SrtEventCondition κ)} {calling : List κ} :
    (SrtStDispatch.mk (Function.update d.conditions fd v) epoll woken calling).registered fd
      = v.getD [] := by
  rw [registered]
  dsimp only
  rw [Function.update_self]

/-! ### Calls -/

theorem mask_watch_of_ne {event : StSrtEvent} {ok : Bool} {fd' : ℤ} (h : fd' ≠ fd) :
    (d.watch opt fd event ok).mask fd' = d.epoll.mask fd' := by
  unfold watch
  split
  · exact Epoll.mask_addUsock_of_ne h
  · exact Epoll.mask_updateUsock_of_ne h

theorem mask_watch_failed {event : StSrtEvent} :
    (d.watch opt fd event false).mask = d.epoll.mask := by
  unfold watch
  split <;> rfl

/-- The new mask has the error flag, the events of those who wait and the caller's. -/
theorem exists_mask_watch {event : StSrtEvent} :
    ∃ m, (d.watch opt fd event true).mask fd = some m ∧ Within (opt.bits .srtErr) m
      ∧ Within (opt.bits event) m
      ∧ ∀ cnd ∈ d.registered fd, Within (opt.bits cnd.event) m := by
  unfold watch
  split
  · rename_i hnone
    refine ⟨_, Epoll.mask_addUsock_self, (within_refl _).or_left _, (within_refl _).or_right _, ?_⟩
    intro cnd hcnd
    rw [registered, hnone] at hcnd
    cases hcnd
  · refine ⟨_, Epoll.mask_updateUsock_self, ((within_refl _).or_left _).or_right _,
      (((within_refl _).or_left _).or_right _).or_right _, fun cnd hcnd => ?_⟩
    exact (((within_getExitsEvt hcnd).or_right _).or_right _).or_right _

/-- A call updates a socket outside the epoll set only where its entry is empty. -/
theorem Watched.strays_watch_iff (h : d.Watched opt) {event : StSrtEvent} {ok : Bool} :
    (d.watch opt fd event ok).strays = []
      ↔ (d.conditions fd = some [] → d.epoll.mask fd ≠ none) := by
  unfold watch
  split
  · rename_i hnone
    rw [Epoll.strays_addUsock]
    exact iff_of_true h.strays fun hempty => by
      rw [hnone] at hempty
      cases hempty
  · rename_i sets hsome
    rw [Epoll.strays_updateUsock_eq_nil_iff, and_iff_right h.strays]
    refine ⟨fun hmask _ => hmask, fun hempty => ?_⟩
    rcases eq_or_ne sets [] with rfl | hwait
    · exact hempty hsome
    · refine h.mask_ne_none ?_
      rw [registered, hsome]
      exact hwait

/-- **A call** breaks the watch exactly if it finds an empty entry of a socket that is not in the
epoll set. -/
theorem Watched.call_iff (h : d.Watched opt) (event : StSrtEvent) (caller : κ) (ok : Bool) :
    (d.stSrtEpoll opt fd event caller ok).2.Watched opt
      ↔ (d.conditions fd = some [] → d.epoll.mask fd ≠ none) := by
  have hstrays : (d.watch opt fd event ok).strays = []
      ↔ (d.conditions fd = some [] → d.epoll.mask fd ≠ none) := h.strays_watch_iff
  rw [← hstrays]
  cases ok with
  | false =>
    have hcall : (d.stSrtEpoll opt fd event caller false).2
        = { d with epoll := d.watch opt fd event false } := rfl
    rw [hcall]
    refine (h.iff_at fd (fun _ _ => ?_) fun _ hne => ?_).trans (and_iff_right fun hwait => ?_)
    · rfl
    · exact mask_watch_of_ne hne
    change ∃ m, (d.watch opt fd event false).mask fd = some m ∧ _
    rw [mask_watch_failed]
    exact h.covered fd hwait
  | true =>
    have hcall : (d.stSrtEpoll opt fd event caller true).2
        = { d with
            epoll := d.watch opt fd event true
            conditions :=
              Function.update d.conditions fd (some (d.registered fd ++ [{ caller, event }]))
            calling := caller :: d.calling } := rfl
    rw [hcall]
    refine (h.iff_at fd (fun _ hne => ?_) fun _ hne => ?_).trans (and_iff_right fun _ => ?_)
    · exact registered_update_of_ne hne
    · exact mask_watch_of_ne hne
    obtain ⟨m, hm, herr, hevent, hrest⟩ : ∃ m, (d.watch opt fd event true).mask fd = some m ∧ _ :=
      exists_mask_watch
    refine ⟨m, hm, herr, fun cnd hcnd => ?_⟩
    rw [registered_update_self, Option.getD_some] at hcnd
    rcases List.mem_append.1 hcnd with hold | hnew
    · exact hrest cnd hold
    · rw [List.mem_singleton.1 hnew]
      exact hevent

/-! ### Wake-ups and events -/

theorem mask_unwatch_of_ne {ok : Bool} {fd' : ℤ} (h : fd' ≠ fd) :
    (d.unwatch opt fd ok).mask fd' = d.epoll.mask fd' := by
  unfold unwatch
  split
  · exact Epoll.mask_removeUsock_of_ne h
  · exact Epoll.mask_updateUsock_of_ne h

/-- Nobody waits exactly if there is no event left. -/
theorem getExitsEvt_eq_zero_iff : d.getExitsEvt opt fd = 0 ↔ d.registered fd = [] := by
  rw [getExitsEvt_eq]
  exact orAll_eq_zero_iff fun cnd _ => opt.bits_ne cnd.event

/-- Without a waiter for it, the error flag is not among the events left. -/
theorem within_getExitsEvt_iff :
    Within (opt.bits .srtErr) (d.getExitsEvt opt fd ||| opt.etonly)
      ↔ ∃ cnd ∈ d.registered fd, cnd.event = .srtErr := by
  constructor
  · intro hwithin
    by_contra hnone
    rw [getExitsEvt_eq] at hwithin
    refine opt.bits_ne .srtErr (hwithin.eq_zero (or_and_eq_zero ?_ opt.etonly_apart))
    exact orAll_and_eq_zero fun cnd hcnd =>
      opt.err_apart cnd.event fun herr => hnone ⟨cnd, hcnd, herr⟩
  · rintro ⟨cnd, hcnd, herr⟩
    have hbits : Within (opt.bits cnd.event) (d.getExitsEvt opt fd) := within_getExitsEvt hcnd
    rw [herr] at hbits
    exact hbits.or_right _

/-- Those who wait for a socket, without the one who comes back. -/
theorem registered_resumed [DecidableEq κ] {caller : κ} {epoll : Epoll}
    {woken : List (ℤ × SrtEventCondition κ)} {calling : List κ} :
    (SrtStDispatch.mk (Function.update d.conditions fd
        ((d.conditions fd).map fun _ => d.others fd caller)) epoll woken calling).registered fd
      = d.others fd caller := by
  rw [registered_update_self, others, registered]
  cases d.conditions fd <;> rfl

/-- **The mask of those who are left** watches them exactly if it could not be set, or nobody is
left, or somebody who waits for `ST_SRT_ERR`. -/
theorem Watched.unwatch_iff (h : d.Watched opt) (hepoll : d'.epoll = d.epoll)
    (hsub : ∀ e ∈ d'.registered fd, e ∈ d.registered fd) (ok : Bool) :
    ({ d' with epoll := d'.unwatch opt fd ok }.Covered opt fd
        ∧ (d'.unwatch opt fd ok).strays = [])
      ↔ ok = false ∨ d'.registered fd = [] ∨ ∃ e ∈ d'.registered fd, e.event = .srtErr := by
  change ((d'.registered fd ≠ [] → ∃ m, (d'.unwatch opt fd ok).mask fd = some m ∧ _ ∧ _)
    ∧ (d'.unwatch opt fd ok).strays = []) ↔ _
  by_cases hnil : d'.registered fd = []
  · rw [unwatch, if_pos (getExitsEvt_eq_zero_iff.2 hnil), Epoll.strays_removeUsock, hepoll]
    exact iff_of_true ⟨fun hne => absurd hnil hne, h.strays⟩ (Or.inr (Or.inl hnil))
  · have hwait : d.registered fd ≠ [] := by
      intro hempty
      obtain ⟨e, he⟩ := List.exists_mem_of_ne_nil _ hnil
      have hold := hsub e he
      rw [hempty] at hold
      cases hold
    rw [unwatch, if_neg (mt getExitsEvt_eq_zero_iff.1 hnil), Epoll.strays_updateUsock_eq_nil_iff,
      hepoll, and_iff_left ⟨h.strays, h.mask_ne_none hwait⟩]
    cases ok with
    | false =>
      rw [Epoll.mask_updateUsock_failed]
      refine iff_of_true (fun _ => ?_) (Or.inl rfl)
      obtain ⟨m, hm, herr, hall⟩ := h.covered fd hwait
      exact ⟨m, hm, herr, fun e he => hall e (hsub e he)⟩
    | true =>
      rw [Epoll.mask_updateUsock_self, or_iff_right Bool.noConfusion, or_iff_right hnil,
        ← within_getExitsEvt_iff]
      constructor
      · intro hcovered
        obtain ⟨m, hm, herr, -⟩ := hcovered hnil
        rwa [Option.some.inj hm]
      · refine fun herr _ => ⟨_, rfl, herr, fun e he => ?_⟩
        exact (within_getExitsEvt he).or_right _

/-- **A wake-up** breaks the watch exactly if it sets the mask to the events of others among whom
nobody waits for `ST_SRT_ERR`. -/
theorem Watched.resume_iff [DecidableEq κ] (h : d.Watched opt) (cnd : SrtEventCondition κ)
    (wait : CondWait) (ok : Bool) :
    (d.stSrtEpollResumed opt fd cnd wait ok).2.Watched opt
      ↔ ok = false ∨ d.others fd cnd.caller = []
        ∨ ∃ e ∈ d.others fd cnd.caller, e.event = .srtErr := by
  obtain ⟨d₁, hd₁⟩ : ∃ d₁, { d with
      conditions :=
        Function.update d.conditions fd ((d.conditions fd).map fun _ => d.others fd cnd.caller)
      woken := d.woken.erase (fd, cnd)
      calling := d.calling.erase cnd.caller } = d₁ := ⟨_, rfl⟩
  have hresumed : (d.stSrtEpollResumed opt fd cnd wait ok).2
      = { d₁ with epoll := d₁.unwatch opt fd ok } := by
    rw [← hd₁]
    rfl
  have hothers : d₁.registered fd = d.others fd cnd.caller := by
    rw [← hd₁]
    exact registered_resumed
  have hepoll : d₁.epoll = d.epoll := by rw [← hd₁]
  have hsub : ∀ e ∈ d₁.registered fd, e ∈ d.registered fd := by
    intro e he
    rw [hothers] at he
    exact List.mem_of_mem_filter he
  rw [hresumed, ← hothers]
  refine (h.iff_at fd (fun fd' hne => ?_) fun fd' hne => ?_).trans (h.unwatch_iff hepoll hsub ok)
  · rw [← hd₁]
    exact registered_update_of_ne hne
  · change (d₁.unwatch opt fd ok).mask fd' = _
    rw [mask_unwatch_of_ne hne, hepoll]

/-- The dispatcher only takes waiters away. -/
theorem Watched.dispatch (h : d.Watched opt) (events : BitVec 32) (status : SrtSockStatus) :
    (d.dispatch opt fd events status).Watched opt := by
  rw [SrtStDispatch.dispatch]
  split
  · exact h
  · rename_i sets hsome
    have hregistered : d.registered fd = sets := by
      rw [registered, hsome]
      rfl
    refine (h.iff_at fd (fun _ hne => ?_) fun _ _ => ?_).2 ⟨fun hwait => ?_, h.strays⟩
    · exact registered_update_of_ne hne
    · rfl
    · have hrest : ∀ rest : List (SrtEventCondition κ),
          (if rest = [] then none else some rest).getD [] = rest := by
        intro rest
        split
        · rename_i hnil
          exact hnil.symm
        · rfl
      rw [registered_update_self, hrest] at hwait
      have hnonempty : sets ≠ [] := fun hnil => hwait (by rw [hnil]; rfl)
      obtain ⟨m, hm, herr, hall⟩ := h.covered fd (hregistered ▸ hnonempty)
      refine ⟨m, hm, herr, fun cnd hcnd => hall cnd ?_⟩
      rw [registered_update_self, hrest] at hcnd
      rw [hregistered]
      exact List.mem_of_mem_filter hcnd

/-- **One action keeps the sockets watched** exactly if it is safe. -/
theorem Watched.step_iff [DecidableEq κ] (h : d.Watched opt) {a : Action κ}
    (hnext : d.Next opt a d') : d'.Watched opt ↔ d.Safe a d' := by
  cases a with
  | call fd event caller ok =>
    rw [Next, step] at hnext
    split at hnext
    · cases hnext
    · cases hnext
      exact h.call_iff event caller ok
  | resume fd cnd wait ok =>
    rw [Next, step] at hnext
    split at hnext
    · cases hnext
      exact h.resume_iff cnd wait ok
    · cases hnext
  | event fd events status =>
    cases hnext
    exact iff_of_true (h.dispatch events status) trivial

end Steps

/-! ## Every interleaving -/

theorem watched_new (opt : SrtEpollOpt) : ({} : SrtStDispatch κ).Watched opt :=
  ⟨fun _ hwait => absurd rfl hwait, rfl⟩

/-- **The sockets with waiters stay watched** over any interleaving of calls, wake-ups and events,
for any coroutines and sockets, exactly if each action of it is safe. -/
theorem watched_iff_safe [DecidableEq κ] (opt : SrtEpollOpt)
    {tr : List (Action κ × SrtStDispatch κ)} (h : Along (Next opt) ({} : SrtStDispatch κ) tr) :
    Along (fun _ _ d => d.Watched opt) ({} : SrtStDispatch κ) tr
      ↔ Along Safe ({} : SrtStDispatch κ) tr :=
  Along.iff_of_inv (I := fun d => d.Watched opt)
    (fun _ _ _ hd hnext => ⟨hd.step_iff hnext, (hd.step_iff hnext).2⟩) (watched_new opt) h

/-- The flags of the library, and one apart from them for `SRT_EPOLL_ETONLY`. -/
def libraryOpt : SrtEpollOpt where
  bits
    | .srtIn => 0x1
    | .srtOut => 0x4
    | .srtErr => 0x8
    | .srtConn => 0x4
    | .srtAccept => 0x1
  etonly := 0x10
  bits_ne e := by cases e <;> decide
  err_apart e he := by
    cases e with
    | srtErr => exact absurd rfl he
    | _ => decide
  etonly_apart := by decide

/-- A reader and a writer of one socket are woken together, and a reader of another times out. -/
def twoSockets : List (Action ℕ) :=
  [.call 5 .srtIn 0 true, .call 5 .srtOut 1 true, .call 6 .srtIn 2 true, .event 5 0x5 .other,
    .resume 5 { caller := 0, event := .srtIn } .woken true,
    .resume 6 { caller := 2, event := .srtIn } .timedOut true,
    .resume 5 { caller := 1, event := .srtOut } .woken true]

theorem watched_iff_safe_two_sockets :
    (trace (step libraryOpt) {} twoSockets).map Prod.fst = twoSockets
      ∧ Along (fun _ _ d => d.Watched libraryOpt) ({} : SrtStDispatch ℕ)
          (trace (step libraryOpt) {} twoSockets) := by
  refine ⟨rfl, ?_⟩
  refine (watched_iff_safe libraryOpt (along_trace (step libraryOpt) {} twoSockets)).2 ?_
  refine ⟨fun hempty => ?_, fun hempty => ?_, fun hempty => ?_, trivial, ?_, ?_, ?_, trivial⟩
  · cases hempty
  · cases hempty
  · cases hempty
  -- nobody waits for the socket any more when somebody comes back
  · exact Or.inr (Or.inl rfl)
  · exact Or.inr (Or.inl rfl)
  · exact Or.inr (Or.inl rfl)

/-- **A reader strips a writer's socket of `ST_SRT_ERR`**: it was woken while the writer waits. -/
theorem woken_reader_drops_err :
    ∃ tr, Along (Next libraryOpt) ({} : SrtStDispatch ℕ) tr
      ∧ ¬ Along (fun _ _ d => d.Watched libraryOpt) ({} : SrtStDispatch ℕ) tr := by
  refine ⟨trace (step libraryOpt) {} [.call 5 .srtIn 0 true, .call 5 .srtOut 1 true,
    .event 5 0x1 .other, .resume 5 { caller := 0, event := .srtIn } .woken true],
    along_trace (step libraryOpt) {} _, ?_⟩
  rintro ⟨-, -, -, hwatched, -⟩
  obtain ⟨m, hm, herr, -⟩ := hwatched.covered 5 (by decide)
  cases hm
  exact absurd herr (by decide)

end SrtStDispatch

end SmartStreaming
