import SmartStreaming.Base.Defs
import SmartStreaming.Machinery.Slots

/-!
# Http/Mux — `HttpMux`, the handlers of the server

`register_handler` numbers the handlers itself and leaves its `level` alone, `delete_handler` goes
by the number, and `get_handler` goes through all that is left.  `getHandler_eq`: over every
sequence of calls, a pattern is served by the last handler registered for it whose number has not
been deleted since.
-/

namespace SmartStreaming

open Machinery

def errorSystemHandlerNotFound : ℤ := 10001

/-- `class HttpMuxEntry`; `handler` is a `shared_ptr`. -/
structure HttpMuxEntry where
  pattern : Bytes
  handler : Option ℕ
  deriving DecidableEq

/-- `class HttpMux`.  `last_level` is an `int`, counted here without a bound: what is said of it is
for fewer than `2 ^ 31` registrations. -/
structure HttpMux where
  levelHandlers : EntryMap ℤ HttpMuxEntry
  lastLevel : ℤ

namespace HttpMux

def new : HttpMux := ⟨⟨[], List.nodup_nil⟩, 0⟩

/-- `register_handler(pattern, level, user_handler)`. -/
def registerHandler (pattern : Bytes) (_level : ℤ) (userHandler : Option ℕ) (m : HttpMux) :
    HttpMux where
  levelHandlers := m.levelHandlers.insert (· ≤ ·) m.lastLevel ⟨pattern, userHandler⟩
  lastLevel := m.lastLevel + 1

/-- `delete_handler(pattern, level)`. -/
def deleteHandler (_pattern : Bytes) (level : ℤ) (m : HttpMux) : HttpMux :=
  { m with levelHandlers := m.levelHandlers.erase level }

/-- `get_handler(pattern, handler)`: what `handler` is set to, if nothing was set before. -/
def getHandler (pattern : Bytes) (m : HttpMux) : Except ℤ (Option ℕ) :=
  if m.levelHandlers.entries = [] then .error errorSystemHandlerNotFound
  else .ok (m.levelHandlers.entries.foldl
    (fun handler httpMux => if httpMux.2.pattern = pattern then httpMux.2.handler else handler)
    none)

/-- A call that changes the handlers. -/
inductive Op
  | register (pattern : Bytes) (level : ℤ) (userHandler : Option ℕ)
  | delete (pattern : Bytes) (level : ℤ)
  deriving DecidableEq

def apply (m : HttpMux) : Op → HttpMux
  | .register pattern level userHandler => m.registerHandler pattern level userHandler
  | .delete pattern level => m.deleteHandler pattern level

/-! ## What the calls amount to -/

/-- The handlers in the order in which they were registered; a deleted one has left its place
empty. -/
def registered (slots : List (Option HttpMuxEntry)) : Op → List (Option HttpMuxEntry)
  | .register pattern _ userHandler => slots ++ [some ⟨pattern, userHandler⟩]
  | .delete _ level => clearSlot level slots

/-- **The handler of a pattern** is the last one registered for it that is left. -/
def handlerOf (pattern : Bytes) (slots : List (Option HttpMuxEntry)) : Option ℕ :=
  ((slots.filterMap id).filter fun e => e.pattern = pattern).getLast?.bind HttpMuxEntry.handler

variable {m : HttpMux} {slots : List (Option HttpMuxEntry)}

/-- The map and its counter are those of the list. -/
structure Registered (m : HttpMux) (slots : List (Option HttpMuxEntry)) : Prop where
  numbers : m.levelHandlers.Numbers slots
  lastLevel : m.lastLevel = slots.length

theorem registered_new : new.Registered [] := ⟨rfl, rfl⟩

/-- One call. -/
theorem Registered.apply (h : m.Registered slots) (op : Op) :
    (m.apply op).Registered (registered slots op) := by
  cases op with
  | register pattern level userHandler =>
    refine ⟨?_, ?_⟩
    · rw [HttpMux.apply, registerHandler, h.lastLevel]
      exact h.numbers.insert _
    · rw [registered, List.length_append, List.length_singleton]
      change m.lastLevel + 1 = _
      rw [h.lastLevel, Nat.cast_add, Nat.cast_one]
  | delete pattern level =>
    refine ⟨h.numbers.erase level, ?_⟩
    change m.lastLevel = _
    rw [h.lastLevel, registered, clearSlot]
    split
    · rfl
    · rw [List.length_set]

/-- Any sequence of calls. -/
theorem Registered.foldl (h : m.Registered slots) (ops : List Op) :
    (ops.foldl HttpMux.apply m).Registered (ops.foldl registered slots) := by
  induction ops generalizing m slots with
  | nil => exact h
  | cons op ops ih => exact ih (h.apply op)

/-- The last of the entries that match is what a loop over all of them leaves. -/
theorem foldl_handler (pattern : Bytes) (entries : List HttpMuxEntry) :
    entries.foldl (fun handler e => if e.pattern = pattern then e.handler else handler) none
      = (entries.filter fun e => e.pattern = pattern).getLast?.bind HttpMuxEntry.handler := by
  induction entries using List.reverseRecOn with
  | nil => rfl
  | append_singleton entries e ih =>
    rw [List.foldl_append, List.foldl_cons, List.foldl_nil, List.filter_append]
    by_cases he : e.pattern = pattern
    · rw [if_pos he, List.filter_cons_of_pos (by simpa using he), List.filter_nil,
        List.getLast?_append, List.getLast?_singleton, Option.some_or, Option.bind_some]
    · rw [if_neg he, List.filter_cons_of_neg (by simpa using he), List.filter_nil,
        List.append_nil, ih]

theorem Registered.getHandler (h : m.Registered slots) (pattern : Bytes) :
    m.getHandler pattern = if slots.filterMap id = [] then .error errorSystemHandlerNotFound
      else .ok (handlerOf pattern slots) := by
  have hmap : m.levelHandlers.entries.map Prod.snd = slots.filterMap id := by
    rw [h.numbers, map_snd_numbered]
  rw [HttpMux.getHandler, handlerOf, ← foldl_handler, ← hmap, List.foldl_map]
  exact if_congr List.map_eq_nil_iff.symm rfl rfl

/-- What is left of the handlers has been registered. -/
theorem mem_foldl_registered {e : HttpMuxEntry} {ops : List Op}
    (h : some e ∈ ops.foldl registered slots) :
    some e ∈ slots ∨ ∃ level, .register e.pattern level e.handler ∈ ops := by
  induction ops generalizing slots with
  | nil => exact .inl h
  | cons op ops ih =>
    rcases ih h with hmem | ⟨level, hmem⟩
    · cases op with
      | register pattern level userHandler =>
        rcases List.mem_append.1 hmem with hold | hnew
        · exact .inl hold
        · obtain rfl := Option.some.inj (List.mem_singleton.1 hnew)
          exact .inr ⟨level, List.mem_cons_self⟩
      | delete pattern level =>
        rw [registered, clearSlot] at hmem
        split at hmem
        · exact .inl hmem
        · rcases List.mem_or_eq_of_mem_set hmem with hold | hnone
          · exact .inl hold
          · cases hnone
    · exact .inr ⟨level, List.mem_cons_of_mem _ hmem⟩

/-- A handler that is found has been registered for the pattern. -/
theorem registered_of_getHandler {ops : List Op} {pattern : Bytes} {handler : ℕ}
    (h : (ops.foldl apply new).getHandler pattern = .ok (some handler)) :
    ∃ level, .register pattern level (some handler) ∈ ops := by
  rw [(registered_new.foldl ops).getHandler pattern] at h
  split at h
  · cases h
  · obtain ⟨e, hlast, he⟩ := Option.bind_eq_some_iff.1 (Except.ok.inj h)
    obtain ⟨hmem, hpattern⟩ := List.mem_filter.1 (List.mem_of_getLast? hlast)
    obtain ⟨slot, hslot, rfl⟩ := List.mem_filterMap.1 hmem
    obtain rfl : e.pattern = pattern := of_decide_eq_true hpattern
    rcases mem_foldl_registered hslot with hnil | hop
    · exact absurd hnil List.not_mem_nil
    · rwa [he] at hop

/-- **What `get_handler` finds**, after any sequence of calls: an error if all handlers have been
deleted, else the last handler that is left of those registered for the pattern, if any.  Neither
the level given with a registration nor the pattern given with a deletion makes a difference. -/
theorem getHandler_eq (ops : List Op) (pattern : Bytes) :
    (ops.foldl apply new).getHandler pattern
      = if (ops.foldl registered []).filterMap id = [] then .error errorSystemHandlerNotFound
        else .ok (handlerOf pattern (ops.foldl registered [])) :=
  (registered_new.foldl ops).getHandler pattern

/-- What was registered under a level is not what is deleted with it. -/
example : ([.register (text "/") 5 (some 1), .register (text "/") 1 (some 2),
    .delete (text "/") 1].foldl apply new).getHandler (text "/") = .ok (some 1) := by decide

end HttpMux

end SmartStreaming
