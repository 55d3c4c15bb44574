import SmartStreaming.Cache.Channel
import SmartStreaming.Http.Mux
import SmartStreaming.Http.Parser
import Mathlib.Data.Finset.Erase
import Mathlib.Data.Finset.Insert

/-!
# Http/Server — the connections of an `HttpServer`

`IServer::cycle` accepts connections, each of which gets a handler with a coroutine of its own: it
parses a request, has a user handler serve it, and goes on parsing requests until the connection is
stopped.  A coroutine gives way to the others while it accepts, parses or serves; everything between
two such points is one step.  `connections_served`: over every run, the handlers that are registered
are those at work, and of the requests of a connection only the first is served, by a handler that
was registered for `/`.
-/

namespace SmartStreaming

open Machinery

/-- Where `HttpConnHandler::cycle` waits. -/
inductive ConnPhase
  /-- In the first `parse_request`. -/
  | parsing
  /-- In `user_handler->handle_request`. -/
  | serving
  /-- In a later `parse_request`. -/
  | draining
  deriving DecidableEq

/-- `class HttpConnHandler`, and the connection that it handles. -/
structure HttpConnHandler where
  phase : ConnPhase := .parsing
  co : Coroutine := {}
  connIsStop : Bool := false
  recvTimeoutMs : ℤ := 3 * 1000
  deriving DecidableEq

namespace HttpConnHandler

/-- `on_thread_stop()`, for the handler itself; its flag `running` stays. -/
def onThreadStop (h : HttpConnHandler) : HttpConnHandler :=
  { h with co := { h.co with ended := true } }

/-- The end of `serve_http`: a connection that is not stopped yet is stopped. -/
def finish (h : HttpConnHandler) : HttpConnHandler := { h with connIsStop := true }.onThreadStop

/-- The head of the loop of `serve_http`, and the parsing of one more request. -/
def drain (h : HttpConnHandler) : HttpConnHandler :=
  if h.connIsStop then h.finish else { h with phase := .draining }

end HttpConnHandler

/-- A request that has been parsed, and the calls on the `HttpMux` before. -/
abbrev ParsedReq := HttpRequest × List HttpMux.Op

/-- `class HttpServer` with its `HttpMux` and its `IConnManager`; the handlers up to `fresh` have
been made.  Beside them the requests that have been parsed and those that have been handed to a user
handler, each with its connection, and the calls on the `HttpMux`. -/
structure HttpServer where
  mux : HttpMux
  co : Coroutine
  connPool : Finset Ref
  handlers : Ref → HttpConnHandler
  fresh : Ref
  parsed : List (Ref × ParsedReq) := []
  served : List (Ref × HttpRequest × ℕ) := []
  muxCalls : List HttpMux.Op := []

namespace HttpServer

/-- A server that has been run. -/
def new : HttpServer where
  mux := HttpMux.new
  co := Coroutine.start true {}
  connPool := ∅
  handlers := fun _ => {}
  fresh := 0

/-- What happens next: `accept` returns a connection, with whether a thread can be created for it,
or a null pointer; a `parse_request` or a `handle_request` returns; a connection is stopped from
elsewhere; a handler is registered or deleted. -/
inductive Op
  | accept (conn : Option Bool)
  | parse (conn : Ref) (ret : Except ℤ HttpRequest)
  | handled (conn : Ref)
  | stopConn (conn : Ref)
  | mux (op : HttpMux.Op)

def setHandler (conn : Ref) (h : HttpConnHandler) (s : HttpServer) : HttpServer :=
  { s with handlers := Function.update s.handlers conn h }

/-- The handler, and `remove_conn` if its thread has ended. -/
def leave (conn : Ref) (h : HttpConnHandler) (s : HttpServer) : HttpServer :=
  if h.co.Alive then s.setHandler conn h
  else { s.setHandler conn h with connPool := s.connPool.erase conn }

/-- The turn of `IServer::cycle` for a connection: `on_init`, `on_accept` and `register_conn`.  An
error of `on_accept` ends the loop. -/
def acceptConn (created : Bool) (s : HttpServer) : HttpServer :=
  if created then
    { s.setHandler s.fresh { co := Coroutine.start created {} } with
      connPool := insert s.fresh s.connPool, fresh := s.fresh + 1 }
  else
    { s.setHandler s.fresh { co := Coroutine.start created {} } with
      fresh := s.fresh + 1
      co := { s.co with running := false, ended := true } }

/-- `serve_http` up to `handle_request`. -/
def serveHttp (conn : Ref) (req : HttpRequest) (s : HttpServer) : HttpServer :=
  match s.mux.getHandler (text "/") with
  | .ok (some userHandler) =>
    { s.setHandler conn { s.handlers conn with phase := .serving } with
      served := s.served ++ [(conn, req, userHandler)] }
  | .ok none => s.leave conn (s.handlers conn).onThreadStop
  | .error _ => s.leave conn (s.handlers conn).onThreadStop

/-- A request has been parsed. -/
def parsedReq (conn : Ref) (req : HttpRequest) (s : HttpServer) : HttpServer :=
  { s with parsed := s.parsed ++ [(conn, req, s.muxCalls)] }

/-- A handler goes on, now that its `parse_request` has returned. -/
def parseReturns (conn : Ref) (ret : Except ℤ HttpRequest) (s : HttpServer) : HttpServer :=
  match (s.handlers conn).phase, ret with
  | .parsing, .error _ => s.leave conn (s.handlers conn).onThreadStop
  | .parsing, .ok req => (s.parsedReq conn req).serveHttp conn req
  | .draining, .error _ => s.leave conn (s.handlers conn).finish
  | .draining, .ok req => (s.parsedReq conn req).leave conn (s.handlers conn).drain
  | .serving, _ => s

/-- One step. -/
def step (s : HttpServer) : Op → HttpServer
  | .accept none => s
  | .accept (some created) => if s.co.Alive then s.acceptConn created else s
  | .parse conn ret => if (s.handlers conn).co.Alive then s.parseReturns conn ret else s
  | .handled conn =>
    if (s.handlers conn).co.Alive ∧ (s.handlers conn).phase = .serving then
      s.leave conn { s.handlers conn with recvTimeoutMs := -1 }.drain
    else s
  | .stopConn conn => s.setHandler conn { s.handlers conn with connIsStop := true }
  | .mux op => { s with mux := s.mux.apply op, muxCalls := s.muxCalls ++ [op] }

/-- The state after a sequence of steps. -/
def run (s : HttpServer) (ops : List Op) : HttpServer := ops.foldl step s

/-! ## What becomes of a connection -/

/-- The requests that a connection has brought. -/
def parsedOn (s : HttpServer) (conn : Ref) : List ParsedReq :=
  (s.parsed.filter fun x => x.1 = conn).map Prod.snd

/-- The requests of a connection that have been served, each with its user handler. -/
def servedOn (s : HttpServer) (conn : Ref) : List (HttpRequest × ℕ) :=
  (s.served.filter fun x => x.1 = conn).map Prod.snd

/-- The user handler of `/` behind these calls, if there is one. -/
def userHandlerOf (calls : List HttpMux.Op) : Option ℕ :=
  match (calls.foldl HttpMux.apply HttpMux.new).getHandler (text "/") with
  | .ok userHandler => userHandler
  | .error _ => none

end HttpServer

/-- **What a handler has done with the requests `parsed`**: it waits for the first one, or has ended
at one that could not be parsed; it has ended at the first one, when there was nobody to serve it;
or the first one has been handed over, and the connection is stopped once the handler has ended. -/
inductive HttpConnHandler.Served (h : HttpConnHandler) :
    List ParsedReq → List (HttpRequest × ℕ) → Prop
  | nothing (phase : h.phase = .parsing) : Served h [] []
  | refused {req : ParsedReq} (none_found : HttpServer.userHandlerOf req.2 = none)
      (ended : ¬ h.co.Alive) : Served h [req] []
  | first {req : ParsedReq} {rest : List ParsedReq} {userHandler : ℕ}
      (found : HttpServer.userHandlerOf req.2 = some userHandler) (phase : h.phase ≠ .parsing)
      (stopped : h.co.Alive ∨ h.connIsStop = true) : Served h (req :: rest) [(req.1, userHandler)]

namespace HttpServer

variable {s s' : HttpServer} {conn : Ref} {h : HttpConnHandler} {ps : List ParsedReq}
  {us : List (HttpRequest × ℕ)}

/-- **What a step does to one connection**: its handler is `h` now, and it has brought the requests
`ps`, of which `us` have been served; all else is as it was. -/
structure Turned (s : HttpServer) (conn : Ref) (h : HttpConnHandler) (ps : List ParsedReq)
    (us : List (HttpRequest × ℕ)) (s' : HttpServer) : Prop where
  handlers : s'.handlers = Function.update s.handlers conn h
  parsed : s'.parsed = s.parsed ++ ps.map fun req => (conn, req)
  served : s'.served = s.served ++ us.map fun u => (conn, u)
  connPool : ∀ j, j ∈ s'.connPool ↔ j ∈ s.connPool ∧ (j = conn → h.co.Alive)
  fresh : s'.fresh = s.fresh
  mux : s'.mux = s.mux
  muxCalls : s'.muxCalls = s.muxCalls

/-- What is written down for one connection. -/
theorem filter_map_pair {α : Type} (i j : Ref) (l : List α) :
    ((l.map fun a => (i, a)).filter fun x => x.1 = j).map Prod.snd = if i = j then l else [] := by
  split
  · rename_i hij
    rw [List.filter_eq_self.2, List.map_map]
    · exact List.map_id _
    · intro x hx
      obtain ⟨a, -, rfl⟩ := List.mem_map.1 hx
      exact decide_eq_true hij
  · rename_i hij
    rw [List.filter_eq_nil_iff.2, List.map_nil]
    intro x hx
    obtain ⟨a, -, rfl⟩ := List.mem_map.1 hx
    exact fun h => hij (of_decide_eq_true h)

theorem Turned.parsedOn (t : Turned s conn h ps us s') (j : Ref) :
    s'.parsedOn j = s.parsedOn j ++ if conn = j then ps else [] := by
  rw [HttpServer.parsedOn, t.parsed, List.filter_append, List.map_append, filter_map_pair]
  rfl

theorem Turned.servedOn (t : Turned s conn h ps us s') (j : Ref) :
    s'.servedOn j = s.servedOn j ++ if conn = j then us else [] := by
  rw [HttpServer.servedOn, t.served, List.filter_append, List.map_append, filter_map_pair]
  rfl

/-- The handler goes on or ends. -/
theorem turned_leave (s : HttpServer) (conn : Ref) (h : HttpConnHandler) :
    Turned s conn h [] [] (s.leave conn h) := by
  unfold leave
  split
  · rename_i halive
    exact ⟨rfl, (List.append_nil _).symm, (List.append_nil _).symm,
      fun j => ⟨fun hj => ⟨hj, fun _ => halive⟩, fun hj => hj.1⟩, rfl, rfl, rfl⟩
  · rename_i hended
    refine ⟨rfl, (List.append_nil _).symm, (List.append_nil _).symm, fun j => ?_, rfl, rfl, rfl⟩
    rw [Finset.mem_erase, and_comm]
    exact and_congr_right fun _ => ⟨fun hj hconn => absurd hconn hj, fun hj hconn =>
      hended (hj hconn)⟩

/-- The same, with a request that was parsed before. -/
theorem Turned.parsedReq {req : HttpRequest} (t : Turned (s.parsedReq conn req) conn h [] us s') :
    Turned s conn h [(req, s.muxCalls)] us s' where
  handlers := t.handlers
  parsed := t.parsed.trans (List.append_nil _)
  served := t.served
  connPool := t.connPool
  fresh := t.fresh
  mux := t.mux
  muxCalls := t.muxCalls

/-! ## The invariant -/

/-- **The invariant**: who is registered is at work, and each connection has been served as it
should. -/
structure Inv (s : HttpServer) : Prop where
  pool : ∀ i, i ∈ s.connPool ↔ (s.handlers i).co.Alive
  unmade : ∀ i, s.fresh ≤ i → ¬ (s.handlers i).co.Alive ∧ s.parsedOn i = [] ∧ s.servedOn i = []
  served : ∀ i, (s.handlers i).Served (s.parsedOn i) (s.servedOn i)
  mux : s.mux = s.muxCalls.foldl HttpMux.apply HttpMux.new
  calls : ∀ x ∈ s.parsed, x.2.2 <+: s.muxCalls

theorem inv_new : new.Inv where
  pool := fun _ => iff_of_false (Finset.notMem_empty _) fun h => Bool.false_ne_true h.1
  unmade := fun _ _ => ⟨fun h => Bool.false_ne_true h.1, rfl, rfl⟩
  served := fun _ => .nothing rfl
  mux := rfl
  calls := fun _ h => absurd h List.not_mem_nil

/-- **A turn of one handler** keeps the invariant if it serves its connection right. -/
theorem Inv.turned (hinv : s.Inv) (t : Turned s conn h ps us s')
    (halive : (s.handlers conn).co.Alive)
    (hserved : h.Served (s.parsedOn conn ++ ps) (s.servedOn conn ++ us))
    (hcalls : ∀ req ∈ ps, req.2 = s.muxCalls) : s'.Inv := by
  have hconn : conn < s.fresh := by
    by_contra hge
    exact (hinv.unmade conn (not_lt.1 hge)).1 halive
  have hself : s'.handlers conn = h := by rw [t.handlers, Function.update_self]
  have hother : ∀ j, j ≠ conn → s'.handlers j = s.handlers j ∧ s'.parsedOn j = s.parsedOn j
      ∧ s'.servedOn j = s.servedOn j := by
    intro j hj
    refine ⟨by rw [t.handlers, Function.update_of_ne hj], ?_, ?_⟩
    · rw [t.parsedOn, if_neg (Ne.symm hj), List.append_nil]
    · rw [t.servedOn, if_neg (Ne.symm hj), List.append_nil]
  refine ⟨fun j => ?_, fun j hj => ?_, fun j => ?_, ?_, fun x hx => ?_⟩
  · rw [t.connPool, hinv.pool]
    by_cases hj : j = conn
    · subst hj
      rw [hself]
      exact ⟨fun hboth => hboth.2 rfl, fun h => ⟨halive, fun _ => h⟩⟩
    · rw [(hother j hj).1]
      exact and_iff_left fun hconn => absurd hconn hj
  · rw [t.fresh] at hj
    have hne : j ≠ conn := (hconn.trans_le hj).ne'
    obtain ⟨h₁, h₂, h₃⟩ := hother j hne
    rw [h₁, h₂, h₃]
    exact hinv.unmade j hj
  · by_cases hj : j = conn
    · subst hj
      rw [hself, t.parsedOn, t.servedOn, if_pos rfl, if_pos rfl]
      exact hserved
    · obtain ⟨h₁, h₂, h₃⟩ := hother j hj
      rw [h₁, h₂, h₃]
      exact hinv.served j
  · rw [t.mux, t.muxCalls]
    exact hinv.mux
  · rw [t.muxCalls]
    rw [t.parsed, List.mem_append, List.mem_map] at hx
    rcases hx with hx | ⟨req, hreq, rfl⟩
    · exact hinv.calls x hx
    · exact hcalls req hreq ▸ List.prefix_refl _

/-! ## Steps -/

theorem not_alive_onThreadStop (h : HttpConnHandler) : ¬ h.onThreadStop.co.Alive := fun halive =>
  Bool.noConfusion halive.2

/-- A handler whose connection is at work has not ended. -/
theorem served_of_parsing (hserved : h.Served ps us) (halive : h.co.Alive)
    (hphase : h.phase = .parsing) : ps = [] ∧ us = [] := by
  cases hserved with
  | nothing _ => exact ⟨rfl, rfl⟩
  | refused _ ended => exact absurd halive ended
  | first _ phase _ => exact absurd hphase phase

theorem served_stopped (hserved : h.Served ps us) :
    HttpConnHandler.Served { h with connIsStop := true } ps us := by
  cases hserved with
  | nothing phase => exact .nothing phase
  | refused none_found ended => exact .refused none_found ended
  | first found phase _ => exact .first found phase (.inr rfl)

/-- Behind the first phase, the first request has been served, and it stays so. -/
theorem served_append (hserved : h.Served ps us) (halive : h.co.Alive) (hphase : h.phase ≠ .parsing)
    (more : List ParsedReq) {h' : HttpConnHandler} (hphase' : h'.phase ≠ .parsing)
    (hstopped : h'.co.Alive ∨ h'.connIsStop = true) : h'.Served (ps ++ more) (us ++ []) := by
  rw [List.append_nil]
  cases hserved with
  | nothing phase => exact absurd phase hphase
  | refused _ ended => exact absurd halive ended
  | first found _ _ => exact .first found hphase' hstopped

/-- The loop of `serve_http` goes on, or has stopped the connection. -/
theorem drain_cases (halive : h.co.Alive) (hphase : h.phase ≠ .parsing) :
    h.drain.phase ≠ .parsing ∧ (h.drain.co.Alive ∨ h.drain.connIsStop = true) := by
  unfold HttpConnHandler.drain
  split
  · exact ⟨hphase, .inr rfl⟩
  · exact ⟨nofun, .inl halive⟩

/-- **The first request** is handed to the user handler of `/`, or ends the handler. -/
theorem Inv.serveHttp (hinv : s.Inv) (halive : (s.handlers conn).co.Alive)
    (hphase : (s.handlers conn).phase = .parsing) (req : HttpRequest) :
    ((s.parsedReq conn req).serveHttp conn req).Inv := by
  obtain ⟨hparsed, hserved⟩ := served_of_parsing (hinv.served conn) halive hphase
  have hnow : ∀ r ∈ [(req, s.muxCalls)], r.2 = s.muxCalls := List.forall_mem_singleton.2 rfl
  have hleave : userHandlerOf s.muxCalls = none →
      ((s.parsedReq conn req).leave conn (s.handlers conn).onThreadStop).Inv := by
    intro hnone
    refine hinv.turned (turned_leave _ _ _).parsedReq halive ?_ hnow
    rw [hparsed, hserved]
    exact .refused hnone (not_alive_onThreadStop _)
  have hmux : (s.parsedReq conn req).mux = s.muxCalls.foldl HttpMux.apply HttpMux.new := hinv.mux
  unfold HttpServer.serveHttp
  rw [hmux]
  split
  · rename_i userHandler hget
    have hturn : Turned s conn { s.handlers conn with phase := .serving } [(req, s.muxCalls)]
        [(req, userHandler)]
        { (s.parsedReq conn req).setHandler conn { s.handlers conn with phase := .serving } with
          served := s.served ++ [(conn, req, userHandler)] } :=
      ⟨rfl, rfl, rfl, fun j => ⟨fun hj => ⟨hj, fun _ => halive⟩, fun hj => hj.1⟩, rfl, rfl, rfl⟩
    have hfound : userHandlerOf s.muxCalls = some userHandler := by
      rw [userHandlerOf, hget]
    refine hinv.turned hturn halive ?_ hnow
    rw [hparsed, hserved]
    have hfirst := @HttpConnHandler.Served.first { s.handlers conn with phase := .serving }
      (req, s.muxCalls) [] userHandler hfound nofun (.inl halive)
    exact hfirst
  · rename_i hget
    exact hleave (by rw [userHandlerOf, hget])
  · rename_i hget
    exact hleave (by rw [userHandlerOf, hget])

/-- A `parse_request` returns. -/
theorem Inv.parseReturns (hinv : s.Inv) (halive : (s.handlers conn).co.Alive)
    (ret : Except ℤ HttpRequest) : (s.parseReturns conn ret).Inv := by
  have hserved := hinv.served conn
  unfold HttpServer.parseReturns
  split
  · rename_i hphase
    obtain ⟨hp, hu⟩ := served_of_parsing hserved halive hphase
    refine hinv.turned (turned_leave _ _ _) halive ?_ fun _ h => absurd h List.not_mem_nil
    rw [hp, hu]
    exact .nothing hphase
  · rename_i req hphase
    exact hinv.serveHttp halive hphase req
  · rename_i hphase
    refine hinv.turned (turned_leave _ _ _) halive ?_ fun _ h => absurd h List.not_mem_nil
    have hne : (s.handlers conn).phase ≠ .parsing := by
      rw [hphase]
      nofun
    exact served_append hserved halive hne [] hne (.inr rfl)
  · rename_i req hphase
    refine hinv.turned (turned_leave _ _ _).parsedReq halive ?_ (List.forall_mem_singleton.2 rfl)
    have hne : (s.handlers conn).phase ≠ .parsing := by
      rw [hphase]
      nofun
    obtain ⟨hphase', hstopped⟩ := drain_cases halive hne
    exact served_append hserved halive hne [(req, s.muxCalls)] hphase' hstopped
  · exact hinv

/-- A connection is accepted. -/
theorem Inv.acceptConn (hinv : s.Inv) (created : Bool) : (s.acceptConn created).Inv := by
  obtain ⟨hended, hparsed, hserved⟩ := hinv.unmade s.fresh (le_refl _)
  -- the handler is new: nothing is written down for it
  have hinv' : ∀ s' : HttpServer,
      s'.handlers = Function.update s.handlers s.fresh { co := Coroutine.start created {} } →
      s'.fresh = s.fresh + 1 → s'.parsed = s.parsed → s'.served = s.served → s'.mux = s.mux →
      s'.muxCalls = s.muxCalls →
      (∀ i, i ∈ s'.connPool ↔ i ∈ s.connPool ∨ i = s.fresh ∧ created = true) → s'.Inv := by
    intro s' hhandlers hfresh hp hs hmux hcalls hpool
    refine ⟨fun i => ?_, fun i hi => ?_, fun i => ?_, by rw [hmux, hcalls]; exact hinv.mux, ?_⟩
    · rw [hpool, hinv.pool, hhandlers]
      by_cases hi : i = s.fresh
      · subst hi
        rw [Function.update_self, or_iff_right hended]
        cases created
        · exact iff_of_false (fun h => Bool.false_ne_true h.2) fun h => Bool.false_ne_true h.1
        · exact iff_of_true ⟨rfl, rfl⟩ ⟨rfl, rfl⟩
      · rw [Function.update_of_ne hi]
        exact or_iff_left fun h => hi h.1
    · rw [hfresh] at hi
      rw [parsedOn, servedOn, hp, hs, hhandlers, Function.update_of_ne (Nat.lt_of_succ_le hi).ne']
      exact hinv.unmade i (Nat.le_of_succ_le hi)
    · rw [parsedOn, servedOn, hp, hs, hhandlers]
      by_cases hi : i = s.fresh
      · subst hi
        rw [Function.update_self]
        change HttpConnHandler.Served _ (s.parsedOn s.fresh) (s.servedOn s.fresh)
        rw [hparsed, hserved]
        exact .nothing rfl
      · rw [Function.update_of_ne hi]
        exact hinv.served i
    · rw [hp, hcalls]
      exact hinv.calls
  unfold HttpServer.acceptConn
  split
  · rename_i hcreated
    refine hinv' _ rfl rfl rfl rfl rfl rfl fun i => ?_
    rw [Finset.mem_insert, or_comm, and_iff_left hcreated]
  · rename_i hfailed
    exact hinv' _ rfl rfl rfl rfl rfl rfl fun i => (or_iff_left fun h => hfailed h.2).symm

/-- One step. -/
theorem Inv.step (hinv : s.Inv) (op : Op) : (s.step op).Inv := by
  cases op with
  | accept conn =>
    cases conn with
    | none => exact hinv
    | some created =>
      rw [HttpServer.step]
      split
      · exact hinv.acceptConn created
      · exact hinv
  | parse conn ret =>
    rw [HttpServer.step]
    split
    · exact hinv.parseReturns ‹_› ret
    · exact hinv
  | handled conn =>
    rw [HttpServer.step]
    split
    · rename_i h
      refine hinv.turned (turned_leave _ _ _) h.1 ?_ fun _ h => absurd h List.not_mem_nil
      have hne : (s.handlers conn).phase ≠ .parsing := by
        rw [h.2]
        nofun
      obtain ⟨hphase', hstopped⟩ :=
        drain_cases (h := { s.handlers conn with recvTimeoutMs := -1 }) h.1 hne
      exact served_append (hinv.served conn) h.1 hne [] hphase' hstopped
    · exact hinv
  | stopConn conn =>
    have hhandler : ∀ i, ((s.step (.stopConn conn)).handlers i = s.handlers i
        ∨ (s.step (.stopConn conn)).handlers i = { s.handlers i with connIsStop := true }) := by
      intro i
      change Function.update s.handlers conn _ i = _ ∨ Function.update s.handlers conn _ i = _
      by_cases hi : i = conn
      · rw [hi, Function.update_self]
        exact .inr rfl
      · rw [Function.update_of_ne hi]
        exact .inl rfl
    have halive : ∀ i, ((s.step (.stopConn conn)).handlers i).co = (s.handlers i).co := by
      intro i
      rcases hhandler i with h | h <;> rw [h]
    refine ⟨fun i => ?_, fun i hi => ?_, fun i => ?_, hinv.mux, hinv.calls⟩
    · rw [halive]
      exact hinv.pool i
    · rw [halive]
      exact hinv.unmade i hi
    · rcases hhandler i with h | h <;> rw [h]
      · exact hinv.served i
      · exact served_stopped (hinv.served i)
  | mux op =>
    refine ⟨hinv.pool, hinv.unmade, hinv.served, ?_, fun x hx => ?_⟩
    · change s.mux.apply op = (s.muxCalls ++ [op]).foldl HttpMux.apply HttpMux.new
      rw [List.foldl_append, ← hinv.mux]
      rfl
    · exact (hinv.calls x hx).trans (List.prefix_append _ _)

/-- A run. -/
theorem Inv.run (hinv : s.Inv) (ops : List Op) : (s.run ops).Inv := by
  induction ops generalizing s with
  | nil => exact hinv
  | cons op ops ih => exact ih (hinv.step op)

/-- **How the connections of a server are served**: the handlers that are registered are those at
work.  A connection has brought nothing and been served nothing; or its first request has ended its
handler, because no user handler was registered for `/` when it came; or that request has been
handed to the one that was registered then, and all the others have been dropped.  In the end a
connection that was served is stopped. -/
structure Serves (s : HttpServer) : Prop where
  pool : ∀ i, i ∈ s.connPool ↔ (s.handlers i).co.Alive
  calls : ∀ i, ∀ req ∈ s.parsedOn i, req.2 <+: s.muxCalls
  first : ∀ i, s.parsedOn i = [] ∧ s.servedOn i = []
    ∨ (∃ req, s.parsedOn i = [req] ∧ userHandlerOf req.2 = none ∧ s.servedOn i = []
        ∧ i ∉ s.connPool)
    ∨ ∃ req rest userHandler level, s.parsedOn i = req :: rest
        ∧ userHandlerOf req.2 = some userHandler
        ∧ .register (text "/") level (some userHandler) ∈ req.2
        ∧ s.servedOn i = [(req.1, userHandler)]
        ∧ (i ∉ s.connPool → (s.handlers i).connIsStop = true)

/-- A user handler that is found has been registered. -/
theorem registered_of_userHandlerOf {calls : List HttpMux.Op} {userHandler : ℕ}
    (h : userHandlerOf calls = some userHandler) :
    ∃ level, .register (text "/") level (some userHandler) ∈ calls := by
  rw [userHandlerOf.eq_def] at h
  split at h
  · rename_i hget
    rw [h] at hget
    exact HttpMux.registered_of_getHandler hget
  · cases h

/-- **Every connection is served once at most**, over every run of a server. -/
theorem connections_served (ops : List Op) : (new.run ops).Serves := by
  have hinv := inv_new.run ops
  refine ⟨hinv.pool, fun i req hreq => ?_, fun i => ?_⟩
  · obtain ⟨x, hx, rfl⟩ := List.mem_map.1 hreq
    exact hinv.calls x (List.mem_of_mem_filter hx)
  · have hserved := hinv.served i
    generalize hp : (new.run ops).parsedOn i = ps at hserved
    generalize hu : (new.run ops).servedOn i = us at hserved
    cases hserved with
    | nothing phase => exact .inl ⟨rfl, rfl⟩
    | refused none_found ended =>
      exact .inr (.inl ⟨_, rfl, none_found, rfl, fun h => ended ((hinv.pool i).1 h)⟩)
    | first found phase stopped =>
      obtain ⟨level, hlevel⟩ := registered_of_userHandlerOf found
      exact .inr (.inr ⟨_, _, _, level, rfl, found, hlevel, rfl, fun hleft =>
        stopped.resolve_left fun h => hleft ((hinv.pool i).2 h)⟩)

end HttpServer

end SmartStreaming
