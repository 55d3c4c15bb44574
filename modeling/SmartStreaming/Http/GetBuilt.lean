import SmartStreaming.Http.Fields
import SmartStreaming.Http.Response

/-!
# Http/GetBuilt — the `GET` that `buildHttpGetRequest` writes, read by `parse_request`

The folder, the name and the query come back whatever stands in them.  The host is searched in the
whole request, so that a target which ends in `Host:` hides it; `built_read_iff` is the exact
condition.
-/

namespace SmartStreaming

open CHttp

/-! ## What is built -/

/-- The target of the request that `buildHttpGetRequest` writes. -/
def builtTarget (param path name : Bytes) : Bytes :=
  0x2f :: (path ++ 0x2f :: (name ++ if param = [] then [] else 0x3f :: param))

/-- What is written between the request line and the line of the host. -/
def userAgent : Bytes :=
  text "User-Agent: curl/7.15.1 (linux) OpenSSL/0.9.8a zlib/1.2.3 libidn/0.6.0"

/-- The line of the host, which an empty host does not have, and the end of the request. -/
def hostLine (host : Bytes) : Bytes :=
  (if host = [] then [] else text "Host: " ++ (host ++ crlf)) ++ text "Accept: */*\r\n\r\n"

/-- What is written behind the request line. -/
def builtRest (host : Bytes) : Bytes := userAgent ++ (crlf ++ hostLine host)

/-- No space and no line end. -/
structure Plain (s : Bytes) : Prop where
  space : 0x20 ∉ s
  cr : 0x0d ∉ s
  lf : 0x0a ∉ s

/-- The parts of a `GET` that can be built: no part ends the line or the word, no `?` in front
of the query, no `/` in the name. -/
structure Buildable (param host path name : Bytes) : Prop where
  plainParam : Plain param
  plainHost : Plain host
  plainPath : Plain path
  plainName : Plain name
  hostQuestion : 0x3f ∉ host
  pathQuestion : 0x3f ∉ path
  nameQuestion : 0x3f ∉ name
  nameSlash : 0x2f ∉ name

/-- The request as it was read is the one that was asked for. -/
structure ReadsBuilt (param host path name : Bytes) (http : CHttp) : Prop where
  queryString : http.queryString = param
  requestHost : http.requestHost = host
  folder : http.folder = path
  name : http.name = name

/-- **What was asked for can be read back**: the positions behind the `?` and behind `Host: ` are
those of an `unsigned int`, and the target does not end in `Host:`, unless the host is the version
that follows. -/
structure ReadsBack (param host path name : Bytes) : Prop where
  query : param ≠ [] → path.length + name.length + 7 < 2 ^ 32
  hidden : text "Host:" <:+ builtTarget param path name →
    host = text "HTTP/1.1" ∧ (builtTarget param path name).length + 5 < 2 ^ 32
  shown : ¬ text "Host:" <:+ builtTarget param path name →
    host = [] ∨ (builtTarget param path name).length + 93 < 2 ^ 32

section Built

variable {param host path name : Bytes}

theorem buildHttpGetRequest_eq (param host path name : Bytes) :
    buildHttpGetRequest param host path name
      = getRequest (builtTarget param path name) (builtRest host) := by
  have hline :
      text " HTTP/1.1\r\nUser-Agent: curl/7.15.1 (linux) OpenSSL/0.9.8a zlib/1.2.3 libidn/0.6.0"
        = text " HTTP/1.1\r\n" ++ userAgent := by decide +kernel
  have hget : text "GET /" = text "GET " ++ [0x2f] := rfl
  have hname : text "\r\nHost: " = crlf ++ text "Host: " := rfl
  have haccept : text "\r\nAccept: */*\r\n\r\n" = crlf ++ text "Accept: */*\r\n\r\n" := rfl
  have hslash : text "/" = [0x2f] := rfl
  have hquestion : text "?" = [0x3f] := rfl
  rw [buildHttpGetRequest, hline, hget, hname, haccept, hslash, hquestion, getRequest, builtTarget,
    builtRest, hostLine]
  cases param <;> cases host <;> simp

theorem Plain.append {a b : Bytes} (ha : Plain a) (hb : Plain b) : Plain (a ++ b) := by
  refine ⟨?_, ?_, ?_⟩
  · rw [List.mem_append, not_or]
    exact ⟨ha.space, hb.space⟩
  · rw [List.mem_append, not_or]
    exact ⟨ha.cr, hb.cr⟩
  · rw [List.mem_append, not_or]
    exact ⟨ha.lf, hb.lf⟩

theorem Buildable.target (h : Buildable param host path name) :
    Plain (builtTarget param path name) := by
  have hslash : Plain [0x2f] := ⟨by decide, by decide, by decide⟩
  have hquery : Plain (if param = [] then [] else 0x3f :: param) := by
    split
    · exact ⟨by decide, by decide, by decide⟩
    · exact Plain.append (a := [0x3f]) ⟨by decide, by decide, by decide⟩ h.plainParam
  exact hslash.append (h.plainPath.append (hslash.append (h.plainName.append hquery)))

end Built

/-! ## The host -/

section Host

variable {target host : Bytes}

/-- The first line of a request, without its end. -/
def requestLine (target : Bytes) : Bytes := text "GET " ++ (target ++ text " HTTP/1.1")

theorem getRequest_eq (target rest : Bytes) :
    getRequest target rest = requestLine target ++ (crlf ++ rest) := by
  have hline : text " HTTP/1.1\r\n" = text " HTTP/1.1" ++ crlf := rfl
  rw [getRequest, requestLine, hline]
  simp only [List.append_assoc]

theorem isLine_requestLine (h : Plain target) : IsLine (requestLine target) := by
  refine isLine_of_notMem ?_
  rw [requestLine, List.mem_append, List.mem_append, not_or, not_or]
  exact ⟨by decide, h.cr, by decide⟩

theorem length_requestLine (target : Bytes) : (requestLine target).length = target.length + 13 := by
  have hget : (text "GET ").length = 4 := rfl
  have hversion : (text " HTTP/1.1").length = 9 := rfl
  rw [requestLine, List.length_append, List.length_append, hget, hversion]
  omega

/-- What is read from a place in the request line. -/
theorem lineFrom_requestLine (h : Plain target) (rest : Bytes) {j : ℕ} (hj : j ≤ target.length + 13)
    (hlen : target.length + 13 < 2 ^ 64) :
    lineFrom (getRequest target rest) j = some ((requestLine target).drop j) := by
  have hlength := length_requestLine target
  have hline := lineFrom_line (a := []) (b := rest) (isLine_requestLine h)
    (hlength ▸ hj) (by omega)
  rw [List.nil_append, List.length_nil, Nat.zero_add] at hline
  rw [getRequest_eq, hline]

/-- **From a place in or before the target the version is read as well**, and a space with it. -/
theorem lineFrom_ne_of_plain (h : Plain target) (hhost : Plain host) (rest : Bytes) {j : ℕ}
    (hj : j ≤ target.length + 4) (hlen : target.length + 13 < 2 ^ 64) :
    (lineFrom (getRequest target rest) j).getD [] ≠ host := by
  have hparts : requestLine target = (text "GET " ++ target) ++ text " HTTP/1.1" :=
    (List.append_assoc _ _ _).symm
  have hfirst : j ≤ (text "GET " ++ target).length := by
    rw [List.length_append, show (text "GET ").length = 4 from rfl]
    omega
  rw [lineFrom_requestLine h rest (by omega) hlen, Option.getD_some, hparts,
    List.drop_append_of_le_length hfirst]
  rintro rfl
  exact hhost.space (List.mem_append_right _ (by decide))

theorem find_hostLine (host : Bytes) :
    find (hostLine host) (text "Host: ") 0 = if host = [] then none else some 0 := by
  rw [hostLine]
  split
  · decide
  · refine find_of_prefix ?_
    rw [List.append_assoc]
    exact List.prefix_append _ _

theorem length_userAgent : userAgent.length = 70 := by decide +kernel

/-- Neither the version nor the user agent holds a host. -/
theorem find_behind_target (host : Bytes) :
    find (text "HTTP/1.1\r\n" ++ builtRest host) (text "Host: ") 0
      = if host = [] then none else some 82 := by
  have hp : InLine (text "Host: ") := ⟨by decide, by decide, by decide⟩
  have hversion : find (text "HTTP/1.1") (text "Host: ") 0 = none := by decide
  have hagent : find userAgent (text "Host: ") 0 = none := by decide +kernel
  have hline : text "HTTP/1.1\r\n" = text "HTTP/1.1" ++ crlf := rfl
  rw [hline, List.append_assoc, find_line hp, hversion, Option.none_or, builtRest,
    find_line hp, hagent, Option.none_or, find_hostLine, length_userAgent]
  split <;> rfl

/-- **Where the host is found**: at the end of the target, else in its own line. -/
theorem find_host (h : Plain target) (host : Bytes) :
    find (getRequest target (builtRest host)) (text "Host: ") 0
      = if text "Host:" <:+ target then some (target.length - 1)
        else if host = [] then none else some (target.length + 87) := by
  have hline : text " HTTP/1.1\r\n" = 0x20 :: text "HTTP/1.1\r\n" := rfl
  have hskip := find_of_head (a := text "GET ") (x := 0x48) (by decide)
    (target ++ 0x20 :: (text "HTTP/1.1\r\n" ++ builtRest host)) (text "ost: ")
  have huntil := find_until (q := text "Host:") (by decide) h.space
    (text "HTTP/1.1\r\n" ++ builtRest host)
  have hname : text "Host:" ++ [0x20] = text "Host: " := rfl
  have hname' : 0x48 :: text "ost: " = text "Host: " := rfl
  rw [hname, find_behind_target] at huntil
  rw [hname', huntil] at hskip
  rw [getRequest, hline, List.cons_append]
  refine hskip.trans ?_
  have hget : (text "GET ").length = 4 := rfl
  split
  · rename_i hsuffix
    have hle : 5 ≤ target.length := hsuffix.length_le
    rw [Option.map_some, hget]
    refine congrArg some ?_
    change 4 + (target.length - 5) = target.length - 1
    omega
  · split
    · rfl
    · rw [Option.map_some, Option.map_some, hget]
      refine congrArg some ?_
      omega

/-- **The host that is read.** -/
theorem headerValue_host (h : Plain target) (host : Bytes) :
    headerValue (getRequest target (builtRest host)) (text "Host: ")
      = if text "Host:" <:+ target then
          lineFrom (getRequest target (builtRest host)) ((target.length + 5) % 2 ^ 32)
        else if host = [] then none
        else lineFrom (getRequest target (builtRest host)) ((target.length + 93) % 2 ^ 32) := by
  have hlength : (text "Host: ").length = 6 := rfl
  rw [headerValue_eq, find_host h, hlength]
  split
  · rename_i hsuffix
    have hle : 5 ≤ target.length := hsuffix.length_le
    rw [Option.bind_some, show target.length - 1 + 6 = target.length + 5 by omega]
  · split
    · rfl
    · rw [Option.bind_some]

/-- In its own line. -/
theorem lineFrom_host (target : Bytes) (hhost : Plain host) (hne : host ≠ [])
    (hlen : host.length < 2 ^ 64) :
    lineFrom (getRequest target (builtRest host)) (target.length + 93) = some host := by
  have hparts : getRequest target (builtRest host)
      = (requestLine target ++ (crlf ++ (userAgent ++ (crlf ++ text "Host: "))))
        ++ (host ++ (crlf ++ text "Accept: */*\r\n\r\n")) := by
    rw [getRequest_eq, builtRest, hostLine, if_neg hne]
    simp only [List.append_assoc]
  have hagent : (crlf ++ (userAgent ++ (crlf ++ text "Host: "))).length = 80 := by
    rw [List.length_append, List.length_append, length_userAgent]
    rfl
  have hstart : (requestLine target ++ (crlf ++ (userAgent ++ (crlf ++ text "Host: ")))).length
      = target.length + 93 := by
    rw [List.length_append, length_requestLine, hagent]
  have hline := lineFrom_line
    (a := requestLine target ++ (crlf ++ (userAgent ++ (crlf ++ text "Host: "))))
    (b := text "Accept: */*\r\n\r\n") (isLine_of_notMem hhost.cr) (Nat.zero_le _) hlen
  rw [hstart, Nat.add_zero, List.drop_zero] at hline
  rw [hparts, hline]

theorem length_builtRest (host : Bytes) : host.length + 72 ≤ (builtRest host).length := by
  have hagent : (userAgent ++ crlf).length = 72 := by
    rw [List.length_append, length_userAgent]
    rfl
  have hparts : builtRest host = (userAgent ++ crlf) ++ hostLine host :=
    (List.append_assoc _ _ _).symm
  rw [hparts, List.length_append, hagent, hostLine, List.length_append]
  split <;> rename_i hempty
  · rw [hempty, List.length_nil]
    omega
  · rw [List.length_append, List.length_append]
    omega

/-- **The host that is read is the one that was asked for**: the version where the target hides it
and it is the version, else the text of its line. -/
theorem hostRead_iff (h : Plain target) (hhost : Plain host)
    (hlen : (getRequest target (builtRest host)).length < 2 ^ 64) :
    (headerValue (getRequest target (builtRest host)) (text "Host: ")).getD [] = host
      ↔ (text "Host:" <:+ target → host = text "HTTP/1.1" ∧ target.length + 5 < 2 ^ 32)
        ∧ (¬ text "Host:" <:+ target → host = [] ∨ target.length + 93 < 2 ^ 32) := by
  have hrest := length_builtRest host
  rw [length_getRequest] at hlen
  rw [headerValue_host h]
  by_cases hsuffix : text "Host:" <:+ target
  · rw [if_pos hsuffix, forall_prop_of_true hsuffix,
      forall_prop_of_false (not_not.2 hsuffix), and_true]
    by_cases hfits : target.length + 5 < 2 ^ 32
    · have hparts :
          requestLine target = (text "GET " ++ (target ++ [0x20])) ++ text "HTTP/1.1" := by
        rw [requestLine]
        simp only [List.append_assoc]
        rfl
      have hstart : (text "GET " ++ (target ++ [0x20])).length = target.length + 5 := by
        rw [List.length_append, List.length_append, show (text "GET ").length = 4 from rfl,
          List.length_singleton]
        omega
      rw [Nat.mod_eq_of_lt hfits, lineFrom_requestLine h _ (by omega) (by omega), hparts,
        Option.getD_some, List.drop_left' hstart]
      exact ⟨fun heq => ⟨heq.symm, hfits⟩, fun heq => heq.1.symm⟩
    · have hno := lineFrom_ne_of_plain h hhost (builtRest host)
        (j := (target.length + 5) % 2 ^ 32) (by omega) (by omega)
      exact ⟨fun heq => absurd heq hno, fun heq => absurd heq.2 hfits⟩
  · rw [if_neg hsuffix, forall_prop_of_false hsuffix, forall_prop_of_true hsuffix, true_and]
    by_cases hempty : host = []
    · rw [if_pos hempty, Option.getD_none]
      exact ⟨fun _ => Or.inl hempty, fun _ => hempty.symm⟩
    rw [if_neg hempty]
    by_cases hfits : target.length + 93 < 2 ^ 32
    · rw [Nat.mod_eq_of_lt hfits, lineFrom_host target hhost hempty (by omega), Option.getD_some]
      exact ⟨fun _ => Or.inr hfits, fun _ => rfl⟩
    · have hno := lineFrom_ne_of_plain h hhost (builtRest host)
        (j := (target.length + 93) % 2 ^ 32) (by omega) (by omega)
      exact ⟨fun heq => absurd heq hno, fun heq => absurd (heq.resolve_left hempty) hfits⟩

end Host

/-! ## The request -/

section Request

variable {param host path name : Bytes}

theorem Buildable.rest (h : Buildable param host path name) : 0x3f ∉ builtRest host := by
  have hagent : 0x3f ∉ userAgent := by decide +kernel
  rw [builtRest, hostLine]
  simp only [List.mem_append, not_or]
  refine ⟨hagent, by decide, ?_, by decide⟩
  split
  · exact List.not_mem_nil
  · simp only [List.mem_append, not_or]
    exact ⟨by decide, h.hostQuestion, by decide⟩

/-- The path of the target. -/
def builtPath (path name : Bytes) : Bytes := 0x2f :: (path ++ 0x2f :: name)

theorem Buildable.builtPath (h : Buildable param host path name) :
    0x3f ∉ builtPath path name := by
  rw [SmartStreaming.builtPath, List.mem_cons, List.mem_append, List.mem_cons, not_or, not_or,
    not_or]
  exact ⟨by decide, h.pathQuestion, by decide, h.nameQuestion⟩

theorem builtTarget_eq (param path name : Bytes) :
    builtTarget param path name
      = builtPath path name ++ if param = [] then [] else 0x3f :: param := by
  rw [builtTarget, builtPath]
  simp only [List.append_assoc, List.cons_append]

theorem length_builtPath (path name : Bytes) :
    (builtPath path name).length = path.length + name.length + 2 := by
  rw [builtPath, List.length_cons, List.length_append, List.length_cons]
  omega

/-- The path is cut out right; the query is where its position is an `unsigned int`. -/
theorem parseTarget_built (http : CHttp) (h : Buildable param host path name)
    (hlen : (getRequest (builtTarget param path name) (builtRest host)).length < 2 ^ 64) :
    (http.parseTarget (getRequest (builtTarget param path name) (builtRest host)) 4
          (4 + (builtTarget param path name).length)).path = builtPath path name
      ∧ ((http.parseTarget (getRequest (builtTarget param path name) (builtRest host)) 4
          (4 + (builtTarget param path name).length)).queryString = param
        ↔ (param ≠ [] → path.length + name.length + 7 < 2 ^ 32)) := by
  have hlength := length_builtPath path name
  rw [builtTarget_eq] at hlen ⊢
  split at hlen <;> rename_i hempty
  · rw [if_pos hempty, List.append_nil] at *
    rw [parseTarget_of_notMem http h.builtPath h.rest hlen, forall_prop_of_false (not_not.2 hempty)]
    exact ⟨rfl, fun _ => trivial, fun _ => hempty.symm⟩
  · rw [if_neg hempty, forall_prop_of_true hempty,
      parseTarget_queryString_iff http h.builtPath hlen, hlength]
    exact ⟨parseTarget_path http h.builtPath hlen _, Iff.rfl⟩

/-- **What `buildHttpGetRequest` wrote is read back exactly where `ReadsBack` says.** -/
theorem built_read_iff (unset : BitVec 32) (h : Buildable param host path name)
    (hpolicy : isPolicyRequest (buildHttpGetRequest param host path name) = false)
    (hlen : (buildHttpGetRequest param host path name).length < 2 ^ 64) :
    ((parseRequest { contentLen := unset } (buildHttpGetRequest param host path name)).1 = 0
        ∧ ReadsBuilt param host path name
          (parseRequest { contentLen := unset } (buildHttpGetRequest param host path name)).2)
      ↔ ReadsBack param host path name := by
  have htarget := h.target
  have htotal := length_getRequest (builtTarget param path name) (builtRest host)
  have hlength : (builtTarget param path name).length ≥ path.length + 1 := by
    rw [builtTarget, List.length_cons, List.length_append]
    omega
  rw [buildHttpGetRequest_eq] at hpolicy hlen ⊢
  have hread := parseRequest_get { contentLen := unset } htarget.space (builtRest host) hpolicy
  rw [← builtTarget] at hread
  obtain ⟨hpath, hquery⟩ := parseTarget_built { contentLen := unset, method := text "GET" } h hlen
  have hhost := hostRead_iff htarget h.plainHost hlen
  generalize hdata : getRequest (builtTarget param path name) (builtRest host) = data at *
  obtain ⟨hname, hfolder⟩ := cutTarget_name_folder (a := 0x2f :: path) data hpath h.nameSlash
  have hcut : substr (0x2f :: (path ++ 0x2f :: name)) 1 path.length = path :=
    substr_append [0x2f] path (0x2f :: name)
  rw [hpath, builtPath, List.length_cons, sizeDiff_of_le (by omega) (by omega),
    Nat.add_sub_cancel, hcut] at hfolder
  have hvalue := (cutTarget_kept (parseTarget { contentLen := unset, method := text "GET" } data 4
    (4 + (builtTarget param path name).length)) data).1
  rw [(parseTarget_kept _ data _ _).1] at hvalue
  rw [hread]
  constructor
  · rintro ⟨-, hbuilt⟩
    have hhost' := hhost.1 (hvalue.symm.trans hbuilt.requestHost)
    exact ⟨hquery.1 ((cutTarget_queryString _ data).symm.trans hbuilt.queryString), hhost'.1,
      hhost'.2⟩
  · intro hback
    refine ⟨rfl, (cutTarget_queryString _ data).trans (hquery.2 hback.query), ?_, hfolder, hname⟩
    exact hvalue.trans (hhost.2 ⟨hback.hidden, hback.shown⟩)

/-- A pull of `live/a.flv` from an origin, with a query that ends in `Host:`. -/
theorem buildable_hidden :
    Buildable (text "vhost=Host:") (text "origin") (text "live") (text "a.flv") :=
  ⟨⟨by decide, by decide, by decide⟩, ⟨by decide, by decide, by decide⟩,
    ⟨by decide, by decide, by decide⟩, ⟨by decide, by decide, by decide⟩, by decide, by decide,
    by decide, by decide⟩

theorem built_read_iff_hidden :
    ((parseRequest { contentLen := 7 } (buildHttpGetRequest (text "vhost=Host:") (text "origin")
          (text "live") (text "a.flv"))).1 = 0
        ∧ ReadsBuilt (text "vhost=Host:") (text "origin") (text "live") (text "a.flv")
          (parseRequest { contentLen := 7 } (buildHttpGetRequest (text "vhost=Host:")
            (text "origin") (text "live") (text "a.flv"))).2)
      ↔ ReadsBack (text "vhost=Host:") (text "origin") (text "live") (text "a.flv") :=
  built_read_iff 7 buildable_hidden (by decide +kernel) (by decide +kernel)

/-- **A query that ends in `Host:` makes the version of the request line the host.** -/
theorem query_hides_host :
    Buildable (text "vhost=Host:") (text "origin") (text "live") (text "a.flv")
      ∧ isPolicyRequest (buildHttpGetRequest (text "vhost=Host:") (text "origin") (text "live")
        (text "a.flv")) = false
      ∧ (parseRequest {} (buildHttpGetRequest (text "vhost=Host:") (text "origin") (text "live")
        (text "a.flv"))).2.requestHost = text "HTTP/1.1"
      ∧ ¬ ReadsBuilt (text "vhost=Host:") (text "origin") (text "live") (text "a.flv")
        (parseRequest {} (buildHttpGetRequest (text "vhost=Host:") (text "origin") (text "live")
          (text "a.flv"))).2 := by
  refine ⟨buildable_hidden, by decide +kernel, by decide +kernel, fun h => ?_⟩
  exact absurd h.requestHost (by decide +kernel)

end Request

end SmartStreaming
