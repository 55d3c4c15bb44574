import SmartStreaming.Base.Search
import SmartStreaming.Http.Stack

/-!
# Http/Target — the target of a `GET`

`parseGetRequest` looks for the `?` and the two forbidden texts in the whole request, and cuts the
path at its last `/` only.  `target_read_iff` says when the path, the query, the name and the folder
are those of the request line.
-/

namespace SmartStreaming

open CHttp

/-! ## Targets -/

/-- A `GET` request: its line, and what follows the line. -/
def getRequest (target rest : Bytes) : Bytes :=
  text "GET " ++ (target ++ (text " HTTP/1.1\r\n" ++ rest))

/-- The path, up to the first `?`. -/
def targetPath (target : Bytes) : Bytes := target.takeWhile (· ≠ 0x3f)

/-- The query, behind the first `?`. -/
def targetQuery (target : Bytes) : Bytes := (target.dropWhile (· ≠ 0x3f)).tail

/-- What stands behind the last `/` of a path. -/
def pathName (path : Bytes) : Bytes := (path.reverse.takeWhile (· ≠ 0x2f)).reverse

/-- What stands between the first `/` of a path, with which it begins, and the last one. -/
def pathFolder (path : Bytes) : Bytes := (path.tail.reverse.dropWhile (· ≠ 0x2f)).tail.reverse

/-- The request as it was read is the one that its line makes. -/
structure ReadsTarget (target : Bytes) (http : CHttp) : Prop where
  path : http.path = targetPath target
  queryString : http.queryString = targetQuery target
  name : http.name = pathName (targetPath target)
  folder : http.folder = pathFolder (targetPath target)

section Targets

variable {target a b : Bytes} {x : Byte}

theorem takeWhile_ne_append (h : x ∉ a) (b : Bytes) : (a ++ x :: b).takeWhile (· ≠ x) = a := by
  rw [List.takeWhile_append_of_pos fun y hy => decide_eq_true (ne_of_mem_of_not_mem hy h),
    List.takeWhile_cons_of_neg (by simp), List.append_nil]

theorem dropWhile_ne_append (h : x ∉ a) (b : Bytes) :
    (a ++ x :: b).dropWhile (· ≠ x) = x :: b := by
  rw [List.dropWhile_append_of_pos fun y hy => decide_eq_true (ne_of_mem_of_not_mem hy h),
    List.dropWhile_cons_of_neg (by simp)]

theorem targetPath_append (h : 0x3f ∉ a) (b : Bytes) : targetPath (a ++ 0x3f :: b) = a :=
  takeWhile_ne_append h b

theorem targetQuery_append (h : 0x3f ∉ a) (b : Bytes) : targetQuery (a ++ 0x3f :: b) = b := by
  rw [targetQuery, dropWhile_ne_append h b, List.tail_cons]

theorem targetPath_of_notMem (h : 0x3f ∉ target) : targetPath target = target :=
  List.takeWhile_eq_self_iff.2 fun _ hy => decide_eq_true (ne_of_mem_of_not_mem hy h)

theorem targetQuery_of_notMem (h : 0x3f ∉ target) : targetQuery target = [] := by
  rw [targetQuery, List.dropWhile_eq_nil_iff.2 fun _ hy =>
    decide_eq_true (ne_of_mem_of_not_mem hy h), List.tail_nil]

theorem pathName_append (h : 0x2f ∉ b) (a : Bytes) : pathName (a ++ 0x2f :: b) = b := by
  rw [pathName, List.reverse_append, List.reverse_cons, List.append_assoc, List.singleton_append,
    takeWhile_ne_append (fun hmem => h (List.mem_reverse.1 hmem)), List.reverse_reverse]

/-- Two slashes or more. -/
theorem pathFolder_append (h : 0x2f ∉ b) (a : Bytes) :
    pathFolder (0x2f :: (a ++ 0x2f :: b)) = a := by
  rw [pathFolder, List.tail_cons, List.reverse_append, List.reverse_cons, List.append_assoc,
    List.singleton_append, dropWhile_ne_append (fun hmem => h (List.mem_reverse.1 hmem)),
    List.tail_cons, List.reverse_reverse]

/-- A single slash. -/
theorem pathFolder_of_notMem (h : 0x2f ∉ b) : pathFolder (0x2f :: b) = [] := by
  rw [pathFolder, List.tail_cons, List.dropWhile_eq_nil_iff.2 fun y hy =>
    decide_eq_true (ne_of_mem_of_not_mem (List.mem_reverse.1 hy) h)]
  rfl

end Targets

/-! ## The line -/

/-- One of the texts for which `parseGetRequest` returns at once stands in the request. -/
def isPolicyRequest (data : Bytes) : Bool :=
  contains data (text "crossdomain.xml") ∨ contains data (text "<policy-file-request/>")

/-- What `parseGetRequest` makes of a request, once it has cut out the target. -/
def cutTarget (http : CHttp) (data : Bytes) : CHttp :=
  (http.parseName.parseExt).parseHeaders data

section Line

variable {target rest t : Bytes}

/-- A text that begins with `GET ` goes to `parseGetRequest`. -/
theorem parseRequest_of_get (http : CHttp) (data : Bytes) :
    http.parseRequest (text "GET " ++ data)
      = parseGetRequest { http with method := text "GET" } (text "GET " ++ data) := by
  have hspace : find (text "GET " ++ data) (text " ") 0 = some 3 :=
    find_letter (a := text "GET") (by decide) data
  have hmethod : substr (text "GET " ++ data) 0 3 = text "GET" := rfl
  rw [parseRequest, hspace]
  dsimp only
  rw [hmethod, if_neg (by decide), if_pos rfl]

/-- The method is known already. -/
theorem parseGetMethod_get (http : CHttp) (data : Bytes) :
    parseGetMethod { http with method := text "GET" } data = { http with method := text "GET" } :=
  if_neg (show text "GET" ≠ [] by decide)

/-- A request with one of the texts is not looked at. -/
theorem parseGetRequest_policy (http : CHttp) {data : Bytes} (h : isPolicyRequest data = true) :
    http.parseGetRequest data = (0, http) := by
  rw [isPolicyRequest, decide_eq_true_eq] at h
  rw [parseGetRequest]
  split
  · rfl
  · rename_i hcross
    rw [if_pos (h.resolve_left hcross)]

/-- One with neither is cut from its first `/` to the text ` HTTP`. -/
theorem parseGetRequest_cut (http : CHttp) {data : Bytes} (h : isPolicyRequest data = false)
    {pathFound httpFound : ℕ} (hslash : find data (text "/") 0 = some pathFound)
    (hhttp : find data (text " HTTP") 0 = some httpFound) :
    parseGetRequest { http with method := text "GET" } data
      = (0, cutTarget (parseTarget { http with method := text "GET" } data pathFound httpFound)
          data) := by
  rw [isPolicyRequest, decide_eq_false_iff_not, not_or] at h
  rw [parseGetRequest, if_neg h.1, if_neg h.2, hslash]
  dsimp only
  rw [parseGetMethod_get, if_neg (not_not.2 rfl), hhttp]
  rfl

theorem find_slash (t rest : Bytes) : find (getRequest (0x2f :: t) rest) (text "/") 0 = some 4 :=
  find_letter (a := text "GET ") (by decide) (t ++ (text " HTTP/1.1\r\n" ++ rest))

/-- **The text ` HTTP` stands behind the target**, and not before. -/
theorem find_http (h : 0x20 ∉ 0x2f :: t) (x : Bytes) :
    find (text "GET " ++ ((0x2f :: t) ++ (text " HTTP" ++ x))) (text " HTTP") 0
      = some (4 + (0x2f :: t).length) := by
  have hskip := find_of_head (a := text "GET") (x := 0x20) (by decide)
    (0x20 :: ((0x2f :: t) ++ (text " HTTP" ++ x))) (text "HTTP")
  have hno : ¬ (0x20 :: text "HTTP") <+: 0x20 :: ((0x2f :: t) ++ (text " HTTP" ++ x)) := by
    intro hpre
    exact absurd (List.cons_prefix_cons.1 (List.cons_prefix_cons.1 hpre).2).1 (by decide)
  have htarget := find_of_head h (text " HTTP" ++ x) (text "HTTP")
  have hhere : find (text " HTTP" ++ x) (0x20 :: text "HTTP") 0 = some 0 :=
    find_of_prefix (List.prefix_append _ _)
  rw [find_cons, if_neg hno, htarget, hhere] at hskip
  refine hskip.trans (congrArg some ?_)
  change 3 + (1 + ((0x2f :: t).length + 0)) = 4 + (0x2f :: t).length
  omega

/-- **A `GET` is parsed** from its first `/` to the text ` HTTP`. -/
theorem parseRequest_get (http : CHttp) (h : 0x20 ∉ 0x2f :: t) (rest : Bytes)
    (hpolicy : isPolicyRequest (getRequest (0x2f :: t) rest) = false) :
    http.parseRequest (getRequest (0x2f :: t) rest)
      = (0, cutTarget (parseTarget { http with method := text "GET" } (getRequest (0x2f :: t) rest)
          4 (4 + (0x2f :: t).length)) (getRequest (0x2f :: t) rest)) :=
  (parseRequest_of_get http _).trans
    (parseGetRequest_cut http hpolicy (find_slash t rest) (find_http h (text "/1.1\r\n" ++ rest)))

end Line

/-! ## The cuts -/

section Cuts

variable {http : CHttp} {a b : Bytes}

theorem cutTarget_path (http : CHttp) (data : Bytes) : (cutTarget http data).path = http.path := by
  unfold cutTarget parseHeaders parseExt parseName
  split <;> split <;> rfl

theorem cutTarget_queryString (http : CHttp) (data : Bytes) :
    (cutTarget http data).queryString = http.queryString := by
  unfold cutTarget parseHeaders parseExt parseName
  split <;> split <;> rfl

/-- The cuts set no header field. -/
theorem cutTarget_kept (http : CHttp) (data : Bytes) :
    (cutTarget http data).requestHost
        = (headerValue data (text "Host: ")).getD http.requestHost
      ∧ (cutTarget http data).forwardedClientIp
        = (headerValue data (text "X-Forwarded-For: ")).getD http.forwardedClientIp := by
  have hkept : (http.parseName.parseExt).requestHost = http.requestHost
      ∧ (http.parseName.parseExt).forwardedClientIp = http.forwardedClientIp := by
    unfold parseExt parseName
    split <;> split <;> exact ⟨rfl, rfl⟩
  constructor
  · rw [← hkept.1]
    rfl
  · rw [← hkept.2]
    rfl

theorem parseTarget_kept (http : CHttp) (data : Bytes) (pathFound httpFound : ℕ) :
    (http.parseTarget data pathFound httpFound).requestHost = http.requestHost
      ∧ (http.parseTarget data pathFound httpFound).forwardedClientIp
        = http.forwardedClientIp := by
  unfold parseTarget
  split <;> exact ⟨rfl, rfl⟩

theorem parseExt_name_folder (http : CHttp) :
    http.parseExt.name = http.name ∧ http.parseExt.folder = http.folder := by
  unfold parseExt
  split <;> exact ⟨rfl, rfl⟩

/-- **The path is cut at its last `/`**; a `/` that is also the first one cuts off nothing. -/
theorem cutTarget_name_folder (data : Bytes) (hpath : http.path = a ++ 0x2f :: b) (hb : 0x2f ∉ b) :
    (cutTarget http data).name = b
      ∧ (cutTarget http data).folder = substr http.path 1 (sizeDiff a.length 1) := by
  have hlast : findLastOf http.path 0x2f = some a.length := by
    rw [hpath]
    exact findLastOf_append hb a
  obtain ⟨hname, hfolder⟩ := parseExt_name_folder http.parseName
  have hdrop : http.path.drop (a.length + 1) = b := by
    rw [hpath, ← List.drop_drop, List.drop_left, List.drop_succ_cons, List.drop_zero]
  refine ⟨hname.trans ?_, hfolder.trans ?_⟩
  · rw [parseName, hlast]
    exact hdrop
  · rw [parseName, hlast]

end Cuts

section Question

variable {target rest a b : Bytes}

/-- The first `?` of the target. -/
theorem find_question (ha : 0x3f ∉ a) (b rest : Bytes) :
    find (getRequest (a ++ 0x3f :: b) rest) (text "?") 0 = some (4 + a.length) := by
  have hno : 0x3f ∉ text "GET " ++ a := by
    rw [List.mem_append, not_or]
    exact ⟨by decide, ha⟩
  have hfind := find_letter hno (b ++ (text " HTTP/1.1\r\n" ++ rest))
  rw [List.length_append] at hfind
  rw [getRequest, List.append_assoc, ← List.append_assoc]
  exact hfind

/-- One behind the request line. -/
theorem find_question_rest (htarget : 0x3f ∉ target) (ha : 0x3f ∉ a) (b : Bytes) :
    find (getRequest target (a ++ 0x3f :: b)) (text "?") 0
      = some (4 + target.length + (11 + a.length)) := by
  have hno : 0x3f ∉ text "GET " ++ (target ++ (text " HTTP/1.1\r\n" ++ a)) := by
    rw [List.mem_append, List.mem_append, List.mem_append, not_or, not_or, not_or]
    exact ⟨by decide, htarget, by decide, ha⟩
  have hfind := find_letter hno b
  rw [List.length_append, List.length_append, List.length_append, ← Nat.add_assoc] at hfind
  simp only [List.append_assoc] at hfind
  exact hfind

theorem find_question_eq_none (htarget : 0x3f ∉ target) (hrest : 0x3f ∉ rest) :
    find (getRequest target rest) (text "?") 0 = none := by
  refine find_letter_eq_none ?_
  rw [getRequest, List.mem_append, List.mem_append, List.mem_append, not_or, not_or, not_or]
  exact ⟨by decide, htarget, by decide, hrest⟩

theorem length_getRequest (target rest : Bytes) :
    (getRequest target rest).length = 4 + target.length + (11 + rest.length) := by
  have hget : (text "GET ").length = 4 := rfl
  have hend : (text " HTTP/1.1\r\n").length = 11 := rfl
  rw [getRequest, List.length_append, List.length_append, List.length_append, hget, hend]
  omega

/-- What stands from the first `/` on. -/
theorem substr_getRequest (a b rest : Bytes) (n : ℕ) (hn : n = a.length) :
    substr (getRequest (a ++ b) rest) 4 n = a := by
  rw [hn, getRequest, List.append_assoc]
  exact substr_append (text "GET ") a _

/-- The path, where the target has a query. -/
theorem parseTarget_path (http : CHttp) (ha : 0x3f ∉ a)
    (hlen : (getRequest (a ++ 0x3f :: b) rest).length < 2 ^ 64) (httpFound : ℕ) :
    (parseTarget http (getRequest (a ++ 0x3f :: b) rest) 4 httpFound).path = a := by
  rw [length_getRequest, List.length_append] at hlen
  rw [parseTarget, find_question ha]
  dsimp only
  refine substr_getRequest a _ rest _ ?_
  rw [sizeDiff_of_le (by omega) (by omega)]
  omega

/-- The query, from the position behind the `?` on. -/
theorem parseTarget_queryString (http : CHttp) (ha : 0x3f ∉ a) (httpFound : ℕ) :
    (parseTarget http (getRequest (a ++ 0x3f :: b) rest) 4 httpFound).queryString
      = substr (getRequest (a ++ 0x3f :: b) rest) ((4 + a.length + 1) % 2 ^ 32)
          (sizeDiff httpFound ((4 + a.length + 1) % 2 ^ 32)) := by
  rw [parseTarget, find_question ha]

/-- **The query is the part behind the `?` as long as its position fits an `unsigned int`**; else it
begins further to the left. -/
theorem parseTarget_queryString_iff (http : CHttp) (ha : 0x3f ∉ a)
    (hlen : (getRequest (a ++ 0x3f :: b) rest).length < 2 ^ 64) :
    (parseTarget http (getRequest (a ++ 0x3f :: b) rest) 4
        (4 + (a ++ 0x3f :: b).length)).queryString = b ↔ a.length + 5 < 2 ^ 32 := by
  have htotal := length_getRequest (a ++ 0x3f :: b) rest
  have htarget : (a ++ 0x3f :: b).length = a.length + 1 + b.length := by
    rw [List.length_append, List.length_cons]
    omega
  rw [parseTarget_queryString http ha]
  constructor
  · intro h
    by_contra hwrap
    have hmod : (4 + a.length + 1) % 2 ^ 32 < 4 + a.length + 1 := by omega
    have hlength := congrArg List.length h
    rw [sizeDiff_of_le (by omega) (by omega), substr, List.length_take, List.length_drop] at hlength
    omega
  · intro hfits
    rw [Nat.mod_eq_of_lt (by omega), sizeDiff_of_le (by omega) (by omega)]
    have hcut := substr_append (text "GET " ++ (a ++ [0x3f])) b (text " HTTP/1.1\r\n" ++ rest)
    have hparts : text "GET " ++ (a ++ [0x3f]) ++ (b ++ (text " HTTP/1.1\r\n" ++ rest))
        = getRequest (a ++ 0x3f :: b) rest := by
      simp only [getRequest, List.append_assoc, List.cons_append, List.nil_append]
    rw [hparts] at hcut
    have hstart : (text "GET " ++ (a ++ [0x3f])).length = 4 + a.length + 1 := by
      rw [List.length_append, List.length_append, ← Nat.add_assoc]
      rfl
    rw [hstart] at hcut
    rwa [show 4 + (a ++ 0x3f :: b).length - (4 + a.length + 1) = b.length by omega]

/-- Without a `?` anywhere the target is the path. -/
theorem parseTarget_of_notMem (http : CHttp) (htarget : 0x3f ∉ target) (hrest : 0x3f ∉ rest)
    (hlen : (getRequest target rest).length < 2 ^ 64) :
    parseTarget http (getRequest target rest) 4 (4 + target.length)
      = { http with path := target, queryString := [] } := by
  have htotal := length_getRequest target rest
  have hcut := substr_getRequest target [] rest (sizeDiff (4 + target.length) 4)
    (by rw [sizeDiff_of_le (by omega) (by omega)]; omega)
  rw [List.append_nil] at hcut
  rw [parseTarget, find_question_eq_none htarget hrest]
  dsimp only
  rw [hcut]

/-- **A `?` behind the line makes the path longer than the target.** -/
theorem parseTarget_path_of_mem_rest (http : CHttp) (htarget : 0x3f ∉ target) (hrest : 0x3f ∈ rest)
    (hlen : (getRequest target rest).length < 2 ^ 64) (httpFound : ℕ) :
    (parseTarget http (getRequest target rest) 4 httpFound).path ≠ target := by
  obtain ⟨a, b, rfl, ha⟩ := List.eq_append_cons_of_mem hrest
  have htotal := length_getRequest target (a ++ 0x3f :: b)
  rw [List.length_append, List.length_cons] at htotal
  intro h
  have hlength := congrArg List.length h
  rw [parseTarget, find_question_rest htarget ha] at hlength
  dsimp only at hlength
  rw [sizeDiff_of_le (by omega) (by omega), substr, List.length_take, List.length_drop] at hlength
  omega

end Question

/-! ## What the line decides -/

/-- **The request is read as its line says**: no text in it stands for a policy request, what
follows the line brings no `?` to a target without one, the query begins at a position that is an
`unsigned int`, and the path has a second `/` or is a single one. -/
structure LineDecides (target rest : Bytes) : Prop where
  noPolicy : isPolicyRequest (getRequest target rest) = false
  question : 0x3f ∈ target ∨ 0x3f ∉ rest
  position : 0x3f ∈ target → (targetPath target).length + 5 < 2 ^ 32
  slashes : targetPath target = [0x2f] ∨ 0x2f ∈ (targetPath target).tail

section Decides

variable {path : Bytes} {http : CHttp}

/-- The name of a path is what stands behind its last `/`; the folder is what stands between the
first one and the last, unless there is a single one with a name behind it. -/
theorem cutTarget_iff (data : Bytes) (hpath : http.path = 0x2f :: path)
    (hlen : path.length < 2 ^ 64) :
    ((cutTarget http data).name = pathName (0x2f :: path)
        ∧ (cutTarget http data).folder = pathFolder (0x2f :: path))
      ↔ 0x2f :: path = [0x2f] ∨ 0x2f ∈ path := by
  by_cases hmem : 0x2f ∈ path
  · obtain ⟨a, b, rfl, hb⟩ := exists_last hmem
    obtain ⟨hname, hfolder⟩ := cutTarget_name_folder (a := 0x2f :: a) data hpath hb
    rw [List.length_append, List.length_cons] at hlen
    have hcut : substr (0x2f :: (a ++ 0x2f :: b)) 1 a.length = a :=
      substr_append [0x2f] a (0x2f :: b)
    rw [hpath, List.length_cons, sizeDiff_of_le (by omega) (by omega), Nat.add_sub_cancel,
      hcut] at hfolder
    refine ⟨fun _ => Or.inr hmem, fun _ => ⟨hname.trans ?_, hfolder.trans ?_⟩⟩
    · exact (pathName_append hb (0x2f :: a)).symm
    · exact (pathFolder_append hb a).symm
  · obtain ⟨hname, hfolder⟩ := cutTarget_name_folder (a := []) data hpath hmem
    have hall : substr (0x2f :: path) 1 (sizeDiff ([] : Bytes).length 1) = path := by
      rw [substr, List.drop_succ_cons, List.drop_zero, List.take_of_length_le]
      exact Nat.le_of_lt_succ hlen
    rw [hpath, hall] at hfolder
    rw [hname, hfolder, pathFolder_of_notMem hmem]
    constructor
    · rintro ⟨-, rfl⟩
      exact Or.inl rfl
    · rintro (hone | hmem')
      · rw [(List.cons.inj hone).2]
        exact ⟨rfl, rfl⟩
      · exact absurd hmem' hmem

/-- What is read where the path and the query are cut out right. -/
theorem readsTarget_iff (data : Bytes) {target : Bytes} (hpath : http.path = targetPath target)
    (hquery : http.queryString = targetQuery target) (hslash : targetPath target = 0x2f :: path)
    (hlen : path.length < 2 ^ 64) :
    ReadsTarget target (cutTarget http data)
      ↔ targetPath target = [0x2f] ∨ 0x2f ∈ (targetPath target).tail := by
  have hiff := cutTarget_iff data (hpath.trans hslash) hlen
  rw [hslash, List.tail_cons, ← hiff, ← hslash]
  constructor
  · intro h
    exact ⟨h.name, h.folder⟩
  · rintro ⟨hname, hfolder⟩
    exact ⟨(cutTarget_path http data).trans hpath, (cutTarget_queryString http data).trans hquery,
      hname, hfolder⟩

variable {target rest a b : Bytes}

/-- A target with a query. -/
theorem readsTarget_question (ha : 0x3f ∉ a) (hslash : a = 0x2f :: path)
    (hlen : (getRequest (a ++ 0x3f :: b) rest).length < 2 ^ 64)
    (hpolicy : isPolicyRequest (getRequest (a ++ 0x3f :: b) rest) = false) :
    ReadsTarget (a ++ 0x3f :: b) (cutTarget (parseTarget http (getRequest (a ++ 0x3f :: b) rest) 4
        (4 + (a ++ 0x3f :: b).length)) (getRequest (a ++ 0x3f :: b) rest))
      ↔ LineDecides (a ++ 0x3f :: b) rest := by
  have hquestion : 0x3f ∈ a ++ 0x3f :: b := List.mem_append_right _ List.mem_cons_self
  have hpathlen : path.length < 2 ^ 64 := by
    rw [length_getRequest, List.length_append, hslash, List.length_cons] at hlen
    omega
  have hpath := parseTarget_path http ha hlen (4 + (a ++ 0x3f :: b).length)
  have hquery := parseTarget_queryString_iff http ha hlen
  have htarget := targetPath_append ha b
  have hvalue := targetQuery_append ha b
  constructor
  · intro h
    have hpos := hquery.1 ((cutTarget_queryString _ _).symm.trans (h.queryString.trans hvalue))
    exact ⟨hpolicy, Or.inl hquestion, fun _ => by rwa [htarget],
      (readsTarget_iff _ (hpath.trans htarget.symm) ((hquery.2 hpos).trans hvalue.symm)
        (htarget.trans hslash) hpathlen).1 h⟩
  · intro h
    have hpos := h.position hquestion
    rw [htarget] at hpos
    exact (readsTarget_iff _ (hpath.trans htarget.symm) ((hquery.2 hpos).trans hvalue.symm)
      (htarget.trans hslash) hpathlen).2 h.slashes

/-- A target without one, which a `?` behind the line lengthens. -/
theorem readsTarget_notMem (htarget : 0x3f ∉ target) (hslash : target = 0x2f :: path)
    (hlen : (getRequest target rest).length < 2 ^ 64)
    (hpolicy : isPolicyRequest (getRequest target rest) = false) :
    ReadsTarget target (cutTarget (parseTarget http (getRequest target rest) 4
        (4 + target.length)) (getRequest target rest))
      ↔ LineDecides target rest := by
  have hpathlen : path.length < 2 ^ 64 := by
    rw [length_getRequest, hslash, List.length_cons] at hlen
    omega
  have hpath := targetPath_of_notMem htarget
  have hquery := targetQuery_of_notMem htarget
  constructor
  · intro h
    by_cases hrest : 0x3f ∈ rest
    · have hlonger := parseTarget_path_of_mem_rest http htarget hrest hlen (4 + target.length)
      exact absurd ((cutTarget_path _ _).symm.trans (h.path.trans hpath)) hlonger
    · rw [parseTarget_of_notMem _ htarget hrest hlen] at h
      refine ⟨hpolicy, Or.inr hrest, fun hmem => absurd hmem htarget, ?_⟩
      exact (readsTarget_iff _ hpath.symm hquery.symm (hpath.trans hslash) hpathlen).1 h
  · intro h
    rw [parseTarget_of_notMem _ htarget (h.question.resolve_left htarget) hlen]
    exact (readsTarget_iff _ hpath.symm hquery.symm (hpath.trans hslash) hpathlen).2 h.slashes

end Decides

/-- **The path, the query, the name and the folder of a `GET` are those of its line exactly where
`LineDecides` holds.** -/
theorem target_read_iff (unset : BitVec 32) (target rest : Bytes)
    (hslash : target.head? = some 0x2f) (hspace : 0x20 ∉ target)
    (hlen : (getRequest target rest).length < 2 ^ 64) :
    ReadsTarget target (parseRequest { contentLen := unset } (getRequest target rest)).2
      ↔ LineDecides target rest := by
  obtain ⟨t, rfl⟩ : ∃ t, target = 0x2f :: t := by
    cases target with
    | nil => cases hslash
    | cons x t => exact ⟨t, by rw [Option.some.inj hslash]⟩
  cases hpolicy : isPolicyRequest (getRequest (0x2f :: t) rest) with
  | true =>
    have hpathslash : targetPath (0x2f :: t) = 0x2f :: targetPath t :=
      List.takeWhile_cons_of_pos (by decide)
    rw [getRequest] at hpolicy ⊢
    rw [parseRequest_of_get, parseGetRequest_policy _ hpolicy]
    constructor
    · intro h
      exact absurd (h.path.trans hpathslash) (List.cons_ne_nil _ _).symm
    · intro h
      exact absurd (hpolicy.symm.trans h.noPolicy) Bool.noConfusion
  | false =>
    rw [parseRequest_get _ hspace rest hpolicy]
    by_cases hquestion : 0x3f ∈ 0x2f :: t
    · obtain ⟨a, b, heq, ha⟩ := List.eq_append_cons_of_mem hquestion
      obtain ⟨path, hslash⟩ : ∃ path, a = 0x2f :: path := by
        cases a with
        | nil => cases heq
        | cons x path => exact ⟨path, by rw [(List.cons.inj heq).1]⟩
      rw [heq] at hlen hpolicy ⊢
      exact readsTarget_question ha hslash hlen hpolicy
    · exact readsTarget_notMem hquestion rfl hlen hpolicy

theorem target_read_iff_live :
    ReadsTarget (text "/live/a.flv?k=1") (parseRequest { contentLen := 7 }
        (getRequest (text "/live/a.flv?k=1") (text "Host: h?\r\n\r\n"))).2
      ↔ LineDecides (text "/live/a.flv?k=1") (text "Host: h?\r\n\r\n") :=
  target_read_iff 7 (text "/live/a.flv?k=1") (text "Host: h?\r\n\r\n") rfl (by decide) (by decide)

/-- **A `?` in a header moves the end of the path into the headers**, and a single `/` makes the
name the folder as well. -/
theorem header_shifts_target :
    (parseRequest {} (getRequest (text "/live/a.flv") (text "Referer: http:?\r\n\r\n"))).2.path
        = text "/live/a.flv HTTP/1.1\r\nReferer: http:"
      ∧ (parseRequest {} (getRequest (text "/a.flv") (text "Host: h\r\n\r\n"))).2.folder
        = text "a.flv"
      ∧ ¬ ReadsTarget (text "/live/a.flv")
        (parseRequest {} (getRequest (text "/live/a.flv") (text "Referer: http:?\r\n\r\n"))).2
      ∧ ¬ ReadsTarget (text "/a.flv")
        (parseRequest {} (getRequest (text "/a.flv") (text "Host: h\r\n\r\n"))).2 := by
  refine ⟨by decide +kernel, by decide +kernel, fun h => ?_, fun h => ?_⟩
  · exact absurd h.path (by decide +kernel)
  · exact absurd h.folder (by decide +kernel)

end SmartStreaming
