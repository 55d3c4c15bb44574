import SmartStreaming.Base.Split
import SmartStreaming.Base.UrlDecode
import SmartStreaming.Http.Fields
import SmartStreaming.Http.Parser

/-!
# Http/Asked — what a text asks for, read off its bytes

`CHttp::parse_request` cuts a text at its first `/`, its first `?` and its first ` HTTP`, wherever
they stand.  `Asks` says so of the bytes, and `asks_same_iff` when two texts are taken for the same
request.  `Ended` and `Accepted` say which texts `checkRequest` and `parse_request` let pass.
-/

namespace SmartStreaming

open CHttp

/-! ## Cuts -/

/-- From position `i` up to position `j`, or to the end where `j` stands in front of `i`. -/
def cut (t : Bytes) (i j : ℕ) : Bytes := if i ≤ j then (t.drop i).take (j - i) else t.drop i

/-- **`substr` with a difference of two positions**, which wraps where it would be negative. -/
theorem substr_sizeDiff {t : Bytes} {i j : ℕ} (hi : i ≤ t.length) (hj : j ≤ t.length)
    (hlen : t.length < 2 ^ 63) : substr t i (sizeDiff j i) = cut t i j := by
  rw [cut, substr]
  split
  · rename_i hle
    rw [sizeDiff_of_le hle (by omega)]
  · rename_i hlt
    refine List.take_of_length_le ?_
    rw [List.length_drop, sizeDiff, Nat.mod_eq_of_lt (by omega)]
    omega

/-- What is cut out begins with the letter at its first position. -/
theorem head?_cut {t : Bytes} {i j : ℕ} (hne : i ≠ j) : (cut t i j).head? = t[i]? := by
  rw [cut]
  split
  · rename_i hle
    obtain ⟨n, hn⟩ : ∃ n, j - i = n + 1 := ⟨j - i - 1, by omega⟩
    rw [hn, List.head?_take, if_neg (Nat.succ_ne_zero n), List.head?_drop]
  · rw [List.head?_drop]

/-! ## The target and the host -/

/-- **A `GET` that is looked at**: it holds no policy text, a `/` and the text ` HTTP`. -/
structure IsGet (t : Bytes) (slash version : ℕ) : Prop where
  get : text "GET " <+: t
  noPolicy : isPolicyRequest t = false
  slash : find t (text "/") 0 = some slash
  version : find t (text " HTTP") 0 = some version

/-- The path and the query: the first `?` of the text parts them. -/
inductive TargetAt (t : Bytes) (slash version : ℕ) : Bytes → Bytes → Prop
  | plain (h : 0x3f ∉ t) : TargetAt t slash version (cut t slash version) []
  | query {question : ℕ} (h : find t (text "?") 0 = some question) :
      TargetAt t slash version (cut t slash question) (cut t (question + 1) version)

/-- What follows the first `Host: ` of the text up to the end of the line. -/
def hostOf (t : Bytes) : Bytes :=
  ((find t (text "Host: ") 0).bind fun found => lineFrom t (found + 6)).getD []

/-- **What a text asks for**: a path, a query and a host.  A text that is not looked at leaves all
of them empty, which is what is made of the path `/`. -/
inductive Asks (t : Bytes) : Bytes → Bytes → Bytes → Prop
  | nothing (h : ∀ slash version, ¬ IsGet t slash version) : Asks t (text "/") [] []
  | target {slash version : ℕ} {path query : Bytes} (h : IsGet t slash version)
      (target : TargetAt t slash version path query) : Asks t path query (hostOf t)

/-- Every text asks for something. -/
theorem exists_asks (t : Bytes) : ∃ path query host, Asks t path query host := by
  by_cases h : ∃ slash version, IsGet t slash version
  · obtain ⟨slash, version, h⟩ := h
    by_cases hquestion : 0x3f ∈ t
    · obtain ⟨a, b, hab, ha⟩ := List.eq_append_cons_of_mem hquestion
      have hfind : find t (text "?") 0 = some a.length := by
        rw [hab]
        exact find_letter ha b
      exact ⟨_, _, _, .target h (.query hfind)⟩
    · exact ⟨_, _, _, .target h (.plain hquestion)⟩
  · exact ⟨_, _, _, .nothing fun slash version hget => h ⟨slash, version, hget⟩⟩

/-- Where a text is found, its first letter stands. -/
theorem getElem?_of_find {t q : Bytes} {x : Byte} {i : ℕ} (h : find t (x :: q) 0 = some i) :
    t[i]? = some x := (occursAt_of_find h).getElem? (k := 0) (Nat.succ_pos _)

/-- The path of a target begins with its `/`. -/
theorem TargetAt.head? {t path query : Bytes} {slash version : ℕ} (h : IsGet t slash version)
    (target : TargetAt t slash version path query) : path.head? = some 0x2f := by
  have hslash : t[slash]? = some 0x2f := getElem?_of_find h.slash
  have hstop : ∀ {i : ℕ} {x : Byte}, t[i]? = some x → x ≠ 0x2f → slash ≠ i := by
    rintro i x hi hx rfl
    exact hx (Option.some.inj (hi.symm.trans hslash))
  cases target with
  | plain _ => rw [head?_cut (hstop (getElem?_of_find h.version) (by decide)), hslash]
  | query hfind => rw [head?_cut (hstop (getElem?_of_find hfind) (by decide)), hslash]

theorem Asks.head? {t path query host : Bytes} (h : Asks t path query host) :
    path.head? = some 0x2f := by
  cases h with
  | nothing _ => rfl
  | target h target => exact target.head? h

/-! ## Name and folder -/

/-- The folder that is cut out of a path: with a single `/` it is the name once more. -/
def folderOf (path : Bytes) : Bytes := if 0x2f ∈ path.tail then pathFolder path else path.tail

/-- What stands behind the last `.` of a name, or all of it. -/
def extOf (name : Bytes) : Bytes :=
  (findLastOf name 0x2e).elim name fun found => name.drop (found + 1)

/-- **Two paths with the same folder and name**: they are the same, or one is `/n` and the other one
`/n/n`. -/
inductive SamePath : Bytes → Bytes → Prop
  | refl (path : Bytes) : SamePath path path
  | once {n : Bytes} (h : 0x2f ∉ n) : SamePath (0x2f :: n) (0x2f :: (n ++ 0x2f :: n))
  | twice {n : Bytes} (h : 0x2f ∉ n) : SamePath (0x2f :: (n ++ 0x2f :: n)) (0x2f :: n)

theorem pathName_single {n : Bytes} (h : 0x2f ∉ n) : pathName (0x2f :: n) = n :=
  pathName_append h []

theorem folderOf_single {n : Bytes} (h : 0x2f ∉ n) : folderOf (0x2f :: n) = n := if_neg h

theorem folderOf_append {b : Bytes} (h : 0x2f ∉ b) (a : Bytes) :
    folderOf (0x2f :: (a ++ 0x2f :: b)) = a := by
  have hmem : 0x2f ∈ (0x2f :: (a ++ 0x2f :: b)).tail :=
    List.mem_append_right _ List.mem_cons_self
  rw [folderOf, if_pos hmem, pathFolder_append h]

theorem samePath_iff {path path' : Bytes} (h : path.head? = some 0x2f)
    (h' : path'.head? = some 0x2f) :
    SamePath path path' ↔ pathName path = pathName path' ∧ folderOf path = folderOf path' := by
  constructor
  · intro hsame
    cases hsame with
    | refl => exact ⟨rfl, rfl⟩
    | @once n hn =>
      rw [pathName_single hn, folderOf_single hn, folderOf_append hn]
      exact ⟨(pathName_append hn (0x2f :: n)).symm, rfl⟩
    | @twice n hn =>
      rw [pathName_single hn, folderOf_single hn, folderOf_append hn]
      exact ⟨pathName_append hn (0x2f :: n), rfl⟩
  · rintro ⟨hname, hfolder⟩
    obtain ⟨p, rfl⟩ := List.head?_eq_some_iff.1 h
    obtain ⟨p', rfl⟩ := List.head?_eq_some_iff.1 h'
    by_cases hp : 0x2f ∈ p
    · obtain ⟨a, b, rfl, hb⟩ := exists_last hp
      have hb' := pathName_append hb (0x2f :: a)
      rw [List.cons_append] at hb'
      rw [hb'] at hname
      rw [folderOf_append hb] at hfolder
      by_cases hp' : 0x2f ∈ p'
      · obtain ⟨a', b', rfl, hb'⟩ := exists_last hp'
        have hname' := pathName_append hb' (0x2f :: a')
        rw [List.cons_append] at hname'
        rw [folderOf_append hb'] at hfolder
        rw [hname.trans hname', hfolder]
        exact .refl _
      · rw [pathName_single hp'] at hname
        rw [folderOf_single hp'] at hfolder
        rw [hname, hfolder]
        exact .twice hp'
    · rw [pathName_single hp] at hname
      rw [folderOf_single hp] at hfolder
      by_cases hp' : 0x2f ∈ p'
      · obtain ⟨a', b', rfl, hb'⟩ := exists_last hp'
        have hname' := pathName_append hb' (0x2f :: a')
        rw [List.cons_append] at hname'
        rw [folderOf_append hb'] at hfolder
        rw [← hname.trans hname', ← hfolder]
        exact .once hp
      · rw [pathName_single hp'] at hname
        rw [hname]
        exact .refl _

/-! ## What is read -/

/-- The fields of a request for this path, query and host. -/
structure ReadsAs (path query host : Bytes) (http : CHttp) : Prop where
  requestHost : http.requestHost = host
  queryString : http.queryString = query
  name : http.name = pathName path
  folder : http.folder = folderOf path
  ext : http.ext = extOf (pathName path)

/-- The same fields are set. -/
structure SameTargetRead (http http' : CHttp) : Prop where
  requestHost : http.requestHost = http'.requestHost
  queryString : http.queryString = http'.queryString
  name : http.name = http'.name
  folder : http.folder = http'.folder
  ext : http.ext = http'.ext

/-- Where no field is set, the path is `/`. -/
theorem SameTargetRead.readsAs {http : CHttp} (h : SameTargetRead http {}) :
    ReadsAs (text "/") [] [] http := by
  have hname : pathName (text "/") = [] := by decide
  have hfolder : folderOf (text "/") = [] := by decide
  have hext : extOf [] = [] := rfl
  refine ⟨h.requestHost, h.queryString, ?_, ?_, ?_⟩
  · rw [h.name, hname]
  · rw [h.folder, hfolder]
  · rw [h.ext, hname, hext]

section Reads

variable {t path query : Bytes} {slash version : ℕ} {http : CHttp}

/-- A method that is read stands at the beginning, in front of a space. -/
theorem prefix_of_method {w : Bytes} {found : ℕ} (hfound : find t (text " ") 0 = some found)
    (hmethod : substr t 0 found = w) : w ++ text " " <+: t := by
  obtain ⟨x, hx⟩ : text " " <+: t.drop found := occursAt_of_find hfound
  refine ⟨x, ?_⟩
  rw [List.append_assoc, hx, ← hmethod]
  exact List.take_append_drop found t

/-- **A text that is not looked at sets no field.** -/
theorem sameTargetRead_of_forall_not_isGet (h : ∀ slash version, ¬ IsGet t slash version) :
    SameTargetRead (CHttp.parseRequest {} t).2 {} := by
  rw [CHttp.parseRequest]
  cases hfound : find t (text " ") 0 with
  | none => exact ⟨rfl, rfl, rfl, rfl, rfl⟩
  | some found =>
    dsimp only
    split
    · obtain ⟨_, _, _, _, hpost⟩ := exists_parsePostRequest_snd { method := substr t 0 found } t
      rw [hpost]
      exact ⟨rfl, rfl, rfl, rfl, rfl⟩
    · split
      · rename_i hget
        rw [hget]
        cases hpolicy : isPolicyRequest t with
        | true =>
          rw [parseGetRequest_policy _ hpolicy]
          exact ⟨rfl, rfl, rfl, rfl, rfl⟩
        | false =>
          have hno := hpolicy
          rw [isPolicyRequest, decide_eq_false_iff_not, not_or] at hno
          rw [parseGetRequest, if_neg hno.1, if_neg hno.2]
          cases hslash : find t (text "/") 0 with
          | none => exact ⟨rfl, rfl, rfl, rfl, rfl⟩
          | some slash =>
            dsimp only
            rw [parseGetMethod, if_neg (show text "GET" ≠ [] by decide), if_neg (not_not.2 rfl)]
            cases hversion : find t (text " HTTP") 0 with
            | none => exact ⟨rfl, rfl, rfl, rfl, rfl⟩
            | some version =>
              exact absurd ⟨prefix_of_method hfound hget, hpolicy, hslash, hversion⟩
                (h slash version)
      · exact ⟨rfl, rfl, rfl, rfl, rfl⟩

/-- The target is cut out of the text. -/
theorem TargetAt.parseTarget_eq (http : CHttp) (h : IsGet t slash version)
    (target : TargetAt t slash version path query) (hlen : t.length < 2 ^ 31) :
    (http.parseTarget t slash version).path = path
      ∧ (http.parseTarget t slash version).queryString = query := by
  have hslash := (find_eq_some_iff.1 h.slash).2.1
  have hversion := (find_eq_some_iff.1 h.version).2.1
  cases target with
  | plain hno =>
    rw [parseTarget, show text "?" = [0x3f] from rfl, find_letter_eq_none hno]
    exact ⟨substr_sizeDiff hslash hversion (by omega), rfl⟩
  | @query question hfind =>
    have hfits : question + 1 ≤ t.length := find_add_length_le hfind
    rw [parseTarget, hfind]
    dsimp only
    rw [Nat.mod_eq_of_lt (by omega)]
    exact ⟨substr_sizeDiff hslash (by omega) (by omega),
      substr_sizeDiff hfits hversion (by omega)⟩

/-- The name, the folder and the extension of a path. -/
theorem cutTarget_of_head? (data : Bytes) (hpath : http.path = path)
    (hslash : path.head? = some 0x2f) (hlen : path.length < 2 ^ 63) :
    (cutTarget http data).name = pathName path ∧ (cutTarget http data).folder = folderOf path
      ∧ (cutTarget http data).ext = extOf (pathName path) := by
  have hext : (cutTarget http data).ext = extOf (cutTarget http data).name := by
    obtain ⟨hname, -⟩ := parseExt_name_folder http.parseName
    rw [show (cutTarget http data).name = http.parseName.name from hname]
    change http.parseName.parseExt.ext = _
    rw [parseExt, extOf]
    cases findLastOf http.parseName.name 0x2e <;> rfl
  obtain ⟨p, rfl⟩ := List.head?_eq_some_iff.1 hslash
  rw [hext]
  by_cases hmem : 0x2f ∈ p
  · obtain ⟨a, b, rfl, hb⟩ := exists_last hmem
    obtain ⟨hname, hfolder⟩ := cutTarget_name_folder (a := 0x2f :: a) data hpath hb
    rw [List.length_cons, List.length_append] at hlen
    have hcut : substr (0x2f :: (a ++ 0x2f :: b)) 1 a.length = a :=
      substr_append [0x2f] a (0x2f :: b)
    rw [hpath, List.length_cons, sizeDiff_of_le (by omega) (by omega), Nat.add_sub_cancel,
      hcut] at hfolder
    rw [hname, hfolder, folderOf_append hb]
    exact ⟨(pathName_append hb (0x2f :: a)).symm, rfl,
      congrArg extOf (pathName_append hb (0x2f :: a)).symm⟩
  · obtain ⟨hname, hfolder⟩ := cutTarget_name_folder (a := []) data hpath hmem
    have hshort : p.length < 2 ^ 64 := by
      rw [List.length_cons] at hlen
      omega
    have hall : substr (0x2f :: p) 1 (sizeDiff ([] : Bytes).length 1) = p := by
      rw [substr, List.drop_succ_cons, List.drop_zero, List.take_of_length_le]
      exact Nat.le_of_lt_succ hshort
    rw [hpath, hall] at hfolder
    rw [hname, hfolder, folderOf_single hmem, pathName_single hmem]
    exact ⟨rfl, rfl, rfl⟩

theorem length_cut_le (t : Bytes) (i j : ℕ) : (cut t i j).length ≤ t.length := by
  rw [cut]
  split
  · rw [List.length_take, List.length_drop]
    omega
  · rw [List.length_drop]
    omega

theorem TargetAt.length_path_le (target : TargetAt t slash version path query) :
    path.length ≤ t.length := by
  cases target with
  | plain _ => exact length_cut_le t _ _
  | query _ => exact length_cut_le t _ _

/-- The host is the value of the field. -/
theorem headerValue_eq_hostOf (hlen : t.length < 2 ^ 31) :
    (headerValue t (text "Host: ")).getD [] = hostOf t := by
  rw [headerValue_eq, hostOf]
  cases hfind : find t (text "Host: ") 0 with
  | none => rw [Option.bind_none, Option.bind_none]
  | some found =>
    have hfits : found + 6 ≤ t.length := find_add_length_le hfind
    have hmod : (found + 6) % 2 ^ 32 = found + 6 := Nat.mod_eq_of_lt (by omega)
    have hsix : (text "Host: ").length = 6 := rfl
    rw [Option.bind_some, Option.bind_some, hsix, hmod]

/-- What is made of the target that was cut out. -/
theorem readsAs_cutTarget (hpath : http.path = path) (hquery : http.queryString = query)
    (hhost : http.requestHost = []) (hslash : path.head? = some 0x2f)
    (hshort : path.length < 2 ^ 63) (hlen : t.length < 2 ^ 31) :
    ReadsAs path query (hostOf t) (cutTarget http t) := by
  obtain ⟨hname, hfolder, hext⟩ := cutTarget_of_head? t hpath hslash hshort
  refine ⟨?_, (cutTarget_queryString http t).trans hquery, hname, hfolder, hext⟩
  rw [(cutTarget_kept http t).1, hhost, headerValue_eq_hostOf hlen]

/-- **What a text asks for is what `parse_request` reads off it.** -/
theorem Asks.readsAs {host : Bytes} (h : Asks t path query host) (hlen : t.length < 2 ^ 31) :
    ReadsAs path query host (CHttp.parseRequest {} t).2 := by
  cases h with
  | nothing h => exact (sameTargetRead_of_forall_not_isGet h).readsAs
  | @target slash version path query h target =>
    obtain ⟨x, hx⟩ := h.get
    have hget := parseRequest_of_get {} x
    rw [hx, parseGetRequest_cut {} h.noPolicy h.slash h.version] at hget
    obtain ⟨hpath, hquery⟩ := target.parseTarget_eq { method := text "GET" } h hlen
    obtain ⟨hhost, -⟩ := parseTarget_kept { method := text "GET" } t slash version
    have hshort : path.length < 2 ^ 63 := lt_of_le_of_lt target.length_path_le (by omega)
    rw [hget]
    exact readsAs_cutTarget hpath hquery hhost (target.head? h) hshort hlen

end Reads

/-- **Two texts ask for the same**: the same query and host, and paths with the same folder and
name. -/
def AskSame (t t' : Bytes) : Prop :=
  ∃ path path' query host, Asks t path query host ∧ Asks t' path' query host ∧ SamePath path path'


/-- **Two texts ask for the same exactly where the same fields are read off them.** -/
theorem askSame_iff {t t' : Bytes} (hlen : t.length < 2 ^ 31) (hlen' : t'.length < 2 ^ 31) :
    AskSame t t' ↔ SameTargetRead (CHttp.parseRequest {} t).2 (CHttp.parseRequest {} t').2 := by
  constructor
  · rintro ⟨path, path', query, host, h, h', hsame⟩
    have hread := h.readsAs hlen
    have hread' := h'.readsAs hlen'
    obtain ⟨hname, hfolder⟩ := (samePath_iff h.head? h'.head?).1 hsame
    exact ⟨hread.requestHost.trans hread'.requestHost.symm,
      hread.queryString.trans hread'.queryString.symm,
      hread.name.trans (hname.trans hread'.name.symm),
      hread.folder.trans (hfolder.trans hread'.folder.symm),
      hread.ext.trans ((congrArg extOf hname).trans hread'.ext.symm)⟩
  · intro hsame
    obtain ⟨path, query, host, h⟩ := exists_asks t
    obtain ⟨path', query', host', h'⟩ := exists_asks t'
    have hread := h.readsAs hlen
    have hread' := h'.readsAs hlen'
    obtain rfl := hread.queryString.symm.trans (hsame.queryString.trans hread'.queryString)
    obtain rfl := hread.requestHost.symm.trans (hsame.requestHost.trans hread'.requestHost)
    exact ⟨path, path', query, host, h, h', (samePath_iff h.head? h'.head?).2
      ⟨hread.name.symm.trans (hsame.name.trans hread'.name),
        hread.folder.symm.trans (hsame.folder.trans hread'.folder)⟩⟩

/-! ## What is let pass -/

/-- **A text that `checkRequest` takes for complete**: it has a blank line, and if a length is
announced, the end of the body lies in it.  That end is an `unsigned int`. -/
inductive Ended (t : Bytes) : Prop
  | plain {header : ℕ} (noLength : contains t contentLength = false)
      (blank : find t blankLine 0 = some header)
  | length {header : ℕ} {c : BitVec 32} (length : announced t = some c)
      (blank : find t blankLine 0 = some header) (pos : 0 < (header + 4 + c.toNat) % 2 ^ 32)
      (body : (header + 4 + c.toNat) % 2 ^ 32 ≤ t.length)

/-- **A text that `parse_request` accepts**: a `GET` with a policy text, or with a `/` and the text
` HTTP`; a `POST` with a second space, an announced length and a body of that length.  The value of
the length goes up to the first line end of the whole text. -/
inductive Accepted (t : Bytes) : Prop
  | policy (get : text "GET " <+: t) (h : isPolicyRequest t = true)
  | get (get : text "GET " <+: t) (slash : 0x2f ∈ t) (version : contains t (text " HTTP") = true)
  | post {found stop header : ℕ} (post : text "POST " <+: t) (url : 0x20 ∈ t.drop 5)
      (length : find t contentLength 0 = some found) (line : find t crlf 0 = some stop)
      (blank : find t blankLine 0 = some header)
      (body : (header + 4 + (atoi (cut t (found + 15) stop)).toNat) % 2 ^ 32 ≤ t.length)

section Pass

variable {t : Bytes}

theorem toNat_bodyEnd {n : ℕ} (hn : n < 2 ^ 32) (c : BitVec 32) :
    (bodyEnd n c).toNat = (n + c.toNat) % 2 ^ 32 := by
  rw [bodyEnd, BitVec.toNat_add, BitVec.toNat_ofNat, Nat.mod_eq_of_lt hn]

theorem checkBody_pos_iff (c : BitVec 32) (hlen : t.length < 2 ^ 31) :
    0 < (checkBody { contentLen := c } t).1 ↔ ∃ header, find t blankLine 0 = some header
      ∧ 0 < (header + 4 + c.toNat) % 2 ^ 32 ∧ (header + 4 + c.toNat) % 2 ^ 32 ≤ t.length := by
  rw [checkBody]
  cases hblank : find t blankLine 0 with
  | none =>
    refine iff_of_false (lt_irrefl _) ?_
    rintro ⟨_, hno, -⟩
    cases hno
  | some header =>
    have hfits : header + 4 ≤ t.length := find_add_length_le hblank
    have hnat := toNat_bodyEnd (show header + blankLine.length < 2 ^ 32 from by
      change header + 4 < 2 ^ 32
      omega) c
    dsimp only
    rw [show header + blankLine.length = header + 4 from rfl] at hnat ⊢
    rw [hnat]
    split
    · rename_i hgt
      refine iff_of_false (lt_irrefl _) ?_
      rintro ⟨_, ⟨⟩, -, hle⟩
      omega
    · rename_i hle
      have hint : ((bodyEnd (header + 4) c).toInt : ℤ) = (header + 4 + c.toNat) % 2 ^ 32 := by
        rw [BitVec.toInt_eq_toNat_cond, hnat, if_pos (by omega)]
        push_cast
        rfl
      constructor
      · intro hpos
        exact ⟨header, rfl, by omega, not_lt.1 hle⟩
      · rintro ⟨_, ⟨⟩, hpos, -⟩
        omega

/-- **The texts that `checkRequest` takes for complete.** -/
theorem checkRequest_pos_iff (http : CHttp) (hlen : t.length < 2 ^ 31) :
    0 < (http.checkRequest t).1 ↔ Ended t := by
  cases hc : contains t contentLength with
  | false =>
    rw [checkRequest_of_not_contains http hc, checkHttpInputSimple]
    constructor
    · intro hpos
      cases hblank : find t blankLine 0 with
      | none =>
        rw [hblank] at hpos
        exact absurd hpos (lt_irrefl _)
      | some header => exact .plain hc hblank
    · rintro (⟨-, hblank⟩ | ⟨hann, -, -, -⟩)
      · have hfits := find_add_length_le hblank
        have hfour : blankLine.length = 4 := rfl
        rw [hblank]
        dsimp only
        rw [toInt_ofNat_of_lt (by omega)]
        omega
      · rw [announced, contains_eq_false_iff.1 hc, Option.bind_none] at hann
        cases hann
  | true =>
    rw [checkRequest_of_contains http hc]
    cases hann : announced t with
    | none =>
      rw [Option.elim_none]
      refine iff_of_false (lt_irrefl _) ?_
      rintro (⟨hno, -⟩ | ⟨hann', -, -, -⟩)
      · rw [hc] at hno
        cases hno
      · rw [hann] at hann'
        cases hann'
    | some c =>
      rw [Option.elim_some, checkBody_pos_iff c hlen]
      constructor
      · rintro ⟨header, hblank, hpos, hbody⟩
        exact .length hann hblank hpos hbody
      · rintro (⟨hno, -⟩ | ⟨hann', hblank, hpos, hbody⟩)
        · rw [hc] at hno
          cases hno
        · obtain rfl := Option.some.inj (hann.symm.trans hann')
          exact ⟨_, hblank, hpos, hbody⟩

theorem refused_ne_zero : ¬ (-1 : ℤ) = 0 := by decide

theorem parseGetRequest_fst_iff (http : CHttp) (hget : http.method = text "GET") :
    (http.parseGetRequest t).1 = 0 ↔
      isPolicyRequest t = true ∨ 0x2f ∈ t ∧ contains t (text " HTTP") = true := by
  obtain ⟨http, rfl⟩ : ∃ http', http = { http' with method := text "GET" } :=
    ⟨http, by rw [← hget]⟩
  cases hpolicy : isPolicyRequest t with
  | true =>
    rw [parseGetRequest_policy _ hpolicy]
    exact iff_of_true rfl (.inl rfl)
  | false =>
    rw [or_iff_right Bool.false_ne_true]
    have hno := hpolicy
    rw [isPolicyRequest, decide_eq_false_iff_not, not_or] at hno
    by_cases hmem : 0x2f ∈ t
    · obtain ⟨a, b, hab, ha⟩ := List.eq_append_cons_of_mem hmem
      have hslash : find t (text "/") 0 = some a.length := by
        rw [hab]
        exact find_letter ha b
      cases hversion : find t (text " HTTP") 0 with
      | none =>
        rw [parseGetRequest, if_neg hno.1, if_neg hno.2, hslash]
        dsimp only
        rw [parseGetMethod_get, if_neg (not_not.2 rfl), hversion, contains, hversion]
        refine iff_of_false refused_ne_zero ?_
        rintro ⟨-, hno⟩
        cases hno
      | some version =>
        rw [parseGetRequest_cut http hpolicy hslash hversion, contains, hversion]
        exact iff_of_true rfl ⟨hmem, rfl⟩
    · rw [parseGetRequest, if_neg hno.1, if_neg hno.2, show text "/" = [0x2f] from rfl,
        find_letter_eq_none hmem]
      exact iff_of_false refused_ne_zero fun h => hmem h.1

theorem parseLength_fst_iff (http : CHttp) (hlen : t.length < 2 ^ 31) :
    (http.parseLength t).1 = 0 ↔ ∃ found stop header, find t contentLength 0 = some found
      ∧ find t crlf 0 = some stop ∧ find t blankLine 0 = some header
      ∧ (header + 4 + (atoi (cut t (found + 15) stop)).toNat) % 2 ^ 32 ≤ t.length := by
  rw [parseLength]
  cases hfound : find t contentLength 0 with
  | none => exact iff_of_false refused_ne_zero fun ⟨_, _, _, hno, _⟩ => nomatch hno
  | some found =>
    have hstart : found + 15 ≤ t.length := find_add_length_le hfound
    have hmod : (found + contentLength.length) % 2 ^ 32 = found + 15 :=
      Nat.mod_eq_of_lt (show found + 15 < 2 ^ 32 by omega)
    dsimp only
    rw [hmod]
    cases hstop : find t crlf 0 with
    | none => exact iff_of_false refused_ne_zero fun ⟨_, _, _, _, hno, _⟩ => nomatch hno
    | some stop =>
      have hcut : substr t (found + 15) (sizeDiff stop (found + 15)) = cut t (found + 15) stop :=
        substr_sizeDiff hstart (find_eq_some_iff.1 hstop).2.1 (by omega)
      dsimp only
      rw [hcut, parseBody]
      cases hblank : find t blankLine 0 with
      | none => exact iff_of_false refused_ne_zero fun ⟨_, _, _, _, _, hno, _⟩ => nomatch hno
      | some header =>
        have hfits : header + 4 ≤ t.length := find_add_length_le hblank
        have hnat := toNat_bodyEnd (show header + 4 < 2 ^ 32 by omega)
          (atoi (cut t (found + 15) stop))
        dsimp only
        rw [hnat]
        split
        · rename_i hlt
          refine iff_of_false refused_ne_zero ?_
          rintro ⟨_, _, _, ⟨⟩, ⟨⟩, ⟨⟩, hle⟩
          omega
        · rename_i hle
          exact iff_of_true rfl ⟨found, stop, header, rfl, rfl, rfl, not_lt.1 hle⟩

/-- A text that begins with `POST ` has to have a second space. -/
theorem parseRequest_fst_of_post (http : CHttp) (x : Bytes) :
    (0x20 ∉ x ∧ (http.parseRequest (text "POST " ++ x)).1 = -1)
      ∨ 0x20 ∈ x ∧ ∃ http' : CHttp, (http.parseRequest (text "POST " ++ x)).1
        = (http'.parseLength (text "POST " ++ x)).1 := by
  have hspace : find (text "POST " ++ x) (text " ") 0 = some 4 :=
    find_letter (a := text "POST") (by decide) x
  have hmethod : substr (text "POST " ++ x) 0 4 = text "POST" := rfl
  have hsecond := find_append_right (text "POST ") x (text " ") 0
  have hstart : (text "POST ").length + 0 = 5 := rfl
  rw [hstart] at hsecond
  rw [parseRequest, hspace]
  dsimp only
  rw [hmethod, if_pos rfl, parsePostRequest, hspace]
  dsimp only
  rw [hmethod, if_neg (not_not.2 rfl), show (4 + 1) % 2 ^ 32 = 5 from rfl, hsecond]
  by_cases hmem : 0x20 ∈ x
  · obtain ⟨a, b, hab, ha⟩ := List.eq_append_cons_of_mem hmem
    have hfind : find x (text " ") 0 = some a.length := by
      rw [hab]
      exact find_letter ha b
    rw [hfind]
    exact .inr ⟨hmem, _, rfl⟩
  · rw [show text " " = [0x20] from rfl, find_letter_eq_none hmem]
    exact .inl ⟨hmem, rfl⟩

/-- **The texts that `parse_request` accepts.** -/
theorem parseRequest_fst_iff (hlen : t.length < 2 ^ 31) :
    (CHttp.parseRequest {} t).1 = 0 ↔ Accepted t := by
  by_cases hget : text "GET " <+: t
  · obtain ⟨x, rfl⟩ := hget
    rw [parseRequest_of_get, parseGetRequest_fst_iff _ rfl]
    constructor
    · rintro (hpolicy | ⟨hslash, hversion⟩)
      · exact .policy (List.prefix_append _ _) hpolicy
      · exact .get (List.prefix_append _ _) hslash hversion
    · rintro (⟨-, hpolicy⟩ | ⟨-, hslash, hversion⟩ | ⟨⟨y, hy⟩, -, -, -, -, -⟩)
      · exact .inl hpolicy
      · exact .inr ⟨hslash, hversion⟩
      · cases hy
  · by_cases hpost : text "POST " <+: t
    · obtain ⟨x, rfl⟩ := hpost
      have hdrop : (text "POST " ++ x).drop 5 = x := rfl
      rcases parseRequest_fst_of_post {} x with ⟨hmem, hread⟩ | ⟨hmem, http, hread⟩
      · rw [hread]
        refine iff_of_false refused_ne_zero ?_
        rintro (⟨h, -⟩ | ⟨h, -, -⟩ | ⟨-, hurl, -, -, -, -⟩)
        · exact hget h
        · exact hget h
        · rw [hdrop] at hurl
          exact hmem hurl
      · rw [hread, parseLength_fst_iff http hlen]
        constructor
        · rintro ⟨found, stop, header, hlength, hline, hblank, hbody⟩
          exact .post (List.prefix_append _ _) (by rwa [hdrop]) hlength hline hblank hbody
        · rintro (⟨h, -⟩ | ⟨h, -, -⟩ | ⟨-, -, hlength, hline, hblank, hbody⟩)
          · exact absurd h hget
          · exact absurd h hget
          · exact ⟨_, _, _, hlength, hline, hblank, hbody⟩
    · refine iff_of_false (fun hzero => ?_) ?_
      · rw [parseRequest] at hzero
        cases hfound : find t (text " ") 0 with
        | none =>
          rw [hfound] at hzero
          exact refused_ne_zero hzero
        | some found =>
          rw [hfound] at hzero
          dsimp only at hzero
          split at hzero
          · rename_i hmethod
            exact hpost (prefix_of_method hfound hmethod)
          · split at hzero
            · rename_i hmethod
              exact hget (prefix_of_method hfound hmethod)
            · exact refused_ne_zero hzero
      · rintro (⟨h, -⟩ | ⟨h, -, -⟩ | ⟨h, -, -, -, -, -⟩)
        · exact hget h
        · exact hget h
        · exact hpost h

end Pass

/-! ## The values of the query -/

/-- The text ends in the `%` of an escape: those before it are whole. -/
def EndsInPercent (s : Bytes) : Prop := ∃ u, WholeEscapes u ∧ s = u ++ [0x25]

/-- **No value of the query ends in the `%` of an escape**: the query is cut at every `&`, and a
part with a single `=` is a key and a value. -/
def ValuesWhole (query : Bytes) : Prop :=
  ∀ field ∈ query.splitOn 0x26, ∀ key value, field.splitOn 0x3d = [key, value] →
    ¬ EndsInPercent value

theorem endsInPercent_cons_iff {x : Byte} (hx : x ≠ 0x25) (s : Bytes) :
    EndsInPercent (x :: s) ↔ EndsInPercent s := by
  constructor
  · rintro ⟨u, hu, hs⟩
    cases hu with
    | nil => exact absurd (List.cons.inj hs).1 hx
    | plain _ hu => exact ⟨_, hu, (List.cons.inj hs).2⟩
    | escape => exact absurd (List.cons.inj hs).1 hx
  · rintro ⟨u, hu, rfl⟩
    exact ⟨x :: u, .plain hx hu, rfl⟩

theorem endsInPercent_escape_iff (hi lo : Byte) (s : Bytes) :
    EndsInPercent (0x25 :: hi :: lo :: s) ↔ EndsInPercent s := by
  constructor
  · rintro ⟨u, hu, hs⟩
    cases hu with
    | nil => cases hs
    | plain hx _ => exact absurd (List.cons.inj hs).1.symm hx
    | escape _ _ hu =>
      exact ⟨_, hu, (List.cons.inj (List.cons.inj (List.cons.inj hs).2).2).2⟩
  · rintro ⟨u, hu, rfl⟩
    exact ⟨0x25 :: hi :: lo :: u, .escape hi lo hu, rfl⟩

theorem isOk_map {α β ε : Type} (f : α → β) (out : Except ε α) : (out.map f).isOk = out.isOk := by
  cases out <;> rfl

/-- **`url_decode` stays inside a value** that does not end in the `%` of an escape. -/
theorem isOk_urlDecode_iff (s : Bytes) : (urlDecode s).isOk = true ↔ ¬ EndsInPercent s := by
  induction s using urlDecode.induct with
  | case1 =>
    refine iff_of_true rfl ?_
    rintro ⟨u, -, hs⟩
    exact absurd hs.symm (List.append_ne_nil_of_right_ne_nil u (List.cons_ne_nil _ _))
  | case2 hi lo s ih =>
    rw [show urlDecode (0x25#8 :: hi :: lo :: s) = _ from urlDecode_escape hi lo s, isOk_map, ih]
    exact not_congr (endsInPercent_escape_iff hi lo s).symm
  | case3 x =>
    refine iff_of_true rfl ?_
    rintro ⟨u, hu, hs⟩
    cases hu with
    | nil => cases hs
    | plain hx _ => exact hx (List.cons.inj hs).1.symm
    | escape _ _ _ => cases hs
  | case4 => exact iff_of_false nofun (not_not.2 ⟨[], .nil, rfl⟩)
  | case5 x s hescape hone hnone ih =>
    have hx : x ≠ 0x25 := by
      rintro rfl
      obtain _ | ⟨y, _ | ⟨z, s⟩⟩ := s
      · exact hnone rfl rfl
      · exact hone y rfl rfl
      · exact hescape y z s rfl rfl
    rw [urlDecode_cons hx, isOk_map, ih, endsInPercent_cons_iff hx]

theorem splitString_eq {s : Bytes} (hs : s ≠ []) (sep : Byte) :
    splitString s sep = s.splitOn sep := by
  rw [splitString, if_neg hs, splitAt_eq]
  cases s.splitOn sep <;> rfl

namespace HttpParser

theorem isOk_setParam_iff (paramsMap : Bytes → Option Bytes) (field : Bytes) :
    (setParam paramsMap field).isOk = true ↔
      ∀ key value, field.splitOn 0x3d = [key, value] → ¬ EndsInPercent value := by
  have hsplit : splitString field 0x3d = field.splitOn 0x3d
      ∨ splitString field 0x3d = [] ∧ field.splitOn 0x3d = [[]] := by
    rcases eq_or_ne field [] with rfl | hne
    · exact .inr ⟨rfl, List.splitOn_nil _⟩
    · exact .inl (splitString_eq hne _)
  rw [setParam]
  split
  · rename_i key value hkv
    rcases hsplit with hsplit | ⟨hnil, -⟩
    · rw [isOk_map, isOk_urlDecode_iff, ← hsplit, hkv]
      constructor
      · rintro h key' value' heq
        rwa [← (List.cons.inj (List.cons.inj heq).2).1]
      · exact fun h => h key value rfl
    · rw [hnil] at hkv
      cases hkv
  · rename_i hno
    refine iff_of_true rfl fun key value hkv => ?_
    rcases hsplit with hsplit | ⟨-, hone⟩
    · exact absurd (hsplit.trans hkv) (hno key value)
    · rw [hone] at hkv
      cases hkv

/-- A fold whose steps succeed or not whatever the value is. -/
theorem isOk_foldlM_iff {α β ε : Type} {f : β → α → Except ε β} {P : α → Prop}
    (h : ∀ b a, (f b a).isOk = true ↔ P a) (l : List α) :
    ∀ b, (l.foldlM f b).isOk = true ↔ ∀ a ∈ l, P a := by
  induction l with
  | nil => exact fun b => iff_of_true rfl fun a ha => absurd ha List.not_mem_nil
  | cons a l ih =>
    intro b
    rw [List.foldlM_cons, List.forall_mem_cons, ← h b a]
    cases f b a with
    | error e => exact iff_of_false nofun fun hno => nomatch hno.1
    | ok b' => exact (ih b').trans (and_iff_right rfl).symm

/-- **The parameters are decoded** where no value of the query ends in the `%` of an escape. -/
theorem isOk_paramsMapOf_iff (query : Bytes) :
    (paramsMapOf query).isOk = true ↔ ValuesWhole query := by
  rw [paramsMapOf, isOk_foldlM_iff isOk_setParam_iff, ValuesWhole]
  rcases eq_or_ne query [] with rfl | hne
  · refine iff_of_true (fun field hfield => absurd hfield List.not_mem_nil) fun field hfield => ?_
    rw [List.splitOn_nil, List.mem_singleton] at hfield
    rw [hfield]
    rintro key value ⟨⟩
  · rw [splitString_eq hne]

end HttpParser

end SmartStreaming
