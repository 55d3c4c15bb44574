import SmartStreaming.Http.Framing
import SmartStreaming.Http.Target

/-!
# Http/Fields — the header fields of a `GET`

`parseGetRequest` takes a field to stand behind the first place of the whole text where its name,
a colon and a space stand, be it in the request line, in another header or behind the header block.
`fields_read_iff` says when that is the value of the header line of that name.
-/

namespace SmartStreaming

open CHttp

/-! ## Messages -/

theorem headerValue_eq (data field : Bytes) :
    headerValue data field
      = (find data field 0).bind fun found => lineFrom data ((found + field.length) % 2 ^ 32) := by
  unfold headerValue lineFrom
  cases find data field 0 with
  | none => rfl
  | some found =>
    rw [Option.bind_some]
    dsimp only
    cases find data crlf ((found + field.length) % 2 ^ 32) <;> rfl

/-- A `GET` request: the request line, the header lines, and what follows the blank line. -/
structure GetMessage where
  line : Bytes
  headers : List Bytes
  behind : Bytes
  get : ∃ x, line = text "GET " ++ x
  isLine : ∀ l ∈ line :: headers, IsLine l
  ne_nil : [] ∉ headers

/-- The header line has this name, which ends at its first colon. -/
def isNamed (field line : Bytes) : Bool := (field ++ [0x3a]).isPrefixOf line

/-- The value of a header line of that name, without the blanks around it. -/
def fieldValue (field line : Bytes) : Bytes :=
  (((line.drop (field.length + 1)).dropWhile isBlank).reverse.dropWhile isBlank).reverse

/-- What `parseGetRequest` looks for. -/
def fieldText (field : Bytes) : Bytes := field ++ text ": "

namespace GetMessage

variable (m : GetMessage)

/-- The request line and the header lines. -/
def head : List Bytes := m.line :: m.headers

/-- The message as it is received. -/
def bytes : Bytes := joinLines m.head ++ (crlf ++ m.behind)

/-- The value of the first header line of a name, empty when there is none. -/
def value (field : Bytes) : Bytes :=
  ((m.headers.find? (isNamed field)).map (fieldValue field)).getD []

/-- The request as it was read has the fields of the header lines. -/
structure ReadsFields (http : CHttp) : Prop where
  requestHost : http.requestHost = m.value (text "Host")
  forwardedClientIp : http.forwardedClientIp = m.value (text "X-Forwarded-For")
  isTranscode : http.isTranscode = some (m.headers.any (isNamed (text "X-Codec")))

/-! ## Where a text stands -/

/-- The first place of the text `p`: the position behind it, and what follows it up to the end of
its line. -/
inductive FirstAt (p : Bytes) : ℕ → Option Bytes → Prop
  | inHead {before after : List Bytes} {l : Bytes} {j : ℕ} (split : m.head = before ++ l :: after)
      (free : ∀ b ∈ before, contains b p = false) (found : find l p 0 = some j) :
      FirstAt p ((joinLines before).length + (j + p.length)) (some (l.drop (j + p.length)))
  | behind {j : ℕ} (free : ∀ l ∈ m.head, contains l p = false)
      (found : find m.behind p 0 = some j) :
      FirstAt p ((joinLines m.head).length + 2 + (j + p.length)) (lineFrom m.behind (j + p.length))

/-- The text `p` stands nowhere. -/
def Nowhere (p : Bytes) : Prop :=
  (∀ l ∈ m.head, contains l p = false) ∧ contains m.behind p = false

/-- **The field is read right**: the first place of its name, colon and space is followed by its
value up to the end of the line; where they stand nowhere, it has no value.  A position from `2^32`
on is taken modulo `2^32`. -/
inductive FieldRight (field : Bytes) : Prop
  | nowhere (h : m.Nowhere (fieldText field)) (eq : m.value field = [])
  | found {start : ℕ} {v : Option Bytes} (h : m.FirstAt (fieldText field) start v)
      (lt : start < 2 ^ 32) (eq : v.getD [] = m.value field)
  | wrapped {start : ℕ} {v : Option Bytes} (h : m.FirstAt (fieldText field) start v)
      (le : 2 ^ 32 ≤ start) (eq : (lineFrom m.bytes (start % 2 ^ 32)).getD [] = m.value field)

/-- **All three are read right.** -/
structure FieldsRight : Prop where
  noPolicy : isPolicyRequest m.bytes = false
  slash : 0x2f ∈ m.bytes
  version : contains m.bytes (text " HTTP") = true
  host : m.FieldRight (text "Host")
  forwarded : m.FieldRight (text "X-Forwarded-For")
  codec :
    ¬ m.Nowhere (fieldText (text "X-Codec")) ↔ ∃ l ∈ m.headers, isNamed (text "X-Codec") l = true

end GetMessage

namespace GetMessage

variable {m : GetMessage} {p : Bytes}

/-! ## What is found in a message -/

/-- The message around one of its lines. -/
theorem bytes_of_split {before after : List Bytes} {l : Bytes}
    (split : m.head = before ++ l :: after) :
    m.bytes = joinLines before ++ (l ++ (crlf ++ (joinLines after ++ (crlf ++ m.behind)))) := by
  rw [bytes, split, joinLines_append]
  simp only [joinLines, List.flatMap_cons, List.append_assoc]

/-- Behind the blank line. -/
theorem find_behind (hp : InLine p) (free : ∀ l ∈ m.head, contains l p = false) :
    find m.bytes p 0 = (find m.behind p 0).map ((joinLines m.head).length + 2 + ·) := by
  have hblank := find_line hp [] m.behind
  have hnil : find [] p 0 = none := by
    rw [find, if_pos (Nat.zero_le _), List.drop_zero, findFrom, if_neg hp.ne_nil]
  rw [hnil, Option.none_or, List.nil_append] at hblank
  rw [bytes, find_joinLines hp free, hblank, Option.map_map]
  refine congrArg (Option.map · _) (funext fun i => ?_)
  simp only [Function.comp_apply, List.length_nil]
  omega

/-- **The first place of a text is where the search comes upon it.** -/
theorem FirstAt.find_eq (hp : InLine p) {start : ℕ} {v : Option Bytes} (h : m.FirstAt p start v) :
    ∃ k, find m.bytes p 0 = some k ∧ start = k + p.length := by
  cases h with
  | @inHead before after l j split free found =>
    refine ⟨(joinLines before).length + j, ?_, by omega⟩
    rw [bytes_of_split split, find_joinLines hp free, find_line hp, found, Option.some_or,
      Option.map_some]
  | @behind j free found =>
    refine ⟨(joinLines m.head).length + 2 + j, ?_, by omega⟩
    rw [find_behind hp free, found, Option.map_some]

/-- **What follows it is the rest of its line.** -/
theorem FirstAt.lineFrom_eq {start : ℕ} {v : Option Bytes} (h : m.FirstAt p start v)
    (hlen : m.bytes.length < 2 ^ 64) : lineFrom m.bytes start = v := by
  cases h with
  | @inHead before after l j split free found =>
    have hl : IsLine l := m.isLine l (by rw [← head, split]; simp)
    have hfits := find_add_length_le found
    have hbytes := bytes_of_split split
    have hle := congrArg List.length hbytes
    simp only [List.length_append] at hle
    rw [hbytes]
    exact lineFrom_line hl hfits (by omega)
  | @behind j free found =>
    have hbytes : m.bytes = (joinLines m.head ++ crlf) ++ m.behind := by
      rw [bytes, List.append_assoc]
    have hstart : (joinLines m.head ++ crlf).length = (joinLines m.head).length + 2 :=
      List.length_append
    rw [hbytes] at hlen ⊢
    rw [← hstart]
    exact lineFrom_append_right _ _ _ hlen

theorem FirstAt.headerValue_eq (hp : InLine p) {start : ℕ} {v : Option Bytes}
    (h : m.FirstAt p start v) (hlen : m.bytes.length < 2 ^ 64) :
    headerValue m.bytes p
      = if start < 2 ^ 32 then v else lineFrom m.bytes (start % 2 ^ 32) := by
  obtain ⟨k, hfind, hstart⟩ := h.find_eq hp
  rw [SmartStreaming.headerValue_eq, hfind, Option.bind_some, ← hstart]
  split
  · rename_i hlt
    rw [Nat.mod_eq_of_lt hlt, h.lineFrom_eq hlen]
  · rfl

theorem Nowhere.find_eq (hp : InLine p) (h : m.Nowhere p) : find m.bytes p 0 = none := by
  rw [find_behind hp h.1, contains_eq_false_iff.1 h.2]
  rfl

/-- A text stands nowhere in a message, or somewhere first. -/
theorem nowhere_or_firstAt (m : GetMessage) (p : Bytes) :
    m.Nowhere p ∨ ∃ start v, m.FirstAt p start v := by
  cases hhead : m.head.find? (contains · p) with
  | some l =>
    obtain ⟨hl, before, after, split, free⟩ := List.find?_eq_some_iff_append.1 hhead
    obtain ⟨j, hj⟩ := Option.isSome_iff_exists.1 hl
    exact Or.inr ⟨_, _, .inHead split (fun b hb => by simpa using free b hb) hj⟩
  | none =>
    have free : ∀ l ∈ m.head, contains l p = false := fun l hl =>
      Bool.eq_false_iff.2 (List.find?_eq_none.1 hhead l hl)
    cases hbehind : contains m.behind p with
    | false => exact Or.inl ⟨free, hbehind⟩
    | true =>
      obtain ⟨j, hj⟩ := Option.isSome_iff_exists.1 hbehind
      exact Or.inr ⟨_, _, .behind free hj⟩

theorem contains_bytes_iff (hp : InLine p) : contains m.bytes p = true ↔ ¬ m.Nowhere p := by
  constructor
  · intro h hno
    rw [contains, hno.find_eq hp] at h
    cases h
  · intro h
    obtain ⟨start, v, hfirst⟩ := (nowhere_or_firstAt m p).resolve_left h
    obtain ⟨k, hfind, -⟩ := hfirst.find_eq hp
    rw [contains, hfind, Option.isSome_some]

/-- **A field is read right exactly where `FieldRight` says.** -/
theorem fieldRight_iff {field : Bytes} (hp : InLine (fieldText field))
    (hlen : m.bytes.length < 2 ^ 64) :
    m.FieldRight field
      ↔ (headerValue m.bytes (fieldText field)).getD [] = m.value field := by
  constructor
  · intro h
    cases h with
    | nowhere h eq =>
      rw [SmartStreaming.headerValue_eq, h.find_eq hp, eq]
      rfl
    | found h lt eq => rw [h.headerValue_eq hp hlen, if_pos lt, eq]
    | wrapped h le eq => rw [h.headerValue_eq hp hlen, if_neg (not_lt.2 le), eq]
  · intro h
    rcases nowhere_or_firstAt m (fieldText field) with hno | ⟨start, v, hfirst⟩
    · rw [SmartStreaming.headerValue_eq, hno.find_eq hp] at h
      exact .nowhere hno h.symm
    · rw [hfirst.headerValue_eq hp hlen] at h
      by_cases hlt : start < 2 ^ 32
      · rw [if_pos hlt] at h
        exact .found hfirst hlt h
      · rw [if_neg hlt] at h
        exact .wrapped hfirst (not_lt.1 hlt) h

/-! ## The three fields -/

/-- The texts without which no request is looked at. -/
def Parsed (m : GetMessage) : Prop :=
  isPolicyRequest m.bytes = false ∧ 0x2f ∈ m.bytes ∧ contains m.bytes (text " HTTP") = true

theorem exists_bytes_eq (m : GetMessage) : ∃ x, m.bytes = text "GET " ++ x := by
  obtain ⟨x, hx⟩ := m.get
  refine ⟨x ++ (crlf ++ joinLines m.headers ++ (crlf ++ m.behind)), ?_⟩
  rw [bytes, head, hx]
  simp only [joinLines, List.flatMap_cons, List.append_assoc]

/-- The fields of a request that is parsed. -/
theorem Parsed.fields (h : m.Parsed) (http : CHttp) :
    (http.parseRequest m.bytes).2.requestHost
        = (headerValue m.bytes (text "Host: ")).getD http.requestHost
      ∧ (http.parseRequest m.bytes).2.forwardedClientIp
        = (headerValue m.bytes (text "X-Forwarded-For: ")).getD http.forwardedClientIp
      ∧ (http.parseRequest m.bytes).2.isTranscode
        = some (contains m.bytes (text "X-Codec: ")) := by
  obtain ⟨hpolicy, hslash, hversion⟩ := h
  obtain ⟨a, b, hab, ha⟩ := List.eq_append_cons_of_mem hslash
  have hpath : find m.bytes (text "/") 0 = some a.length := by
    rw [hab]
    exact find_letter ha b
  obtain ⟨httpFound, hhttp⟩ := Option.isSome_iff_exists.1 hversion
  obtain ⟨x, hx⟩ := m.exists_bytes_eq
  have hget := parseRequest_of_get http x
  rw [← hx, parseGetRequest_cut http hpolicy hpath hhttp] at hget
  obtain ⟨hhost, hip⟩ := cutTarget_kept
    (parseTarget { http with method := text "GET" } m.bytes a.length httpFound) m.bytes
  obtain ⟨hhost', hip'⟩ := parseTarget_kept { http with method := text "GET" } m.bytes a.length
    httpFound
  rw [hget]
  refine ⟨hhost.trans ?_, hip.trans ?_, rfl⟩
  · rw [hhost']
  · rw [hip']

/-- A request that is not parsed has none. -/
theorem parseRequest_of_not_parsed (h : ¬ m.Parsed) (http : CHttp) :
    (http.parseRequest m.bytes).2 = { http with method := text "GET" } := by
  obtain ⟨x, hx⟩ := m.exists_bytes_eq
  have hget := parseRequest_of_get http x
  rw [← hx] at hget
  rw [hget]
  cases hpolicy : isPolicyRequest m.bytes with
  | true => rw [parseGetRequest_policy _ hpolicy]
  | false =>
    rw [isPolicyRequest, decide_eq_false_iff_not, not_or] at hpolicy
    rw [parseGetRequest, if_neg hpolicy.1, if_neg hpolicy.2]
    cases hslash : find m.bytes (text "/") 0 with
    | none => rfl
    | some pathFound =>
      dsimp only
      rw [parseGetMethod_get, if_neg (not_not.2 rfl)]
      cases hhttp : find m.bytes (text " HTTP") 0 with
      | none => rfl
      | some httpFound =>
        refine absurd ⟨?_, ?_, ?_⟩ h
        · rw [isPolicyRequest, decide_eq_false_iff_not, not_or]
          exact hpolicy
        · by_contra hno
          rw [show text "/" = [0x2f] from rfl, find_letter_eq_none hno] at hslash
          cases hslash
        · rw [contains, hhttp, Option.isSome_some]

/-- **The fields of a `GET` are those of its header lines exactly where `FieldsRight` holds.** -/
theorem fields_read_iff (unset : BitVec 32) (m : GetMessage) (hlen : m.bytes.length < 2 ^ 64) :
    m.ReadsFields (parseRequest { contentLen := unset } m.bytes).2 ↔ m.FieldsRight := by
  have hhost : InLine (fieldText (text "Host")) := ⟨by decide, by decide, by decide⟩
  have hip : InLine (fieldText (text "X-Forwarded-For")) := ⟨by decide, by decide, by decide⟩
  have hcodec : InLine (fieldText (text "X-Codec")) := ⟨by decide, by decide, by decide⟩
  by_cases hparsed : m.Parsed
  · obtain ⟨hvhost, hvip, hvcodec⟩ := hparsed.fields { contentLen := unset }
    obtain ⟨hpolicy, hslash, hversion⟩ := hparsed
    have hany : ((¬ m.Nowhere (fieldText (text "X-Codec")))
        ↔ ∃ l ∈ m.headers, isNamed (text "X-Codec") l = true)
        ↔ contains m.bytes (text "X-Codec: ") = m.headers.any (isNamed (text "X-Codec")) := by
      have hread : ¬ m.Nowhere (fieldText (text "X-Codec"))
          ↔ contains m.bytes (text "X-Codec: ") = true := (contains_bytes_iff hcodec).symm
      have hnamed : (∃ l ∈ m.headers, isNamed (text "X-Codec") l = true)
          ↔ m.headers.any (isNamed (text "X-Codec")) = true := List.any_eq_true.symm
      rw [hread, hnamed, ← Bool.eq_iff_iff]
    constructor
    · intro h
      exact ⟨hpolicy, hslash, hversion,
        (fieldRight_iff hhost hlen).2 (hvhost.symm.trans h.requestHost),
        (fieldRight_iff hip hlen).2 (hvip.symm.trans h.forwardedClientIp),
        hany.2 (Option.some.inj (hvcodec.symm.trans h.isTranscode))⟩
    · intro h
      exact ⟨hvhost.trans ((fieldRight_iff hhost hlen).1 h.host),
        hvip.trans ((fieldRight_iff hip hlen).1 h.forwarded),
        hvcodec.trans (congrArg some (hany.1 h.codec))⟩
  · rw [parseRequest_of_not_parsed hparsed]
    constructor
    · intro h
      cases h.isTranscode
    · intro h
      exact absurd ⟨h.noPolicy, h.slash, h.version⟩ hparsed

/-- A request whose target ends in the name of a field. -/
def disguised : GetMessage where
  line := text "GET /live/a.flv?k=Host: HTTP/1.1"
  headers := [text "Host: edge", text "X-Codec:h265"]
  behind := []
  get := ⟨text "/live/a.flv?k=Host: HTTP/1.1", by decide⟩
  isLine := by decide +kernel
  ne_nil := by decide

theorem fields_read_iff_disguised :
    disguised.ReadsFields (parseRequest { contentLen := 7 } disguised.bytes).2
      ↔ disguised.FieldsRight :=
  fields_read_iff 7 disguised (by decide)

/-- **The version of the request line is taken for the host**, and a codec without a space is not
seen. -/
theorem host_taken_from_request_line :
    (parseRequest {} disguised.bytes).2.requestHost = text "HTTP/1.1"
      ∧ disguised.value (text "Host") = text "edge"
      ∧ (parseRequest {} disguised.bytes).2.isTranscode = some false
      ∧ ¬ disguised.ReadsFields (parseRequest {} disguised.bytes).2 := by
  refine ⟨by decide +kernel, by decide +kernel, by decide +kernel, fun h => ?_⟩
  exact absurd h.requestHost (by decide +kernel)

end GetMessage

end SmartStreaming
