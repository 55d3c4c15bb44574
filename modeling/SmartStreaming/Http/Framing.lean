import SmartStreaming.Http.Lines

/-!
# Http/Framing — where `checkRequest` and `checkResponse` see the end of a message

Both search the whole text, and not only the header block, for `Content-Length:`.  `announced` is
what they come upon: the text behind the first occurrence, up to the end of its line, as `atoi`
reads it.  `HttpMessage` is a message as it is sent; `message_delimited_iff` says when the two
functions find its length, whatever comes behind it.
-/

namespace SmartStreaming

open CHttp

/-! ## Messages -/

/-- The lines of a text, `line` being what the first one begins with. -/
def linesFrom : Bytes → Bytes → List Bytes
  | line, [] => [line]
  | line, [x] => [line ++ [x]]
  | line, x :: y :: s =>
    if x = 0x0d ∧ y = 0x0a then line :: linesFrom [] s else linesFrom (line ++ [x]) (y :: s)

def toLower (x : Byte) : Byte := if 0x41 ≤ x ∧ x ≤ 0x5a then x + 0x20 else x

/-- A header line of the name `Content-Length`, in letters of either case. -/
def isContentLength (line : Bytes) : Bool :=
  (line.map toLower).take contentLength.length = contentLength.map toLower

/-- Spaces and tabs, which may stand around the value of a field. -/
def isBlank (x : Byte) : Bool := x = 0x20 ∨ x = 0x09

/-- The value of a header line of that name. -/
def contentLengthValue (line : Bytes) : Bytes :=
  (((line.drop contentLength.length).dropWhile isBlank).reverse.dropWhile isBlank).reverse

/-- The values of the `Content-Length` headers; the first line is no header. -/
def contentLengths (header : Bytes) : List Bytes :=
  ((linesFrom [] header).tail.filter isContentLength).map contentLengthValue

/-- **The body that the headers ask for**: none without a `Content-Length`, else of its value. -/
inductive Frames : List Bytes → Bytes → Prop
  | nothing : Frames [] []
  | length {value body : Bytes} (ne_nil : value ≠ []) (digits : value.all isDigit = true)
      (lt : digitsValue value < 2 ^ 31) (eq : body.length = digitsValue value) :
      Frames [value] body

/-- A well-formed message: a header block up to its first blank line, and the body. -/
structure HttpMessage where
  header : Bytes
  body : Bytes
  header_end : find header blankLine 0 = some (header.length - blankLine.length)
  framed : Frames (contentLengths header) body

namespace HttpMessage

/-- The message as it is sent. -/
def bytes (m : HttpMessage) : Bytes := m.header ++ m.body

end HttpMessage

/-! ## What the functions come upon -/

/-- The length behind the first `Content-Length:` of a text, if its line is complete. -/
def announced (data : Bytes) : Option (BitVec 32) :=
  (find data contentLength 0).bind fun found =>
    (find data crlf ((found + contentLength.length) % 2 ^ 32)).map fun stop =>
      atoi (substr data ((found + contentLength.length) % 2 ^ 32)
        (sizeDiff stop ((found + contentLength.length) % 2 ^ 32)))

section Check

variable (http : CHttp) {data : Bytes}

theorem checkRequest_of_not_contains (h : contains data contentLength = false) :
    (http.checkRequest data).1 = checkHttpInputSimple data := by
  rw [contains, Option.isSome_eq_false_iff, Option.isNone_iff_eq_none] at h
  rw [checkRequest, h]

theorem checkRequest_of_contains (h : contains data contentLength = true) :
    (http.checkRequest data).1
      = (announced data).elim 0 fun c => (checkBody { contentLen := c } data).1 := by
  obtain ⟨found, hfound⟩ := Option.isSome_iff_exists.1 h
  rw [checkRequest_fst, checkRequest, checkHttpInputWithLength, announced, hfound, Option.bind_some]
  cases hstop : find data crlf ((found + contentLength.length) % 2 ^ 32) with
  | none => simp only [hstop, Option.map_none, Option.elim_none]
  | some stop => simp only [hstop, Option.map_some, Option.elim_some]

/-- **What a check leaves in `content_len_`** is the length that it came upon, if any. -/
theorem checkRequest_snd (data : Bytes) :
    (http.checkRequest data).2
      = { http with contentLen := (announced data).getD http.contentLen } := by
  unfold checkRequest checkHttpInputWithLength announced
  cases hfound : find data contentLength 0 with
  | none => rfl
  | some found =>
    dsimp only
    rw [Option.bind_some]
    cases hstop : find data crlf ((found + contentLength.length) % 2 ^ 32) with
    | none => rfl
    | some stop => exact checkBody_snd _ _

/-- The answer is an `int`. -/
theorem checkRequest_lt (data : Bytes) : (http.checkRequest data).1 < 2 ^ 31 := by
  have hint : ∀ x : BitVec 32, x.toInt < 2 ^ 31 := fun x => BitVec.toInt_lt
  have hzero : (0 : ℤ) < 2 ^ 31 := by decide
  have hsimple : checkHttpInputSimple data < 2 ^ 31 := by
    unfold checkHttpInputSimple
    split
    · exact hzero
    · exact hint _
  have hbody : ∀ c, (checkBody { contentLen := c } data).1 < 2 ^ 31 := by
    intro c
    unfold checkBody
    split
    · exact hzero
    · split
      · exact hzero
      · exact hint _
  cases hc : contains data contentLength with
  | false =>
    rw [checkRequest_of_not_contains http hc]
    exact hsimple
  | true =>
    rw [checkRequest_of_contains http hc]
    cases announced data with
    | none => exact hzero
    | some c => exact hbody c

end Check

/-! ## The header block -/

theorem sizeDiff_le {a b : ℕ} (h : b ≤ a) : sizeDiff a b ≤ a - b := by
  rw [sizeDiff, show a + 2 ^ 64 - b = a - b + 2 ^ 64 by omega, Nat.add_mod_right]
  exact Nat.mod_le _ _

/-- **What is announced stays announced** when more bytes follow. -/
theorem announced_append {s : Bytes} {c : BitVec 32} (h : announced s = some c) (x : Bytes) :
    announced (s ++ x) = some c := by
  obtain ⟨found, hfound, h⟩ := Option.bind_eq_some_iff.1 h
  obtain ⟨stop, hstop, rfl⟩ := Option.map_eq_some_iff.1 h
  have hle := (find_eq_some_iff.1 hstop).1
  have hin := find_add_length_le hstop
  have hdiff := sizeDiff_le hle
  rw [announced, find_append hfound x, Option.bind_some, find_append hstop x, Option.map_some,
    substr, substr, List.drop_append_of_le_length (by omega), List.take_append_of_le_length]
  rw [List.length_drop]
  omega

namespace IsHeader

variable {header : Bytes} (hheader : IsHeader header)
include hheader

theorem blankLine_le : blankLine.length ≤ header.length := by
  have h := find_add_length_le hheader
  omega

/-- The header block ends with its blank line. -/
theorem exists_eq : ∃ h, header = h ++ blankLine ∧ h.length = header.length - 4 := by
  obtain ⟨-, -, ⟨x, hx⟩, -⟩ := find_eq_some_iff.1 hheader
  have hle := hheader.blankLine_le
  have hnil : x = [] := by
    have hlen := congrArg List.length hx
    rw [List.length_append, List.length_drop] at hlen
    exact List.length_eq_zero_iff.1 (by omega)
  refine ⟨header.take (header.length - 4), ?_, ?_⟩
  · rw [hnil, List.append_nil] at hx
    rw [hx, show blankLine.length = 4 from rfl, List.take_append_drop]
  · rw [List.length_take]
    omega

/-- **In a text that begins with the header block, the first blank line is the one at its end.** -/
theorem find_blankLine (x : Bytes) :
    find (header ++ x) blankLine 0 = some (header.length - blankLine.length) :=
  find_append hheader x

/-- A text that ends before the header block does has no blank line. -/
theorem find_blankLine_of_short {p : Bytes} (hp : p <+: header)
    (hlt : p.length < header.length) : find p blankLine 0 = none := by
  obtain ⟨x, hx⟩ := hp
  have hle := hheader.blankLine_le
  have hfind : find (p ++ x) blankLine 0 = some (header.length - blankLine.length) := by
    rw [hx]
    exact hheader
  exact find_eq_none_of_append hfind (by omega)

/-- The body that a length is checked against. -/
theorem checkBody_eq (c : BitVec 32) (x : Bytes) :
    (checkBody { contentLen := c } (header ++ x)).1
      = if (bodyEnd header.length c).toNat > (header ++ x).length then 0
        else (bodyEnd header.length c).toInt := by
  have hle := hheader.blankLine_le
  rw [checkBody, hheader.find_blankLine x]
  dsimp only
  rw [Nat.sub_add_cancel hle]
  split <;> rfl

/-- A text without a length ends with its header block. -/
theorem checkHttpInputSimple_eq (x : Bytes) :
    checkHttpInputSimple (header ++ x) = (BitVec.ofNat 32 header.length).toInt := by
  rw [checkHttpInputSimple, hheader.find_blankLine x]
  dsimp only
  rw [Nat.sub_add_cancel hheader.blankLine_le]

/-- A text that ends before the header block does is not complete. -/
theorem checkRequest_short (http : CHttp) {p : Bytes} (hp : p <+: header)
    (hlt : p.length < header.length) : (http.checkRequest p).1 = 0 := by
  have hnone := hheader.find_blankLine_of_short hp hlt
  cases hc : contains p contentLength with
  | false => rw [checkRequest_of_not_contains http hc, checkHttpInputSimple, hnone]
  | true =>
    rw [checkRequest_of_contains http hc]
    cases announced p with
    | none => rfl
    | some c => rw [Option.elim_some, checkBody, hnone]

/-- **A `Content-Length:` in the header block stands before the end of a line**, and so announces
some length. -/
theorem exists_announced (hc : contains header contentLength = true) :
    ∃ c, announced header = some c := by
  obtain ⟨found, hfound⟩ := Option.isSome_iff_exists.1 hc
  obtain ⟨h, heq, -⟩ := hheader.exists_eq
  have hfits := find_add_length_le hfound
  have hlen : header.length = h.length + 4 := by
    rw [heq, List.length_append]
    rfl
  have h15 : contentLength.length = 15 := rfl
  have hbefore : found + 15 ≤ h.length + 2 := by
    by_contra hgt
    obtain ⟨-, -, ⟨x, hx⟩, -⟩ := find_eq_some_iff.1 hfound
    -- the colon would be one of the last two bytes
    have hcolon : header[found + 14]? = some 0x3a := by
      rw [← List.getElem?_drop, ← hx]
      rfl
    rw [heq, List.getElem?_append_right (by omega)] at hcolon
    obtain hlast | hlast : found + 14 - h.length = 2 ∨ found + 14 - h.length = 3 := by omega
    · rw [hlast] at hcolon
      cases hcolon
    · rw [hlast] at hcolon
      cases hcolon
  have hend : crlf <+: header.drop (h.length + 2) := by
    rw [heq, ← List.drop_drop, List.drop_left]
    exact List.prefix_refl _
  have hstart : (found + contentLength.length) % 2 ^ 32 ≤ h.length + 2 := by omega
  obtain ⟨stop, -, hstop⟩ := exists_find hstart (by omega) hend
  exact ⟨_, by rw [announced, hfound, Option.bind_some, hstop, Option.map_some]⟩

end IsHeader

/-! ## Where a message ends -/

theorem bodyEnd_eq {n k : ℕ} {c : BitVec 32} (hc : c.toNat = k) (hlt : n + k < 2 ^ 31) :
    (bodyEnd n c).toNat = n + k ∧ (bodyEnd n c).toInt = (n + k : ℕ) := by
  have hnat : (bodyEnd n c).toNat = n + k := by
    rw [bodyEnd, BitVec.toNat_add, BitVec.toNat_ofNat, hc, Nat.mod_eq_of_lt (by omega),
      Nat.mod_eq_of_lt (by omega)]
  refine ⟨hnat, ?_⟩
  rw [BitVec.toInt_eq_toNat_cond, hnat, if_pos (by omega)]

theorem toNat_of_bodyEnd {n k : ℕ} {c : BitVec 32} (h : (bodyEnd n c).toInt = (n + k : ℕ))
    (hlt : n + k < 2 ^ 31) : c.toNat = k := by
  have hnat : (bodyEnd n c).toNat = (n + c.toNat) % 2 ^ 32 := by
    rw [bodyEnd, BitVec.toNat_add, BitVec.toNat_ofNat, Nat.mod_eq_of_lt (show n < 2 ^ 32 by omega)]
  have hc := c.isLt
  rw [BitVec.toInt_eq_toNat_cond, hnat] at h
  split at h <;> omega

theorem toInt_ofNat_of_lt {n : ℕ} (h : n < 2 ^ 31) : (BitVec.ofNat 32 n).toInt = n := by
  rw [BitVec.toInt_eq_toNat_cond, BitVec.toNat_ofNat, Nat.mod_eq_of_lt (by omega),
    if_pos (by omega)]

namespace IsHeader

variable {header : Bytes} (hheader : IsHeader header) (http : CHttp)
include hheader

/-- What a text that begins with the header block is answered, where it announces a length. -/
theorem checkRequest_of_announced {x : Bytes} {c : BitVec 32}
    (h : announced (header ++ x) = some c) :
    (http.checkRequest (header ++ x)).1
      = if (bodyEnd header.length c).toNat > (header ++ x).length then 0
        else (bodyEnd header.length c).toInt := by
  have hc : contains (header ++ x) contentLength = true := by
    obtain ⟨found, hfound, -⟩ := Option.bind_eq_some_iff.1 h
    rw [contains, hfound, Option.isSome_some]
  rw [checkRequest_of_contains http hc, h, Option.elim_some, hheader.checkBody_eq]

/-- The end of the message is found where the length of its body is announced. -/
theorem checkRequest_eq_of_announced {x : Bytes} {c : BitVec 32} {k : ℕ}
    (h : announced (header ++ x) = some c) (hc : c.toNat = k)
    (hlt : header.length + k < 2 ^ 31) :
    (http.checkRequest (header ++ x)).1 = if k ≤ x.length then ((header.length + k : ℕ) : ℤ)
      else 0 := by
  obtain ⟨hnat, hint⟩ := bodyEnd_eq hc hlt
  rw [hheader.checkRequest_of_announced http h, hnat, hint, List.length_append]
  split <;> split <;> first | rfl | omega

/-- Where the end of the message is found, the length of its body was announced. -/
theorem announced_of_checkRequest_eq {x : Bytes} {c : BitVec 32} {k : ℕ}
    (h : announced (header ++ x) = some c)
    (hend : (http.checkRequest (header ++ x)).1 = (header.length + k : ℕ))
    (hlt : header.length + k < 2 ^ 31) : c.toNat = k := by
  have hle : 4 ≤ header.length := hheader.blankLine_le
  rw [hheader.checkRequest_of_announced http h] at hend
  split at hend
  · omega
  · exact toNat_of_bodyEnd hend hlt

/-- The end of the header block is found if no `Content-Length:` is in sight. -/
theorem checkRequest_eq_of_not_contains {x : Bytes}
    (hc : contains (header ++ x) contentLength = false) (hlt : header.length < 2 ^ 31) :
    (http.checkRequest (header ++ x)).1 = header.length := by
  rw [checkRequest_of_not_contains http hc, hheader.checkHttpInputSimple_eq, toInt_ofNat_of_lt hlt]

end IsHeader

namespace HttpMessage

variable (http : CHttp) (m : HttpMessage)

theorem isHeader : IsHeader m.header := m.header_end

/-- The function finds the end of the message, and does not find one earlier. -/
def DelimitedBy (check : CHttp → Bytes → ℤ × CHttp) (http : CHttp) (m : HttpMessage)
    (t : Bytes) : Prop :=
  (check http (m.bytes ++ t)).1 = m.bytes.length
    ∧ ∀ p, p <+: m.bytes → p ≠ m.bytes → (check http p).1 = 0

/-- **What the scan comes upon is right**: the first `Content-Length:` in the header block, if there
is one, announces the length of the body; if there is none, there is no body, and none behind the
message or one that announces nothing. -/
structure ScannedRight (m : HttpMessage) (t : Bytes) : Prop where
  length_lt : m.bytes.length < 2 ^ 31
  header_or : (contains m.header contentLength = true
      ∧ ∃ c, announced m.header = some c ∧ c.toNat = m.body.length)
    ∨ contains m.header contentLength = false ∧ m.body = []
      ∧ (contains (m.header ++ t) contentLength = false ∨ announced (m.header ++ t) = some 0)

theorem bytes_append (t : Bytes) : m.bytes ++ t = m.header ++ (m.body ++ t) :=
  List.append_assoc _ _ _

/-- A proper prefix of a message ends in the header block or in the body. -/
theorem prefix_cases {p : Bytes} (hp : p <+: m.bytes) (hne : p ≠ m.bytes) :
    (p <+: m.header ∧ p.length < m.header.length)
      ∨ ∃ b, p = m.header ++ b ∧ b.length < m.body.length := by
  have hheader : m.header <+: m.bytes := List.prefix_append _ _
  obtain hlt | hle := Nat.lt_or_ge p.length m.header.length
  · exact Or.inl ⟨List.prefix_of_prefix_length_le hp hheader hlt.le, hlt⟩
  · obtain ⟨b, rfl⟩ := List.prefix_of_prefix_length_le hheader hp hle
    refine Or.inr ⟨b, rfl, ?_⟩
    have hb : b <+: m.body := (List.prefix_append_right_inj _).1 hp
    refine lt_of_le_of_ne hb.length_le fun heq => hne ?_
    rw [hb.eq_of_length heq, bytes]

theorem scannedRight_of_delimited {t : Bytes} (h : m.DelimitedBy checkRequest http t) :
    m.ScannedRight t := by
  obtain ⟨hend, hshort⟩ := h
  have hlength : m.bytes.length = m.header.length + m.body.length := List.length_append
  have hlt : m.bytes.length < 2 ^ 31 := by
    have hint := checkRequest_lt http (m.bytes ++ t)
    rw [hend] at hint
    exact_mod_cast hint
  have hheader : m.header.length < 2 ^ 31 := by omega
  have hle : 4 ≤ m.header.length := m.isHeader.blankLine_le
  refine ⟨hlt, ?_⟩
  cases hc : contains m.header contentLength with
  | true =>
    obtain ⟨c, hann⟩ := m.isHeader.exists_announced hc
    refine Or.inl ⟨rfl, c, hann, ?_⟩
    rw [hlength, bytes_append] at hend
    exact m.isHeader.announced_of_checkRequest_eq http (announced_append hann _) hend (by omega)
  | false =>
    have hbody : m.body = [] := by
      by_contra hne
      -- the header block alone is taken for a message
      have hzero := hshort m.header (List.prefix_append _ _) fun heq =>
        hne (List.append_right_eq_self.1 heq.symm)
      rw [← List.append_nil m.header] at hzero hc
      rw [m.isHeader.checkRequest_eq_of_not_contains http hc hheader] at hzero
      omega
    rw [hlength, bytes_append, hbody] at hend
    refine Or.inr ⟨rfl, hbody, ?_⟩
    cases ht : contains (m.header ++ t) contentLength with
    | false => exact Or.inl rfl
    | true =>
      cases hann : announced (m.header ++ t) with
      | none =>
        rw [List.nil_append, checkRequest_of_contains http ht, hann, Option.elim_none] at hend
        rw [List.length_nil] at hend
        omega
      | some c =>
        have hc0 := m.isHeader.announced_of_checkRequest_eq http hann hend
          (by rw [List.length_nil]; omega)
        exact Or.inr (congrArg some (BitVec.eq_of_toNat_eq hc0))

theorem delimited_of_scannedRight {t : Bytes} (h : m.ScannedRight t) :
    m.DelimitedBy checkRequest http t := by
  obtain ⟨hlt, hscan⟩ := h
  have hlength : m.bytes.length = m.header.length + m.body.length := List.length_append
  obtain ⟨hc, c, hann, hlen⟩ | ⟨hc, hbody, ht⟩ := hscan
  · refine ⟨?_, fun p hp hne => ?_⟩
    · rw [bytes_append, m.isHeader.checkRequest_eq_of_announced http (announced_append hann _) hlen
        (by omega), if_pos (by rw [List.length_append]; omega), hlength]
    · obtain ⟨hp, hshort⟩ | ⟨b, rfl, hb⟩ := m.prefix_cases hp hne
      · exact m.isHeader.checkRequest_short http hp hshort
      · rw [m.isHeader.checkRequest_eq_of_announced http (announced_append hann _) hlen (by omega),
          if_neg (by omega)]
  · have hheader : m.header.length < 2 ^ 31 := by omega
    rw [hbody, List.length_nil, Nat.add_zero] at hlength
    refine ⟨?_, fun p hp hne => ?_⟩
    · rw [bytes_append, hbody, List.nil_append, hlength]
      obtain ht | ht := ht
      · exact m.isHeader.checkRequest_eq_of_not_contains http ht hheader
      · rw [m.isHeader.checkRequest_eq_of_announced http ht (k := 0) rfl hheader,
          if_pos (Nat.zero_le _), Nat.add_zero]
    · obtain ⟨hp, hshort⟩ | ⟨b, -, hb⟩ := m.prefix_cases hp hne
      · exact m.isHeader.checkRequest_short http hp hshort
      · rw [hbody] at hb
        exact absurd hb (Nat.not_lt_zero _)

/-- **Both functions find the end of the message, whatever follows it, exactly where their scan for
`Content-Length:` comes upon the length of its body.** -/
theorem message_delimited_iff (t : Bytes) :
    (m.DelimitedBy checkRequest http t ∧ m.DelimitedBy checkResponse http t)
      ↔ m.ScannedRight t := by
  constructor
  · rintro ⟨h, -⟩
    exact m.scannedRight_of_delimited http h
  · intro h
    exact ⟨m.delimited_of_scannedRight http h, m.delimited_of_scannedRight http h⟩

/-- A `GET` without a body. -/
def get : HttpMessage where
  header := text "GET /a HTTP/1.1\r\n\r\n"
  body := []
  header_end := by decide
  framed := by
    have hnone : contentLengths (text "GET /a HTTP/1.1\r\n\r\n") = [] := by decide
    rw [hnone]
    exact Frames.nothing

/-- **Of two requests in a row, the first is given the length of the second one's body**: its end is
sought five bytes too far. -/
theorem pipelined_requests_run_together :
    get.bytes.length = 19
      ∧ (checkRequest {} (get.bytes
          ++ text "POST /b HTTP/1.1\r\nContent-Length: 5\r\n\r\nhello")).1 = 24 := by
  decide +kernel

end HttpMessage

end SmartStreaming
