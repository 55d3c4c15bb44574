import SmartStreaming.Http.Kept

/-!
# Http/Bodies — the body of a response

A response is framed by its header block: by a length, by chunks, or by the end of the bytes.
`parseHttpResponse` chooses the framing by two texts anywhere in front of the first NUL, and reads
one chunk only; `body_read_iff` says for which responses it returns the body all the same.
-/

namespace SmartStreaming

open CHttp

/-! ## Chunks -/

/-- Hexadecimal digits of the number `n`. -/
structure IsSize (size : Bytes) (n : ℕ) : Prop where
  ne_nil : size ≠ []
  digits : ∀ x ∈ size, isHexDigit x = true
  eq : size.foldl (fun n x => 16 * n + hexValue x) 0 = n

/-- What may stand behind the size of a chunk: extensions, with blanks in front. -/
structure IsExtension (ext : Bytes) : Prop where
  isLine : 0x0d ∉ ext
  head : ∀ x ∈ ext.head?, x = 0x3b ∨ isBlank x = true

/-- **The text is a chunked body** with these contents: chunks that are not empty, an empty one, and
the trailer lines. -/
inductive Chunks : Bytes → List Bytes → Prop
  | last {size ext : Bytes} {trailer : List Bytes} (isSize : IsSize size 0)
      (isExt : IsExtension ext) (lines : ∀ l ∈ trailer, IsLine l ∧ l ≠ []) :
      Chunks ((size ++ ext) ++ (crlf ++ (joinLines trailer ++ crlf))) []
  | chunk {size ext content rest : Bytes} {contents : List Bytes}
      (isSize : IsSize size content.length) (ne_nil : content ≠ []) (isExt : IsExtension ext)
      (h : Chunks rest contents) :
      Chunks ((size ++ ext) ++ (crlf ++ (content ++ (crlf ++ rest)))) (content :: contents)

section Sizes

variable {size ext : Bytes} {n : ℕ}

theorem not_isHexDigit_of_ext (h : IsExtension ext) : ∀ x ∈ ext.head?, isHexDigit x = false := by
  have hblank : ∀ x : Byte, isBlank x = true → x = 0x20 ∨ x = 0x09 := fun x hx => by
    rwa [isBlank, decide_eq_true_eq] at hx
  intro x hx
  rcases h.head x hx with rfl | hb
  · decide
  · rcases hblank x hb with rfl | rfl <;> decide

theorem isSpace_of_isHexDigit : ∀ x : Byte, isHexDigit x = true → isSpace x = false := by
  decide +kernel

/-- No prefix `0x` stands in front of a size. -/
theorem dropHexPrefix_size (hsize : IsSize size n) {s : Bytes}
    (hs : ∀ x ∈ s.head?, x ≠ 0x78 ∧ x ≠ 0x58) : dropHexPrefix (size ++ s) = size ++ s := by
  have hletter : ∀ x : Byte, isHexDigit x = true → x ≠ 0x78 ∧ x ≠ 0x58 := by
    intro x hx
    constructor
    · rintro rfl
      cases hx
    · rintro rfl
      cases hx
  unfold dropHexPrefix
  split
  · rename_i x y t heq
    refine (if_neg fun hprefix => ?_).trans heq.symm
    have hx : x ≠ 0x78 ∧ x ≠ 0x58 := by
      match size, hsize.digits, heq with
      | [], _, heq => exact absurd rfl hsize.ne_nil
      | [d], _, heq =>
        have htail : s = x :: y :: t := (List.cons.inj heq).2
        exact hs x (by rw [htail]; rfl)
      | d :: d' :: size, hdigits, heq =>
        obtain ⟨-, htail⟩ := List.cons.inj heq
        exact (List.cons.inj htail).1 ▸ hletter d'
          (hdigits d' (List.mem_cons_of_mem _ List.mem_cons_self))
    rcases hprefix.1 with hlower | hupper
    · exact hx.1 hlower
    · exact hx.2 hupper
  · rfl

/-- **The size of a chunk is read**, whatever extension follows it. -/
theorem scanHex_size (hsize : IsSize size n) (hext : IsExtension ext) (hn : n < 2 ^ 64) :
    scanHex (size ++ ext) = some (BitVec.ofNat 32 n) := by
  have hhead : ∀ x ∈ (cString ext).head?, isHexDigit x = false := fun x hx =>
    not_isHexDigit_of_ext hext x (mem_head?_of_cString hx)
  have hletter : ∀ x ∈ (cString ext).head?, x ≠ 0x78 ∧ x ≠ 0x58 := by
    intro x hx
    rcases hext.head x (mem_head?_of_cString hx) with rfl | hb
    · decide
    · constructor
      · rintro rfl
        cases hb
      · rintro rfl
        cases hb
  have hnul : 0 ∉ size := fun hmem => by
    have hdigit := hsize.digits 0 hmem
    cases hdigit
  have hdigits := takeWhile_append_stop hsize.digits hhead
  have hscan : scanHexDigits false (size ++ cString ext) = some (BitVec.ofNat 32 n) := by
    rw [scanHexDigits, dropHexPrefix_size hsize hletter, hdigits, hsize.eq]
    rw [if_neg hsize.ne_nil, if_neg (by omega), if_neg Bool.false_ne_true]
  obtain ⟨d, ds, rfl⟩ := List.exists_cons_of_ne_nil hsize.ne_nil
  have hd := hsize.digits d List.mem_cons_self
  have hspace : ¬ isSpace d = true := by
    rw [isSpace_of_isHexDigit d hd]
    exact Bool.false_ne_true
  rw [scanHex, cString_append hnul, List.cons_append, List.dropWhile_cons_of_neg hspace]
  split
  · rename_i heq
    rw [(List.cons.inj heq).1] at hd
    cases hd
  · rename_i heq
    rw [(List.cons.inj heq).1] at hd
    cases hd
  · exact hscan

end Sizes

/-! ## Responses -/

def transferEncoding : Bytes := text "transfer-encoding:"

/-- A header line of the name `Transfer-Encoding`, in letters of either case. -/
def isTransferEncoding (line : Bytes) : Bool :=
  (line.map toLower).take transferEncoding.length = transferEncoding

/-- The value of a header line of that name, in small letters. -/
def transferEncodingValue (line : Bytes) : Bytes :=
  ((((line.drop transferEncoding.length).dropWhile isBlank).reverse.dropWhile
    isBlank).reverse).map toLower

/-- The values of the `Transfer-Encoding` headers; the first line is no header. -/
def transferEncodings (header : Bytes) : List Bytes :=
  ((linesFrom [] header).tail.filter isTransferEncoding).map transferEncodingValue

/-- **What the header block says of the bytes behind it**: they are the body, of the length of the
one `Content-Length` if there is one, or they are chunks of it. -/
inductive FramedAs (header : Bytes) : Bytes → Bytes → Prop
  | length {value body : Bytes} (codings : transferEncodings header = [])
      (lengths : contentLengths header = [value]) (ne_nil : value ≠ [])
      (digits : value.all isDigit = true) (eq : body.length = digitsValue value) :
      FramedAs header body body
  | chunked {raw : Bytes} {contents : List Bytes}
      (codings : transferEncodings header = [text "chunked"]) (lengths : contentLengths header = [])
      (h : Chunks raw contents) : FramedAs header raw contents.flatten
  | rest {body : Bytes} (codings : transferEncodings header = [])
      (lengths : contentLengths header = []) : FramedAs header body body

/-- Chunks are longer than what they contain. -/
theorem Chunks.length_lt {raw : Bytes} {contents : List Bytes} (h : Chunks raw contents) :
    contents.flatten.length < raw.length := by
  have h2 : crlf.length = 2 := rfl
  induction h with
  | last =>
    simp only [List.flatten_nil, List.length_nil, List.length_append]
    omega
  | chunk _ _ _ _ ih =>
    simp only [List.flatten_cons, List.length_append]
    omega

/-- **The first chunk**, which is the empty one where there is no other: the line of its size, and
its content behind the line. -/
theorem Chunks.exists_first {raw : Bytes} {contents : List Bytes} (h : Chunks raw contents) :
    ∃ line tail, raw = line ++ (crlf ++ tail) ∧ IsLine line ∧ contents.headD [] <+: tail
      ∧ ((contents.headD []).length < 2 ^ 64 →
        scanHex line = some (BitVec.ofNat 32 (contents.headD []).length)) := by
  have hline : ∀ {size ext : Bytes} {n : ℕ}, IsSize size n → IsExtension ext →
      IsLine (size ++ ext) := by
    intro size ext n hsize hext
    refine isLine_of_notMem ?_
    rw [List.mem_append, not_or]
    refine ⟨fun hmem => ?_, hext.isLine⟩
    have hdigit := hsize.digits _ hmem
    cases hdigit
  cases h with
  | @last size ext trailer isSize isExt lines =>
    exact ⟨size ++ ext, _, rfl, hline isSize isExt, List.nil_prefix, scanHex_size isSize isExt⟩
  | @chunk size ext content rest contents isSize ne_nil isExt h =>
    exact ⟨size ++ ext, _, rfl, hline isSize isExt, List.prefix_append _ _,
      scanHex_size isSize isExt⟩

theorem Chunks.ne_nil {raw : Bytes} {contents : List Bytes} (h : Chunks raw contents) :
    ∀ content ∈ contents, content ≠ [] := by
  induction h with
  | last => exact fun _ hmem => absurd hmem List.not_mem_nil
  | chunk _ ne_nil _ _ ih => exact List.forall_mem_cons.2 ⟨ne_nil, ih⟩

/-- The first chunk is the body where there is no second one. -/
theorem Chunks.headD_eq_flatten_iff {raw : Bytes} {contents : List Bytes}
    (h : Chunks raw contents) :
    contents.headD [] = contents.flatten ↔ contents.length ≤ 1 := by
  have hne := h.ne_nil
  match contents, hne with
  | [], _ => exact ⟨fun _ => Nat.zero_le _, fun _ => rfl⟩
  | [content], _ =>
    rw [List.flatten_singleton]
    exact ⟨fun _ => le_refl _, fun _ => rfl⟩
  | content :: content' :: contents, hne =>
    have hpos := List.length_pos_of_ne_nil
      (hne content' (List.mem_cons_of_mem _ List.mem_cons_self))
    constructor
    · intro heq
      have hlength := congrArg List.length heq
      rw [List.headD_cons, List.flatten_cons, List.flatten_cons, List.length_append,
        List.length_append] at hlength
      omega
    · intro hle
      rw [List.length_cons, List.length_cons] at hle
      omega

theorem FramedAs.exists_first {header raw body : Bytes} (h : FramedAs header raw body)
    (hchunked : transferEncodings header ≠ []) : ∃ line tail, raw = line ++ (crlf ++ tail)
      ∧ ∃ contents, Chunks raw contents ∧ contents.flatten = body := by
  cases h with
  | length codings => exact absurd codings hchunked
  | @chunked _ contents _ _ hchunks =>
    obtain ⟨line, tail, hraw, -⟩ := hchunks.exists_first
    exact ⟨line, tail, hraw, contents, hchunks, rfl⟩
  | rest codings => exact absurd codings hchunked

theorem FramedAs.eq_raw {header raw body : Bytes} (h : FramedAs header raw body)
    (hwhole : transferEncodings header = []) : body = raw := by
  cases h with
  | length => rfl
  | chunked codings =>
    rw [codings] at hwhole
    cases hwhole
  | rest => rfl

theorem FramedAs.length_lt {header raw body : Bytes} (h : FramedAs header raw body)
    (hchunked : transferEncodings header ≠ []) : body.length < raw.length := by
  cases h with
  | length codings => exact absurd codings hchunked
  | chunked _ _ hchunks => exact hchunks.length_lt
  | rest codings => exact absurd codings hchunked

/-- A complete response: a header block up to its first blank line, and what follows it. -/
structure HttpResponse where
  header : Bytes
  /-- What follows the header block. -/
  raw : Bytes
  body : Bytes
  version : text "HTTP/" <+: header
  nul : 0 ∉ header
  isHeader : IsHeader header
  framed : FramedAs header raw body

namespace HttpResponse

variable (m : HttpResponse)

/-- The response as it is received. -/
def bytes : Bytes := m.header ++ m.raw

/-- The body comes in chunks. -/
def IsChunked : Prop := transferEncodings m.header ≠ []

/-- `parseHttpResponse` returns `0` and keeps the body. -/
structure Kept (http : CHttp) : Prop where
  returned : (http.parseHttpResponse m.bytes).1 = 0
  data : (http.parseHttpResponse m.bytes).2.data = m.body

/-- A chunk stands at the position: the line of its size, and as many bytes behind the line.
Positions and lengths are taken modulo `2^32`. -/
def ChunkAt (data : Bytes) (start : ℕ) (content : Bytes) : Prop :=
  ∃ stop c, find data crlf start = some stop
    ∧ scanHex (substr data start (stop - start)) = some c
    ∧ (bodyEnd ((stop + 2) % 2 ^ 32) c).toNat ≤ data.length
    ∧ substr data ((stop + 2) % 2 ^ 32) c.toNat = content

/-- **The response is read right.**  The header block decides which of the texts is searched for in
vain in the body.  A body that is taken to be the rest of the bytes is no chunked one, and its
position is an `unsigned int`.  Where chunks are expected there is one at most, besides the empty
one, as long as positions are those of an `unsigned int`. -/
inductive ReadsRight : Prop
  | length {c : BitVec 32} (used : framingUsed m.header = .length) (whole : ¬ m.IsChunked)
      (fits : m.header.length < 2 ^ 32) (ann : announced m.header = some c)
      (enough : (bodyEnd m.header.length c).toNat ≤ m.bytes.length)
  | chunked (used : framingUsed m.header = .chunked)
      (free : contains (cString m.raw) (text "Content-Length: ") = false)
      (one : m.bytes.length < 2 ^ 32 →
        ∃ contents, Chunks m.raw contents ∧ contents.flatten = m.body ∧ contents.length ≤ 1)
      (wrapped : 2 ^ 32 ≤ m.bytes.length → ChunkAt m.bytes (m.header.length % 2 ^ 32) m.body)
  | rest (used : framingUsed m.header = .rest) (whole : ¬ m.IsChunked)
      (fits : m.header.length < 2 ^ 32)
      (free : contains (cString m.raw) (text "Content-Length: ") = false)
      (free' : contains (cString m.raw) (text "Transfer-Encoding: chunked") = false)

/-! ## The framing -/

theorem framingUsed_header :
    framingUsed m.header
      = if contains m.header (text "Content-Length: ") then .length
        else if contains m.header (text "Transfer-Encoding: chunked") then .chunked
        else .rest := by
  rw [framingUsed, cString_eq_self m.nul]

/-- A length in the header block goes before all. -/
theorem framingUsed_of_length (h : framingUsed m.header = .length) :
    framingUsed m.bytes = .length := by
  rw [framingUsed_header] at h
  rw [bytes, m.isHeader.framingUsed_append m.nul]
  cases hl : contains m.header (text "Content-Length: ") with
  | true => rfl
  | false =>
    rw [hl, if_neg Bool.false_ne_true] at h
    split at h <;> cases h

theorem framingUsed_of_chunked (h : framingUsed m.header = .chunked) :
    framingUsed m.bytes = .chunked
      ↔ contains (cString m.raw) (text "Content-Length: ") = false := by
  rw [framingUsed_header] at h
  rw [bytes, m.isHeader.framingUsed_append m.nul]
  split at h
  · cases h
  · rename_i hl
    split at h
    · rename_i hc
      rw [Bool.eq_false_iff.2 hl, hc]
      cases contains (cString m.raw) (text "Content-Length: ") <;> simp
    · cases h

theorem framingUsed_of_rest (h : framingUsed m.header = .rest) :
    framingUsed m.bytes = .rest
      ↔ contains (cString m.raw) (text "Content-Length: ") = false
        ∧ contains (cString m.raw) (text "Transfer-Encoding: chunked") = false := by
  rw [framingUsed_header] at h
  rw [bytes, m.isHeader.framingUsed_append m.nul]
  split at h
  · cases h
  · rename_i hl
    split at h
    · cases h
    · rename_i hc
      rw [Bool.eq_false_iff.2 hl, Bool.eq_false_iff.2 hc]
      cases contains (cString m.raw) (text "Content-Length: ")
        <;> cases contains (cString m.raw) (text "Transfer-Encoding: chunked") <;> simp

/-! ## The rest of the bytes -/

theorem body_eq_raw (h : ¬ m.IsChunked) : m.body = m.raw := m.framed.eq_raw (not_not.1 h)

theorem length_body_lt (h : m.IsChunked) : m.body.length < m.raw.length := m.framed.length_lt h

theorem length_bytes : m.bytes.length = m.header.length + m.raw.length := List.length_append

/-- **The rest of the bytes is the body** where it is not chunked and its position is right. -/
theorem drop_eq_body_iff :
    m.bytes.drop (m.header.length % 2 ^ 32) = m.body
      ↔ ¬ m.IsChunked ∧ m.header.length < 2 ^ 32 := by
  have hlength := m.length_bytes
  constructor
  · intro h
    have hdrop := congrArg List.length h
    rw [List.length_drop] at hdrop
    by_cases hchunked : m.IsChunked
    · have hlt := m.length_body_lt hchunked
      omega
    · have hraw := congrArg List.length (m.body_eq_raw hchunked)
      exact ⟨hchunked, by omega⟩
  · rintro ⟨hchunked, hfits⟩
    rw [Nat.mod_eq_of_lt hfits, m.body_eq_raw hchunked]
    exact List.drop_left

section Rest

variable (http : CHttp)

/-- What is returned for a response that is taken by its length. -/
theorem kept_length_iff (h : framingUsed m.header = .length) {c : BitVec 32}
    (ann : announced m.header = some c) :
    m.Kept http ↔ (bodyEnd m.header.length c).toNat ≤ m.bytes.length
      ∧ ¬ m.IsChunked ∧ m.header.length < 2 ^ 32 := by
  have hread := (parseHttpResponse_of_length http (m.framingUsed_of_length h)).trans
    (parseLengthResponse_of_announced _ (announced_append ann m.raw))
  have hrest := m.isHeader.parseRest_eq
    { (http.getResponseStatus m.bytes).2 with contentLen := c } m.raw
  rw [← m.drop_eq_body_iff]
  rw [← bytes] at hrest
  rw [hrest] at hread
  split at hread
  · rename_i hshort
    refine iff_of_false (fun hkept => ?_) fun henough => absurd henough.1 (not_le.2 hshort)
    have hreturned := hkept.returned
    rw [hread] at hreturned
    cases hreturned
  · rename_i henough
    constructor
    · intro hkept
      have hdata := hkept.data
      rw [hread] at hdata
      exact ⟨not_lt.1 henough, hdata⟩
    · rintro ⟨-, hdata⟩
      exact ⟨by rw [hread], by rw [hread]; exact hdata⟩

/-- What is returned for a response that is taken up to its end. -/
theorem kept_rest_iff (h : framingUsed m.bytes = .rest) :
    m.Kept http ↔ ¬ m.IsChunked ∧ m.header.length < 2 ^ 32 := by
  have hread := (parseHttpResponse_of_rest http h).trans
    (m.isHeader.parseContinuous_eq _ m.raw)
  rw [← m.drop_eq_body_iff]
  constructor
  · intro hkept
    have hdata := hkept.data
    rwa [hread] at hdata
  · intro hdata
    exact ⟨by rw [hread], by rw [hread]; exact hdata⟩

end Rest

/-! ## Chunks -/

section Chunked

variable {stop : Option ℕ} {c : BitVec 32}

/-- Where the chunk that is read begins. -/
def chunkPos (stop : Option ℕ) : ℕ := stop.elim 1 fun k => (k + 2) % 2 ^ 32

/-- The line in which its size is read. -/
def sizeLine (stop : Option ℕ) : Bytes :=
  substr m.bytes (m.header.length % 2 ^ 32)
    (stop.elim m.bytes.length (· - m.header.length % 2 ^ 32))

/-- What is returned for a response that is taken as chunks. -/
theorem kept_chunked_iff (http : CHttp) (h : framingUsed m.bytes = .chunked)
    (hstop : find m.bytes crlf (m.header.length % 2 ^ 32) = stop)
    (hc : (scanHex (m.sizeLine stop)).getD http.contentLen = c) :
    m.Kept http ↔ (bodyEnd (chunkPos stop) c).toNat ≤ m.bytes.length
      ∧ substr m.bytes (chunkPos stop) c.toNat = m.body := by
  have hkept : (http.getResponseStatus m.bytes).2.contentLen = http.contentLen := by
    obtain ⟨status, hstatus⟩ := exists_getResponseStatus_snd http m.bytes
    rw [hstatus]
  rw [← hkept] at hc
  have hread := (parseHttpResponse_of_chunked http h).trans
    (m.isHeader.parseChunkedResponse_eq (http.getResponseStatus m.bytes).2 m.raw hstop hc)
  rw [← bytes] at hread
  split at hread
  · rename_i hshort
    refine iff_of_false (fun hkept => ?_) fun henough => absurd henough.1 (not_le.2 hshort)
    have hreturned := hkept.returned
    rw [hread] at hreturned
    cases hreturned
  · rename_i henough
    constructor
    · intro hkept
      have hdata := hkept.data
      rw [hread] at hdata
      exact ⟨not_lt.1 henough, hdata⟩
    · rintro ⟨-, hdata⟩
      exact ⟨by rw [hread], by rw [hread]; exact hdata⟩

/-- **Where no size is read, the length is the one that `content_len_` held**, and not every length
is right. -/
theorem not_kept_of_scanHex_eq_none (h : framingUsed m.bytes = .chunked)
    (hstop : find m.bytes crlf (m.header.length % 2 ^ 32) = stop)
    (hscan : scanHex (m.sizeLine stop) = none) (hpos : chunkPos stop < m.bytes.length) :
    ¬ ∀ unset, m.Kept { contentLen := unset } := by
  intro hkept
  have hread : ∀ unset : BitVec 32, substr m.bytes (chunkPos stop) unset.toNat = m.body := by
    intro unset
    have hc : (scanHex (m.sizeLine stop)).getD unset = unset := by rw [hscan, Option.getD_none]
    exact ((m.kept_chunked_iff { contentLen := unset } h hstop hc).1 (hkept unset)).2
  have hlength := congrArg List.length ((hread 1).trans (hread 0).symm)
  rw [substr, substr, List.length_take, List.length_take, List.length_drop,
    show (1 : BitVec 32).toNat = 1 from rfl, show (0 : BitVec 32).toNat = 0 from rfl] at hlength
  omega

/-- A line end stands in the header block, and in chunks. -/
theorem exists_find_crlf (h : 2 ^ 32 ≤ m.header.length ∨ m.IsChunked) :
    ∃ k, find m.bytes crlf (m.header.length % 2 ^ 32) = some k := by
  have hle := Nat.mod_le m.header.length (2 ^ 32)
  rcases h with hlong | hchunked
  · obtain ⟨front, heq, hlen⟩ := m.isHeader.exists_eq
    have hparts : m.bytes = (front ++ crlf) ++ (crlf ++ m.raw) := by
      rw [bytes, heq, List.append_assoc, List.append_assoc]
      rfl
    have hend : (front ++ crlf).length = front.length + 2 := List.length_append
    have hpre : crlf <+: m.bytes.drop (front.length + 2) := by
      rw [hparts, ← hend, List.drop_left]
      exact List.prefix_append _ _
    have hfits := m.length_bytes
    have hstart : m.header.length % 2 ^ 32 ≤ front.length + 2 := by omega
    obtain ⟨k, -, hk⟩ := exists_find hstart (by omega) hpre
    exact ⟨k, hk⟩
  · obtain ⟨line, tail, hraw, -⟩ := m.framed.exists_first hchunked
    have hpre : crlf <+: m.bytes.drop (m.header.length + line.length) := by
      rw [bytes, hraw, ← List.drop_drop, List.drop_left, List.drop_left]
      exact List.prefix_append _ _
    have hfits := m.length_bytes
    have hlength := congrArg List.length hraw
    rw [List.length_append] at hlength
    have hstart : m.header.length % 2 ^ 32 ≤ m.header.length + line.length := by omega
    obtain ⟨k, -, hk⟩ := exists_find hstart (by omega) hpre
    exact ⟨k, hk⟩

/-- **Without a line end behind the header block nothing is read right.** -/
theorem not_kept_of_no_line (h : framingUsed m.bytes = .chunked)
    (hstop : find m.bytes crlf (m.header.length % 2 ^ 32) = none) :
    ¬ ∀ unset, m.Kept { contentLen := unset } := by
  have hno : ¬ (2 ^ 32 ≤ m.header.length ∨ m.IsChunked) := by
    intro hsome
    obtain ⟨k, hk⟩ := m.exists_find_crlf hsome
    rw [hstop] at hk
    cases hk
  rw [not_or, not_le] at hno
  have hbody := m.body_eq_raw hno.2
  have hline : m.sizeLine none = m.raw := by
    rw [sizeLine, Option.elim_none, Nat.mod_eq_of_lt hno.1, bytes, substr, List.drop_left,
      List.take_of_length_le]
    rw [List.length_append]
    omega
  have hfour : 4 ≤ m.header.length := m.isHeader.blankLine_le
  have hlength := m.length_bytes
  have hpos : chunkPos none < m.bytes.length := by
    rw [chunkPos, Option.elim_none]
    omega
  cases hscan : scanHex (m.sizeLine none) with
  | none => exact m.not_kept_of_scanHex_eq_none h hstop hscan hpos
  | some c =>
    intro hkept
    have hread := ((m.kept_chunked_iff {} h hstop (c := c) (by rw [hscan]; rfl)).1 (hkept 0)).2
    -- what is read begins with the second letter of the version, which is no number
    have hversion : text "HTTP/" <+: m.bytes := m.version.trans (List.prefix_append _ _)
    rw [hbody, chunkPos, Option.elim_none] at hread
    rw [hline, ← hread, scanHex_substr_version hversion] at hscan
    cases hscan

/-- **Of chunks, the first one is read.** -/
theorem kept_of_chunks (http : CHttp) (h : framingUsed m.bytes = .chunked)
    (hlt : m.bytes.length < 2 ^ 32) {contents : List Bytes} (hchunks : Chunks m.raw contents) :
    m.Kept http ↔ contents.headD [] = m.body := by
  obtain ⟨line, tail, hraw, hline, ⟨behind, hbehind⟩, hscan⟩ := hchunks.exists_first
  have hlength := m.length_bytes
  have hrawlength : m.raw.length = line.length + (2 + tail.length) := by
    rw [hraw, List.length_append, List.length_append]
    rfl
  have hfirst : (contents.headD []).length ≤ tail.length := by
    rw [← hbehind, List.length_append]
    omega
  have hmod : m.header.length % 2 ^ 32 = m.header.length := Nat.mod_eq_of_lt (by omega)
  have hstop : find m.bytes crlf (m.header.length % 2 ^ 32)
      = some (m.header.length + line.length) := by
    have hright := find_append_right m.header m.raw crlf 0
    rw [Nat.add_zero] at hright
    rw [hmod, bytes, hright, hraw, find_crlf_line hline (Nat.zero_le _), Option.map_some]
  have hsize : m.sizeLine (some (m.header.length + line.length)) = line := by
    rw [sizeLine, Option.elim_some, hmod, Nat.add_sub_cancel_left, bytes, hraw]
    exact substr_append m.header line _
  have hread := hscan (by omega)
  have hc : (BitVec.ofNat 32 (contents.headD []).length).toNat = (contents.headD []).length := by
    rw [BitVec.toNat_ofNat, Nat.mod_eq_of_lt (by omega)]
  have hpos : chunkPos (some (m.header.length + line.length))
      = m.header.length + line.length + 2 := Nat.mod_eq_of_lt (by omega)
  have hend : (bodyEnd (m.header.length + line.length + 2)
        (BitVec.ofNat 32 (contents.headD []).length)).toNat
      = m.header.length + line.length + 2 + (contents.headD []).length := by
    rw [bodyEnd, BitVec.toNat_add, hc, BitVec.toNat_ofNat,
      Nat.mod_eq_of_lt (by omega : m.header.length + line.length + 2 < 2 ^ 32),
      Nat.mod_eq_of_lt (by omega)]
  have hcut : substr m.bytes (m.header.length + line.length + 2) (contents.headD []).length
      = contents.headD [] := by
    have hparts : m.bytes = (m.header ++ (line ++ crlf)) ++ (contents.headD [] ++ behind) := by
      rw [hbehind, bytes, hraw]
      simp only [List.append_assoc]
    have hfront : (m.header ++ (line ++ crlf)).length = m.header.length + line.length + 2 := by
      rw [List.length_append, List.length_append, ← Nat.add_assoc]
      rfl
    rw [hparts, ← hfront]
    exact substr_append _ _ _
  rw [m.kept_chunked_iff http h hstop (by rw [hsize, hread, Option.getD_some]), hpos, hend, hc,
    hcut]
  exact and_iff_right (by omega)

/-- **A body that is not chunked is not read as a chunk.** -/
theorem not_kept_of_whole (h : framingUsed m.bytes = .chunked) (hlt : m.bytes.length < 2 ^ 32)
    (hwhole : ¬ m.IsChunked) : ¬ ∀ unset, m.Kept { contentLen := unset } := by
  cases hstop : find m.bytes crlf (m.header.length % 2 ^ 32) with
  | none => exact m.not_kept_of_no_line h hstop
  | some stop =>
    intro hkept
    have hread := ((m.kept_chunked_iff {} h hstop rfl).1 (hkept 0)).2
    have hlength := m.length_bytes
    have hafter := (find_eq_some_iff.1 hstop).1
    have hfits : stop + 2 ≤ m.bytes.length := find_add_length_le hstop
    have hdata := congrArg List.length hread
    have hpos : chunkPos (some stop) = stop + 2 := Nat.mod_eq_of_lt (by omega)
    rw [m.body_eq_raw hwhole, hpos, substr, List.length_take, List.length_drop] at hdata
    omega

/-- Short of `2^32` bytes, the chunks are read where there is one at most, besides the empty one. -/
theorem chunks_read_iff (h : framingUsed m.bytes = .chunked) (hlt : m.bytes.length < 2 ^ 32) :
    (∀ unset, m.Kept { contentLen := unset })
      ↔ ∃ contents, Chunks m.raw contents ∧ contents.flatten = m.body ∧ contents.length ≤ 1 := by
  constructor
  · intro hkept
    have hchunked : m.IsChunked := by
      by_contra hwhole
      exact m.not_kept_of_whole h hlt hwhole hkept
    obtain ⟨-, -, -, contents, hchunks, hbody⟩ := m.framed.exists_first hchunked
    have hfirst := (m.kept_of_chunks _ h hlt hchunks).1 (hkept 0)
    rw [← hbody, hchunks.headD_eq_flatten_iff] at hfirst
    exact ⟨contents, hchunks, hbody, hfirst⟩
  · rintro ⟨contents, hchunks, hbody, hone⟩ unset
    rw [m.kept_of_chunks _ h hlt hchunks, ← hbody]
    exact hchunks.headD_eq_flatten_iff.2 hone

/-- From `2^32` bytes on, a chunk is read where the wrapped position says. -/
theorem wrapped_read_iff (h : framingUsed m.bytes = .chunked) (hge : 2 ^ 32 ≤ m.bytes.length) :
    (∀ unset, m.Kept { contentLen := unset })
      ↔ ChunkAt m.bytes (m.header.length % 2 ^ 32) m.body := by
  cases hstop : find m.bytes crlf (m.header.length % 2 ^ 32) with
  | none =>
    refine iff_of_false (m.not_kept_of_no_line h hstop) ?_
    rintro ⟨stop, c, hfound, -⟩
    rw [hstop] at hfound
    cases hfound
  | some stop =>
    have hpos : chunkPos (some stop) < 2 ^ 32 := Nat.mod_lt _ (by decide)
    cases hscan : scanHex (m.sizeLine (some stop)) with
    | none =>
      refine iff_of_false (m.not_kept_of_scanHex_eq_none h hstop hscan (by omega)) ?_
      rintro ⟨stop', c, hfound, hsize, -⟩
      obtain rfl := Option.some.inj (hstop.symm.trans hfound)
      have hnone := hscan.symm.trans hsize
      cases hnone
    | some c =>
      have hiff : ∀ unset, m.Kept { contentLen := unset }
          ↔ (bodyEnd (chunkPos (some stop)) c).toNat ≤ m.bytes.length
            ∧ substr m.bytes (chunkPos (some stop)) c.toNat = m.body := fun unset =>
        m.kept_chunked_iff _ h hstop (by rw [hscan, Option.getD_some])
      constructor
      · intro hkept
        obtain ⟨henough, hdata⟩ := (hiff 0).1 (hkept 0)
        exact ⟨stop, c, hstop, hscan, henough, hdata⟩
      · rintro ⟨stop', c', hfound, hsize, henough, hdata⟩ unset
        obtain rfl := Option.some.inj (hstop.symm.trans hfound)
        obtain rfl := Option.some.inj (hscan.symm.trans hsize)
        exact (hiff unset).2 ⟨henough, hdata⟩

end Chunked

/-! ## The three framings -/

theorem length_read_iff (hused : framingUsed m.header = .length) :
    (framingUsed m.bytes = .length ∧ ∀ unset, m.Kept { contentLen := unset })
      ↔ m.ReadsRight := by
  obtain ⟨c, ann⟩ := m.isHeader.exists_announced_of_length m.nul hused
  have hkept : ∀ unset, m.Kept { contentLen := unset }
      ↔ (bodyEnd m.header.length c).toNat ≤ m.bytes.length
        ∧ ¬ m.IsChunked ∧ m.header.length < 2 ^ 32 := fun unset =>
    m.kept_length_iff _ hused ann
  constructor
  · rintro ⟨-, hall⟩
    obtain ⟨enough, whole, fits⟩ := (hkept 0).1 (hall 0)
    exact .length hused whole fits ann enough
  · intro h
    refine ⟨m.framingUsed_of_length hused, fun unset => (hkept unset).2 ?_⟩
    cases h with
    | length _ whole fits ann' enough =>
      obtain rfl := Option.some.inj (ann.symm.trans ann')
      exact ⟨enough, whole, fits⟩
    | chunked used => cases hused.symm.trans used
    | rest used => cases hused.symm.trans used

theorem chunked_read_iff (hused : framingUsed m.header = .chunked) :
    (framingUsed m.bytes = .chunked ∧ ∀ unset, m.Kept { contentLen := unset })
      ↔ m.ReadsRight := by
  rw [m.framingUsed_of_chunked hused]
  constructor
  · rintro ⟨free, hall⟩
    have hframing := (m.framingUsed_of_chunked hused).2 free
    exact .chunked hused free (fun hlt => (m.chunks_read_iff hframing hlt).1 hall)
      fun hge => (m.wrapped_read_iff hframing hge).1 hall
  · intro h
    cases h with
    | length used => cases hused.symm.trans used
    | chunked _ free one wrapped =>
      have hframing := (m.framingUsed_of_chunked hused).2 free
      refine ⟨free, ?_⟩
      rcases Nat.lt_or_ge m.bytes.length (2 ^ 32) with hlt | hge
      · exact (m.chunks_read_iff hframing hlt).2 (one hlt)
      · exact (m.wrapped_read_iff hframing hge).2 (wrapped hge)
    | rest used => cases hused.symm.trans used

theorem rest_read_iff (hused : framingUsed m.header = .rest) :
    (framingUsed m.bytes = .rest ∧ ∀ unset, m.Kept { contentLen := unset })
      ↔ m.ReadsRight := by
  rw [m.framingUsed_of_rest hused]
  constructor
  · rintro ⟨free, hall⟩
    have hframing := (m.framingUsed_of_rest hused).2 free
    obtain ⟨whole, fits⟩ := (m.kept_rest_iff _ hframing).1 (hall 0)
    exact .rest hused whole fits free.1 free.2
  · intro h
    cases h with
    | length used => cases hused.symm.trans used
    | chunked used => cases hused.symm.trans used
    | rest _ whole fits free free' =>
      have hframing := (m.framingUsed_of_rest hused).2 ⟨free, free'⟩
      exact ⟨⟨free, free'⟩, fun unset => (m.kept_rest_iff _ hframing).2 ⟨whole, fits⟩⟩

/-- **A response is read right, and framed by its header block alone, exactly where `ReadsRight`
says.** -/
theorem body_read_iff (m : HttpResponse) :
    (framingUsed m.bytes = framingUsed m.header ∧ ∀ unset, m.Kept { contentLen := unset })
      ↔ m.ReadsRight := by
  cases hused : framingUsed m.header with
  | length => exact m.length_read_iff hused
  | chunked => exact m.chunked_read_iff hused
  | rest => exact m.rest_read_iff hused

/-- A response in two chunks. -/
def twoChunks : HttpResponse where
  header := text "HTTP/1.1 200 OK\r\nTransfer-Encoding: chunked\r\n\r\n"
  raw := text "5\r\nhello\r\n5\r\nworld\r\n0\r\n\r\n"
  body := text "helloworld"
  version := ⟨text "1.1 200 OK\r\nTransfer-Encoding: chunked\r\n\r\n", by decide⟩
  nul := by decide
  isHeader := by
    unfold IsHeader
    decide +kernel
  framed := by
    have hfive : ∀ content : Bytes, content.length = 5 → IsSize (text "5") content.length := by
      intro content hlen
      exact ⟨by decide, by decide, by rw [hlen]; decide⟩
    have hnone : IsExtension [] := ⟨List.not_mem_nil, fun x hx => by cases hx⟩
    have hzero : IsSize (text "0") 0 := ⟨by decide, by decide, by decide⟩
    have hlast : Chunks (text "0\r\n\r\n") [] :=
      Chunks.last hzero hnone fun l (hl : l ∈ []) => absurd hl List.not_mem_nil
    have hsecond : Chunks (text "5\r\nworld\r\n0\r\n\r\n") [text "world"] :=
      .chunk (hfive (text "world") (by decide)) (by decide) hnone hlast
    have hfirst : Chunks (text "5\r\nhello\r\n5\r\nworld\r\n0\r\n\r\n")
        [text "hello", text "world"] :=
      .chunk (hfive (text "hello") (by decide)) (by decide) hnone hsecond
    exact .chunked (by decide +kernel) (by decide +kernel) hfirst

/-- **The second chunk is lost.** -/
theorem second_chunk_lost :
    (parseHttpResponse {} twoChunks.bytes).1 = 0
      ∧ (parseHttpResponse {} twoChunks.bytes).2.data = text "hello"
      ∧ ¬ (framingUsed twoChunks.bytes = framingUsed twoChunks.header
        ∧ ∀ unset, twoChunks.Kept { contentLen := unset }) := by
  refine ⟨by decide +kernel, by decide +kernel, fun h => ?_⟩
  exact absurd (h.2 0).data (by decide +kernel)

end HttpResponse

end SmartStreaming
