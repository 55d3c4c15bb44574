import SmartStreaming.Http.GetBuilt
import SmartStreaming.Http.Kept

/-!
# Http/BodyBuilt — the messages with a body that `CHttp` writes, read by `CHttp`

`buildResponse` and `buildHttpPostRequest` write lines, the length of the body among them, a blank
line and the body.  No line in front of the length holds its name, so that every search comes upon
it first; `built_bodies_read` says that the body comes back whatever it is.
-/

namespace SmartStreaming

open CHttp

/-! ## What is built -/

/-- The line of the length. -/
def lengthLine (body : Bytes) : Bytes :=
  contentLength ++ 0x20 :: getStrFromUInt32 (BitVec.ofNat 32 body.length)

/-- The lines, the length of the body among them, and the blank line. -/
def builtHeader (before after : List Bytes) (body : Bytes) : Bytes :=
  joinLines (before ++ lengthLine body :: after) ++ crlf

/-- Lines that are not empty; in front of the length none holds its name. -/
structure BuiltLines (before after : List Bytes) : Prop where
  linesBefore : ∀ l ∈ before, IsLine l ∧ l ≠ []
  linesAfter : ∀ l ∈ after, IsLine l ∧ l ≠ []
  free : ∀ l ∈ before, contains l contentLength = false

section Built

variable {before after : List Bytes} {body : Bytes}

theorem digits_of_getStrFromUInt32 (value : BitVec 32) {x : Byte} (hx : isDigit x = false) :
    x ∉ getStrFromUInt32 value := by
  intro hmem
  rw [isDigit_of_mem_decimal hmem] at hx
  cases hx

theorem isLine_length (value : BitVec 32) : IsLine (0x20 :: getStrFromUInt32 value) := by
  refine isLine_of_notMem ?_
  rw [List.mem_cons, not_or]
  exact ⟨by decide, digits_of_getStrFromUInt32 value (by decide)⟩

theorem isLine_lengthLine (body : Bytes) : IsLine (lengthLine body) ∧ lengthLine body ≠ [] := by
  refine ⟨isLine_of_notMem ?_, List.append_ne_nil_of_left_ne_nil (by decide) _⟩
  rw [lengthLine, List.mem_append, List.mem_cons, not_or, not_or]
  exact ⟨by decide, by decide, digits_of_getStrFromUInt32 _ (by decide)⟩

theorem BuiltLines.isHeader (h : BuiltLines before after) (body : Bytes) :
    IsHeader (builtHeader before after body) := by
  refine isHeader_joinLines (List.append_ne_nil_of_right_ne_nil _ (List.cons_ne_nil _ _)) ?_
  intro l hl
  rcases List.mem_append.1 hl with hl | hl
  · exact h.linesBefore l hl
  · rcases List.mem_cons.1 hl with rfl | hl
    · exact isLine_lengthLine body
    · exact h.linesAfter l hl

/-- The message around its length. -/
theorem builtHeader_append (before after : List Bytes) (body x : Bytes) :
    builtHeader before after body ++ x
      = joinLines before ++ (contentLength
        ++ ((0x20 :: getStrFromUInt32 (BitVec.ofNat 32 body.length))
          ++ (crlf ++ (joinLines after ++ (crlf ++ x))))) := by
  rw [builtHeader, joinLines_append, joinLines_cons, lengthLine]
  simp only [List.append_assoc]

/-- **The length is what every search comes upon first.** -/
theorem BuiltLines.find_contentLength (h : BuiltLines before after) (body x : Bytes) :
    find (builtHeader before after body ++ x) contentLength 0 = some (joinLines before).length := by
  have hp : InLine contentLength := ⟨by decide, by decide, by decide⟩
  rw [builtHeader_append, find_joinLines hp h.free, find_of_prefix (List.prefix_append _ _),
    Option.map_some, Nat.add_zero]

theorem length_joinLines_lt (before after : List Bytes) (body : Bytes) :
    (joinLines before).length + 15
        + (0x20 :: getStrFromUInt32 (BitVec.ofNat 32 body.length)).length
      < (builtHeader before after body).length := by
  have hparts := builtHeader_append before after body []
  have hlength := congrArg List.length hparts
  simp only [List.append_nil, List.length_append] at hlength
  have h15 : contentLength.length = 15 := rfl
  have h2 : crlf.length = 2 := rfl
  omega

/-- **What is announced is the length of the body.** -/
theorem BuiltLines.announced_eq (h : BuiltLines before after) (body x : Bytes)
    (hlt : (builtHeader before after body).length < 2 ^ 32) :
    announced (builtHeader before after body ++ x) = some (BitVec.ofNat 32 body.length) := by
  have hshort := length_joinLines_lt before after body
  have h15 : contentLength.length = 15 := rfl
  have hstart : (joinLines before ++ contentLength).length = (joinLines before).length + 15 :=
    List.length_append
  have hread := atoi_getStrFromUInt32 (BitVec.ofNat 32 body.length) (s := [])
    fun x hx => absurd hx (by simp)
  have hline := isLine_length (BitVec.ofNat 32 body.length)
  have hcut := lineFrom_line (a := joinLines before ++ contentLength)
    (b := joinLines after ++ (crlf ++ x)) hline (Nat.zero_le _) (by omega)
  rw [List.append_nil] at hread
  rw [hstart, Nat.add_zero, List.drop_zero, List.append_assoc, ← builtHeader_append] at hcut
  obtain ⟨stop, hstop, heq⟩ := Option.map_eq_some_iff.1 hcut
  rw [announced, h.find_contentLength, Option.bind_some, h15, Nat.mod_eq_of_lt (by omega), hstop,
    Option.map_some, heq, hread]

variable (http : CHttp)

/-- **Both checks find the end of the message.** -/
theorem BuiltLines.checkRequest_eq (h : BuiltLines before after)
    (hlt : (builtHeader before after body ++ body).length < 2 ^ 31) :
    (http.checkRequest (builtHeader before after body ++ body)).1
      = (builtHeader before after body ++ body).length := by
  rw [List.length_append] at hlt ⊢
  have hc : (BitVec.ofNat 32 body.length).toNat = body.length := by
    rw [BitVec.toNat_ofNat, Nat.mod_eq_of_lt (by omega)]
  rw [(h.isHeader body).checkRequest_eq_of_announced http (h.announced_eq body body (by omega)) hc
    (by omega), if_pos (le_refl body.length)]

/-- What a body is cut out with. -/
theorem bodyEnd_built (before after : List Bytes)
    (hlt : (builtHeader before after body ++ body).length < 2 ^ 31) :
    ¬ (builtHeader before after body ++ body).length
      < (bodyEnd (builtHeader before after body).length (BitVec.ofNat 32 body.length)).toNat := by
  rw [List.length_append] at hlt ⊢
  have hc : (BitVec.ofNat 32 body.length).toNat = body.length := by
    rw [BitVec.toNat_ofNat, Nat.mod_eq_of_lt (by omega)]
  rw [(bodyEnd_eq hc (by omega)).1]
  omega

/-- **A response is read to its end.** -/
theorem BuiltLines.parseLengthResponse_eq (h : BuiltLines before after)
    (hlt : (builtHeader before after body ++ body).length < 2 ^ 31) :
    http.parseLengthResponse (builtHeader before after body ++ body)
      = (0, { http with contentLen := BitVec.ofNat 32 body.length, data := body }) := by
  have hend := bodyEnd_built before after hlt
  rw [List.length_append] at hlt
  rw [parseLengthResponse_of_announced http (h.announced_eq body body (by omega)),
    (h.isHeader body).parseRest_eq, if_neg hend, Nat.mod_eq_of_lt (by omega), List.drop_left]

/-- **The length of a request is read from the whole rest of it**: the end of its value is taken to
be the end of the first line, which lies before it. -/
theorem BuiltLines.parseLength_eq (h : BuiltLines before after) {l : Bytes} {ls : List Bytes}
    (hfirst : before = l :: ls) (hlt : (builtHeader before after body ++ body).length < 2 ^ 31) :
    http.parseLength (builtHeader before after body ++ body)
      = (0, { http with contentLen := BitVec.ofNat 32 body.length, data := body }) := by
  have hend := bodyEnd_built before after hlt
  have hshort := length_joinLines_lt before after body
  have h15 : contentLength.length = 15 := rfl
  have hl : IsLine l := (h.linesBefore l (hfirst ▸ List.mem_cons_self)).1
  have hstop : find (builtHeader before after body ++ body) crlf 0 = some l.length := by
    rw [builtHeader_append, hfirst, joinLines_cons, List.append_assoc, List.append_assoc]
    exact find_crlf_line hl (Nat.zero_le _) _
  have hbehind : l.length < (joinLines before).length := by
    have h2 : crlf.length = 2 := rfl
    rw [hfirst, joinLines_cons, List.length_append, List.length_append]
    omega
  have hdrop : (builtHeader before after body ++ body).drop ((joinLines before).length + 15)
      = (0x20 :: getStrFromUInt32 (BitVec.ofNat 32 body.length))
        ++ (crlf ++ (joinLines after ++ (crlf ++ body))) := by
    rw [builtHeader_append, ← List.append_assoc]
    exact List.drop_left' List.length_append
  have hvalue : substr (builtHeader before after body ++ body) ((joinLines before).length + 15)
        (sizeDiff l.length ((joinLines before).length + 15))
      = (0x20 :: getStrFromUInt32 (BitVec.ofNat 32 body.length))
        ++ (crlf ++ (joinLines after ++ (crlf ++ body))) := by
    rw [substr, ← hdrop, List.take_of_length_le]
    rw [List.length_drop, sizeDiff, Nat.mod_eq_of_lt (by omega)]
    omega
  have hread := atoi_getStrFromUInt32 (BitVec.ofNat 32 body.length)
    (s := crlf ++ (joinLines after ++ (crlf ++ body))) fun x hx => by
      rw [← Option.some.inj hx]
      decide
  rw [List.length_append] at hlt
  rw [parseLength, h.find_contentLength]
  dsimp only
  rw [hstop]
  dsimp only
  rw [h15, Nat.mod_eq_of_lt (by omega), hvalue, List.cons_append, hread,
    (h.isHeader body).parseBody_eq, if_neg hend, Nat.mod_eq_of_lt (by omega), substr,
    List.drop_left, BitVec.toNat_ofNat, Nat.mod_eq_of_lt (by omega), List.take_length]

end Built

/-! ## Responses -/

/-- The response to a request, read by the one who sent the request. -/
structure ReadsResponse (http : CHttp) (body r : Bytes) : Prop where
  check : (http.checkResponse r).1 = r.length
  parsed : (http.parseHttpResponse r).1 = 0
  status : (http.parseHttpResponse r).2.responseStatus = 200
  data : (http.parseHttpResponse r).2.data = body

section Response

variable (http : CHttp) (body : Bytes)

/-- The lines of a response in front of the length. -/
def responseLines : List Bytes := [text "HTTP/1.1 200 OK", text "Content-Type: text/plain"]

theorem builtLines_response : BuiltLines responseLines [text "Connection: Keep-Alive"] := by
  refine ⟨?_, ?_, ?_⟩
  · simp only [responseLines, List.forall_mem_cons]
    exact ⟨by decide, by decide, fun l hl => absurd hl List.not_mem_nil⟩
  · simp only [List.forall_mem_cons]
    exact ⟨by decide, fun l hl => absurd hl List.not_mem_nil⟩
  · simp only [responseLines, List.forall_mem_cons]
    exact ⟨by decide, by decide, fun l hl => absurd hl List.not_mem_nil⟩

theorem buildResponse_eq :
    buildResponse body
      = builtHeader responseLines [text "Connection: Keep-Alive"] body ++ body := by
  have hstatus : text "HTTP/1.1 200 OK\r\n" = text "HTTP/1.1 200 OK" ++ crlf := rfl
  have htype : text "Content-Type: text/plain\r\n" = text "Content-Type: text/plain" ++ crlf := rfl
  have hlength : text "Content-Length: " = contentLength ++ [0x20] := rfl
  have hconnection :
      text "Connection: Keep-Alive\r\n" = text "Connection: Keep-Alive" ++ crlf := rfl
  have hend : text "\r\n" = crlf := rfl
  rw [buildResponse, hstatus, htype, hlength, hconnection, hend, builtHeader, responseLines,
    lengthLine]
  simp only [joinLines, List.flatMap_cons, List.flatMap_nil, List.append_nil,
    List.append_assoc, List.cons_append, List.nil_append]

/-- A response that was built is framed by its length. -/
theorem framingUsed_buildResponse : framingUsed (buildResponse body) = .length := by
  have hhead : cString (buildResponse body)
      = (text "HTTP/1.1 200 OK\r\nContent-Type: text/plain\r\nContent-Length: ")
        ++ cString (getStrFromUInt32 (BitVec.ofNat 32 body.length)
          ++ (text "\r\nConnection: Keep-Alive\r\n\r\n" ++ body)) := by
    have hnul : 0 ∉ text "HTTP/1.1 200 OK\r\nContent-Type: text/plain\r\nContent-Length: " := by
      decide +kernel
    have hwords : text "HTTP/1.1 200 OK\r\nContent-Type: text/plain\r\nContent-Length: "
        = text "HTTP/1.1 200 OK\r\n"
          ++ (text "Content-Type: text/plain\r\n" ++ text "Content-Length: ") := by
      decide +kernel
    have hend : text "\r\nConnection: Keep-Alive\r\n\r\n"
        = text "\r\n" ++ (text "Connection: Keep-Alive\r\n" ++ text "\r\n") := by
      decide +kernel
    rw [← cString_append hnul, buildResponse, hwords, hend]
    simp only [List.append_assoc]
  have hfind : find (text "HTTP/1.1 200 OK\r\nContent-Type: text/plain\r\nContent-Length: ")
      (text "Content-Length: ") 0 = some 43 := by decide +kernel
  rw [framingUsed, hhead, contains, find_append hfind, Option.isSome_some, if_pos rfl]

theorem readsResponse_buildResponse (h : http.responseStatus = 0)
    (hlt : (buildResponse body).length < 2 ^ 31) :
    ReadsResponse http body (buildResponse body) := by
  have hframing := framingUsed_buildResponse body
  have hstatus := getResponseStatus_ok http h
  have hparts : ∃ x, buildResponse body = text "HTTP/1.1 200 OK\r\n" ++ x := by
    rw [buildResponse]
    simp only [List.append_assoc]
    exact ⟨_, rfl⟩
  obtain ⟨x, hx⟩ := hparts
  have hread := parseHttpResponse_of_length http hframing
  rw [hx, hstatus x, ← hx] at hread
  rw [buildResponse_eq] at hlt hread ⊢
  rw [builtLines_response.parseLengthResponse_eq _ hlt] at hread
  exact ⟨builtLines_response.checkRequest_eq http hlt, by rw [hread], by rw [hread], by rw [hread]⟩

end Response

/-! ## Requests -/

/-- The request of a client, read by the server. -/
structure ReadsPost (http : CHttp) (body q : Bytes) : Prop where
  check : (http.checkRequest q).1 = q.length
  parsed : (http.parseRequest q).1 = 0
  data : (http.parseRequest q).2.data = body

/-- Without a space, a line end or the name of the length. -/
structure Nameless (s : Bytes) : Prop where
  plain : Plain s
  free : contains s contentLength = false

section Post

variable (http : CHttp) {body host path name : Bytes}

/-- The lines of a request in front of the length. -/
def postLines (host path name : Bytes) : List Bytes :=
  [text "POST" ++ 0x20 :: ((path ++ name) ++ 0x20 :: text "HTTP/1.1"),
    text "Host:" ++ 0x20 :: host, text "Content-Type: text/plain"]

theorem builtLines_post (hhost : Nameless host) (hurl : Nameless (path ++ name)) :
    BuiltLines (postLines host path name) [] := by
  have hspace : 0x20 ∉ contentLength := by decide
  have hurlLine : 0x0d ∉ text "POST" ++ 0x20 :: ((path ++ name) ++ 0x20 :: text "HTTP/1.1") := by
    rw [List.mem_append, List.mem_cons, List.mem_append, not_or, not_or, not_or]
    exact ⟨by decide, by decide, hurl.plain.cr, by decide⟩
  have hhostLine : 0x0d ∉ text "Host:" ++ 0x20 :: host := by
    rw [List.mem_append, List.mem_cons, not_or, not_or]
    exact ⟨by decide, by decide, hhost.plain.cr⟩
  refine ⟨?_, fun l hl => absurd hl List.not_mem_nil, ?_⟩
  · simp only [postLines, List.forall_mem_cons]
    exact ⟨⟨isLine_of_notMem hurlLine, List.append_ne_nil_of_left_ne_nil (by decide) _⟩,
      ⟨isLine_of_notMem hhostLine, List.append_ne_nil_of_left_ne_nil (by decide) _⟩,
      by decide, fun l hl => absurd hl List.not_mem_nil⟩
  · have hpost : find (text "POST") contentLength 0 = none := by decide
    have hversion : find (text "HTTP/1.1") contentLength 0 = none := by decide
    have hname : find (text "Host:") contentLength 0 = none := by decide
    simp only [postLines, List.forall_mem_cons, contains_eq_false_iff]
    refine ⟨?_, ?_, by decide, fun l hl => absurd hl List.not_mem_nil⟩
    · rw [find_separator hspace, hpost, Option.none_or, find_separator hspace,
        contains_eq_false_iff.1 hurl.free, Option.none_or, hversion]
      rfl
    · rw [find_separator hspace, hname, Option.none_or, contains_eq_false_iff.1 hhost.free]
      rfl

theorem buildHttpPostRequest_eq (body host path name : Bytes) :
    buildHttpPostRequest body host path name
      = builtHeader (postLines host path name) [] body ++ body := by
  have hpost : text "POST " = text "POST" ++ [0x20] := rfl
  have hversion : text " HTTP/1.1" = 0x20 :: text "HTTP/1.1" := rfl
  have hhost : text "\r\nHost: " = crlf ++ (text "Host:" ++ [0x20]) := rfl
  have htype : text "Content-Type: text/plain\r\n" = text "Content-Type: text/plain" ++ crlf := rfl
  have hlength : text "Content-Length: " = contentLength ++ [0x20] := rfl
  have hend : text "\r\n" = crlf := rfl
  rw [buildHttpPostRequest, hpost, hversion, hhost, htype, hlength, hend, builtHeader, postLines,
    lengthLine]
  simp only [joinLines, List.flatMap_cons, List.flatMap_nil, List.append_nil,
    List.append_assoc, List.cons_append, List.nil_append]

/-- A text that begins with `POST `, a url and a space goes to `parseLength`. -/
theorem parseRequest_of_post {url : Bytes} (hurl : 0x20 ∉ url) (x : Bytes) : ∃ method url',
    http.parseRequest (text "POST" ++ 0x20 :: (url ++ 0x20 :: x))
      = parseLength { http with method := method, url := url' }
          (text "POST" ++ 0x20 :: (url ++ 0x20 :: x)) := by
  have hfirst : find (text "POST" ++ 0x20 :: (url ++ 0x20 :: x)) (text " ") 0 = some 4 :=
    find_letter (a := text "POST") (by decide) (url ++ 0x20 :: x)
  have hsecond : find (text "POST" ++ 0x20 :: (url ++ 0x20 :: x)) (text " ") 5
      = some (5 + url.length) := by
    have hright := find_append_right (text "POST ") (url ++ 0x20 :: x) (text " ") 0
    rw [show text " " = [0x20] from rfl, find_letter hurl x] at hright
    exact hright
  have hmethod : substr (text "POST" ++ 0x20 :: (url ++ 0x20 :: x)) 0 4 = text "POST" := rfl
  refine ⟨text "POST", substr (text "POST" ++ 0x20 :: (url ++ 0x20 :: x)) 5 (5 + url.length), ?_⟩
  rw [parseRequest, hfirst]
  dsimp only
  rw [hmethod, if_pos rfl, parsePostRequest, hfirst]
  dsimp only
  rw [hmethod, if_neg (not_not.2 rfl), show (4 + 1) % 2 ^ 32 = 5 from rfl, hsecond]

theorem readsPost_buildHttpPostRequest (hhost : Nameless host) (hurl : Nameless (path ++ name))
    (hlt : (buildHttpPostRequest body host path name).length < 2 ^ 31) :
    ReadsPost http body (buildHttpPostRequest body host path name) := by
  have hlines := builtLines_post hhost hurl
  have hparts : ∃ x, builtHeader (postLines host path name) [] body ++ body
      = text "POST" ++ 0x20 :: ((path ++ name) ++ 0x20 :: x) := by
    rw [builtHeader_append, postLines, joinLines_cons]
    simp only [List.append_assoc, List.cons_append]
    exact ⟨_, rfl⟩
  obtain ⟨x, hx⟩ := hparts
  obtain ⟨method, url, hread⟩ := parseRequest_of_post http hurl.plain.space x
  rw [buildHttpPostRequest_eq] at hlt ⊢
  rw [← hx, hlines.parseLength_eq _ rfl hlt] at hread
  exact ⟨hlines.checkRequest_eq http hlt, by rw [hread], by rw [hread]⟩

end Post

/-- **What is built with a body is read with that body**, whatever the body is. -/
theorem built_bodies_read (http : CHttp) (body : Bytes) :
    (http.responseStatus = 0 → (buildResponse body).length < 2 ^ 31 →
        ReadsResponse http body (buildResponse body))
      ∧ ∀ host path name, Nameless host → Nameless (path ++ name) →
        (buildHttpPostRequest body host path name).length < 2 ^ 31 →
          ReadsPost http body (buildHttpPostRequest body host path name) :=
  ⟨readsResponse_buildResponse http body, fun _ _ _ hhost hurl hlt =>
    readsPost_buildHttpPostRequest http hhost hurl hlt⟩

/-- A body that looks like a header, a blank line and a chunk. -/
theorem built_bodies_read_chunk :
    ReadsResponse {} (text "Content-Length: 7\r\n\r\n5\r\n")
        (buildResponse (text "Content-Length: 7\r\n\r\n5\r\n"))
      ∧ ReadsPost {} (text "Content-Length: 7\r\n\r\n5\r\n")
        (buildHttpPostRequest (text "Content-Length: 7\r\n\r\n5\r\n") (text "origin")
          (text "/live/") (text "a.flv")) := by
  have h := built_bodies_read {} (text "Content-Length: 7\r\n\r\n5\r\n")
  exact ⟨h.1 rfl (by decide +kernel), h.2 _ _ _
    ⟨⟨by decide, by decide, by decide⟩, by decide⟩
    ⟨⟨by decide, by decide, by decide⟩, by decide⟩ (by decide +kernel)⟩

end SmartStreaming
