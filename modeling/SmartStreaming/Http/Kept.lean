import SmartStreaming.Http.Framing
import SmartStreaming.Http.Response

/-!
# Http/Kept — what `parseHttpResponse` keeps of a text that begins with a header block

The framing is chosen by two texts that are searched up to the first NUL of the whole response.
Once it is chosen, one lemma for each framing says what is returned and what is kept.
-/

namespace SmartStreaming

open CHttp

/-! ## The framing that is used -/

/-- How `parseHttpResponse` finds the body. -/
inductive Framing
  /-- By `Content-Length: `. -/
  | length
  /-- By `Transfer-Encoding: chunked`. -/
  | chunked
  /-- Up to the end of the bytes. -/
  | rest
  deriving DecidableEq

def framingUsed (data : Bytes) : Framing :=
  if contains (cString data) (text "Content-Length: ") then .length
  else if contains (cString data) (text "Transfer-Encoding: chunked") then .chunked
  else .rest

section Parse

variable (http : CHttp) {data : Bytes}

theorem parseHttpResponse_of_length (h : framingUsed data = .length) :
    http.parseHttpResponse data
      = (http.getResponseStatus data).2.parseLengthResponse data := by
  unfold framingUsed at h
  unfold parseHttpResponse
  split at h
  · rename_i hl
    rw [if_pos hl]
  · split at h <;> cases h

theorem parseHttpResponse_of_chunked (h : framingUsed data = .chunked) :
    http.parseHttpResponse data
      = (http.getResponseStatus data).2.parseChunkedResponse data := by
  unfold framingUsed at h
  unfold parseHttpResponse
  split at h
  · cases h
  · rename_i hl
    split at h
    · rename_i hc
      rw [if_neg hl, if_pos hc]
    · cases h

theorem parseHttpResponse_of_rest (h : framingUsed data = .rest) :
    http.parseHttpResponse data
      = (http.getResponseStatus data).2.parseContinuous data := by
  unfold framingUsed at h
  unfold parseHttpResponse
  split at h
  · cases h
  · rename_i hl
    split at h
    · cases h
    · rename_i hc
      rw [if_neg hl, if_neg hc]

/-- The length of a response is read like that of a request. -/
theorem parseLengthResponse_of_announced {c : BitVec 32} (h : announced data = some c) :
    http.parseLengthResponse data = parseRest { http with contentLen := c } data := by
  obtain ⟨found, hfound, h⟩ := Option.bind_eq_some_iff.1 h
  obtain ⟨stop, hstop, rfl⟩ := Option.map_eq_some_iff.1 h
  unfold parseLengthResponse
  rw [hfound]
  dsimp only
  rw [hstop]
  rfl

end Parse

/-! ## The status line -/

/-- From position 1 on stands the second letter of the version, which is no number. -/
theorem scanHex_substr_version {data : Bytes} (h : text "HTTP/" <+: data) (n : ℕ) :
    scanHex (substr data 1 n) = none := by
  obtain ⟨x, rfl⟩ := h
  have hsecond : (text "HTTP/" ++ x).drop 1 = 0x54 :: (text "TP/" ++ x) := rfl
  rw [substr, hsecond]
  cases n with
  | zero => rfl
  | succ n =>
    rw [List.take_succ_cons]
    rfl

/-- The status line is read. -/
theorem getResponseStatus_ok (http : CHttp) (h : http.responseStatus = 0) (x : Bytes) :
    (http.getResponseStatus (text "HTTP/1.1 200 OK\r\n" ++ x)).2
      = { http with responseStatus := 200 } := by
  have hfirst : find (text "HTTP/1.1 200 OK\r\n" ++ x) (text " ") 0 = some 8 :=
    find_letter (a := text "HTTP/1.1") (by decide) (text "200 OK\r\n" ++ x)
  have hsecond : find (text "HTTP/1.1 200 OK\r\n" ++ x) (text " ") 9 = some 12 := by
    have hright := find_append_right (text "HTTP/1.1 ") (text "200 OK\r\n" ++ x) (text " ") 0
    have hletter : find (text "200 OK\r\n" ++ x) (text " ") 0 = some 3 :=
      find_letter (a := text "200") (by decide) (text "OK\r\n" ++ x)
    rw [hletter] at hright
    exact hright
  have hvalue : substr (text "HTTP/1.1 200 OK\r\n" ++ x) 9 (sizeDiff 12 9) = text "200" := rfl
  have hhttp : substr (text "HTTP/1.1 200 OK\r\n" ++ x) 0 4 = text "HTTP" := rfl
  have hnumber : (BitVec.ofInt 32 (atoll (text "200"))).toInt = 200 := by decide
  rw [getResponseStatus, if_neg (by omega), if_neg (not_not.2 hhttp), hfirst]
  dsimp only
  rw [show (8 + 1) % 2 ^ 32 = 9 from rfl, hsecond]
  dsimp only
  rw [hvalue, hnumber]

/-! ## Behind a header block -/

namespace IsHeader

variable {header : Bytes} (hheader : IsHeader header) {p : Bytes}
include hheader

/-- **A text that reaches over no line end stands in the header block or behind it.** -/
theorem contains_append (hp : InLine p) (x : Bytes) :
    contains (header ++ x) p = (contains header p || contains x p) := by
  obtain ⟨h, heq, -⟩ := hheader.exists_eq
  have hparts : ∀ y, header ++ y = h ++ (crlf ++ ([] ++ (crlf ++ y))) := by
    intro y
    rw [heq, List.append_assoc]
    rfl
  have hnil : find [] p 0 = none := by
    rw [find, if_pos (Nat.zero_le _), List.drop_zero, findFrom, if_neg hp.ne_nil]
  have hbehind : ∀ y, contains (header ++ y) p = (contains h p || contains y p) := by
    intro y
    rw [contains, hparts, find_line hp, find_line hp, hnil, Option.none_or, Option.isSome_or,
      Option.isSome_map, Option.isSome_map]
    rfl
  have hself := hbehind []
  have hempty : contains [] p = false := by rw [contains, hnil, Option.isSome_none]
  rw [List.append_nil, hempty, Bool.or_false] at hself
  rw [hbehind, hself]

/-- **The body takes part in the choice of the framing** up to its first NUL. -/
theorem framingUsed_append (hnul : 0 ∉ header) (x : Bytes) :
    framingUsed (header ++ x)
      = if contains header (text "Content-Length: ")
            || contains (cString x) (text "Content-Length: ") then .length
        else if contains header (text "Transfer-Encoding: chunked")
            || contains (cString x) (text "Transfer-Encoding: chunked") then .chunked
        else .rest := by
  have hl : InLine (text "Content-Length: ") := ⟨by decide, by decide, by decide⟩
  have hc : InLine (text "Transfer-Encoding: chunked") := ⟨by decide, by decide, by decide⟩
  rw [framingUsed, cString_append hnul, hheader.contains_append hl, hheader.contains_append hc]

/-- A header block by whose length a response is taken announces a length. -/
theorem exists_announced_of_length (hnul : 0 ∉ header) (h : framingUsed header = .length) :
    ∃ c, announced header = some c := by
  rw [framingUsed, cString_eq_self hnul] at h
  have hlong : contains header (text "Content-Length: ") = true := by
    by_contra hl
    rw [if_neg hl] at h
    split at h <;> cases h
  obtain ⟨j, hle, hj⟩ := contains_iff.1 hlong
  exact hheader.exists_announced (contains_iff.2 ⟨j, hle, List.IsPrefix.trans ⟨text " ", rfl⟩ hj⟩)

variable (http : CHttp) (x : Bytes)

theorem parseRest_eq :
    http.parseRest (header ++ x)
      = if (header ++ x).length < (bodyEnd header.length http.contentLen).toNat then (-1, http)
        else (0, { http with data := (header ++ x).drop (header.length % 2 ^ 32) }) := by
  have hle : 4 ≤ header.length := hheader.blankLine_le
  have hend : header.length - blankLine.length + 4 = header.length := Nat.sub_add_cancel hle
  rw [parseRest, hheader.find_blankLine x]
  dsimp only
  rw [hend]

theorem parseContinuous_eq :
    http.parseContinuous (header ++ x)
      = (0, { http with data := (header ++ x).drop (header.length % 2 ^ 32) }) := by
  have hle : 4 ≤ header.length := hheader.blankLine_le
  have hend : header.length - blankLine.length + 4 = header.length := Nat.sub_add_cancel hle
  rw [parseContinuous, hheader.find_blankLine x]
  dsimp only
  rw [hend]

/-- **The chunk that is read** stands behind the first line end from the blank line on; without a
line end it is taken to stand at position 1. -/
theorem parseChunkedResponse_eq {stop : Option ℕ} {c : BitVec 32}
    (hstop : find (header ++ x) crlf (header.length % 2 ^ 32) = stop)
    (hc : (scanHex (substr (header ++ x) (header.length % 2 ^ 32)
      (stop.elim (header ++ x).length (· - header.length % 2 ^ 32)))).getD http.contentLen = c) :
    http.parseChunkedResponse (header ++ x)
      = if (header ++ x).length < (bodyEnd (stop.elim 1 fun k => (k + 2) % 2 ^ 32) c).toNat then
          (-1, { http with contentLen := c })
        else (0, { http with
          contentLen := c
          data := substr (header ++ x) (stop.elim 1 fun k => (k + 2) % 2 ^ 32) c.toNat }) := by
  have hle : 4 ≤ header.length := hheader.blankLine_le
  have hend : header.length - blankLine.length + 4 = header.length := Nat.sub_add_cancel hle
  rw [parseChunkedResponse, hheader.find_blankLine x]
  dsimp only
  rw [hend, hstop, hc]

theorem parseBody_eq :
    http.parseBody (header ++ x)
      = if (header ++ x).length < (bodyEnd header.length http.contentLen).toNat then (-1, http)
        else (0, { http with
          data := substr (header ++ x) (header.length % 2 ^ 32) http.contentLen.toNat }) := by
  have hle : 4 ≤ header.length := hheader.blankLine_le
  have hend : header.length - blankLine.length + 4 = header.length := Nat.sub_add_cancel hle
  rw [parseBody, hheader.find_blankLine x]
  dsimp only
  rw [hend]

end IsHeader

end SmartStreaming
