import SmartStreaming.Http.Stack

/-!
# Http/Response — `CHttp` of `http_stack.cpp`, the parts that responses go through

The request that a client sends, the status line of a response, and what `parseHttpResponse` keeps
of it.
-/

namespace SmartStreaming

/-- `http_status_detail`; a status it does not hold is given an empty text. -/
def httpStatusDetail (status : ℤ) : Bytes :=
  if status = 200 then text "HTTP 200 OK" else if status = 404 then text "404 Not Found" else []

/-- `atoll(s)`. -/
def atoll (s : Bytes) : ℤ := strtol (cString s)

/-! ## Hexadecimal numbers -/

def isHexDigit (x : Byte) : Bool :=
  isDigit x ∨ (0x41 ≤ x ∧ x ≤ 0x46) ∨ (0x61 ≤ x ∧ x ≤ 0x66)

/-- The value of a hexadecimal digit. -/
def hexValue (x : Byte) : ℕ :=
  if isDigit x then x.toNat - 0x30 else if x ≤ 0x46 then x.toNat - 0x37 else x.toNat - 0x57

/-- Without the `0x` in front of a digit. -/
def dropHexPrefix : Bytes → Bytes
  | 0x30 :: x :: y :: s =>
    if (x = 0x78 ∨ x = 0x58) ∧ isHexDigit y then y :: s else 0x30 :: x :: y :: s
  | s => s

/-- `%x` behind white space and sign: nothing is stored where no digit stands. -/
def scanHexDigits (negative : Bool) (s : Bytes) : Option (BitVec 32) :=
  let digits := (dropHexPrefix s).takeWhile isHexDigit
  let value := digits.foldl (fun n x => 16 * n + hexValue x) 0
  if digits = [] then none
  else if value ≥ 2 ^ 64 then some (BitVec.allOnes 32)
  else some (if negative then -BitVec.ofNat 32 value else BitVec.ofNat 32 value)

/-- `sscanf(s, "%x", &value)`. -/
def scanHex (s : Bytes) : Option (BitVec 32) :=
  match (cString s).dropWhile isSpace with
  | 0x2d :: s => scanHexDigits true s
  | 0x2b :: s => scanHexDigits false s
  | s => scanHexDigits false s

namespace CHttp

/-! ## Requests -/

def buildHttpGetRequest (param host path name : Bytes) : Bytes :=
  text "GET /" ++ path ++ text "/" ++ name ++ (if param.length > 0 then text "?" ++ param else [])
    ++ text " HTTP/1.1\r\nUser-Agent: curl/7.15.1 (linux) OpenSSL/0.9.8a zlib/1.2.3 libidn/0.6.0"
    ++ (if host.length > 0 then text "\r\nHost: " ++ host else [])
    ++ text "\r\nAccept: */*\r\n\r\n"

def buildHttpPostRequest (reqData host path name : Bytes) : Bytes :=
  text "POST " ++ path ++ name ++ text " HTTP/1.1" ++ text "\r\nHost: " ++ host ++ text "\r\n"
    ++ text "Content-Type: text/plain\r\n"
    ++ (text "Content-Length: " ++ getStrFromUInt32 (BitVec.ofNat 32 reqData.length)
      ++ text "\r\n")
    ++ text "\r\n" ++ reqData

/-! ## Responses -/

def buildResponse (rspData : Bytes) : Bytes :=
  text "HTTP/1.1 200 OK\r\n" ++ text "Content-Type: text/plain\r\n"
    ++ (text "Content-Length: " ++ getStrFromUInt32 (BitVec.ofNat 32 rspData.length)
      ++ text "\r\n")
    ++ text "Connection: Keep-Alive\r\n" ++ text "\r\n" ++ rspData

/-- `get_response_status`: the number between the first two spaces, kept once it is positive. -/
def getResponseStatus (http : CHttp) (data : Bytes) : ℤ × CHttp :=
  if http.responseStatus > 0 then (http.responseStatus, http)
  else if substr data 0 4 ≠ text "HTTP" then (-1, http)
  else
    match find data (text " ") 0 with
    | none => (-1, http)
    | some found =>
      let start := (found + 1) % 2 ^ 32
      match find data (text " ") start with
      | none => (-1, http)
      | some last =>
        let status := (BitVec.ofInt 32 (atoll (substr data start (sizeDiff last start)))).toInt
        (status, { http with responseStatus := status })

/-- `data_` of a response with a length: the whole rest, once as much as announced is there. -/
def parseRest (http : CHttp) (data : Bytes) : ℤ × CHttp :=
  match find data blankLine 0 with
  | none => (-1, http)
  | some found =>
    if data.length < (bodyEnd (found + 4) http.contentLen).toNat then (-1, http)
    else (0, { http with data := data.drop ((found + 4) % 2 ^ 32) })

def parseLengthResponse (http : CHttp) (data : Bytes) : ℤ × CHttp :=
  match find data contentLength 0 with
  | none => (-1, http)
  | some found =>
    let start := (found + contentLength.length) % 2 ^ 32
    match find data crlf start with
    | none => (-1, http)
    | some found =>
      parseRest { http with
        contentLen := BitVec.ofInt 32 (atoll (substr data start (sizeDiff found start))) } data

/-- The first chunk of a chunked response; without a line end behind the blank line, the size is
what stands up to the end of the text, and the data is taken to begin at position 1. -/
def parseChunkedResponse (http : CHttp) (data : Bytes) : ℤ × CHttp :=
  match find data blankLine 0 with
  | none => (-1, http)
  | some found =>
    let start := (found + 4) % 2 ^ 32
    let stop := find data crlf start
    let http := { http with contentLen :=
      (scanHex (substr data start (stop.elim data.length (· - start)))).getD http.contentLen }
    let start := stop.elim 1 fun found => (found + 2) % 2 ^ 32
    if data.length < (bodyEnd start http.contentLen).toNat then (-1, http)
    else (0, { http with data := substr data start http.contentLen.toNat })

/-- A response that says nothing about its length. -/
def parseContinuous (http : CHttp) (data : Bytes) : ℤ × CHttp :=
  match find data blankLine 0 with
  | none => (-1, http)
  | some found => (0, { http with data := data.drop ((found + 4) % 2 ^ 32) })

def parseHttpResponse (http : CHttp) (data : Bytes) : ℤ × CHttp :=
  let http := (http.getResponseStatus data).2
  if contains (cString data) (text "Content-Length: ") then http.parseLengthResponse data
  else if contains (cString data) (text "Transfer-Encoding: chunked") then
    http.parseChunkedResponse data
  else
    http.parseContinuous data

example : (getResponseStatus {} (text "HTTP/1.1 404 Not Found\r\n\r\n")).1 = 404 := by decide

/-! ## What decides the status -/

variable (http : CHttp) (data : Bytes)

theorem parseRest_responseStatus :
    (http.parseRest data).2.responseStatus = http.responseStatus := by
  unfold parseRest
  split
  · rfl
  · split <;> rfl

theorem parseLengthResponse_responseStatus :
    (http.parseLengthResponse data).2.responseStatus = http.responseStatus := by
  unfold parseLengthResponse
  split
  · rfl
  · dsimp only
    split
    · rfl
    · rw [parseRest_responseStatus]

theorem parseChunkedResponse_responseStatus :
    (http.parseChunkedResponse data).2.responseStatus = http.responseStatus := by
  unfold parseChunkedResponse
  split
  · rfl
  · dsimp only
    split <;> rfl

theorem parseContinuous_responseStatus :
    (http.parseContinuous data).2.responseStatus = http.responseStatus := by
  unfold parseContinuous
  split <;> rfl

/-- The body of a response leaves the status alone. -/
theorem parseHttpResponse_responseStatus :
    (http.parseHttpResponse data).2.responseStatus
      = (http.getResponseStatus data).2.responseStatus := by
  unfold parseHttpResponse
  dsimp only
  split
  · exact parseLengthResponse_responseStatus _ _
  · split
    · exact parseChunkedResponse_responseStatus _ _
    · exact parseContinuous_responseStatus _ _

/-- Before a status has been found, only the text decides it. -/
theorem getResponseStatus_fst (h : http.responseStatus ≤ 0) :
    (http.getResponseStatus data).1 = (getResponseStatus {} data).1 := by
  have hfresh : ¬ ({} : CHttp).responseStatus > 0 := by decide
  unfold getResponseStatus
  rw [if_neg (not_lt.2 h), if_neg hfresh]
  split
  · rfl
  · split
    · rfl
    · dsimp only
      split <;> rfl

/-- What is kept as the status. -/
theorem getResponseStatus_snd (h : http.responseStatus ≤ 0) :
    (http.getResponseStatus data).2.responseStatus = (http.getResponseStatus data).1
      ∨ (http.getResponseStatus data).2.responseStatus = http.responseStatus
        ∧ (http.getResponseStatus data).1 = -1 := by
  unfold getResponseStatus
  rw [if_neg (not_lt.2 h)]
  split
  · exact Or.inr ⟨rfl, rfl⟩
  · split
    · exact Or.inr ⟨rfl, rfl⟩
    · dsimp only
      split
      · exact Or.inr ⟨rfl, rfl⟩
      · exact Or.inl rfl

/-- The status line sets nothing else. -/
theorem exists_getResponseStatus_snd :
    ∃ s, (http.getResponseStatus data).2 = { http with responseStatus := s } := by
  unfold getResponseStatus
  split
  · exact ⟨_, rfl⟩
  · split
    · exact ⟨_, rfl⟩
    · split
      · exact ⟨_, rfl⟩
      · dsimp only
        split
        · exact ⟨_, rfl⟩
        · exact ⟨_, rfl⟩

/-- **The status of a response that has been parsed is the one in its text.** -/
theorem getResponseStatus_parseHttpResponse (h : http.responseStatus ≤ 0) :
    ((http.parseHttpResponse data).2.getResponseStatus data).1
      = (getResponseStatus {} data).1 := by
  have hkept := parseHttpResponse_responseStatus http data
  have hfst := getResponseStatus_fst http data h
  obtain hsnd | ⟨hsnd, hnone⟩ := getResponseStatus_snd http data h
  · rw [hsnd, hfst] at hkept
    obtain hpos | hle := lt_or_ge 0 (getResponseStatus {} data).1
    · rw [getResponseStatus, if_pos (by rw [hkept]; exact hpos), hkept]
    · exact getResponseStatus_fst _ data (by rw [hkept]; exact hle)
  · exact getResponseStatus_fst _ data (by rw [hkept, hsnd]; exact h)

end CHttp

end SmartStreaming
