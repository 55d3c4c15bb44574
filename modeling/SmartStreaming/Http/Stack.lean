import SmartStreaming.Base.StdString

/-!
# Http/Stack — `CHttp` of `http_stack.cpp`, the parts that requests go through

`checkRequest` tells whether a text holds a complete request, `parse_request` reads the fields of
one.  What is kept in an `unsigned int` is taken modulo `2^32`: the positions from which the next
search or the next cut begins.
-/

namespace SmartStreaming

/-- `class CHttp`; `is_transcode_` is not set before a `GET` is parsed. -/
structure CHttp where
  method : Bytes := []
  url : Bytes := []
  queryString : Bytes := []
  data : Bytes := []
  contentLen : BitVec 32 := 0
  name : Bytes := []
  folder : Bytes := []
  path : Bytes := []
  forwardedClientIp : Bytes := []
  requestHost : Bytes := []
  ext : Bytes := []
  isTranscode : Option Bool := none
  responseStatus : ℤ := 0
  deriving DecidableEq

namespace CHttp

def crlf : Bytes := [0x0d, 0x0a]
def blankLine : Bytes := [0x0d, 0x0a, 0x0d, 0x0a]
def contentLength : Bytes := text "Content-Length:"

/-! ## Is it complete? -/

/-- `start + content_len_` as `unsigned int`. -/
def bodyEnd (start : ℕ) (contentLen : BitVec 32) : BitVec 32 := BitVec.ofNat 32 start + contentLen

/-- What `checkHttpInputWithLength` decides once it knows the length. -/
def checkBody (http : CHttp) (data : Bytes) : ℤ × CHttp :=
  match find data blankLine 0 with
  | none => (0, http)
  | some found =>
    if (bodyEnd (found + blankLine.length) http.contentLen).toNat > data.length then (0, http)
    else ((bodyEnd (found + blankLine.length) http.contentLen).toInt, http)

def checkHttpInputWithLength (http : CHttp) (data : Bytes) : ℤ × CHttp :=
  match find data contentLength 0 with
  | none => (0, http)
  | some found =>
    let start := (found + contentLength.length) % 2 ^ 32
    match find data crlf start with
    | none => (0, http)
    | some found =>
      checkBody { http with contentLen := atoi (substr data start (sizeDiff found start)) } data

def checkHttpInputSimple (data : Bytes) : ℤ :=
  match find data blankLine 0 with
  | none => 0
  | some found => (BitVec.ofNat 32 (found + blankLine.length)).toInt

def checkRequest (http : CHttp) (data : Bytes) : ℤ × CHttp :=
  match find data contentLength 0 with
  | none => (checkHttpInputSimple data, http)
  | some _ => http.checkHttpInputWithLength data

def checkResponse (http : CHttp) (data : Bytes) : ℤ × CHttp :=
  match find data contentLength 0 with
  | none => (checkHttpInputSimple data, http)
  | some _ => http.checkHttpInputWithLength data

/-! ## What does it ask for? -/

/-- `data_`, the body behind the blank line. -/
def parseBody (http : CHttp) (data : Bytes) : ℤ × CHttp :=
  match find data blankLine 0 with
  | none => (-1, http)
  | some found =>
    if data.length < (bodyEnd (found + 4) http.contentLen).toNat then (-1, http)
    else (0, { http with data := substr data ((found + 4) % 2 ^ 32) http.contentLen.toNat })

/-- `content_len_`: the value ends at the first line end of the whole text. -/
def parseLength (http : CHttp) (data : Bytes) : ℤ × CHttp :=
  match find data contentLength 0 with
  | none => (-1, http)
  | some found =>
    let start := (found + contentLength.length) % 2 ^ 32
    match find data crlf 0 with
    | none => (-1, http)
    | some found =>
      parseBody { http with contentLen := atoi (substr data start (sizeDiff found start)) } data

def parsePostRequest (http : CHttp) (data : Bytes) : ℤ × CHttp :=
  match find data (text " ") 0 with
  | none => (-1, http)
  | some found =>
    let http := { http with method := substr data 0 found }
    if http.method ≠ text "POST" then (-1, http)
    else
      let start := (found + 1) % 2 ^ 32
      match find data (text " ") start with
      | none => (-1, http)
      | some last => parseLength { http with url := substr data start last } data

/-- `path_` and `query_string_`: from the first `/` to the first `?` or to ` HTTP`. -/
def parseTarget (http : CHttp) (data : Bytes) (pathFound httpFound : ℕ) : CHttp :=
  match find data (text "?") 0 with
  | none => { http with
      path := substr data pathFound (sizeDiff httpFound pathFound), queryString := [] }
  | some paramsFound => { http with
      path := substr data pathFound (sizeDiff paramsFound pathFound)
      queryString := substr data ((paramsFound + 1) % 2 ^ 32)
        (sizeDiff httpFound ((paramsFound + 1) % 2 ^ 32)) }

/-- `folder_` and `name_`: the path cut at its last `/`. -/
def parseName (http : CHttp) : CHttp :=
  match findLastOf http.path 0x2f with
  | none => { http with name := http.path, folder := [] }
  | some nameFound => { http with
      folder := substr http.path 1 (sizeDiff nameFound 1)
      name := http.path.drop (nameFound + 1) }

def parseExt (http : CHttp) : CHttp :=
  match findLastOf http.name 0x2e with
  | none => { http with ext := http.name }
  | some extFound => { http with ext := http.name.drop (extFound + 1) }

/-- The value of a header field, up to the end of its line. -/
def headerValue (data field : Bytes) : Option Bytes :=
  match find data field 0 with
  | none => none
  | some found =>
    let start := (found + field.length) % 2 ^ 32
    match find data crlf start with
    | none => none
    | some stop => some (substr data start (sizeDiff stop start))

def parseHeaders (http : CHttp) (data : Bytes) : CHttp :=
  { http with
    forwardedClientIp := (headerValue data (text "X-Forwarded-For: ")).getD http.forwardedClientIp
    requestHost := (headerValue data (text "Host: ")).getD http.requestHost
    isTranscode := some (contains data (text "X-Codec: ")) }

/-- The method of a `GET` request, which its caller may have set. -/
def parseGetMethod (http : CHttp) (data : Bytes) : CHttp :=
  if http.method = [] then { http with method := substr data 0 3 } else http

def parseGetRequest (http : CHttp) (data : Bytes) : ℤ × CHttp :=
  if contains data (text "crossdomain.xml") then (0, http)
  else if contains data (text "<policy-file-request/>") then (0, http)
  else
    match find data (text "/") 0 with
    | none => (-1, http)
    | some pathFound =>
      let http := http.parseGetMethod data
      if http.method ≠ text "GET" then (-1, http)
      else
        match find data (text " HTTP") 0 with
        | none => (-1, http)
        | some httpFound =>
          (0, (((http.parseTarget data pathFound httpFound).parseName).parseExt).parseHeaders data)

def parseRequest (http : CHttp) (data : Bytes) : ℤ × CHttp :=
  match find data (text " ") 0 with
  | none => (-1, http)
  | some found =>
    let http := { http with method := substr data 0 found }
    if http.method = text "POST" then http.parsePostRequest data
    else if http.method = text "GET" then http.parseGetRequest data
    else (-1, http)

example :
    ((CHttp.parseRequest {} (text "GET /live/a.flv?k=1 HTTP/1.1")).2.folder = text "live") := by
  decide

/-! ## What is left alone -/

variable (http : CHttp) (data : Bytes)

theorem checkBody_fst (c : BitVec 32) :
    (checkBody { http with contentLen := c } data).1 = (checkBody { contentLen := c } data).1 := by
  unfold checkBody
  split
  · rfl
  · split <;> rfl

theorem checkBody_snd : (http.checkBody data).2 = http := by
  unfold checkBody
  split
  · rfl
  · split <;> rfl

/-- The length that `content_len_` holds is overwritten before a check uses it. -/
theorem checkRequest_fst : (http.checkRequest data).1 = (checkRequest {} data).1 := by
  unfold checkRequest checkHttpInputWithLength
  split
  · rfl
  · split
    · rfl
    · dsimp only
      split
      · rfl
      · exact checkBody_fst _ _ _

/-- The two checks are one. -/
theorem checkResponse_eq : http.checkResponse data = http.checkRequest data := rfl

/-- **A check changes nothing but `content_len_`.** -/
theorem exists_checkRequest_snd :
    ∃ c, (http.checkRequest data).2 = { http with contentLen := c } := by
  unfold checkRequest checkHttpInputWithLength
  split
  · exact ⟨_, rfl⟩
  · split
    · exact ⟨_, rfl⟩
    · dsimp only
      split
      · exact ⟨_, rfl⟩
      · exact ⟨_, checkBody_snd _ _⟩

theorem exists_parseBody_snd : ∃ d, (http.parseBody data).2 = { http with data := d } := by
  unfold parseBody
  split
  · exact ⟨_, rfl⟩
  · split <;> exact ⟨_, rfl⟩

theorem exists_parseLength_snd :
    ∃ c d, (http.parseLength data).2 = { http with contentLen := c, data := d } := by
  unfold parseLength
  split
  · exact ⟨_, _, rfl⟩
  · dsimp only
    split
    · exact ⟨_, _, rfl⟩
    · exact ⟨_, exists_parseBody_snd _ _⟩

/-- A `POST` sets the method, the url, the length and the body. -/
theorem exists_parsePostRequest_snd : ∃ m u c d, (http.parsePostRequest data).2
    = { http with method := m, url := u, contentLen := c, data := d } := by
  unfold parsePostRequest
  split
  · exact ⟨_, _, _, _, rfl⟩
  · dsimp only
    split
    · exact ⟨_, _, _, _, rfl⟩
    · split
      · exact ⟨_, _, _, _, rfl⟩
      · exact ⟨_, _, exists_parseLength_snd _ _⟩

theorem parseTarget_contentLen (c : BitVec 32) (i j : ℕ) :
    parseTarget { http with contentLen := c } data i j
      = { http.parseTarget data i j with contentLen := c } := by
  unfold parseTarget
  split <;> rfl

theorem parseName_contentLen (c : BitVec 32) :
    parseName { http with contentLen := c } = { http.parseName with contentLen := c } := by
  unfold parseName
  dsimp only
  generalize findLastOf http.path 0x2f = found
  cases found <;> simp only

theorem parseExt_contentLen (c : BitVec 32) :
    parseExt { http with contentLen := c } = { http.parseExt with contentLen := c } := by
  unfold parseExt
  dsimp only
  generalize findLastOf http.name 0x2e = found
  cases found <;> simp only

theorem parseGetMethod_contentLen (c : BitVec 32) :
    parseGetMethod { http with contentLen := c } data
      = { http.parseGetMethod data with contentLen := c } := by
  unfold parseGetMethod
  dsimp only
  split <;> rfl

/-- A `GET` does not look at `content_len_`. -/
theorem parseGetRequest_contentLen (c : BitVec 32) :
    (parseGetRequest { http with contentLen := c } data).2
      = { (http.parseGetRequest data).2 with contentLen := c } := by
  unfold parseGetRequest
  split
  · rfl
  · split
    · rfl
    · split
      · rfl
      · dsimp only
        rw [parseGetMethod_contentLen]
        split
        · rfl
        · split
          · rfl
          · rw [parseTarget_contentLen, parseName_contentLen, parseExt_contentLen]
            rfl

end CHttp

end SmartStreaming
