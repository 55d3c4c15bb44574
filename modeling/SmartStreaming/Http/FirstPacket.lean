import SmartStreaming.Http.Client
import SmartStreaming.Http.Kept

/-!
# Http/FirstPacket — the response that `HttpClient::request` reads

The response is read into a buffer of 1024 bytes until it is complete, its body included where its
length is known, and what has been read is parsed.  `body_delivered_iff` says for which responses
the demux is given the whole body, in part by `on_ingest` and in part by the connection.
-/

namespace SmartStreaming

open CHttp

/-! ## Responses -/

/-- The header block holds no `Content-Length`, or one that gives the length of the body. -/
inductive Sized (header body : Bytes) : Prop
  | unsized (lengths : contentLengths header = [])
  | sized {value : Bytes} (lengths : contentLengths header = [value]) (ne_nil : value ≠ [])
      (digits : value.all isDigit = true) (eq : body.length = digitsValue value)

/-- The response of an origin: a header block with the status 200, of no more than 1000 bytes, up to
its first blank line, and a body. -/
structure OriginResponse where
  header : Bytes
  body : Bytes
  status : text "HTTP/1.1 200 OK\r\n" <+: header
  nul : 0 ∉ header
  isHeader : IsHeader header
  length_le : header.length ≤ 1000
  sized : Sized header body
  body_lt : body.length < 2 ^ 31

namespace OriginResponse

variable (m : OriginResponse)

/-- The response as it is received. -/
def bytes : Bytes := m.header ++ m.body

/-- **Where the response is taken to be complete**: behind the header block where no length is
announced, else where as much is there in front of the first NUL as is announced. -/
def stop : Option ℕ :=
  match announced m.header with
  | none => some m.header.length
  | some c =>
    if 0 < (bodyEnd m.header.length c).toNat ∧ (bodyEnd m.header.length c).toNat ≤ 1023
        ∧ (bodyEnd m.header.length c).toNat ≤ m.header.length + (cString m.body).length then
      some (max m.header.length (bodyEnd m.header.length c).toNat)
    else none

/-- **How far the response is read**: until it is taken to be complete, or up to its end, where it
fits the buffer and the connection is closed and not broken. -/
inductive ReadTo (closed : ℤ) : ℕ → Prop
  | stops {k : ℕ} (h : m.stop = some k) : ReadTo closed k
  | ends (h : m.stop = none) (fits : m.bytes.length ≤ 1023) (eof : closed = 0) :
      ReadTo closed m.bytes.length

/-- **What has been read is parsed right**: it is taken up to its end; or by its length, which has
been read or of whose body nothing has been read; or as a chunk without a line end, for which the
bytes from position 1 on are taken, and they happen to be the body. -/
inductive KeptAs (k : ℕ) : Prop
  | rest (used : framingUsed (m.bytes.take k) = .rest)
  | length {c : BitVec 32} (used : framingUsed (m.bytes.take k) = .length)
      (ann : announced m.header = some c)
      (enough : (bodyEnd m.header.length c).toNat ≤ k ∨ k = m.header.length)
  | stray {c : BitVec 32} (used : framingUsed (m.bytes.take k) = .chunked)
      (ann : announced m.header = some c)
      (line : find (m.bytes.take k) crlf m.header.length = none)
      (eq : (if k < (bodyEnd 1 c).toNat then [] else substr (m.bytes.take k) 1 c.toNat)
        = m.body.take (k - m.header.length))

/-! ## How far it is read -/

section Scan

variable {j k : ℕ} {c : BitVec 32} {source : Source} (unset : BitVec 32)

theorem length_bytes : m.bytes.length = m.header.length + m.body.length := List.length_append

theorem checked_short (hj : j ≤ m.header.length) : checked m.bytes j = m.header.take j := by
  rw [checked, cString_take, bytes, cString_append m.nul, List.take_append_of_le_length hj]

theorem checked_long (hj : m.header.length ≤ j) :
    checked m.bytes j = m.header ++ (cString m.body).take (j - m.header.length) := by
  rw [checked, cString_take, bytes, cString_append m.nul, List.take_append,
    List.take_of_length_le hj]

/-- The header block is not complete without its blank line. -/
theorem not_completeAt_short (hj : j < m.header.length) : ¬ CompleteAt m.bytes j := by
  have hlen : (m.header.take j).length < m.header.length := by
    rw [List.length_take]
    omega
  rw [CompleteAt, m.checked_short hj.le,
    m.isHeader.checkRequest_short {} (List.take_prefix _ _) hlen]
  exact lt_irrefl _

/-- Without a length the header block is all. -/
theorem completeAt_header (ann : announced m.header = none) :
    CompleteAt m.bytes m.header.length := by
  have hno : contains m.header contentLength = false := by
    by_contra hc
    obtain ⟨c, hsome⟩ := m.isHeader.exists_announced (Bool.eq_true_of_not_eq_false hc)
    rw [ann] at hsome
    cases hsome
  have hle := m.length_le
  have hfour : 4 ≤ m.header.length := m.isHeader.blankLine_le
  have hvalue := m.isHeader.checkRequest_eq_of_not_contains {} (x := [])
    (by rwa [List.append_nil]) (by omega)
  rw [List.append_nil] at hvalue
  rw [CompleteAt, m.checked_short (le_refl _), List.take_length, hvalue]
  omega

/-- With one, the body is waited for, up to the first NUL. -/
theorem completeAt_iff (ann : announced m.header = some c) (hj : m.header.length ≤ j)
    (hroom : j ≤ 1023) :
    CompleteAt m.bytes j ↔ 0 < (bodyEnd m.header.length c).toNat
      ∧ (bodyEnd m.header.length c).toNat
        ≤ m.header.length + min (j - m.header.length) (cString m.body).length := by
  rw [CompleteAt, m.checked_long hj,
    m.isHeader.checkRequest_of_announced {} (announced_append ann _), List.length_append,
    List.length_take]
  split
  · rename_i hgt
    exact iff_of_false (lt_irrefl _) fun h => absurd h.2 (not_le.2 hgt)
  · rename_i hle
    rw [BitVec.toInt_eq_toNat_cond, if_pos (by omega)]
    omega

theorem length_cString_le : (cString m.body).length ≤ m.body.length :=
  (List.takeWhile_prefix _).length_le

/-- **The text is complete first where `stop` says.** -/
theorem completeAt_stop (h : m.stop = some k) : m.header.length ≤ k ∧ k ≤ m.bytes.length
    ∧ k ≤ 1023 ∧ CompleteAt m.bytes k ∧ ∀ i < k, ¬ CompleteAt m.bytes i := by
  have hle := m.length_le
  have hlength := m.length_bytes
  have hnul := m.length_cString_le
  unfold stop at h
  split at h
  · rename_i ann
    obtain rfl := Option.some.inj h
    exact ⟨le_refl _, by omega, by omega, m.completeAt_header ann,
      fun i hi => m.not_completeAt_short hi⟩
  · rename_i c ann
    split at h
    · rename_i hstop
      obtain rfl := Option.some.inj h
      refine ⟨le_max_left _ _, by omega, by omega, ?_, fun i hi hcomplete => ?_⟩
      · rw [m.completeAt_iff ann (le_max_left _ _) (by omega)]
        omega
      · rcases Nat.lt_or_ge i m.header.length with hshort | hlong
        · exact m.not_completeAt_short hshort hcomplete
        · rw [m.completeAt_iff ann hlong (by omega)] at hcomplete
          omega
    · cases h

theorem not_completeAt_of_stop_eq_none (h : m.stop = none) {i : ℕ} (hi : i ≤ 1023) :
    ¬ CompleteAt m.bytes i := by
  unfold stop at h
  split at h
  · cases h
  · rename_i c ann
    split at h
    · cases h
    · rename_i hno
      intro hcomplete
      rcases Nat.lt_or_ge i m.header.length with hshort | hlong
      · exact m.not_completeAt_short hshort hcomplete
      · rw [m.completeAt_iff ann hlong hi] at hcomplete
        omega

/-- Before the body the check has come upon the length in the header block. -/
theorem heldAt_of_announced (ann : announced m.header = some c) (hk : m.header.length ≤ k) :
    heldAt unset m.bytes k = { contentLen := c } := by
  rw [heldAt, m.checked_long hk, announced_append ann, Option.getD_some]

theorem heldAt_of_not_announced (ann : announced m.header = none) :
    heldAt unset m.bytes m.header.length = { contentLen := unset } := by
  rw [heldAt, m.checked_short (le_refl _), List.take_length, ann, Option.getD_none]

/-- What has been read once the text is complete. -/
theorem readResponse_of_stop (h : m.stop = some k) (hsource : source.pieces.flatten = m.bytes) :
    ∃ source' : Source, source'.pieces.flatten = m.bytes.drop k
      ∧ readResponse 1024 [] { contentLen := unset } source
        = .ok ⟨1, m.bytes.take k, heldAt unset m.bytes k, source'⟩ := by
  obtain ⟨hheader, hk, hroom, hyes, hno⟩ := m.completeAt_stop h
  have hfour : 4 ≤ m.header.length := m.isHeader.blankLine_le
  have hread := readResponse_stops (n := 1024) unset (show 0 < k by omega) hk hroom
    (fun i _ hi => hno i hi) hyes rfl hsource
  rwa [List.take_zero, heldAt_zero] at hread

/-- What has been read at the end of the response. -/
theorem readResponse_of_end (h : m.stop = none) (fits : m.bytes.length ≤ 1023)
    (hsource : source.pieces.flatten = m.bytes) :
    ∃ source' : Source, source'.pieces.flatten = []
      ∧ readResponse 1024 [] { contentLen := unset } source
        = .ok ⟨source.closed, m.bytes, heldAt unset m.bytes m.bytes.length, source'⟩ := by
  have hread := readResponse_ends (n := 1024) unset (Nat.zero_le _) fits
    (fun i _ hi => m.not_completeAt_of_stop_eq_none h (by omega)) rfl hsource
  rwa [List.take_zero, heldAt_zero] at hread

/-- A response that is not complete in time does not fit the buffer. -/
theorem readResponse_of_overflow (h : m.stop = none) (long : 1024 ≤ m.bytes.length)
    (hsource : source.pieces.flatten = m.bytes) :
    readResponse 1024 [] { contentLen := unset } source = .error errorSocketRead := by
  have hread := readResponse_overflows (n := 1024) unset (Nat.zero_le _) long
    (fun i _ hi => m.not_completeAt_of_stop_eq_none h hi) rfl hsource
  rwa [List.take_zero, heldAt_zero] at hread

end Scan

/-! ## What is kept of it -/

section Kept

variable {k : ℕ} {c : BitVec 32}

theorem take_bytes (hk : m.header.length ≤ k) :
    m.bytes.take k = m.header ++ m.body.take (k - m.header.length) := by
  rw [bytes, List.take_append, List.take_of_length_le hk]

theorem length_take_bytes (hk : m.header.length ≤ k) (hfits : k ≤ m.bytes.length) :
    (m.header ++ m.body.take (k - m.header.length)).length = k := by
  rw [← m.take_bytes hk, List.length_take, Nat.min_eq_left hfits]

theorem drop_header (x : Bytes) :
    (m.header ++ x).drop (m.header.length % 2 ^ 32) = x := by
  have hle := m.length_le
  rw [Nat.mod_eq_of_lt (by omega), List.drop_left]

/-- Up to its end. -/
theorem data_of_rest (http : CHttp) (hk : m.header.length ≤ k)
    (used : framingUsed (m.bytes.take k) = .rest) :
    (http.parseHttpResponse (m.bytes.take k)).2.data = m.body.take (k - m.header.length) := by
  rw [parseHttpResponse_of_rest http used, m.take_bytes hk, m.isHeader.parseContinuous_eq]
  exact m.drop_header _

/-- By its length: all of it, or nothing. -/
theorem data_of_length (c₀ : BitVec 32) (hk : m.header.length ≤ k) (hfits : k ≤ m.bytes.length)
    (used : framingUsed (m.bytes.take k) = .length) (ann : announced m.header = some c) :
    (parseHttpResponse { contentLen := c₀ } (m.bytes.take k)).2.data
      = if k < (bodyEnd m.header.length c).toNat then []
        else m.body.take (k - m.header.length) := by
  obtain ⟨status, hstatus⟩ := exists_getResponseStatus_snd { contentLen := c₀ } (m.bytes.take k)
  rw [parseHttpResponse_of_length _ used, hstatus, m.take_bytes hk,
    parseLengthResponse_of_announced _ (announced_append ann _), m.isHeader.parseRest_eq,
    m.length_take_bytes hk hfits]
  split
  · rfl
  · exact m.drop_header _

/-- What is read from position 1 on is no number. -/
theorem scanHex_of_version {x y : Bytes} {p : Prop} [Decidable p] {n : ℕ}
    (h : (if p then [] else substr (m.header ++ y) 1 n) = x) : scanHex x = none := by
  split at h
  · rw [← h]
    rfl
  · have hversion : text "HTTP/" <+: text "HTTP/1.1 200 OK\r\n" := ⟨_, rfl⟩
    rw [← h]
    exact scanHex_substr_version (hversion.trans (m.status.trans (List.prefix_append _ _))) n

section Chunk

variable {m} {http : CHttp} {x : Bytes} (hfresh : http.data = [])

include hfresh

/-- Behind a line end less is read than follows the header block. -/
theorem data_ne_of_line {stop : ℕ} (hroom : (m.header ++ x).length < 2 ^ 31)
    (hstop : find (m.header ++ x) crlf m.header.length = some stop) :
    (http.parseChunkedResponse (m.header ++ x)).2.data ≠ x := by
  have hle := m.length_le
  have hmod : m.header.length % 2 ^ 32 = m.header.length := Nat.mod_eq_of_lt (by omega)
  have hafter := (find_eq_some_iff.1 hstop).1
  have hend : stop + 2 ≤ (m.header ++ x).length := find_add_length_le hstop
  have hlength : (m.header ++ x).length = m.header.length + x.length := List.length_append
  rw [m.isHeader.parseChunkedResponse_eq http x (by rw [hmod, hstop]) rfl]
  intro hdata
  split at hdata
  · have hnil : x.length = 0 := congrArg List.length (hdata.symm.trans hfresh)
    omega
  · have hcut := congrArg List.length hdata
    rw [Option.elim_some, substr, List.length_take, List.length_drop,
      Nat.mod_eq_of_lt (show stop + 2 < 2 ^ 32 by omega)] at hcut
    omega

/-- Without one, what stands from position 1 on is read. -/
theorem data_of_no_line (hstop : find (m.header ++ x) crlf m.header.length = none)
    (hc : (scanHex x).getD http.contentLen = c) :
    (http.parseChunkedResponse (m.header ++ x)).2.data
      = if (m.header ++ x).length < (bodyEnd 1 c).toNat then []
        else substr (m.header ++ x) 1 c.toNat := by
  have hle := m.length_le
  have hmod : m.header.length % 2 ^ 32 = m.header.length := Nat.mod_eq_of_lt (by omega)
  have hlength : (m.header ++ x).length = m.header.length + x.length := List.length_append
  have hline : substr (m.header ++ x) (m.header.length % 2 ^ 32) (m.header ++ x).length = x := by
    rw [hmod, substr, List.drop_left, List.take_of_length_le (by omega)]
  have hsize : (scanHex (substr (m.header ++ x) (m.header.length % 2 ^ 32)
      ((none : Option ℕ).elim (m.header ++ x).length
        (· - m.header.length % 2 ^ 32)))).getD http.contentLen = c := by
    rw [Option.elim_none, hline, hc]
  rw [m.isHeader.parseChunkedResponse_eq http x (hmod.symm ▸ hstop) hsize, Option.elim_none]
  split
  · exact hfresh
  · rfl

end Chunk

/-- **As a chunk**: that is the rest of what has been read only where no line end follows the header
block. -/
theorem data_of_chunked_iff (c : BitVec 32) (hk : m.header.length ≤ k) (hfits : k ≤ m.bytes.length)
    (hroom : k < 2 ^ 31) (used : framingUsed (m.bytes.take k) = .chunked) :
    (parseHttpResponse { contentLen := c } (m.bytes.take k)).2.data
        = m.body.take (k - m.header.length)
      ↔ find (m.bytes.take k) crlf m.header.length = none
        ∧ (if k < (bodyEnd 1 c).toNat then [] else substr (m.bytes.take k) 1 c.toNat)
          = m.body.take (k - m.header.length) := by
  obtain ⟨status, hstatus⟩ := exists_getResponseStatus_snd { contentLen := c } (m.bytes.take k)
  have hlength := m.length_take_bytes hk hfits
  rw [parseHttpResponse_of_chunked _ used, hstatus, m.take_bytes hk]
  rw [← hlength] at hroom
  cases hstop : find (m.header ++ m.body.take (k - m.header.length)) crlf m.header.length with
  | some stop =>
    exact iff_of_false (data_ne_of_line rfl hroom hstop) fun h => Option.some_ne_none _ h.1
  | none =>
    rw [and_iff_right rfl]
    cases hscan : scanHex (m.body.take (k - m.header.length)) with
    | none =>
      rw [data_of_no_line (c := c) rfl hstop (by rw [hscan, Option.getD_none]), hlength]
    | some c' =>
      rw [data_of_no_line (c := c') rfl hstop (by rw [hscan, Option.getD_some])]
      refine iff_of_false (fun h => ?_) fun h => ?_
      · cases hscan.symm.trans (m.scanHex_of_version h)
      · cases hscan.symm.trans (m.scanHex_of_version h)

/-- The status is 200, and what has been kept goes to the demux. -/
theorem onResponse_ok (sent : Bytes) {n : ℤ} (hn : 0 ≤ n) (hk : m.header.length ≤ k)
    {http : CHttp} (hfresh : http.responseStatus = 0) (source : Source) :
    onResponse sent ⟨n, m.bytes.take k, http, source⟩
      = { code := errorSuccess, sent
          ingested := some ((http.parseHttpResponse (m.bytes.take k)).2.contentLen,
            (http.parseHttpResponse (m.bytes.take k)).2.data)
          unread := source.pieces } := by
  obtain ⟨z, hz⟩ := m.status
  have hparts : m.bytes.take k
      = text "HTTP/1.1 200 OK\r\n" ++ (z ++ m.body.take (k - m.header.length)) := by
    rw [m.take_bytes hk, ← hz, List.append_assoc]
  have hne : m.bytes.take k ≠ [] := by
    rw [hparts]
    exact List.append_ne_nil_of_left_ne_nil (by decide) _
  have hstatus : (http.parseHttpResponse (m.bytes.take k)).2.responseStatus = 200 := by
    rw [parseHttpResponse_responseStatus, hparts, getResponseStatus_ok http hfresh]
  have hagain : (http.parseHttpResponse (m.bytes.take k)).2.getResponseStatus (m.bytes.take k)
      = (200, (http.parseHttpResponse (m.bytes.take k)).2) := by
    rw [getResponseStatus, if_pos (by rw [hstatus]; decide), hstatus]
  rw [onResponse]
  dsimp only
  rw [if_neg (not_lt.2 hn), if_neg fun h => hne h.2, hagain]
  exact if_neg (not_not.2 rfl)

/-- The demux is given the body where the first part of it is kept. -/
theorem pulled_iff (sent : Bytes) {n : ℤ} (hn : 0 ≤ n) (hk : m.header.length ≤ k)
    {http : CHttp} (hfresh : http.responseStatus = 0) {source : Source}
    (hsource : source.pieces.flatten = m.bytes.drop k) :
    Pulled [m.body] (onResponse sent ⟨n, m.bytes.take k, http, source⟩)
      ↔ (http.parseHttpResponse (m.bytes.take k)).2.data = m.body.take (k - m.header.length) := by
  have hdrop : m.bytes.drop k = m.body.drop (k - m.header.length) := by
    rw [bytes, List.drop_append, List.drop_eq_nil_of_le hk, List.nil_append]
  have hbody : [m.body].flatten = m.body.take (k - m.header.length)
      ++ m.body.drop (k - m.header.length) := by
    rw [List.flatten_singleton, List.take_append_drop]
  rw [m.onResponse_ok sent hn hk hfresh source]
  constructor
  · rintro ⟨-, len, header, hingested, hsplit⟩
    obtain ⟨-, rfl⟩ := Prod.mk.inj (Option.some.inj hingested)
    rw [hsource, hdrop, hbody] at hsplit
    exact List.append_cancel_right hsplit
  · intro hdata
    refine ⟨rfl, _, _, rfl, ?_⟩
    rw [hdata, hsource, hdrop, hbody]

/-- Where no length is announced, the header block alone has been read. -/
theorem kept_iff_of_not_announced (ann : announced m.header = none) :
    (∀ unset, ((heldAt unset m.bytes m.header.length).parseHttpResponse
        (m.bytes.take m.header.length)).2.data = []) ↔ m.KeptAs m.header.length := by
  have hle := m.length_le
  have hfour : 4 ≤ m.header.length := m.isHeader.blankLine_le
  have hfits : m.header.length ≤ m.bytes.length := by
    rw [m.length_bytes]
    exact Nat.le_add_right _ _
  have hall : m.bytes.take m.header.length = m.header := by
    rw [bytes, List.take_left]
  constructor
  · intro hdata
    cases hused : framingUsed (m.bytes.take m.header.length) with
    | rest => exact .rest hused
    | length =>
      rw [hall] at hused
      obtain ⟨c, hsome⟩ := m.isHeader.exists_announced_of_length m.nul hused
      cases ann.symm.trans hsome
    | chunked =>
      -- with a length of one, the second letter of the status line is kept
      have hone := hdata 1
      have hread := m.data_of_chunked_iff 1 (le_refl _) hfits (by omega) hused
      rw [Nat.sub_self, List.take_zero] at hread
      rw [m.heldAt_of_not_announced _ ann, hread, hall,
        show (bodyEnd 1 (1 : BitVec 32)).toNat = 2 from rfl, if_neg (by omega)] at hone
      have hlength := congrArg List.length hone.2
      rw [substr, List.length_take, List.length_drop, List.length_nil,
        show (1 : BitVec 32).toNat = 1 from rfl] at hlength
      omega
  · intro hkept unset
    cases hkept with
    | rest used =>
      have hread := m.data_of_rest (heldAt unset m.bytes m.header.length) (le_refl _) used
      rwa [Nat.sub_self, List.take_zero] at hread
    | length _ ann' => cases ann.symm.trans ann'
    | stray _ ann' => cases ann.symm.trans ann'

/-- Where one is, it is known to the parser. -/
theorem kept_iff_of_announced (ann : announced m.header = some c) (hk : m.header.length ≤ k)
    (hfits : k ≤ m.bytes.length) (hroom : k ≤ 1023) :
    (parseHttpResponse { contentLen := c } (m.bytes.take k)).2.data
        = m.body.take (k - m.header.length) ↔ m.KeptAs k := by
  have hx : (m.body.take (k - m.header.length)).length = k - m.header.length := by
    have hlength := m.length_bytes
    rw [List.length_take]
    omega
  constructor
  · intro hread
    cases hused : framingUsed (m.bytes.take k) with
    | rest => exact .rest hused
    | length =>
      rw [m.data_of_length c hk hfits hused ann] at hread
      refine .length hused ann ?_
      split at hread
      · rw [← hread, List.length_nil] at hx
        omega
      · omega
    | chunked =>
      obtain ⟨line, eq⟩ := (m.data_of_chunked_iff c hk hfits (by omega) hused).1 hread
      exact .stray hused ann line eq
  · intro hkept
    cases hkept with
    | rest used => exact m.data_of_rest _ hk used
    | @length c' used ann' enough =>
      obtain rfl := Option.some.inj (ann.symm.trans ann')
      rw [m.data_of_length c hk hfits used ann]
      split
      · refine (List.eq_nil_of_length_eq_zero ?_).symm
        omega
      · rfl
    | @stray c' used ann' line eq =>
      obtain rfl := Option.some.inj (ann.symm.trans ann')
      exact (m.data_of_chunked_iff c hk hfits (by omega) used).2 ⟨line, eq⟩

/-- **What has been read is parsed right** where `KeptAs` says. -/
theorem kept_iff (hk : m.header.length ≤ k) (hfits : k ≤ m.bytes.length) (hroom : k ≤ 1023)
    (hheader : announced m.header = none → k = m.header.length) :
    (∀ unset, ((heldAt unset m.bytes k).parseHttpResponse (m.bytes.take k)).2.data
        = m.body.take (k - m.header.length)) ↔ m.KeptAs k := by
  cases ann : announced m.header with
  | none =>
    obtain rfl := hheader ann
    rw [Nat.sub_self, List.take_zero]
    exact m.kept_iff_of_not_announced ann
  | some c =>
    rw [← m.kept_iff_of_announced ann hk hfits hroom]
    simp only [m.heldAt_of_announced _ ann hk, forall_const]

end Kept

/-! ## The whole call -/

section Request

variable {k : ℕ} {source : Source} {write : Bytes → ℤ}
  {originHost originPath stream param : Bytes}

theorem eq_header_of_stop (h : m.stop = some k) (ann : announced m.header = none) :
    k = m.header.length := by
  rw [stop, ann] at h
  exact (Option.some.inj h).symm

theorem not_announced_of_stop_eq_none (h : m.stop = none) : announced m.header ≠ none := by
  intro ann
  rw [stop, ann] at h
  cases h

/-- A response that is complete in time. -/
theorem pulled_of_stop
    (hwrite : ¬ write (buildHttpGetRequest param originHost originPath stream) < 0)
    (hsource : source.pieces.flatten = m.bytes) (h : m.stop = some k) :
    (∀ unset, Pulled [m.body] (request unset write originHost originPath stream param source))
      ↔ m.KeptAs k := by
  obtain ⟨hk, hfits, hroom, -⟩ := m.completeAt_stop h
  rw [← m.kept_iff hk hfits hroom fun ann => m.eq_header_of_stop h ann]
  refine forall_congr' fun unset => ?_
  obtain ⟨source', hrest, hread⟩ := m.readResponse_of_stop unset h hsource
  rw [request, if_neg hwrite, hread]
  exact m.pulled_iff _ (by decide) hk rfl hrest

/-- One that is read to its end. -/
theorem pulled_of_end
    (hwrite : ¬ write (buildHttpGetRequest param originHost originPath stream) < 0)
    (hsource : source.pieces.flatten = m.bytes) (h : m.stop = none) (fits : m.bytes.length ≤ 1023) :
    (∀ unset, Pulled [m.body] (request unset write originHost originPath stream param source))
      ↔ source.closed = 0 ∧ m.KeptAs m.bytes.length := by
  have hlength := m.length_bytes
  have hall : m.bytes.take m.bytes.length = m.bytes := List.take_length
  rcases lt_or_eq_of_le source.closed_le with hbroken | heof
  · refine iff_of_false (fun hpulled => ?_) fun hkept => absurd hkept.1 (ne_of_lt hbroken)
    obtain ⟨source', -, hread⟩ := m.readResponse_of_end 0 h fits hsource
    have hcode := (hpulled 0).code_eq
    rw [request, if_neg hwrite, hread] at hcode
    dsimp only at hcode
    rw [onResponse, if_pos hbroken] at hcode
    exact absurd hcode (show errorSocketRead ≠ errorSuccess by decide)
  · rw [and_iff_right heof, ← m.kept_iff (by omega) (le_refl _) fits fun ann =>
      absurd ann (m.not_announced_of_stop_eq_none h)]
    refine forall_congr' fun unset => ?_
    obtain ⟨source', hrest, hread⟩ := m.readResponse_of_end unset h fits hsource
    rw [← List.drop_length (l := m.bytes)] at hrest
    rw [request, if_neg hwrite, hread]
    have hfresh : (heldAt unset m.bytes m.bytes.length).responseStatus = 0 := rfl
    have hpulled := m.pulled_iff (buildHttpGetRequest param originHost originPath stream)
      heof.ge (show m.header.length ≤ m.bytes.length by omega) hfresh hrest
    rw [hall] at hpulled ⊢
    exact hpulled

/-- One that does not fit. -/
theorem not_pulled_of_overflow
    (hwrite : ¬ write (buildHttpGetRequest param originHost originPath stream) < 0)
    (hsource : source.pieces.flatten = m.bytes) (h : m.stop = none) (long : 1024 ≤ m.bytes.length)
    (unset : BitVec 32) :
    (request unset write originHost originPath stream param source).code = errorSocketRead := by
  rw [request, if_neg hwrite, m.readResponse_of_overflow unset h long hsource]

end Request

/-- **The demux is given exactly the body** where the request is sent, the response is read so far
and what has been read is parsed right. -/
theorem body_delivered_iff (m : OriginResponse) {source : Source}
    (hsource : source.pieces.flatten = m.bytes) (write : Bytes → ℤ)
    (originHost originPath stream param : Bytes) :
    (∀ unset, Pulled [m.body] (request unset write originHost originPath stream param source))
      ↔ 0 ≤ write (buildHttpGetRequest param originHost originPath stream)
        ∧ ∃ k, m.ReadTo source.closed k ∧ m.KeptAs k := by
  by_cases hwrite : write (buildHttpGetRequest param originHost originPath stream) < 0
  · refine iff_of_false (fun hpulled => ?_) fun h => absurd h.1 (not_le.2 hwrite)
    have hcode := (hpulled 0).code_eq
    rw [request, if_pos hwrite] at hcode
    exact absurd hcode (ne_of_lt hwrite)
  rw [and_iff_right (not_lt.1 hwrite)]
  cases hstop : m.stop with
  | some k =>
    rw [m.pulled_of_stop hwrite hsource hstop]
    constructor
    · intro hkept
      exact ⟨k, .stops hstop, hkept⟩
    · rintro ⟨k', hread, hkept⟩
      cases hread with
      | stops h =>
        obtain rfl := Option.some.inj (hstop.symm.trans h)
        exact hkept
      | ends h => cases hstop.symm.trans h
  | none =>
    rcases Nat.lt_or_ge m.bytes.length 1024 with hfits | hlong
    · rw [m.pulled_of_end hwrite hsource hstop (by omega)]
      constructor
      · rintro ⟨heof, hkept⟩
        exact ⟨_, .ends hstop (by omega) heof, hkept⟩
      · rintro ⟨k', hread, hkept⟩
        cases hread with
        | stops h => cases hstop.symm.trans h
        | ends _ _ heof => exact ⟨heof, hkept⟩
    · refine iff_of_false (fun hpulled => ?_) ?_
      · have hcode := (hpulled 0).code_eq
        rw [m.not_pulled_of_overflow hwrite hsource hstop hlong] at hcode
        exact absurd hcode (by decide)
      · rintro ⟨k', hread, -⟩
        cases hread with
        | stops h => cases hstop.symm.trans h
        | ends _ hfits => omega

/-- A response that is read right. -/
def hello : OriginResponse where
  header := text "HTTP/1.1 200 OK\r\nContent-Length: 5\r\n\r\n"
  body := text "hello"
  status := ⟨text "Content-Length: 5\r\n\r\n", by decide⟩
  nul := by decide
  isHeader := by
    unfold IsHeader
    decide +kernel
  length_le := by decide
  sized := by
    have lengths : contentLengths (text "HTTP/1.1 200 OK\r\nContent-Length: 5\r\n\r\n")
        = [text "5"] := by
      decide +kernel
    exact .sized lengths (by decide) (by decide) (by decide)
  body_lt := by decide

theorem body_delivered_iff_hello :
    (∀ unset, Pulled [hello.body] (request unset (fun sent => sent.length) (text "origin")
        (text "live") (text "a.flv") [] ⟨[hello.header, hello.body], -1, by decide, by decide⟩))
      ↔ 0 ≤ ((buildHttpGetRequest [] (text "origin") (text "live") (text "a.flv")).length : ℤ)
        ∧ ∃ k, hello.ReadTo (-1) k ∧ hello.KeptAs k :=
  body_delivered_iff hello (by decide) _ _ _ _ _

/-- A response with a body of 1024 bytes. -/
def kilobyte : OriginResponse where
  header := text "HTTP/1.1 200 OK\r\nContent-Length: 1024\r\n\r\n"
  body := List.replicate 1024 0x61
  status := ⟨text "Content-Length: 1024\r\n\r\n", by decide⟩
  nul := by decide
  isHeader := by
    unfold IsHeader
    decide +kernel
  length_le := by decide
  sized := by
    have lengths : contentLengths (text "HTTP/1.1 200 OK\r\nContent-Length: 1024\r\n\r\n")
        = [text "1024"] := by
      decide +kernel
    exact .sized lengths (by decide) (by decide) (by rw [List.length_replicate]; decide)
  body_lt := by
    rw [List.length_replicate]
    decide

/-- The response as it arrives, in two pieces. -/
def kilobyteSource : Source :=
  .ofPieces [kilobyte.header, kilobyte.body] <| by
    rw [List.mem_cons, List.mem_singleton, not_or]
    exact ⟨by decide, (List.cons_ne_nil 0x61 (List.replicate 1023 0x61)).symm⟩

/-- **A body that does not fit the buffer behind its header block is not delivered.** -/
theorem kilobyte_not_delivered :
    (request 0 (fun sent => sent.length) (text "origin") (text "live") (text "a.flv") []
        kilobyteSource).code = errorSocketRead
      ∧ ¬ ∀ unset, Pulled [kilobyte.body] (request unset (fun sent => sent.length) (text "origin")
        (text "live") (text "a.flv") [] kilobyteSource) := by
  have ann : announced kilobyte.header = some 1024 := by decide +kernel
  have hend : (bodyEnd kilobyte.header.length 1024).toNat = 1065 := by decide
  have hstop : kilobyte.stop = none := by
    rw [stop, ann]
    dsimp only
    rw [hend, if_neg (by decide)]
  have hlong : 1024 ≤ kilobyte.bytes.length := by
    rw [length_bytes, show kilobyte.body.length = 1024 from List.length_replicate]
    omega
  have hsource : kilobyteSource.pieces.flatten = kilobyte.bytes := by
    rw [kilobyteSource, Source.ofPieces, List.flatten_cons, List.flatten_singleton, bytes]
  have hcode : (request 0 (fun sent => sent.length) (text "origin") (text "live") (text "a.flv") []
      kilobyteSource).code = errorSocketRead :=
    kilobyte.not_pulled_of_overflow (not_lt.2 (Int.natCast_nonneg _)) hsource hstop hlong 0
  refine ⟨hcode, fun hpulled => ?_⟩
  have hsuccess := (hpulled 0).code_eq
  rw [hcode] at hsuccess
  exact absurd hsuccess (by decide)

end OriginResponse

end SmartStreaming
