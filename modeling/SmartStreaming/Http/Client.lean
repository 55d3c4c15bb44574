import SmartStreaming.Format.Raw
import SmartStreaming.Http.Framing

/-!
# Http/Client — `HttpClient::request` of `http_client.cpp`, and what it makes of a `RawMux`

The response is read byte by byte until `checkResponse` sees its end; whatever follows is left for
the demux.  The status line that `RawMux` sends has the text `HTTP` where the status is sought, so
that one edge refuses what another one sends it (`raw_output_refused`).
-/

namespace SmartStreaming

open Machinery Comp CHttp

/-! ## Connections -/

/-- What a connection still delivers: the pieces in which the bytes arrive, none of them empty, and
what a read returns behind the last one. -/
structure Source where
  pieces : List Bytes
  closed : ℤ
  ne_nil : [] ∉ pieces
  closed_le : closed ≤ 0

namespace Source

/-- A read that finds the connection closed returns no more than `0`. -/
theorem closed_le_zero : (0 : ℤ) ≤ 0 := Int.le_refl 0

/-- A connection that is closed behind the pieces. -/
def ofPieces (pieces : List Bytes) (h : [] ∉ pieces) : Source := ⟨pieces, 0, h, closed_le_zero⟩

/-- The pieces after `size` bytes of the first one have been taken. -/
def rest (piece : Bytes) (pieces : List Bytes) (size : ℕ) : List Bytes :=
  if piece.length ≤ size then pieces else piece.drop size :: pieces

theorem nil_notMem_rest {piece : Bytes} {pieces : List Bytes} (h : [] ∉ pieces) (size : ℕ) :
    [] ∉ rest piece pieces size := by
  unfold rest
  split
  · exact h
  · rename_i hlt
    rw [List.mem_cons, not_or, eq_comm, List.drop_eq_nil_iff]
    exact ⟨hlt, h⟩

/-- `read(buf, size)`: what it returns and what it puts into `buf`. -/
def read (source : Source) (size : ℕ) : ℤ × Bytes × Source :=
  match h : source.pieces with
  | [] => (source.closed, [], source)
  | piece :: pieces => ((min size piece.length : ℕ), piece.take size,
      ⟨rest piece pieces size, source.closed,
        nil_notMem_rest (fun hmem => source.ne_nil (h ▸ List.mem_cons_of_mem _ hmem)) size,
        source.closed_le⟩)

end Source

/-! ## Requests -/

/-- Where the loop over `demux->read_packet(pos_response, 1)` stands when it is left. -/
structure Scanned where
  onceReadSize : ℤ
  response : Bytes
  http : CHttp
  source : Source

/-- The loop, with `bufferSize` bytes of `response` not yet used; they are zero. -/
def readResponse : ℕ → Bytes → CHttp → Source → Except ℤ Scanned
  | 0, _, _, _ => .error errorSocketRead
  | bufferSize + 1, response, http, source =>
    let (onceReadSize, bytes, source) := source.read 1
    if onceReadSize ≤ 0 then .ok ⟨onceReadSize, response, http, source⟩
    else if bufferSize = 0 then .error errorSocketRead
    else
      let response := response ++ bytes
      let checked := http.checkResponse (cString (response ++ List.replicate bufferSize 0))
      if checked.1 > 0 then .ok ⟨onceReadSize, response, checked.2, source⟩
      else readResponse bufferSize response checked.2 source

/-- What `request` leaves behind: its code, what it has sent, what it has handed to `on_ingest`, and
what has not been read. -/
structure Fetched where
  code : ℤ
  sent : Bytes := []
  ingested : Option (BitVec 32 × Bytes) := none
  unread : List Bytes := []

/-- What follows once a response has been read. -/
def onResponse (sent : Bytes) (scanned : Scanned) : Fetched :=
  let unread := scanned.source.pieces
  if scanned.onceReadSize < 0 then { code := errorSocketRead, sent, unread }
  else if scanned.onceReadSize = 0 ∧ scanned.response = [] then
    { code := errorSocketAlreadyClosed, sent, unread }
  else
    let httpFirstPacket := scanned.response
    let http := (scanned.http.parseHttpResponse httpFirstPacket).2
    let status := http.getResponseStatus httpFirstPacket
    if status.1 ≠ 200 then { code := errorIngestNoInput, sent, unread }
    else
      { code := errorSuccess, sent, ingested := some (status.2.contentLen, status.2.data), unread }

/-- `HttpClient::request`; `write` is what the connection answers to the request, and `unset` what
`content_len_` holds in `http_response` before anything is stored there. -/
def request (unset : BitVec 32) (write : Bytes → ℤ) (originHost originPath stream param : Bytes)
    (source : Source) : Fetched :=
  let sent := buildHttpGetRequest param originHost originPath stream
  if write sent < 0 then { code := write sent, sent, unread := source.pieces }
  else
    match readResponse 1024 [] { contentLen := unset } source with
    | .error code => { code, sent }
    | .ok scanned => onResponse sent scanned

/-! ## Reading -/

namespace Source

theorem flatten_rest (piece : Bytes) (pieces : List Bytes) (size : ℕ) :
    (rest piece pieces size).flatten = piece.drop size ++ pieces.flatten := by
  unfold rest
  split
  · rename_i hle
    rw [List.drop_eq_nil_of_le hle, List.nil_append]
  · rw [List.flatten_cons]

/-- **A read of one byte takes the next one**, however the bytes arrive. -/
theorem read_one {source : Source} {x : Byte} {s : Bytes} (h : source.pieces.flatten = x :: s) :
    ∃ source', source.read 1 = (1, [x], source') ∧ source'.pieces.flatten = s
      ∧ source'.closed = source.closed := by
  unfold read
  split
  · rename_i hpieces
    rw [hpieces] at h
    cases h
  · rename_i piece pieces hpieces
    rw [hpieces, List.flatten_cons] at h
    obtain _ | ⟨y, piece⟩ := piece
    · exact absurd (hpieces ▸ List.mem_cons_self) source.ne_nil
    · obtain ⟨hy, hs⟩ := List.cons.inj h
      subst hy
      have hone : min 1 (y :: piece).length = 1 := by
        rw [List.length_cons]
        omega
      refine ⟨⟨rest (y :: piece) pieces 1, source.closed, ?_, source.closed_le⟩, ?_, ?_, rfl⟩
      · exact nil_notMem_rest (fun hmem => source.ne_nil (hpieces ▸ List.mem_cons_of_mem _ hmem)) 1
      · rw [hone]
        rfl
      · rw [flatten_rest]
        exact hs

/-- Behind the last byte a read returns what closes the connection. -/
theorem read_end {source : Source} (h : source.pieces.flatten = []) (size : ℕ) :
    source.read size = (source.closed, [], source) := by
  unfold read
  split
  · rfl
  · rename_i piece pieces hpieces
    rw [hpieces, List.flatten_cons, List.append_eq_nil_iff] at h
    exact absurd (hpieces ▸ h.1 ▸ List.mem_cons_self) source.ne_nil

end Source

/-! ## The loop -/

section Loop

variable {data : Bytes} {source : Source} {j k n : ℕ}

/-- The text that is checked once `j` bytes have been read: up to the first NUL. -/
def checked (data : Bytes) (j : ℕ) : Bytes := cString (data.take j)

/-- The response is taken to be complete after `j` bytes. -/
def CompleteAt (data : Bytes) (j : ℕ) : Prop := 0 < (checkRequest {} (checked data j)).1

instance (data : Bytes) (j : ℕ) : Decidable (CompleteAt data j) :=
  inferInstanceAs (Decidable (_ < _))

/-- `http_response` after the check of `j` bytes. -/
def heldAt (unset : BitVec 32) (data : Bytes) (j : ℕ) : CHttp :=
  { contentLen := (announced (checked data j)).getD unset }

theorem heldAt_zero (unset : BitVec 32) (data : Bytes) :
    heldAt unset data 0 = { contentLen := unset } := by
  have hnone : announced (checked data 0) = none := by
    rw [checked, List.take_zero]
    decide
  rw [heldAt, hnone, Option.getD_none]

/-- What a check has come upon, the next one comes upon too. -/
theorem checkResponse_heldAt (unset : BitVec 32) (data : Bytes) (j : ℕ) :
    ((heldAt unset data j).checkResponse (checked data (j + 1))).2 = heldAt unset data (j + 1) := by
  have hpre : checked data j <+: checked data (j + 1) := by
    rw [checked, checked, cString_take, cString_take]
    exact List.take_prefix_take_left (Nat.le_succ j)
  obtain ⟨x, hx⟩ := hpre
  rw [checkResponse_eq, checkRequest_snd, heldAt, heldAt]
  dsimp only
  cases hann : announced (checked data j) with
  | none => rw [Option.getD_none]
  | some c => rw [← hx, announced_append hann x, Option.getD_some, Option.getD_some]

/-- **One round**: a byte is read, and the text is checked. -/
theorem readResponse_round (unset : BitVec 32) (n : ℕ) (hj : j < data.length)
    (hsource : source.pieces.flatten = data.drop j) :
    ∃ source' : Source, source'.pieces.flatten = data.drop (j + 1)
      ∧ source'.closed = source.closed
      ∧ (n = 0 → readResponse (n + 1) (data.take j) (heldAt unset data j) source
        = .error errorSocketRead)
      ∧ (n ≠ 0 → CompleteAt data (j + 1) →
        readResponse (n + 1) (data.take j) (heldAt unset data j) source
          = .ok ⟨1, data.take (j + 1), heldAt unset data (j + 1), source'⟩)
      ∧ (n ≠ 0 → ¬ CompleteAt data (j + 1) →
        readResponse (n + 1) (data.take j) (heldAt unset data j) source
          = readResponse n (data.take (j + 1)) (heldAt unset data (j + 1)) source') := by
  rw [List.drop_eq_getElem_cons hj] at hsource
  obtain ⟨source', hread, hrest, hclosed⟩ := Source.read_one hsource
  have hnext : data.take j ++ [data[j]] = data.take (j + 1) := List.take_append_getElem hj
  have hround : readResponse (n + 1) (data.take j) (heldAt unset data j) source
      = if n = 0 then .error errorSocketRead
        else if CompleteAt data (j + 1) then
          .ok ⟨1, data.take (j + 1), heldAt unset data (j + 1), source'⟩
        else readResponse n (data.take (j + 1)) (heldAt unset data (j + 1)) source' := by
    rw [readResponse, hread]
    dsimp only
    rw [if_neg (by decide)]
    by_cases hfull : n = 0
    · rw [if_pos hfull, if_pos hfull]
    · have hcheck : ((heldAt unset data j).checkResponse (checked data (j + 1))).1
          = (checkRequest {} (checked data (j + 1))).1 := checkRequest_fst _ _
      rw [if_neg hfull, if_neg hfull, hnext, cString_append_zeros _ hfull, ← checked, hcheck,
        checkResponse_heldAt]
      rfl
  refine ⟨source', hrest, hclosed, fun h => ?_, fun h hc => ?_, fun h hc => ?_⟩
  · rw [hround, if_pos h]
  · rw [hround, if_neg h, if_pos hc]
  · rw [hround, if_neg h, if_neg hc]

/-- **The loop ends where the text is complete first.** -/
theorem readResponse_stops (unset : BitVec 32) (hjk : j < k) (hk : k ≤ data.length)
    (hroom : k ≤ 1023)
    (hno : ∀ i, j < i → i < k → ¬ CompleteAt data i) (hyes : CompleteAt data k)
    (hn : j + n = 1024) (hsource : source.pieces.flatten = data.drop j) :
    ∃ source' : Source, source'.pieces.flatten = data.drop k
      ∧ readResponse n (data.take j) (heldAt unset data j) source
        = .ok ⟨1, data.take k, heldAt unset data k, source'⟩ := by
  induction n generalizing j source with
  | zero => omega
  | succ n ih =>
    obtain ⟨source', hrest, -, -, hstop, hgo⟩ := readResponse_round unset n
      (by omega) hsource
    obtain hlt | rfl : j + 1 < k ∨ j + 1 = k := by omega
    · rw [hgo (by omega) (hno (j + 1) (by omega) hlt)]
      exact ih hlt (fun i hi => hno i (by omega)) (by omega) hrest
    · exact ⟨source', hrest, hstop (by omega) hyes⟩

/-- Where it is not, the whole response is read, as far as there is room. -/
theorem readResponse_ends (unset : BitVec 32) (hj : j ≤ data.length) (hroom : data.length ≤ 1023)
    (hno : ∀ i, j < i → i ≤ data.length → ¬ CompleteAt data i) (hn : j + n = 1024)
    (hsource : source.pieces.flatten = data.drop j) :
    ∃ source' : Source, source'.pieces.flatten = []
      ∧ readResponse n (data.take j) (heldAt unset data j) source
        = .ok ⟨source.closed, data, heldAt unset data data.length, source'⟩ := by
  induction n generalizing j source with
  | zero => omega
  | succ n ih =>
    obtain hlt | rfl := Nat.lt_or_eq_of_le hj
    · obtain ⟨source', hrest, hclosed, -, -, hgo⟩ := readResponse_round unset n hlt
        hsource
      rw [hgo (by omega) (hno (j + 1) (by omega) hlt), ← hclosed]
      exact ih hlt (fun i hi => hno i (by omega)) (by omega) hrest
    · rw [List.drop_length] at hsource
      refine ⟨source, hsource, ?_⟩
      rw [readResponse, Source.read_end hsource 1]
      dsimp only
      rw [if_pos source.closed_le, List.take_length]

/-- A longer one does not fit. -/
theorem readResponse_overflows (unset : BitVec 32) (hj : j ≤ 1023) (hlong : 1024 ≤ data.length)
    (hno : ∀ i, j < i → i ≤ 1023 → ¬ CompleteAt data i) (hn : j + n = 1024)
    (hsource : source.pieces.flatten = data.drop j) :
    readResponse n (data.take j) (heldAt unset data j) source = .error errorSocketRead := by
  induction n generalizing j source with
  | zero => omega
  | succ n ih =>
    obtain ⟨source', hrest, -, hfull, -, hgo⟩ := readResponse_round unset n (by omega)
      hsource
    obtain rfl | hne := Nat.eq_zero_or_pos n
    · exact hfull rfl
    · rw [hgo (by omega) (hno (j + 1) (by omega) (by omega))]
      exact ih (by omega) (fun i hi => hno i (by omega)) (by omega) hrest

end Loop

/-! ## One edge and another -/

/-- What `RawMux` sends first. -/
def okLine : Bytes := RawMux.statusText 200

/-- It is a response, and no part of it is. -/
theorem completeAt_okLine (s : Bytes) {j : ℕ} (hj : j ≤ okLine.length) :
    CompleteAt (okLine ++ s) j ↔ j = okLine.length := by
  have hnul : 0 ∉ okLine := by decide +kernel
  have hall : ∀ j ≤ okLine.length, 0 < (checkRequest {} (okLine.take j)).1 ↔ j = okLine.length := by
    decide +kernel
  rw [CompleteAt, checked, List.take_append_of_le_length hj,
    cString_eq_self fun hmem => hnul (List.mem_of_mem_take hmem)]
  exact hall j hj

theorem getResponseStatus_okLine : (getResponseStatus {} okLine).1 = 0 := by
  decide +kernel

/-- The status of what has been read is not 200. -/
theorem onResponse_okLine (sent : Bytes) {http : CHttp} (source : Source)
    (h : http.responseStatus ≤ 0) :
    (onResponse sent ⟨1, okLine, http, source⟩).code = errorIngestNoInput := by
  have hstatus : ((http.parseHttpResponse okLine).2.getResponseStatus okLine).1 ≠ 200 := by
    rw [getResponseStatus_parseHttpResponse http okLine h, getResponseStatus_okLine]
    decide
  have hone : ¬ (1 : ℤ) = 0 := one_ne_zero
  rw [onResponse]
  dsimp only
  rw [if_neg (by decide), if_neg (fun hzero => hone hzero.1), if_pos hstatus]

/-- **A stream that begins with the status line is refused**, whatever follows the line and however
the bytes arrive. -/
theorem request_okLine (unset : BitVec 32) (write : Bytes → ℤ)
    (originHost originPath stream param : Bytes) {source : Source} {s : Bytes}
    (h : source.pieces.flatten = okLine ++ s) :
    (request unset write originHost originPath stream param source).code
      = if write (buildHttpGetRequest param originHost originPath stream) < 0
        then write (buildHttpGetRequest param originHost originPath stream)
        else errorIngestNoInput := by
  have hlen : okLine.length ≤ 1023 := by decide
  have hfits : okLine.length ≤ (okLine ++ s).length := by
    rw [List.length_append]
    exact Nat.le_add_right _ _
  obtain ⟨source', -, hread⟩ := readResponse_stops (k := okLine.length) unset (Nat.succ_pos _)
    hfits hlen (fun i _ hi hc => absurd ((completeAt_okLine s hi.le).1 hc) hi.ne)
    ((completeAt_okLine s (le_refl _)).2 rfl) (Nat.zero_add _) h
  rw [List.take_zero, heldAt_zero, List.take_left] at hread
  rw [request]
  split
  · rfl
  · rw [hread]
    exact onResponse_okLine _ source' (le_refl _)

/-- What one edge is to get of another: its packets, without the status line. -/
structure Pulled (packets : List Bytes) (fetched : Fetched) : Prop where
  code_eq : fetched.code = errorSuccess
  split : ∃ len header, fetched.ingested = some (len, header)
    ∧ header ++ fetched.unread.flatten = packets.flatten

/-- **No edge can pull from another**: whatever the packets are, the request for what `RawMux` has
written is answered with an error. -/
theorem raw_output_refused {buffer : Bytes} {size : ℤ} (h₀ : 0 < size) (h₁ : size ≤ buffer.length)
    (packets : List Bytes) (unset : BitVec 32) (write : Bytes → ℤ)
    (originHost originPath stream param : Bytes) :
    ∃ rs m, RawMux.output 200 packets (RawMux.new buffer size (some RawMux.accept) [])
        = .ok (.ok rs, m)
      ∧ ∀ source : Source, source.pieces.flatten = m.client →
        ¬ Pulled packets (request unset write originHost originPath stream param source) := by
  obtain ⟨rs, m, hrun, hclient⟩ := RawMux.output_eq h₀ h₁ 200 packets
  refine ⟨rs, m, hrun, fun source hsource hpulled => ?_⟩
  have hcode := hpulled.code_eq
  rw [request_okLine unset write originHost originPath stream param (hsource.trans hclient)]
    at hcode
  split at hcode
  · rename_i hneg
    exact absurd hcode (ne_of_lt hneg)
  · exact absurd hcode (by decide)

/-- The theorem at two packets and a buffer of eight bytes. -/
theorem raw_output_refused_hello :
    (0 : ℤ) < 8 ∧ (8 : ℤ) ≤ (List.replicate 8 (0 : Byte)).length
      ∧ ∃ rs m, RawMux.output 200 [text "hello", text "edge"]
          (RawMux.new (List.replicate 8 0) 8 (some RawMux.accept) []) = .ok (.ok rs, m)
        ∧ ∀ source : Source, source.pieces.flatten = m.client →
          ¬ Pulled [text "hello", text "edge"]
            (request 0 (fun sent => sent.length) (text "origin") (text "live") (text "a.flv") []
              source) :=
  ⟨by decide, by decide, raw_output_refused (by decide) (by decide) _ _ _ _ _ _ _⟩

/-- The stream of one packet, as it is written and as it arrives in two pieces. -/
theorem hello_not_pulled :
    ∃ rs m, RawMux.output 200 [text "hello"]
        (RawMux.new (List.replicate 8 0) 8 (some RawMux.accept) []) = .ok (.ok rs, m)
      ∧ m.client = text "HTTP/1.1 HTTP 200 OK\r\n\r\nhello"
      ∧ (request 0 (fun sent => sent.length) (text "origin") (text "live") (text "a.flv") []
          ⟨[text "HTTP/1.1 HT", text "TP 200 OK\r\n\r\nhello"], 0, by decide, Int.le_refl 0⟩).code
        = errorIngestNoInput :=
  ⟨_, _, rfl, by decide, by decide +kernel⟩

end SmartStreaming
