import SmartStreaming.Http.Asked

/-!
# Http/Pieces — a request that comes in pieces

`HttpParser::parse_request` parses a single piece of what it reads.
`same_request_iff_parsed_piece_suffices` says when that piece does as well as the whole request.
-/

namespace SmartStreaming

open Machinery Comp

namespace HttpParser

/-! ## The way it arrives -/

/-- The two requests agree, but for `is_transcode`. -/
structure SameRequest (req req' : HttpRequest) : Prop where
  vhost : req.vhost = req'.vhost
  path : req.path = req'.path
  name : req.name = req'.name
  ext : req.ext = req'.ext
  params : req.params = req'.params
  paramsMap : req.paramsMap = req'.paramsMap

/-- Both calls return, with the same code and, on `error_success`, the same request. -/
inductive SameResult : Except Fault (Except ℤ HttpRequest) → Except Fault (Except ℤ HttpRequest) →
    Prop
  | code (c : ℤ) : SameResult (.ok (.error c)) (.ok (.error c))
  | request {req req' : HttpRequest} :
      SameRequest req req' → SameResult (.ok (.ok req)) (.ok (.ok req'))

/-- Both texts ask for the same, as far as they are C strings. -/
def SameTarget (piece piece' : Bytes) : Prop := AskSame (cString piece) (cString piece')

/-- No value of the query of a piece ends in the `%` of an escape. -/
def QueryWhole (piece : Bytes) : Prop :=
  ∀ path query host, Asks (cString piece) path query host → ValuesWhole query

/-- **The pieces do as well as the request**: they are received when the request in one piece is,
and then the one that is parsed has all of the target in it. -/
structure Arrival.Suffices (a : Arrival) : Prop where
  received : a.Received ↔ a.whole.Received
  sameTarget : a.Received → SameTarget a.parsed a.request
  queryWhole : a.Received → QueryWhole a.request

theorem length_cString_le (s : Bytes) : (cString s).length ≤ s.length :=
  (List.takeWhile_prefix _).length_le

/-- The parameters of a piece are decoded where its query is whole. -/
theorem isOk_paramsMapOf_asked_iff {piece : Bytes} (hlen : piece.length < 2 ^ 31) :
    (paramsMapOf (asked piece).queryString).isOk = true ↔ QueryWhole piece := by
  have hshort : (cString piece).length < 2 ^ 31 :=
    lt_of_le_of_lt (length_cString_le piece) hlen
  obtain ⟨path, query, host, h⟩ := exists_asks (cString piece)
  rw [isOk_paramsMapOf_iff]
  constructor
  · intro hwhole path' query' host' h'
    rwa [asked, (h'.readsAs hshort).queryString] at hwhole
  · intro hwhole
    rw [asked, (h.readsAs hshort).queryString]
    exact hwhole path query host h

/-- Two pieces make the same request when they ask for the same. -/
theorem sameResult_requestOf_iff {piece piece' : Bytes} (hlen : piece.length < 2 ^ 31)
    (hlen' : piece'.length < 2 ^ 31) :
    SameResult ((requestOf piece).map .ok) ((requestOf piece').map .ok)
      ↔ SameTarget piece piece' ∧ QueryWhole piece' := by
  rw [SameTarget, askSame_iff (lt_of_le_of_lt (length_cString_le piece) hlen)
    (lt_of_le_of_lt (length_cString_le piece') hlen'), ← isOk_paramsMapOf_asked_iff hlen',
    requestOf, requestOf, newRequest, newRequest]
  constructor
  · intro h
    rcases hm : paramsMapOf (asked piece).queryString with φ | m
    · rw [hm] at h
      cases h
    · rcases hm' : paramsMapOf (asked piece').queryString with φ' | m'
      · rw [hm, hm'] at h
        cases h
      · rw [hm, hm'] at h
        rcases h with _ | hreq
        exact ⟨⟨hreq.vhost, hreq.params, hreq.name, hreq.path, hreq.ext⟩, rfl⟩
  · rintro ⟨ht, hd⟩
    rcases hm' : paramsMapOf (asked piece').queryString with φ' | m'
    · rw [hm'] at hd
      cases hd
    · rw [show (asked piece).queryString = (asked piece').queryString from ht.queryString, hm']
      exact .request ⟨ht.requestHost, ht.folder, ht.name, ht.ext, rfl, rfl⟩

theorem parsedPiece_mem : ∀ (piece : Bytes) (pieces : List Bytes),
    parsedPiece piece pieces = piece ∨ parsedPiece piece pieces ∈ pieces
  | _, [] => .inl rfl
  | _, piece :: pieces => by
    rw [parsedPiece]
    split
    · exact .inr List.mem_cons_self
    · rcases parsedPiece_mem piece pieces with heq | hmem
      · rw [heq]
        exact .inr List.mem_cons_self
      · exact .inr (List.mem_cons_of_mem _ hmem)

theorem length_parsedPiece_le (pieces : List Bytes) :
    (parsedPiece [] pieces).length ≤ pieces.flatten.length := by
  rcases parsedPiece_mem [] pieces with heq | hmem
  · rw [heq]
    exact Nat.zero_le _
  · exact (List.sublist_flatten_of_mem hmem).length_le

/-- **When the way a request arrives makes no difference**: `parse_request` returns for the pieces
what it returns for a single read exactly when the piece it parses does as well as the request. -/
theorem same_request_iff_parsed_piece_suffices (a : Arrival) {buff buff' : Bytes}
    (h : buff.length = 1024) (h' : buff'.length = 1024) :
    SameResult (a.parse buff) (a.whole.parse buff') ↔ a.Suffices := by
  have hlen := a.length_le
  have hparsed : a.parsed.length < 2 ^ 31 :=
    lt_of_le_of_lt (length_parsedPiece_le a.pieces) (by omega)
  have hrequest : a.request.length < 2 ^ 31 := by
    rw [Arrival.request]
    omega
  have hiff := sameResult_requestOf_iff hparsed hrequest
  rw [a.parse_eq h, a.whole.parse_eq h', Arrival.parsed_whole]
  by_cases hr : a.Received
  · by_cases hw : a.whole.Received
    · rw [if_pos hr, if_pos hw, hiff]
      constructor
      · rintro ⟨ht, hd⟩
        exact ⟨iff_of_true hr hw, fun _ => ht, fun _ => hd⟩
      · intro hs
        exact ⟨hs.sameTarget hr, hs.queryWhole hr⟩
    · rw [if_pos hr, if_neg hw]
      constructor
      · intro hs
        rcases hq : requestOf a.parsed with φ | req <;> rw [hq] at hs <;> cases hs
      · intro hs
        exact absurd (hs.received.mp hr) hw
  · by_cases hw : a.whole.Received
    · rw [if_neg hr, if_pos hw]
      constructor
      · intro hs
        rcases hq : requestOf a.request with φ | req <;> rw [hq] at hs <;> cases hs
      · intro hs
        exact absurd (hs.received.mpr hw) hr
    · rw [if_neg hr, if_neg hw]
      refine ⟨fun _ => ⟨iff_of_false hr hw, fun h₀ => absurd h₀ hr, fun h₀ => absurd h₀ hr⟩,
        fun _ => .code _⟩

/-- A request and the beginning of the next one, cut between the two. -/
def pipelined : Arrival where
  pieces := [text "GET /live/a.flv?k=1 HTTP/1.1\r\nHost: x\r\n\r\n", text "GET /"]
  last := 0
  pieces_ne := by decide
  ne_nil := by decide
  length_le := by decide
  last_le := by decide

theorem same_request_iff_parsed_piece_suffices_pipelined :
    SameResult (pipelined.parse (.replicate 1024 0)) (pipelined.whole.parse (.replicate 1024 0)) :=
  (same_request_iff_parsed_piece_suffices pipelined List.length_replicate
    List.length_replicate).mpr
    ⟨by decide +kernel, fun _ => (askSame_iff (by decide) (by decide)).2 ⟨by decide +kernel,
      by decide +kernel, by decide +kernel, by decide +kernel, by decide +kernel⟩,
      fun _ => (isOk_paramsMapOf_asked_iff (by decide)).1 (by decide +kernel)⟩

/-- The same request, cut in its path. -/
def cutInPath : Arrival where
  pieces := [text "GET /live/", text "a.flv?k=1 HTTP/1.1\r\nHost: x\r\n\r\n"]
  last := 0
  pieces_ne := by decide
  ne_nil := by decide
  length_le := by decide
  last_le := by decide

/-- **A request that is cut in its path loses its target.** -/
theorem request_lost_by_cut :
    ¬ SameResult (cutInPath.parse (.replicate 1024 0))
      (cutInPath.whole.parse (.replicate 1024 0)) := by
  rw [Arrival.parse_eq _ List.length_replicate, Arrival.parse_eq _ List.length_replicate,
    if_pos (by decide +kernel), if_pos (by decide +kernel),
    sameResult_requestOf_iff (by decide) (by decide)]
  rintro ⟨ht, -⟩
  exact absurd ((askSame_iff (by decide) (by decide)).1 ht).requestHost (by decide +kernel)

end HttpParser

end SmartStreaming
