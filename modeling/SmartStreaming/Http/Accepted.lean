import SmartStreaming.Http.Pieces

/-!
# Http/Accepted — what `HttpParser::parse_request` makes a request of

The loop over `read` ends with a complete piece, with an error, with a closed connection or with a
full buffer; a request is then made of the last piece, whatever `CHttp::parse_request` returns for
it.  `request_made_iff` says with which reads that is right, in terms of their bytes.
-/

namespace SmartStreaming

open Machinery Comp

namespace HttpParser

/-! ## The reads -/

/-- **The results of the reads**: the bytes of those that bring some, and what the read behind them
returns.  A read is asked for as many bytes as there is room for. -/
structure Incoming where
  pieces : List Bytes
  last : ℤ
  ne_nil : ∀ piece ∈ pieces, piece ≠ []
  length_le : pieces.flatten.length ≤ 1023
  last_le : last ≤ 0

/-- The pieces up to the first complete one. -/
def piecesRead : List Bytes → List Bytes
  | [] => []
  | piece :: pieces => piece :: if IsComplete piece then [] else piecesRead pieces

/-- The bytes begin with a complete request, and `CHttp::parse_request` returns `0` for it. -/
def BeginsAccepted (bytes : Bytes) : Prop :=
  ∃ p, p <+: bytes ∧ 0 < (CHttp.checkRequest {} p).1 ∧ (CHttp.parseRequest {} p).1 = 0

/-- **The bytes begin with a request**: a text that is ended and that is a `GET` or a `POST` of the
form that is accepted. -/
def BeginsRequest (bytes : Bytes) : Prop := ∃ p, p <+: bytes ∧ Ended p ∧ Accepted p

/-- In as few bytes as there is room for, that is what `CHttp` accepts. -/
theorem beginsAccepted_iff {bytes : Bytes} (hlen : bytes.length < 2 ^ 31) :
    BeginsAccepted bytes ↔ BeginsRequest bytes := by
  refine exists_congr fun p => and_congr_right fun hp => ?_
  have hshort : p.length < 2 ^ 31 := lt_of_le_of_lt hp.length_le hlen
  rw [checkRequest_pos_iff {} hshort, parseRequest_fst_iff hshort]

theorem length_piecesRead_le : ∀ pieces : List Bytes,
    (piecesRead pieces).flatten.length ≤ pieces.flatten.length
  | [] => le_rfl
  | piece :: pieces => by
    rw [piecesRead, List.flatten_cons, List.flatten_cons, List.length_append, List.length_append]
    split
    · rw [List.flatten_nil, List.length_nil]
      omega
    · exact Nat.add_le_add_left (length_piecesRead_le pieces) _

namespace Incoming

/-- All that `parse_request` reads. -/
def bytesRead (a : Incoming) : Bytes := (piecesRead a.pieces).flatten

/-- What `parse_request` returns, over any contents of `buff`. -/
def parse (a : Incoming) (buff : Bytes) : Except Fault (Except ℤ HttpRequest) :=
  (parseRequest (pieceReader a.last) (enter a.pieces buff)).map Prod.fst

/-- **The two results that are right**: a request, if an accepted one has come in; an error code,
with which `req` is left alone. -/
inductive Right (a : Incoming) : Except Fault (Except ℤ HttpRequest) → Prop
  | made (req : HttpRequest) (h : BeginsAccepted a.bytesRead) : Right a (.ok (.ok req))
  | refused {code : ℤ} (h : code ≠ errorSuccess) : Right a (.ok (.error code))

/-- No piece is complete, and the reads end with an error or have brought nothing. -/
def BreaksOff (a : Incoming) : Prop :=
  (∀ piece ∈ a.pieces, ¬ IsComplete piece) ∧ (a.last < 0 ∨ a.pieces = [])

instance (a : Incoming) : Decidable a.BreaksOff := inferInstanceAs (Decidable (_ ∧ _))

/-- The piece that is in `buff` at the end. -/
def parsed (a : Incoming) : Bytes := parsedPiece [] a.pieces

/-! ## The result -/

/-- Where nothing comes, nothing is read. -/
theorem parse_of_nil (a : Incoming) (hnil : a.pieces = []) (buff : Bytes) :
    a.parse buff
      = .ok (.error (if a.last < 0 then errorSocketRead else errorSocketAlreadyClosed)) := by
  have hrun : readLoop (pieceReader a.last) 1024 (enter [] buff)
      = .ok (.ok a.last, enter [] buff) := by
    rw [readLoop, run_bind_ok (read_nil rfl), if_pos a.last_le, run_pure]
  have hle := a.last_le
  rw [parse, parseRequest, hnil, run_bind_ok hrun]
  split
  · rw [ensure, if_neg (by omega), run_fail_bind]
    rfl
  · have hclosed : ¬ (a.last ≠ 0 ∨ (enter ([] : List Bytes) buff).totalSize ≠ 0) := by
      rw [not_or, not_not, not_not]
      exact ⟨by omega, rfl⟩
    rw [ensure, if_pos (by omega), pure_bind, run_get_bind, ensure, if_neg hclosed, run_fail_bind]
    rfl

/-- **What `parse_request` returns** if the reads bring something. -/
theorem parse_of_ne_nil (a : Incoming) (hne : a.pieces ≠ []) {buff : Bytes}
    (hbuff : buff.length = 1024) :
    a.parse buff = if a.BreaksOff then .ok (.error errorSocketRead)
      else (requestOf a.parsed).map .ok := by
  have hfuel : a.pieces.length < 1024 := by
    have hcount := length_le_length_flatten a.ne_nil
    have hle := a.length_le
    omega
  obtain ⟨v, total, n, hv, -, htotal, hrun, hyes, hno⟩ := exists_readLoop (e := a.last) a.last_le
    a.ne_nil (reading_enter a.pieces hbuff) rfl (by rw [Nat.zero_add]; exact a.length_le) hfuel
  have hpos := htotal hne
  have hsize : v.totalSize ≠ 0 := by
    rw [hv.totalSize_eq]
    omega
  have hlast := a.last_le
  rw [parse, parseRequest, run_bind_ok hrun]
  by_cases hbreak : a.BreaksOff
  · have hn : ¬ 0 ≤ n := by
      rw [hno hbreak.1]
      exact not_le.2 (hbreak.2.resolve_right hne)
    rw [if_pos hbreak, ensure, if_neg hn, run_fail_bind]
    rfl
  · have hn : 0 ≤ n := by
      by_cases hcomplete : ∃ piece ∈ a.pieces, IsComplete piece
      · exact (hyes hcomplete).le
      · have hnone : ∀ piece ∈ a.pieces, ¬ IsComplete piece := fun p hp hc =>
          hcomplete ⟨p, hp, hc⟩
        rw [hno hnone]
        by_contra hneg
        exact hbreak ⟨hnone, .inl (by omega)⟩
    rw [if_neg hbreak, ensure, if_pos hn, pure_bind, run_get_bind, ensure, if_pos (.inr hsize),
      pure_bind]
    exact run_createRequest hpos hv

/-- **When a request is made of an accepted one only.**  The result is right exactly when the reads
break off, or the bytes they bring begin with a request and no value of the query of the piece that
is parsed ends in the `%` of an escape. -/
theorem request_made_iff (a : Incoming) {buff : Bytes} (h : buff.length = 1024) :
    a.Right (a.parse buff) ↔
      a.BreaksOff ∨ (BeginsRequest a.bytesRead ∧ QueryWhole a.parsed) := by
  have hlen := a.length_le
  have hread : a.bytesRead.length < 2 ^ 31 :=
    lt_of_le_of_lt (length_piecesRead_le a.pieces) (by omega)
  have hparsed : a.parsed.length < 2 ^ 31 :=
    lt_of_le_of_lt (length_parsedPiece_le a.pieces) (by omega)
  rw [← beginsAccepted_iff hread, ← isOk_paramsMapOf_asked_iff hparsed]
  by_cases hnil : a.pieces = []
  · rw [a.parse_of_nil hnil]
    refine iff_of_true (.refused ?_) (.inl ⟨fun p hp => ?_, .inr hnil⟩)
    · split <;> decide
    · rw [hnil] at hp
      exact absurd hp List.not_mem_nil
  · rw [a.parse_of_ne_nil hnil h]
    by_cases hbreak : a.BreaksOff
    · rw [if_pos hbreak]
      exact iff_of_true (.refused (by decide)) (.inl hbreak)
    · rw [if_neg hbreak, requestOf, newRequest, or_iff_right hbreak]
      cases paramsMapOf (asked a.parsed).queryString with
      | error e =>
        refine iff_of_false (fun hright => ?_) (fun hright => ?_)
        · cases hright
        · cases hright.2
      | ok paramsMap =>
        constructor
        · rintro (⟨_, hbegins⟩ | _)
          exact ⟨hbegins, rfl⟩
        · exact fun hright => .made _ hright.1

/-- What a read returns when the connection is closed. -/
theorem closed_le_zero : (0 : ℤ) ≤ 0 := le_refl 0

/-- A request in a single read. -/
def inOneRead : Incoming where
  pieces := [text "GET /live/a.flv?k=1 HTTP/1.1\r\nHost: x\r\n\r\n"]
  last := 0
  ne_nil := by decide
  length_le := by decide
  last_le := closed_le_zero

theorem request_made_iff_inOneRead :
    inOneRead.Right (inOneRead.parse (.replicate 1024 0)) :=
  (request_made_iff inOneRead List.length_replicate).2
    (.inr ⟨(beginsAccepted_iff (by decide)).1
      ⟨_, List.prefix_rfl, by decide +kernel, by decide +kernel⟩,
      (isOk_paramsMapOf_asked_iff (by decide)).1 (by decide +kernel)⟩)

/-- The beginning of a request, and a closed connection. -/
def cutOff : Incoming where
  pieces := [text "GET /x"]
  last := 0
  ne_nil := by decide
  length_le := by decide
  last_le := closed_le_zero

/-- **A request of which only the beginning comes in is made all the same.** -/
theorem cut_request_made : ¬ cutOff.Right (cutOff.parse (.replicate 1024 0)) := by
  have hmade : ¬ cutOff.BreaksOff := by decide +kernel
  have hcomplete : ∀ p ∈ (text "GET /x").inits, ¬ 0 < (CHttp.checkRequest {} p).1 := by
    decide +kernel
  rw [cutOff.parse_of_ne_nil (List.cons_ne_nil _ _) List.length_replicate, if_neg hmade]
  cases requestOf cutOff.parsed with
  | error e =>
    intro hright
    cases hright
  | ok req =>
    rintro (⟨_, p, hp, hchecked, -⟩ | _)
    have hread : cutOff.bytesRead = text "GET /x" := by decide +kernel
    rw [hread] at hp
    exact hcomplete p ((List.mem_inits _ _).2 hp) hchecked

end Incoming

end HttpParser

end SmartStreaming
