import SmartStreaming.Http.Stack
import SmartStreaming.Base.Io.IOBuffer
import Mathlib.Tactic.Linarith

/-!
# Http/Parser — `HttpParser::parse_request`

A request is read piece by piece into `buff` until one reading of `buff` is a complete request.
Every piece is stored at the beginning of `buff`, over the one before it, so that what is checked
and parsed is always a single piece: `Arrival.parse_eq` says which one.
-/

namespace SmartStreaming

open Machinery Comp

/-- `enum ERequestType`. -/
inductive ERequestType
  | play
  | publish
  | api
  deriving DecidableEq

/-- `class HttpRequest`, as `parse_request` fills it. -/
structure HttpRequest where
  type : ERequestType
  vhost : Bytes
  name : Bytes
  path : Bytes
  params : Bytes
  ext : Bytes
  isTranscode : Option Bool
  paramsMap : Bytes → Option Bytes

namespace HttpParser

variable {σ : Type}

/-- The local variables of `parse_request` and the state of its reader. -/
structure Locals (σ : Type) where
  reader : σ
  buff : Bytes
  size : ℤ
  totalSize : ℤ
  http : CHttp

abbrev Call (σ α : Type) : Type := Comp Fault (Locals σ) ℤ α

/-! ## Reading a request -/

/-- `read_size = reader->read(buff, size - 1)`: what is read lies at the beginning of `buff`. -/
def read (rd : IReader σ) : Call σ ℤ := do
  let v ← get
  let (out, s) := rd.read v.reader (v.size - 1)
  let mem ← ofOption .outOfBounds (store v.buff 0 out.2)
  put { v with reader := s, buff := mem }
  return out.1

/-- `buff[read_size] = '\0'` and the two sizes. -/
def terminate (readSize : ℤ) : Call σ PUnit := do
  let v ← get
  let mem ← ofOption .outOfBounds (store v.buff readSize [0])
  put { v with buff := mem, size := v.size - readSize, totalSize := v.totalSize + readSize }

/-- `http.checkRequest(std::string(buff))`. -/
def check : Call σ ℤ := do
  let v ← get
  put { v with http := (v.http.checkRequest (cString v.buff)).2 }
  return (v.http.checkRequest (cString v.buff)).1

/-- The `while` loop; it returns the last `read_size`. -/
def readLoop (rd : IReader σ) : ℕ → Call σ ℤ
  | 0 => stop .outOfFuel
  | fuel + 1 => do
    let readSize ← read rd
    if readSize ≤ 0 then
      return readSize
    else
      ensure (readSize ≤ 1024) errorSocketRead
      terminate readSize
      let checked ← check
      if checked > 0 then
        return readSize
      else
        readLoop rd fuel

/-! ## The request -/

/-- One round of the loop over `tmp_querys`. -/
def setParam (paramsMap : Bytes → Option Bytes) (keyValue : Bytes) :
    Except Fault (Bytes → Option Bytes) :=
  match splitString keyValue 0x3d with
  | [key, value] =>
    (urlDecode value).map fun decoded => Function.update paramsMap key (some decoded)
  | _ => .ok paramsMap

/-- `params_map` of the query string `params`. -/
def paramsMapOf (params : Bytes) : Except Fault (Bytes → Option Bytes) :=
  (splitString params 0x26).foldlM setParam fun _ => none

/-- `new_req`, filled from what `http` has parsed. -/
def newRequest (http : CHttp) : Except Fault HttpRequest :=
  (paramsMapOf http.queryString).map fun paramsMap =>
    { type := .play, vhost := http.requestHost, name := http.name, path := http.folder
      params := http.queryString, ext := http.ext, isTranscode := http.isTranscode, paramsMap }

/-- `http.parse_request(std::string(buff))`, whose return value nobody looks at, and `new_req`. -/
def createRequest : Call σ HttpRequest := fun v =>
  match newRequest (v.http.parseRequest (cString v.buff)).2 with
  | .error e => .error e
  | .ok req => .ok (.ok req, { v with http := (v.http.parseRequest (cString v.buff)).2 })

/-- **`parse_request`**: a return code with `req` left alone, or `error_success` with `req` set.
A `read_size` above `0` lowers `size`, and there is nothing to read into once `size` is `1`. -/
def parseRequest (rd : IReader σ) : Call σ HttpRequest := do
  let readSize ← readLoop rd 1024
  ensure (0 ≤ readSize) errorSocketRead
  let v ← get
  ensure (readSize ≠ 0 ∨ v.totalSize ≠ 0) errorSocketAlreadyClosed
  createRequest

/-- The locals on entry: nobody has written to `buff` yet. -/
def enter (reader : σ) (buff : Bytes) : Locals σ := ⟨reader, buff, 1024, 0, {}⟩

/-! ## A request that comes in pieces -/

/-- The reader of a connection: each `read` returns the next piece, as far as there is room, and
the reads after the last piece return `last`. -/
def pieceReader (last : ℤ) : IReader (List Bytes) where
  read
    | [], _ => ((last, []), [])
    | piece :: pieces, n =>
      if piece.length ≤ n then ((piece.length, piece), pieces)
      else ((n, piece.take n.toNat), piece.drop n.toNat :: pieces)

/-- **The way a request arrives**: the results of the successive reads, and what a read returns
after the last of them, `0` for a closed connection and less for an error. -/
structure Arrival where
  pieces : List Bytes
  last : ℤ
  pieces_ne : pieces ≠ []
  ne_nil : ∀ piece ∈ pieces, piece ≠ []
  length_le : pieces.flatten.length ≤ 1000
  last_le : last ≤ 0

namespace Arrival

/-- The request that arrives. -/
def request (a : Arrival) : Bytes := a.pieces.flatten

theorem request_ne_nil (a : Arrival) : a.request ≠ [] := by
  obtain ⟨piece, pieces, h⟩ := List.exists_cons_of_ne_nil a.pieces_ne
  have hp := a.ne_nil piece (by simp [h])
  intro h₀
  rw [request, h, List.flatten_cons, List.append_eq_nil_iff] at h₀
  exact hp h₀.1

/-- The same request in a single read. -/
def whole (a : Arrival) : Arrival where
  pieces := [a.request]
  last := a.last
  pieces_ne := List.cons_ne_nil _ _
  ne_nil := by
    intro piece h
    rw [List.mem_singleton.mp h]
    exact a.request_ne_nil
  length_le := by simpa [request] using a.length_le
  last_le := a.last_le

@[simp] theorem request_whole (a : Arrival) : a.whole.request = a.request := by
  simp [request, whole]

/-- What `parse_request` returns for the request, over any contents of `buff`. -/
def parse (a : Arrival) (buff : Bytes) : Except Fault (Except ℤ HttpRequest) :=
  (parseRequest (pieceReader a.last) (enter a.pieces buff)).map Prod.fst

end Arrival

/-- The piece is a complete request, as `CHttp::checkRequest` sees it. -/
def IsComplete (piece : Bytes) : Prop := 0 < (CHttp.checkRequest {} (cString piece)).1

instance (piece : Bytes) : Decidable (IsComplete piece) :=
  inferInstanceAs (Decidable (0 < _))

/-- The piece that is in `buff` after the loop: the first complete one, or the last one. -/
def parsedPiece : Bytes → List Bytes → Bytes
  | piece, [] => piece
  | _, piece :: pieces => if IsComplete piece then piece else parsedPiece piece pieces

/-! ## The request that is parsed -/

/-- What `CHttp` reads off a piece. -/
def asked (piece : Bytes) : CHttp := (CHttp.parseRequest {} (cString piece)).2

/-- The request that a piece makes when it is parsed by itself. -/
def requestOf (piece : Bytes) : Except Fault HttpRequest := newRequest (asked piece)

theorem newRequest_congr {http http' : CHttp} (h₁ : http.requestHost = http'.requestHost)
    (h₂ : http.name = http'.name) (h₃ : http.folder = http'.folder)
    (h₄ : http.queryString = http'.queryString) (h₅ : http.ext = http'.ext)
    (h₆ : http.isTranscode = http'.isTranscode) : newRequest http = newRequest http' := by
  rw [newRequest, newRequest, h₁, h₂, h₃, h₄, h₅, h₆]

/-- **A length found by an earlier check makes no difference to the request.** -/
theorem newRequest_parseRequest (http : CHttp) (c : BitVec 32) (data : Bytes) :
    newRequest (CHttp.parseRequest { http with contentLen := c } data).2
      = newRequest (CHttp.parseRequest http data).2 := by
  unfold CHttp.parseRequest
  split
  · exact newRequest_congr rfl rfl rfl rfl rfl rfl
  · rename_i found _
    dsimp only
    split
    · obtain ⟨_, _, _, _, h₁⟩ := CHttp.exists_parsePostRequest_snd
        { http with method := substr data 0 found, contentLen := c } data
      obtain ⟨_, _, _, _, h₂⟩ := CHttp.exists_parsePostRequest_snd
        { http with method := substr data 0 found } data
      rw [h₁, h₂]
      exact newRequest_congr rfl rfl rfl rfl rfl rfl
    · split
      · have h := CHttp.parseGetRequest_contentLen
          { http with method := substr data 0 found } data c
        exact (congrArg newRequest h).trans (newRequest_congr rfl rfl rfl rfl rfl rfl)
      · exact newRequest_congr rfl rfl rfl rfl rfl rfl

/-! ## The loop -/

/-- **Between two rounds**: `total` bytes have been read, and `buff` holds the piece read last. -/
structure Reading (v : Locals (List Bytes)) (total : ℕ) (piece : Bytes) : Prop where
  length_buff : v.buff.length = 1024
  size_eq : v.size = 1024 - total
  totalSize_eq : v.totalSize = total
  http_eq : ∃ c, v.http = { contentLen := c }
  text_eq : total ≠ 0 → cString v.buff = cString piece

theorem reading_enter (pieces : List Bytes) {buff : Bytes} (h : buff.length = 1024) :
    Reading (enter pieces buff) 0 [] :=
  ⟨h, rfl, rfl, ⟨0, rfl⟩, fun h₀ => absurd rfl h₀⟩

section Loop

variable {v : Locals (List Bytes)} {total : ℕ} {last piece : Bytes} {pieces : List Bytes} {e : ℤ}

theorem read_eq (hv : v.reader = piece :: pieces) (hn : (piece.length : ℤ) ≤ v.size - 1)
    (hb : piece.length ≤ v.buff.length) :
    read (pieceReader e) v
      = .ok (.ok piece.length, { v with reader := pieces, buff := splice v.buff 0 piece }) := by
  have hs : store v.buff 0 piece = some (splice v.buff 0 piece) :=
    store_eq_some le_rfl (by omega)
  simp only [read, run_get_bind, hv, pieceReader, if_pos hn, hs, run_some_bind, run_put_bind,
    run_pure]

/-- Behind the last piece nothing is stored. -/
theorem read_nil (hv : v.reader = []) : read (pieceReader e) v = .ok (.ok e, v) := by
  have hs : store v.buff 0 [] = some v.buff := by
    rw [store_eq_some le_rfl (by simp)]
    simp [splice]
  simp only [read, run_get_bind, hv, pieceReader, hs, run_some_bind, run_put_bind, run_pure]
  rw [← hv]

theorem terminate_eq (v : Locals (List Bytes)) (hn : piece.length < v.buff.length) :
    terminate (piece.length : ℤ) v
      = .ok (.ok ⟨⟩, { v with
        buff := splice v.buff piece.length [0]
        size := v.size - piece.length
        totalSize := v.totalSize + piece.length }) := by
  have hs : store v.buff piece.length [0] = some (splice v.buff piece.length [0]) :=
    store_eq_some (by omega) (by rw [List.length_singleton]; omega)
  simp only [terminate, run_get_bind, hs, run_some_bind, run_put]

/-- The text in `buff` after a round is the piece that came. -/
theorem cString_splice_nul (mem piece : Bytes) :
    cString (splice (splice mem 0 piece) piece.length [0]) = cString piece := by
  have h : splice (splice mem 0 piece) piece.length [0]
      = piece ++ 0 :: mem.drop (piece.length + 1) := by
    simp [splice]
  rw [h, cString_append_nul]

/-- **One round**: the piece is stored over the one before it, and checked by itself. -/
theorem exists_round (hr : Reading v total last) (hv : v.reader = piece :: pieces)
    (hne : piece ≠ []) (hle : total + piece.length ≤ 1023) (fuel : ℕ) :
    ∃ v', Reading v' (total + piece.length) piece ∧ v'.reader = pieces ∧
      readLoop (pieceReader e) (fuel + 1) v
        = if IsComplete piece then .ok (.ok piece.length, v')
          else readLoop (pieceReader e) fuel v' := by
  have hpos : 0 < piece.length := List.length_pos_iff.mpr hne
  have hb := hr.length_buff
  have hs := hr.size_eq
  have hlen : (splice v.buff 0 piece).length = 1024 := by rw [length_splice (by omega), hb]
  have hread := read_eq (e := e) hv (by omega) (by omega)
  have hterm := terminate_eq { v with reader := pieces, buff := splice v.buff 0 piece }
    (show piece.length < (splice v.buff 0 piece).length by omega)
  obtain ⟨c, hc⟩ := hr.http_eq
  obtain ⟨c', hc'⟩ := CHttp.exists_checkRequest_snd v.http (cString piece)
  have hnext : Reading ⟨pieces, splice (splice v.buff 0 piece) piece.length [0],
      v.size - piece.length, v.totalSize + piece.length, (v.http.checkRequest (cString piece)).2⟩
      (total + piece.length) piece := by
    refine ⟨?_, ?_, ?_, ⟨c', ?_⟩, fun _ => cString_splice_nul _ _⟩
    · rw [length_splice (by rw [List.length_singleton]; omega), hlen]
    · dsimp only
      omega
    · dsimp only
      rw [hr.totalSize_eq, Nat.cast_add]
    · dsimp only
      rw [hc', hc]
  refine ⟨_, hnext, rfl, ?_⟩
  rw [readLoop, run_bind_ok hread, if_neg (by omega), ensure, if_pos (by omega)]
  rw [pure_bind, run_bind_ok hterm]
  simp only [check, bind_assoc, run_get_bind, run_put_bind, pure_bind, cString_splice_nul, run_ite,
    run_pure, IsComplete, gt_iff_lt]
  rw [CHttp.checkRequest_fst]
  rfl

/-- **The whole loop**: it ends with the first complete piece, or with the last piece and what the
reader returns after it. -/
theorem exists_readLoop (he : e ≤ 0) (hne : ∀ piece ∈ pieces, piece ≠ []) :
    ∀ {v : Locals (List Bytes)} {total : ℕ} {last : Bytes} {fuel : ℕ}, Reading v total last →
      v.reader = pieces → total + pieces.flatten.length ≤ 1023 → pieces.length < fuel →
      ∃ v' total' n, Reading v' total' (parsedPiece last pieces) ∧ total ≤ total' ∧
        (pieces ≠ [] → 0 < total') ∧
        readLoop (pieceReader e) fuel v = .ok (.ok n, v') ∧
        ((∃ piece ∈ pieces, IsComplete piece) → 0 < n) ∧
        ((∀ piece ∈ pieces, ¬ IsComplete piece) → n = e) := by
  induction pieces with
  | nil =>
    intro v total last fuel hr hv _ hf
    obtain ⟨fuel, rfl⟩ : ∃ k, fuel = k + 1 :=
      ⟨fuel - 1, by simp only [List.length_nil] at hf; omega⟩
    refine ⟨v, total, e, hr, le_rfl, fun h => absurd rfl h, ?_, ?_, fun _ => rfl⟩
    · rw [readLoop, run_bind_ok (read_nil hv), if_pos he, run_pure]
    · rintro ⟨_, hp, _⟩
      exact absurd hp List.not_mem_nil
  | cons piece pieces ih =>
    intro v total last fuel hr hv hle hf
    obtain ⟨fuel, rfl⟩ : ∃ k, fuel = k + 1 := ⟨fuel - 1, by omega⟩
    rw [List.flatten_cons, List.length_append] at hle
    have hpos : 0 < piece.length := List.length_pos_iff.mpr (hne piece List.mem_cons_self)
    obtain ⟨v', hr', hv', h⟩ := exists_round (e := e) hr hv (hne piece List.mem_cons_self)
      (by omega) fuel
    by_cases hc : IsComplete piece
    · refine ⟨v', total + piece.length, piece.length, ?_, Nat.le_add_right _ _,
        fun _ => by omega, ?_, ?_, ?_⟩
      · rw [parsedPiece, if_pos hc]
        exact hr'
      · rw [h, if_pos hc]
      · intro _
        omega
      · intro hno
        exact absurd hc (hno piece List.mem_cons_self)
    · obtain ⟨w, total', n, hw, htotal, _, hrun, hyes, hno⟩ := ih
        (fun p hp => hne p (List.mem_cons_of_mem _ hp)) hr' hv' (by omega)
        (show pieces.length < fuel by rw [List.length_cons] at hf; omega)
      refine ⟨w, total', n, ?_, by omega, fun _ => by omega, ?_, ?_, ?_⟩
      · rw [parsedPiece, if_neg hc]
        exact hw
      · rw [h, if_neg hc, hrun]
      · rintro ⟨p, hp, hpc⟩
        rcases List.mem_cons.mp hp with rfl | hp
        · exact absurd hpc hc
        · exact hyes ⟨p, hp, hpc⟩
      · intro h₀
        exact hno fun p hp => h₀ p (List.mem_cons_of_mem _ hp)

end Loop

theorem length_le_length_flatten :
    ∀ {pieces : List Bytes}, (∀ piece ∈ pieces, piece ≠ []) →
      pieces.length ≤ pieces.flatten.length
  | [], _ => le_rfl
  | piece :: pieces, h => by
    have h₁ : 0 < piece.length := List.length_pos_iff.mpr (h piece List.mem_cons_self)
    have h₂ := length_le_length_flatten fun p hp => h p (List.mem_cons_of_mem _ hp)
    rw [List.length_cons, List.flatten_cons, List.length_append]
    omega

/-- The request is made of the piece that is in `buff`. -/
theorem run_createRequest {v : Locals (List Bytes)} {total : ℕ} {piece : Bytes} (h : 0 < total)
    (hv : Reading v total piece) :
    (createRequest v).map Prod.fst = (requestOf piece).map .ok := by
  obtain ⟨c, hc⟩ := hv.http_eq
  have hreq := newRequest_parseRequest {} c (cString piece)
  rw [createRequest, hv.text_eq (by omega), hc, requestOf, asked, ← hreq]
  cases newRequest (CHttp.parseRequest { contentLen := c } (cString piece)).2 <;> rfl

namespace Arrival

/-- A request is made of what has arrived: a piece was complete, or the connection was closed. -/
def Received (a : Arrival) : Prop := (∃ piece ∈ a.pieces, IsComplete piece) ∨ a.last = 0

instance (a : Arrival) : Decidable a.Received := inferInstanceAs (Decidable (_ ∨ _))

/-- The piece that the request is made of. -/
def parsed (a : Arrival) : Bytes := parsedPiece [] a.pieces

@[simp] theorem parsed_whole (a : Arrival) : a.whole.parsed = a.request := by
  simp [parsed, whole, parsedPiece]

/-- **What `parse_request` returns**, in terms of the piece that is parsed. -/
theorem parse_eq (a : Arrival) {buff : Bytes} (h : buff.length = 1024) :
    a.parse buff = if a.Received then (requestOf a.parsed).map .ok
      else .ok (.error errorSocketRead) := by
  have hfuel : a.pieces.length < 1024 := by
    have h₁ := length_le_length_flatten a.ne_nil
    have h₂ := a.length_le
    omega
  obtain ⟨v, total, n, hv, _, htotal, hrun, hyes, hno⟩ := exists_readLoop (e := a.last) a.last_le
    a.ne_nil (reading_enter a.pieces h) rfl (by have := a.length_le; omega) hfuel
  have hpos := htotal a.pieces_ne
  have hsize : v.totalSize ≠ 0 := by
    rw [hv.totalSize_eq]
    omega
  have hlast := a.last_le
  rw [parse, parseRequest, run_bind_ok hrun]
  by_cases hr : a.Received
  · have hn : 0 ≤ n := by
      rcases hr with hc | h₀
      · exact (hyes hc).le
      · by_cases hc : ∃ piece ∈ a.pieces, IsComplete piece
        · exact (hyes hc).le
        · rw [hno fun p hp hpc => hc ⟨p, hp, hpc⟩, h₀]
    rw [ensure, if_pos hn, pure_bind, run_get_bind, ensure, if_pos (Or.inr hsize), pure_bind,
      if_pos hr]
    exact run_createRequest hpos hv
  · have hn : ¬ 0 ≤ n := by
      rw [hno fun p hp hpc => hr (Or.inl ⟨p, hp, hpc⟩)]
      intro h₀
      exact hr (Or.inr (le_antisymm hlast h₀))
    rw [ensure, if_neg hn, run_fail_bind, if_neg hr]
    rfl

end Arrival

end HttpParser

end SmartStreaming
