import Mathlib.Data.List.Nodup
import SmartStreaming.Base.Split
import SmartStreaming.Base.UrlDecode
import SmartStreaming.Http.Parser
import SmartStreaming.Http.Target

/-!
# Http/Query — the parameters of a request

The query is split at every `&`, each part at its `=`, and only then a value is decoded.  What
stands in a value does not matter therefore, as long as it is escaped: `query_pairs_mapped`.
-/

namespace SmartStreaming

open CHttp

/-! ## Escapes -/

/-- **The text `e` is a way to write the value `v`**: each byte as it is or as `%XY`, a space as `+`
or as `%20`. -/
inductive Encodes : Bytes → Bytes → Prop
  | nil : Encodes [] []
  | literal {x : Byte} {v e : Bytes} (plain : x ∉ text "%+&= \r\n") (h : Encodes v e) :
      Encodes (x :: v) (x :: e)
  | escape {v e : Bytes} (x : Byte) (h : Encodes v e) :
      Encodes (x :: v) (0x25 :: upperHex (x.toNat / 16) :: upperHex (x.toNat % 16) :: e)
  | plus {v e : Bytes} (h : Encodes v e) : Encodes (0x20 :: v) (0x2b :: e)

/-- `k=e`. -/
inductive EncodesPair : Bytes × Bytes → Bytes → Prop
  | pair {k v e : Bytes} (h : Encodes v e) : EncodesPair (k, v) (k ++ 0x3d :: e)

/-- No digit is a separator. -/
theorem upperHex_ne : ∀ n < 16, ∀ y ∈ text "& =", upperHex n ≠ y := by decide +kernel

section Escapes

variable {v e : Bytes}

/-- **An escaped value is read back.** -/
theorem Encodes.urlDecode_eq (h : Encodes v e) : urlDecode e = .ok v := by
  induction h with
  | nil => rfl
  | @literal x v e plain h ih =>
    have hne : ∀ y ∈ text "%+&= \r\n", x ≠ y := fun y hy heq => plain (heq ▸ hy)
    rw [urlDecode_cons (hne 0x25 (by decide)), ih, if_neg (hne 0x2b (by decide))]
    rfl
  | @escape v e x h ih =>
    rw [urlDecode_escape, ih, fromHex_upperHex]
    rfl
  | @plus v e h ih =>
    rw [urlDecode_cons (by decide), ih, if_pos rfl]
    rfl

/-- **No separator stands in an escaped value.** -/
theorem Encodes.notMem (h : Encodes v e) {y : Byte} (hy : y ∈ text "& =") : y ∉ e := by
  induction h with
  | nil => exact List.not_mem_nil
  | @literal x v e plain h ih =>
    have hsub : ∀ z ∈ text "& =", z ∈ text "%+&= \r\n" := by decide
    rw [List.mem_cons, not_or]
    exact ⟨fun heq => plain (heq ▸ hsub y hy), ih⟩
  | @escape v e x h ih =>
    have hpercent : ∀ z ∈ text "& =", z ≠ 0x25 := by decide
    have hlt := x.isLt
    have hhigh := upperHex_ne (x.toNat / 16) (by omega) y hy
    have hlow := upperHex_ne (x.toNat % 16) (by omega) y hy
    rw [List.mem_cons, List.mem_cons, List.mem_cons, not_or, not_or, not_or]
    exact ⟨hpercent y hy, hhigh.symm, hlow.symm, ih⟩
  | @plus v e h ih =>
    have hplus : ∀ z ∈ text "& =", z ≠ 0x2b := by decide
    rw [List.mem_cons, not_or]
    exact ⟨hplus y hy, ih⟩

end Escapes

/-! ## The two splits -/

section Splits

variable {sep : Byte}

/-- **What was joined is cut apart again.** -/
theorem splitString_intercalate {ls : List Bytes} (hsep : ∀ l ∈ ls, sep ∉ l) (hne : [] ∉ ls) :
    splitString ([sep].intercalate ls) sep = ls := by
  cases ls with
  | nil => rfl
  | cons l ls =>
    have hl : l ≠ [] := fun heq => hne (heq ▸ List.mem_cons_self)
    have hjoin : [sep].intercalate (l :: ls) ≠ [] := by
      intro hnil
      cases ls with
      | nil => exact hl (by simpa using hnil)
      | cons l' ls =>
        rw [List.intercalate_cons_cons, List.append_eq_nil_iff, List.append_eq_nil_iff] at hnil
        exact hl hnil.1.1
    have hsplit := List.splitOn_intercalate sep hsep (List.cons_ne_nil l ls)
    rw [splitString, if_neg hjoin, splitAt_eq, hsplit]
    rfl

end Splits

/-! ## The map -/

namespace HttpParser

section Map

variable {pairs : List (Bytes × Bytes)} {fields : List Bytes}

/-- A key that can stand in front of an `=`. -/
def IsKey (k : Bytes) : Prop := 0x26 ∉ k ∧ 0x3d ∉ k ∧ 0x20 ∉ k

/-- **One pair**: its value is decoded after the splits. -/
theorem setParam_pair (paramsMap : Bytes → Option Bytes) {k v field : Bytes} (hk : IsKey k)
    (hne : k ≠ []) (hv : v ≠ []) (h : EncodesPair (k, v) field) :
    setParam paramsMap field = .ok (Function.update paramsMap k (some v)) := by
  cases h with
  | @pair _ _ e h =>
    have he : e ≠ [] := by
      cases h with
      | nil => exact absurd rfl hv
      | literal => exact List.cons_ne_nil _ _
      | escape => exact List.cons_ne_nil _ _
      | plus => exact List.cons_ne_nil _ _
    have hsep : ∀ l ∈ [k, e], 0x3d ∉ l := by
      simp only [List.forall_mem_cons]
      exact ⟨hk.2.1, h.notMem (by decide), fun l hl => absurd hl List.not_mem_nil⟩
    have hnil : [] ∉ [k, e] := by
      simp only [List.mem_cons, List.not_mem_nil, or_false, not_or]
      exact ⟨hne.symm, he.symm⟩
    have hsplit := splitString_intercalate hsep hnil
    have hjoin : [0x3d].intercalate [k, e] = k ++ 0x3d :: e := by simp
    rw [hjoin] at hsplit
    rw [setParam, hsplit]
    dsimp only
    rw [h.urlDecode_eq]
    rfl

/-- One more pair. -/
def addPair (paramsMap : Bytes → Option Bytes) (kv : Bytes × Bytes) : Bytes → Option Bytes :=
  Function.update paramsMap kv.1 (some kv.2)

/-- The pairs of a query. -/
structure IsPairs (pairs : List (Bytes × Bytes)) : Prop where
  isKey : ∀ kv ∈ pairs, IsKey kv.1 ∧ kv.1 ≠ [] ∧ kv.2 ≠ []
  nodup : (pairs.map Prod.fst).Nodup

theorem foldlM_setParam (hpairs : ∀ kv ∈ pairs, IsKey kv.1 ∧ kv.1 ≠ [] ∧ kv.2 ≠ [])
    (h : List.Forall₂ EncodesPair pairs fields) :
    ∀ paramsMap, fields.foldlM setParam paramsMap
      = .ok (pairs.foldl addPair paramsMap) := by
  induction h with
  | nil => exact fun _ => rfl
  | @cons kv field pairs fields hfield _ ih =>
    intro paramsMap
    obtain ⟨hk, hne, hv⟩ := hpairs kv List.mem_cons_self
    rw [List.foldlM_cons, setParam_pair paramsMap hk hne hv hfield, List.foldl_cons]
    exact ih (fun kv' hkv' => hpairs kv' (List.mem_cons_of_mem _ hkv')) _

/-- **Distinct keys keep their values.** -/
theorem foldl_update_eq_some_iff (hnodup : (pairs.map Prod.fst).Nodup) (k v : Bytes) :
    ∀ paramsMap : Bytes → Option Bytes, (∀ kv ∈ pairs, paramsMap kv.1 = none) →
      (pairs.foldl addPair paramsMap k = some v
        ↔ (k, v) ∈ pairs ∨ paramsMap k = some v) := by
  induction pairs with
  | nil =>
    intro paramsMap _
    rw [List.foldl_nil, or_iff_right List.not_mem_nil]
  | cons kv pairs ih =>
    intro paramsMap hfresh
    rw [List.map_cons, List.nodup_cons] at hnodup
    have hnext : ∀ kv' ∈ pairs, addPair paramsMap kv kv'.1 = none := by
      intro kv' hkv'
      have hother : kv'.1 ≠ kv.1 := fun heq => hnodup.1 (heq ▸ List.mem_map_of_mem hkv')
      rw [addPair, Function.update_of_ne hother]
      exact hfresh kv' (List.mem_cons_of_mem _ hkv')
    rw [List.foldl_cons, ih hnodup.2 _ hnext, List.mem_cons, addPair]
    have hnone := hfresh kv List.mem_cons_self
    by_cases hk : k = kv.1
    · subst hk
      rw [Function.update_self, hnone, Option.some_inj]
      constructor
      · rintro (hmem | rfl)
        · exact Or.inl (Or.inr hmem)
        · exact Or.inl (Or.inl rfl)
      · rintro ((heq | hmem) | heq)
        · exact Or.inr (congrArg Prod.snd heq).symm
        · exact Or.inl hmem
        · cases heq
    · have hother : (k, v) ≠ kv := fun heq => hk (congrArg Prod.fst heq)
      rw [Function.update_of_ne hk, or_iff_right hother]

/-- No part of a query holds the separator of the parts or a space, and none is empty. -/
theorem notMem_fields (hpairs : ∀ kv ∈ pairs, IsKey kv.1 ∧ kv.1 ≠ [] ∧ kv.2 ≠ [])
    (h : List.Forall₂ EncodesPair pairs fields) :
    ∀ field ∈ fields, 0x26 ∉ field ∧ 0x20 ∉ field ∧ field ≠ [] := by
  induction h with
  | nil => exact fun _ hmem => absurd hmem List.not_mem_nil
  | @cons kv field pairs fields hfield _ ih =>
    rw [List.forall_mem_cons]
    refine ⟨?_, ih fun kv' hkv' => hpairs kv' (List.mem_cons_of_mem _ hkv')⟩
    obtain ⟨hk, hne, -⟩ := hpairs kv List.mem_cons_self
    cases hfield with
    | @pair k v e h =>
      refine ⟨?_, ?_, List.append_ne_nil_of_left_ne_nil hne _⟩
      · rw [List.mem_append, List.mem_cons, not_or, not_or]
        exact ⟨hk.1, by decide, h.notMem (by decide)⟩
      · rw [List.mem_append, List.mem_cons, not_or, not_or]
        exact ⟨hk.2.2, by decide, h.notMem (by decide)⟩

/-- **The parameters of a query are its pairs.** -/
theorem paramsMapOf_query (hpairs : IsPairs pairs) (h : List.Forall₂ EncodesPair pairs fields) :
    ∃ paramsMap, paramsMapOf ([0x26].intercalate fields) = .ok paramsMap
      ∧ ∀ k v, paramsMap k = some v ↔ (k, v) ∈ pairs := by
  have hfields := notMem_fields hpairs.isKey h
  have hsplit := splitString_intercalate (fun l hl => (hfields l hl).1)
    fun hnil => (hfields [] hnil).2.2 rfl
  refine ⟨_, by rw [paramsMapOf, hsplit, foldlM_setParam hpairs.isKey h], fun k v => ?_⟩
  rw [foldl_update_eq_some_iff hpairs.nodup k v _ fun _ _ => rfl, or_iff_left (by simp)]

end Map

/-! ## The request -/

/-- A `GET` request with a query. -/
structure QueryRequest where
  pairs : List (Bytes × Bytes)
  fields : List Bytes
  path : Bytes
  /-- What follows the text ` HTTP` of the request line. -/
  rest : Bytes
  isPairs : IsPairs pairs
  encoded : List.Forall₂ EncodesPair pairs fields
  slash : path.head? = some 0x2f
  question : 0x3f ∉ path
  space : 0x20 ∉ path

namespace QueryRequest

variable (m : QueryRequest)

/-- The pairs, joined. -/
def query : Bytes := [0x26].intercalate m.fields

/-- The request as it is received. -/
def bytes : Bytes := text "GET " ++ ((m.path ++ 0x3f :: m.query) ++ (text " HTTP" ++ m.rest))

/-- **A request that is read as one**: it ends with a blank line, and no text in it makes it another
kind of request. -/
structure Complete : Prop where
  ended : blankLine <:+ m.bytes
  nul : 0 ∉ m.bytes
  noPolicy : isPolicyRequest m.bytes = false
  noLength : contains m.bytes contentLength = false

theorem space_query : 0x20 ∉ m.query := by
  have hfields := notMem_fields m.isPairs.isKey m.encoded
  rw [query]
  generalize m.fields = fields at hfields
  induction fields with
  | nil => exact List.not_mem_nil
  | cons field fields ih =>
    rw [List.forall_mem_cons] at hfields
    cases fields with
    | nil => simpa using hfields.1.2.1
    | cons field' fields =>
      rw [List.intercalate_cons_cons, List.mem_append, List.mem_append, not_or, not_or]
      exact ⟨⟨hfields.1.2.1, by decide⟩, ih hfields.2⟩

theorem length_bytes :
    m.bytes.length = 4 + (m.path ++ 0x3f :: m.query).length + (5 + m.rest.length) := by
  have hget : (text "GET ").length = 4 := rfl
  have hversion : (text " HTTP" ++ m.rest).length = 5 + m.rest.length := List.length_append
  rw [bytes, List.length_append, List.length_append, hget, hversion, Nat.add_assoc]

/-- The target goes from the first `/` to the text ` HTTP`. -/
theorem find_target :
    find m.bytes (text "/") 0 = some 4
      ∧ find m.bytes (text " HTTP") 0 = some (4 + (m.path ++ 0x3f :: m.query).length) := by
  obtain ⟨t, ht⟩ := List.head?_eq_some_iff.1 m.slash
  have hspace : 0x20 ∉ 0x2f :: (t ++ 0x3f :: m.query) := by
    rw [← List.cons_append, ← ht, List.mem_append, List.mem_cons, not_or, not_or]
    exact ⟨m.space, by decide, m.space_query⟩
  rw [bytes, ht]
  exact ⟨find_letter (a := text "GET ") (by decide) _, find_http hspace m.rest⟩

/-- The query begins behind the path. -/
theorem find_query : find m.bytes (text "?") 0 = some (4 + m.path.length) := by
  have hno : 0x3f ∉ text "GET " ++ m.path := by
    rw [List.mem_append, not_or]
    exact ⟨by decide, m.question⟩
  have hfind := find_letter hno (m.query ++ (text " HTTP" ++ m.rest))
  rw [List.length_append] at hfind
  rw [bytes, List.append_assoc, ← List.append_assoc]
  exact hfind

theorem substr_query : substr m.bytes (4 + m.path.length + 1) m.query.length = m.query := by
  have hparts : m.bytes
      = (text "GET " ++ (m.path ++ [0x3f])) ++ (m.query ++ (text " HTTP" ++ m.rest)) := by
    simp only [bytes, List.append_assoc, List.cons_append, List.nil_append]
  have hstart : (text "GET " ++ (m.path ++ [0x3f])).length = 4 + m.path.length + 1 := by
    rw [List.length_append, List.length_append, ← Nat.add_assoc]
    rfl
  rw [hparts, ← hstart]
  exact substr_append _ m.query _

/-- **The query is cut out of the request.** -/
theorem queryString_eq (hpolicy : isPolicyRequest m.bytes = false) (hlen : m.bytes.length ≤ 1000) :
    (CHttp.parseRequest {} m.bytes).2.queryString = m.query := by
  obtain ⟨hslash, hhttp⟩ := m.find_target
  have hlength := m.length_bytes
  have htarget : (m.path ++ 0x3f :: m.query).length = m.path.length + (m.query.length + 1) := by
    rw [List.length_append, List.length_cons]
  have hdiff : sizeDiff (4 + (m.path ++ 0x3f :: m.query).length) (4 + m.path.length + 1)
      = m.query.length := by
    rw [sizeDiff_of_le (by omega) (by omega)]
    omega
  have hread : CHttp.parseRequest {} m.bytes
      = (0, cutTarget (parseTarget { method := text "GET" } m.bytes 4
          (4 + (m.path ++ 0x3f :: m.query).length)) m.bytes) :=
    (parseRequest_of_get {} _).trans (parseGetRequest_cut {} hpolicy hslash hhttp)
  rw [hread]
  refine (cutTarget_queryString _ m.bytes).trans ?_
  rw [parseTarget, m.find_query]
  dsimp only
  rw [Nat.mod_eq_of_lt (by omega), hdiff, m.substr_query]

/-- A complete request is taken as one. -/
theorem Complete.isComplete {m : QueryRequest} (h : m.Complete) (hlen : m.bytes.length ≤ 1000) :
    IsComplete m.bytes := by
  obtain ⟨x, hx⟩ := h.ended
  have hfits : x.length + 4 = m.bytes.length := by
    rw [← hx, List.length_append]
    rfl
  have hpre : blankLine <+: m.bytes.drop x.length := by
    rw [← hx, List.drop_left]
  obtain ⟨j, hj, hfind⟩ := exists_find (Nat.zero_le _) (by omega) hpre
  rw [IsComplete, cString_eq_self h.nul, CHttp.checkRequest, contains_eq_false_iff.1 h.noLength]
  dsimp only
  rw [CHttp.checkHttpInputSimple, hfind]
  dsimp only
  rw [show blankLine.length = 4 from rfl, BitVec.toInt_eq_toNat_cond, BitVec.toNat_ofNat,
    Nat.mod_eq_of_lt (by omega), if_pos (by omega)]
  omega

end QueryRequest

/-- **The parameters of a request that comes in one read are the pairs of its query.** -/
theorem query_pairs_mapped (m : QueryRequest) (h : m.Complete) (a : Arrival)
    (hone : a.pieces = [m.bytes]) {buff : Bytes} (hbuff : buff.length = 1024) :
    ∃ req, a.parse buff = .ok (.ok req) ∧ ∀ k v, req.paramsMap k = some v ↔ (k, v) ∈ m.pairs := by
  have hlen : m.bytes.length ≤ 1000 := by
    have hle := a.length_le
    rwa [hone, List.flatten_singleton] at hle
  have hcomplete := h.isComplete hlen
  have hreceived : a.Received := Or.inl ⟨m.bytes, by rw [hone]; exact List.mem_singleton_self _,
    hcomplete⟩
  have hparsed : a.parsed = m.bytes := by
    rw [Arrival.parsed, hone, parsedPiece, if_pos hcomplete]
  obtain ⟨paramsMap, hmap, hpairs⟩ := paramsMapOf_query m.isPairs m.encoded
  have hquery := m.queryString_eq h.noPolicy hlen
  rw [a.parse_eq hbuff, if_pos hreceived, hparsed, requestOf, asked, cString_eq_self h.nul,
    newRequest, hquery, QueryRequest.query, hmap]
  exact ⟨_, rfl, hpairs⟩

/-- A query in which the separators are escaped. -/
def escapedQuery : QueryRequest where
  pairs := [(text "k", text "a&b=c d"), (text "t", text "1")]
  fields := [text "k=a%26b%3Dc+d", text "t=1"]
  path := text "/live/a.flv"
  rest := text "/1.1\r\nHost: x?\r\n\r\n"
  isPairs := by
    refine ⟨?_, by decide⟩
    simp only [List.forall_mem_cons]
    exact ⟨⟨⟨by decide, by decide, by decide⟩, by decide, by decide⟩,
      ⟨⟨by decide, by decide, by decide⟩, by decide, by decide⟩,
      fun _ h => absurd h List.not_mem_nil⟩
  encoded := by
    have hvalue : Encodes (text "a&b=c d") (text "a%26b%3Dc+d") :=
      .literal (by decide) (.escape 0x26 (.literal (by decide) (.escape 0x3d
        (.literal (by decide) (.plus (.literal (by decide) .nil))))))
    exact .cons (.pair hvalue) (.cons (.pair (.literal (by decide) .nil)) .nil)
  slash := rfl
  question := by decide
  space := by decide

/-- The request in one read. -/
def escapedArrival : Arrival where
  pieces := [escapedQuery.bytes]
  last := 0
  pieces_ne := List.cons_ne_nil _ _
  ne_nil := by decide
  length_le := by decide
  last_le := le_rfl

theorem query_pairs_mapped_escaped :
    ∃ req, escapedArrival.parse (.replicate 1024 0) = .ok (.ok req)
      ∧ ∀ k v, req.paramsMap k = some v ↔ (k, v) ∈ escapedQuery.pairs :=
  query_pairs_mapped escapedQuery
    ⟨⟨text "GET /live/a.flv?k=a%26b%3Dc+d&t=1 HTTP/1.1\r\nHost: x?", by decide⟩, by decide,
      by decide +kernel, by decide +kernel⟩ escapedArrival rfl List.length_replicate

end HttpParser

end SmartStreaming
