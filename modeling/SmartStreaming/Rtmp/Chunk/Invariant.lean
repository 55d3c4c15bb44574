import SmartStreaming.Rtmp.Chunk.Recv
import SmartStreaming.Machinery.Refine
import Mathlib.Tactic.NormNum

/-!
# Rtmp/Chunk/Invariant — a partial message fits its allocation, whatever the peer sends

`RtmpChunkStream.Inv` is what every chunk stream satisfies in every state: between two headers of
one message the length cannot change, so the payload that was allocated for it stays the right one.
`holds_readMessageHeader` and `holds_readMessagePayload` are the two halves of a call,
`recv_keeps_chunk_streams` any run of calls.
-/

namespace SmartStreaming

open Machinery Comp

/-- A source whose `read_bytes(dst, n)` stores at most `n` bytes, and all of them when it reports
success. -/
structure ByteSource.Lawful {σ : Type} (src : ByteSource σ) : Prop where
  length_le : ∀ s n, 0 ≤ n → ((src.readBytes s n).1.2.length : ℤ) ≤ n
  length_eq : ∀ s n, 0 ≤ n → (src.readBytes s n).1.1 = errorSuccess →
    ((src.readBytes s n).1.2.length : ℤ) = n

/-- A message of `len` bytes that is not complete: nothing allocated yet, or `len` bytes allocated
and fewer filled. -/
def RtmpMessage.Partial (m : RtmpMessage) (len : ℤ) : Prop :=
  (m.payload = none ∧ m.size = 0)
    ∨ ∃ p : Bytes, m.payload = some p ∧ p.length = len ∧ 0 ≤ m.size ∧ m.size < len

/-- **What holds of every chunk stream**: the length is one of 24 bits, and a partial message fits
it. -/
structure RtmpChunkStream.Inv (chunk : RtmpChunkStream) : Prop where
  length_nonneg : 0 ≤ chunk.header.payloadLength
  length_lt : chunk.header.payloadLength < 2 ^ 24
  partialMsg : ∀ m, chunk.msg = some m → m.Partial chunk.header.payloadLength

/-- A message handed to the caller is complete. -/
def RtmpMessage.Complete (m : RtmpMessage) : Prop :=
  m.size = m.header.payloadLength
    ∧ ∀ p : Bytes, m.payload = some p → p.length = m.header.payloadLength

theorem RtmpChunkStream.inv_new (cid : ℤ) : (RtmpChunkStream.new cid).Inv :=
  ⟨le_refl (0 : ℤ), Int.pow_pos (by decide), fun _ h => by cases h⟩

/-- The invariant is about the length and the message only. -/
theorem RtmpChunkStream.Inv.congr {c c' : RtmpChunkStream} (h : c.Inv)
    (hlen : c'.header.payloadLength = c.header.payloadLength) (hmsg : c'.msg = c.msg) : c'.Inv :=
  ⟨by rw [hlen]; exact h.length_nonneg, by rw [hlen]; exact h.length_lt,
    fun m hm => by rw [hlen]; exact h.partialMsg m (by rw [← hmsg, hm])⟩

/-- A fresh message fits any length. -/
theorem RtmpMessage.partial_of_none {m : RtmpMessage} (h₁ : m.payload = none) (h₂ : m.size = 0)
    (len : ℤ) : m.Partial len := Or.inl ⟨h₁, h₂⟩

theorem leNat_three_lt (a b c : Byte) : leNat [a, b, c] < 2 ^ 24 := by
  have h := leNat_lt [a, b, c]
  rwa [List.length_cons, List.length_cons, List.length_singleton,
    show 256 ^ (1 + 1 + 1) = 2 ^ 24 by norm_num] at h

/-- Three bytes of the wire are a number of 24 bits. -/
theorem toInt_fromMemory_three (a b c : Byte) :
    (fromMemory 32 [a, b, c, 0]).toInt = leNat [a, b, c] := by
  have h := leNat_three_lt a b c
  have hcast : leNat [a, b, c, 0] = leNat [a, b, c] := by simp [leNat]
  rw [fromMemory, hcast, BitVec.toInt_eq_toNat_cond, BitVec.toNat_ofNat,
    Nat.mod_eq_of_lt (by omega), if_pos (by omega)]

namespace RtmpProtocolHandler

variable {σ : Type} {src : ByteSource σ}

theorem payloadLengthOf_nonneg (data : Bytes) : 0 ≤ payloadLengthOf data := by
  rw [payloadLengthOf, toInt_fromMemory_three]
  omega

theorem payloadLengthOf_lt (data : Bytes) : payloadLengthOf data < 2 ^ 24 := by
  have h := leNat_three_lt (data.getD 5 0) (data.getD 4 0) (data.getD 3 0)
  rw [payloadLengthOf, toInt_fromMemory_three]
  omega

section Fields

variable (fmt : ℕ) (data : Bytes) (chunk : RtmpChunkStream)

@[simp] theorem setTimestamp_payloadLength :
    (setTimestamp fmt data chunk).header.payloadLength = chunk.header.payloadLength := by
  unfold setTimestamp
  dsimp only
  split_ifs <;> rfl

@[simp] theorem setTimestamp_msg : (setTimestamp fmt data chunk).msg = chunk.msg := by
  unfold setTimestamp
  dsimp only
  split_ifs <;> rfl

@[simp] theorem setLength_payloadLength :
    (setLength fmt data chunk).header.payloadLength = payloadLengthOf data := by
  unfold setLength
  dsimp only
  split_ifs <;> rfl

@[simp] theorem setLength_msg : (setLength fmt data chunk).msg = chunk.msg := by
  unfold setLength
  dsimp only
  split_ifs <;> rfl

@[simp] theorem setExtended_payloadLength (fix first : Bool) (ext : BitVec 32) :
    (setExtended fix first fmt ext chunk).1.header.payloadLength = chunk.header.payloadLength := by
  unfold setExtended
  dsimp only
  split_ifs <;> rfl

@[simp] theorem setExtended_msg (fix first : Bool) (ext : BitVec 32) :
    (setExtended fix first fmt ext chunk).1.msg = chunk.msg := rfl

end Fields

/-! ## The message header -/

/-- Between the lines of `read_message_header`: the invariant, with a message that is still empty
when the chunk is its first one. -/
structure Heading (first : Bool) (chunk : RtmpChunkStream) : Prop where
  inv : chunk.Inv
  msg : ∃ m, chunk.msg = some m ∧ (first = true → m.payload = none ∧ m.size = 0)

theorem Heading.congr {first : Bool} {c c' : RtmpChunkStream} (h : Heading first c)
    (hlen : c'.header.payloadLength = c.header.payloadLength) (hmsg : c'.msg = c.msg) :
    Heading first c' :=
  ⟨h.inv.congr hlen hmsg, by rw [hmsg]; exact h.msg⟩

theorem holds_readFields (first : Bool) (fmt : ℕ) (data : Bytes) {chunk : RtmpChunkStream} {io : σ}
    (h : Heading first chunk) :
    Holds (fun _ => False) (fun _ s => s.1.Inv) (fun _ s => Heading first s.1)
      (readFields first fmt data) (chunk, io) := by
  have htime := h.congr (setTimestamp_payloadLength fmt data chunk)
    (setTimestamp_msg fmt data chunk)
  simp only [readFields, getChunk, setChunk, holds_bind, holds_get, holds_pure, holds_put,
    holds_ite, holds_fail]
  refine ⟨fun _ => ⟨fun _ => ⟨fun _ => htime.inv, fun hsame => ?_⟩, fun _ => htime⟩,
    fun _ => ⟨fun _ => h.congr rfl rfl, fun _ => h⟩⟩
  obtain ⟨m, hm, hfresh⟩ := htime.msg
  refine ⟨⟨?_, ?_, fun m' hm' => ?_⟩, m, by rw [setLength_msg, hm], hfresh⟩
  · rw [setLength_payloadLength]
    exact payloadLengthOf_nonneg data
  · rw [setLength_payloadLength]
    exact payloadLengthOf_lt data
  · rw [setLength_msg, hm, Option.some.injEq] at hm'
    subst hm'
    rw [setLength_payloadLength]
    cases first with
    | true => exact RtmpMessage.partial_of_none (hfresh rfl).1 (hfresh rfl).2 _
    | false =>
      have hlen : payloadLengthOf data = (setTimestamp fmt data chunk).header.payloadLength := by
        by_contra hne
        exact hsame ⟨rfl, fun heq => hne heq.symm⟩
      rw [hlen]
      exact htime.inv.partialMsg m hm

theorem holds_readExtended (fix first : Bool) (fmt : ℕ) (ext : BitVec 32) {chunk : RtmpChunkStream}
    {io : σ} (h : Heading first chunk) :
    Holds (fun _ => False) (fun _ s => s.1.Inv) (fun _ s => Heading first s.1)
      (readExtended src fix first fmt ext) (chunk, io) := by
  have hext := h.congr (setExtended_payloadLength fmt chunk fix first ext)
    (setExtended_msg fmt chunk fix first ext)
  simp only [readExtended, getChunk, setChunk, onSource, holds_bind, holds_get, holds_pure,
    holds_put, holds_ite, holds_zoom]
  exact ⟨fun _ => ⟨fun _ => hext, fun _ => hext⟩, fun _ => h⟩

theorem holds_finishHeader {first : Bool} {chunk : RtmpChunkStream} {io : σ}
    (h : Heading first chunk) :
    Holds (fun _ => False) (fun _ s => s.1.Inv)
      (fun _ s => s.1.Inv ∧ ∃ m, s.1.msg = some m ∧ m.header = s.1.header)
      finishHeader (chunk, io) := by
  obtain ⟨hinv, m, hm, -⟩ := h
  have hlen := hinv.length_nonneg
  simp only [finishHeader, getChunk, setChunk, cassert, holds_bind, holds_get, holds_pure,
    holds_put, holds_ite, holds_stop]
  refine ⟨fun _ => ?_, fun hneg => absurd hlen hneg⟩
  rw [hm]
  refine ⟨⟨hlen, hinv.length_lt, fun m' hm' => ?_⟩, _, rfl, rfl⟩
  obtain rfl : { m with header := _ } = m' := Option.some.inj hm'
  exact hinv.partialMsg m hm

/-- Reading bytes of the header leaves the chunk stream. -/
theorem holds_readHeaderBytes (fmt : ℕ) {chunk : RtmpChunkStream} {io : σ} (h : chunk.Inv) :
    Holds (fun _ => False) (fun _ s => s.1.Inv) (fun _ s => s.1 = chunk)
      (readHeaderBytes src fmt) (chunk, io) := by
  simp only [readHeaderBytes, onSource, readIo, holds_ite, holds_zoom, holds_bind, holds_get,
    holds_put, holds_fail, holds_pure]
  exact ⟨fun _ => ⟨fun _ => h, fun _ => trivial⟩, fun _ => trivial⟩

/-- **A message header keeps the invariant**, also when it is refused half way, and a complete one
is the header of the message. -/
theorem holds_readMessageHeader (fix : Bool) (ext : BitVec 32) (fmt : ℕ) {chunk : RtmpChunkStream}
    {io : σ} (h : chunk.Inv) :
    Holds (fun _ => False) (fun _ s => s.1.Inv)
      (fun _ s => s.1.Inv ∧ ∃ m, s.1.msg = some m ∧ m.header = s.1.header)
      (readMessageHeader src fix ext fmt) (chunk, io) := by
  have hstart : Heading chunk.msg.isNone { chunk with msg := some (chunk.msg.getD {}) } := by
    cases hm : chunk.msg with
    | none =>
      refine ⟨⟨h.length_nonneg, h.length_lt, fun m hm => ?_⟩, {}, rfl, fun _ => ⟨rfl, rfl⟩⟩
      obtain rfl : ({} : RtmpMessage) = m := Option.some.inj hm
      exact RtmpMessage.partial_of_none rfl rfl _
    | some m => exact ⟨h.congr rfl (by rw [hm]; rfl), m, rfl, fun hne => by cases hne⟩
  simp only [readMessageHeader, holds_bind, holds_ite, holds_fail]
  refine ⟨fun _ => h, fun _ => ⟨fun _ => h, fun _ => ?_⟩⟩
  refine (holds_readHeaderBytes fmt hstart.inv).imp (fun _ _ => id) ?_
  rintro data ⟨c, io'⟩ rfl
  refine (holds_readFields _ fmt data hstart).imp (fun _ _ => id) ?_
  rintro - ⟨c₁, io₁⟩ hc₁
  refine (holds_readExtended fix _ fmt ext hc₁).imp (fun _ _ => id) ?_
  rintro - ⟨c₂, io₂⟩ hc₂
  exact holds_finishHeader hc₂

/-! ## The payload -/

/-- What is allocated for a message that is not complete is as long as the message. -/
theorem partial_ensurePayload {chunk : RtmpChunkStream} {m : RtmpMessage}
    (h : m.Partial chunk.header.payloadLength) (hpos : 0 < chunk.header.payloadLength) :
    ∃ p : Bytes, (ensurePayload chunk m).payload = some p ∧ p.length = chunk.header.payloadLength
      ∧ 0 ≤ m.size ∧ m.size < chunk.header.payloadLength := by
  rcases h with ⟨hnone, hsize⟩ | ⟨p, hp, hlen, h₀, h₁⟩
  · refine ⟨_, rfl, ?_, by omega, by omega⟩
    rw [hnone, Option.getD_none, RtmpMessage.createPayload, List.length_replicate]
    omega
  · exact ⟨p, by rw [ensurePayload, hp, Option.getD_some], hlen, h₀, h₁⟩

/-- **A payload read stays in the allocation**, and keeps the invariant when it fails. -/
theorem holds_readPayloadBytes (hsrc : src.Lawful) {chunk : RtmpChunkStream} {io : σ}
    {m : RtmpMessage} {p : Bytes} {n : ℤ} (h : chunk.Inv) (hp : m.payload = some p)
    (hlen : p.length = chunk.header.payloadLength) (h₀ : 0 ≤ m.size)
    (h₁ : m.size < chunk.header.payloadLength) (hn : 0 ≤ n)
    (hfit : m.size + n ≤ chunk.header.payloadLength) :
    Holds (fun _ => False) (fun _ s => s.1.Inv)
      (fun _ s => ∃ p' : Bytes, p'.length = chunk.header.payloadLength
        ∧ s.1 = { chunk with msg := some { m with payload := some p' } })
      (readPayloadBytes src m n) (chunk, io) := by
  have hbs := hsrc.length_le io n hn
  have hin : 0 ≤ m.size ∧ 0 ≤ n ∧ m.size + n ≤ p.length := ⟨h₀, hn, by omega⟩
  have hsplice : m.size.toNat + (src.readBytes io n).1.2.length ≤ p.length := by omega
  have hstore : store p m.size (src.readBytes io n).1.2
      = some (splice p m.size.toNat (src.readBytes io n).1.2) := store_eq_some h₀ (by omega)
  have hlen' := length_splice hsplice
  simp only [readPayloadBytes, hp, holds_bind, holds_some, holds_get, hstore, holds_put,
    holds_ite, holds_fail, holds_pure]
  refine ⟨fun _ => ⟨fun _ => ⟨h.length_nonneg, h.length_lt, fun m' hm' => ?_⟩,
    fun _ => ⟨_, by rw [hlen', hlen], rfl⟩⟩, fun hout => hout hin⟩
  obtain rfl : { m with payload := some _ } = m' := Option.some.inj hm'
  exact Or.inr ⟨_, rfl, by rw [hlen', hlen], h₀, h₁⟩

theorem holds_finishPayload {chunk : RtmpChunkStream} {io : σ} {m : RtmpMessage} {p : Bytes} {n : ℤ}
    (h : chunk.Inv) (hm : chunk.msg = some m) (hhdr : m.header = chunk.header)
    (hp : m.payload = some p) (hlen : p.length = chunk.header.payloadLength) (h₀ : 0 ≤ m.size + n)
    (hfit : m.size + n ≤ chunk.header.payloadLength) :
    Holds (fun _ => False) (fun _ s => s.1.Inv)
      (fun out s => s.1.Inv ∧ ∀ m', out = some m' → m'.Complete) (finishPayload n) (chunk, io) := by
  simp only [finishPayload, getChunk, setChunk, holds_bind, holds_get, holds_pure, hm, holds_some,
    holds_ite, holds_put]
  refine ⟨fun hdone => ⟨⟨h.length_nonneg, h.length_lt, fun _ hno => by cases hno⟩,
      fun m' hm' => ?_⟩,
    fun hmore => ⟨⟨h.length_nonneg, h.length_lt, fun m' hm' => ?_⟩,
      fun _ hno => by cases hno⟩⟩
  · obtain rfl : { m with size := _ } = m' := Option.some.inj hm'
    refine ⟨by dsimp only; rw [hhdr, hdone], fun p' hp' => ?_⟩
    obtain rfl : p = p' := Option.some.inj (hp.symm.trans hp')
    dsimp only
    rw [hhdr, hlen]
  · obtain rfl : { m with size := _ } = m' := Option.some.inj hm'
    exact Or.inr ⟨p, hp, hlen, h₀, lt_of_le_of_ne hfit fun heq => hmore heq.symm⟩

/-- **A payload keeps the invariant**, and a message that is handed out is complete. -/
theorem holds_readMessagePayload (hsrc : src.Lawful) {inChunkSize : ℤ} (hc : 1 ≤ inChunkSize)
    {chunk : RtmpChunkStream} {io : σ} {m : RtmpMessage} (h : chunk.Inv) (hm : chunk.msg = some m)
    (hhdr : m.header = chunk.header) :
    Holds (fun _ => False) (fun _ s => s.1.Inv)
      (fun out s => s.1.Inv ∧ ∀ m', out = some m' → m'.Complete)
      (readMessagePayload src inChunkSize) (chunk, io) := by
  have hlen₀ := h.length_nonneg
  simp only [readMessagePayload, getChunk, setChunk, holds_bind, holds_get, holds_pure, holds_ite,
    holds_put]
  refine ⟨fun hzero => ?_, fun hpos => ?_⟩
  · -- an empty message
    refine ⟨⟨h.length_nonneg, h.length_lt, fun _ hno => by cases hno⟩, fun m' hm' => ?_⟩
    obtain rfl : m = m' := Option.some.inj (hm.symm.trans hm')
    rcases h.partialMsg m hm with ⟨hnone, hsize⟩ | ⟨p, -, -, h₀, h₁⟩
    · exact ⟨by rw [hsize, hhdr]; omega, fun p hp => by rw [hnone] at hp; cases hp⟩
    · omega
  · obtain ⟨p, hp, hlen, h₀, h₁⟩ := partial_ensurePayload (h.partialMsg m hm) (by omega)
    have hready : { chunk with msg := some (ensurePayload chunk m) }.Inv := by
      refine ⟨h.length_nonneg, h.length_lt, fun m' hm' => ?_⟩
      obtain rfl : ensurePayload chunk m = m' := Option.some.inj hm'
      exact Or.inr ⟨p, hp, hlen, h₀, h₁⟩
    have hle := min_le_left (chunk.header.payloadLength - m.size) inChunkSize
    have hnn : 0 ≤ min (chunk.header.payloadLength - m.size) inChunkSize := by omega
    simp only [hm, holds_some]
    refine (holds_readPayloadBytes hsrc hready hp hlen h₀ h₁ hnn
      (show m.size + _ ≤ chunk.header.payloadLength by omega)).imp (fun _ _ => id) ?_
    rintro - ⟨c, io'⟩ ⟨p', hlen', rfl⟩
    refine holds_finishPayload ⟨h.length_nonneg, h.length_lt, fun m' hm' => ?_⟩ rfl hhdr rfl hlen'
      (show 0 ≤ m.size + _ by omega) (show m.size + _ ≤ chunk.header.payloadLength by omega)
    obtain rfl : { ensurePayload chunk m with payload := some p' } = m' := Option.some.inj hm'
    exact Or.inr ⟨p', rfl, hlen', h₀, h₁⟩

/-! ## A chunk -/

/-- A call on the source reads a basic header or fails; it never stops. -/
theorem holds_readBasicHeader (io : σ) :
    Holds (fun _ => False) (fun _ _ => True) (fun out _ => 0 ≤ out.2) (readBasicHeader src) io := by
  simp only [readBasicHeader, readIo, holds_bind, holds_get, holds_put, holds_ite, holds_fail,
    holds_pure, holds_stop]
  refine ⟨fun _ => trivial, fun _ => ⟨fun h => by omega, fun _ => ⟨fun _ => ⟨fun _ => trivial,
    fun _ => by omega⟩, fun _ => ⟨fun _ => ⟨fun _ => trivial, fun _ => by omega⟩, ?_⟩⟩⟩⟩
  intro
  omega

/-- **What holds of the handler between two calls**: the invariant of every chunk stream. -/
structure Inv (h : RtmpProtocolHandler σ) : Prop where
  cache_length : h.csCache.length = tmssPerfChunkStreamCache
  streams : ∀ cid chunk, 0 ≤ cid → h.chunkStream cid = some chunk → chunk.Inv
  inChunkSize_pos : 1 ≤ h.inChunkSize

theorem Inv.exists_chunkStream {h : RtmpProtocolHandler σ} (hh : h.Inv) {cid : ℤ} (h₀ : 0 ≤ cid) :
    ∃ chunk, h.chunkStream cid = some chunk := by
  rw [chunkStream]
  split
  · exact ⟨_, List.getElem?_eq_getElem (by rw [hh.cache_length]; omega)⟩
  · exact ⟨_, rfl⟩

/-- The chunk stream that is set is the one that is found. -/
theorem chunkStream_setChunkStream_of_some {h : RtmpProtocolHandler σ} {cid : ℤ}
    {chunk : RtmpChunkStream} (hget : h.chunkStream cid = some chunk) (chunk' : RtmpChunkStream) :
    (h.setChunkStream cid chunk').chunkStream cid = some chunk' := by
  unfold setChunkStream
  by_cases hcid : cid < tmssPerfChunkStreamCache
  · rw [chunkStream, if_pos hcid] at hget
    have hlt : cid.toNat < h.csCache.length := (List.getElem?_eq_some_iff.1 hget).1
    rw [if_pos hcid, chunkStream, if_pos hcid]
    exact List.getElem?_set_self hlt
  · rw [if_neg hcid, chunkStream, if_neg hcid]
    exact congrArg (fun entry : Option RtmpChunkStream => some (entry.getD _)) (if_pos rfl)

/-- The other chunk streams are left. -/
theorem chunkStream_setChunkStream_of_ne {h : RtmpProtocolHandler σ} {cid cid' : ℤ} (h₀ : 0 ≤ cid)
    (h₁ : 0 ≤ cid') (hne : cid' ≠ cid) (chunk : RtmpChunkStream) :
    (h.setChunkStream cid chunk).chunkStream cid' = h.chunkStream cid' := by
  unfold setChunkStream
  by_cases hcid : cid < tmssPerfChunkStreamCache
  · rw [if_pos hcid, chunkStream, chunkStream]
    dsimp only
    rw [List.getElem?_set_ne (by omega)]
  · rw [if_neg hcid, chunkStream, chunkStream]
    dsimp only
    rw [if_neg hne]

/-- Updating a chunk stream is seen at that chunk stream only. -/
theorem chunkStream_setChunkStream {h : RtmpProtocolHandler σ}
    (hlen : h.csCache.length = tmssPerfChunkStreamCache) {cid cid' : ℤ} (h₀ : 0 ≤ cid)
    (h₁ : 0 ≤ cid') (chunk : RtmpChunkStream) :
    (h.setChunkStream cid chunk).chunkStream cid'
      = if cid' = cid then some chunk else h.chunkStream cid' := by
  by_cases hc : cid < tmssPerfChunkStreamCache <;> by_cases hc' : cid' < tmssPerfChunkStreamCache
  · simp only [setChunkStream, chunkStream, if_pos hc, if_pos hc', List.getElem?_set]
    by_cases heq : cid' = cid
    · rw [if_pos heq, if_pos (by rw [heq]), if_pos (by rw [hlen]; omega)]
    · rw [if_neg heq, if_neg (by omega)]
  · simp only [setChunkStream, chunkStream, if_pos hc, if_neg hc',
      if_neg (show cid' ≠ cid by omega)]
  · simp only [setChunkStream, chunkStream, if_neg hc, if_pos hc',
      if_neg (show cid' ≠ cid by omega)]
  · simp only [setChunkStream, chunkStream, if_neg hc, if_neg hc']
    by_cases heq : cid' = cid
    · rw [if_pos heq, if_pos heq, Option.getD_some]
    · rw [if_neg heq, if_neg heq]

theorem length_csCache_setChunkStream (h : RtmpProtocolHandler σ) (cid : ℤ)
    (chunk : RtmpChunkStream) :
    (h.setChunkStream cid chunk).csCache.length = h.csCache.length := by
  unfold setChunkStream
  split
  · exact List.length_set
  · rfl

theorem inChunkSize_setChunkStream (h : RtmpProtocolHandler σ) (cid : ℤ)
    (chunk : RtmpChunkStream) : (h.setChunkStream cid chunk).inChunkSize = h.inChunkSize := by
  unfold setChunkStream
  split <;> rfl

theorem Inv.setChunkStream {h : RtmpProtocolHandler σ} (hh : h.Inv) {cid : ℤ} (h₀ : 0 ≤ cid)
    {chunk : RtmpChunkStream} (hc : chunk.Inv) (io : σ) :
    { h.setChunkStream cid chunk with ioBuffer := io : RtmpProtocolHandler σ }.Inv := by
  refine ⟨(length_csCache_setChunkStream h cid chunk).trans hh.cache_length,
    fun cid' chunk' h₁ hget => ?_, ?_⟩
  · have hget' : (h.setChunkStream cid chunk).chunkStream cid' = some chunk' := hget
    rw [chunkStream_setChunkStream hh.cache_length h₀ h₁] at hget'
    split at hget'
    · obtain rfl := Option.some.inj hget'
      exact hc
    · exact hh.streams cid' chunk' h₁ hget'
  · change 1 ≤ (h.setChunkStream cid chunk).inChunkSize
    rw [inChunkSize_setChunkStream]
    exact hh.inChunkSize_pos

/-- Every chunk stream of a new handler is as it is created. -/
theorem chunkStream_new (io : σ) (fix : Bool) (inChunkSize : ℤ) {cid : ℤ} (h₀ : 0 ≤ cid) :
    (RtmpProtocolHandler.new io fix inChunkSize).chunkStream cid
      = some (RtmpChunkStream.new cid) := by
  rw [chunkStream]
  split
  · simp only [RtmpProtocolHandler.new, List.getElem?_map]
    rw [List.getElem?_range (by omega), Option.map_some, Int.toNat_of_nonneg h₀]
  · rfl

theorem inv_new (io : σ) (fix : Bool) {inChunkSize : ℤ} (hc : 1 ≤ inChunkSize) :
    (RtmpProtocolHandler.new io fix inChunkSize).Inv := by
  refine ⟨by simp [RtmpProtocolHandler.new], fun cid chunk h₀ hget => ?_, hc⟩
  obtain rfl := Option.some.inj ((chunkStream_new io fix inChunkSize h₀).symm.trans hget)
  exact RtmpChunkStream.inv_new cid

/-- **A call of `recv_interlaced_message` keeps the invariant of every chunk stream**, whatever it
reads and wherever it fails. -/
theorem holds_recvInterlacedMessage (hsrc : src.Lawful) (ext : BitVec 32)
    {h : RtmpProtocolHandler σ} (hh : h.Inv) :
    Holds (fun _ => False) (fun _ h' => h'.Inv)
      (fun out h' => h'.Inv ∧ ∀ m, out = some m → m.Complete)
      (recvInterlacedMessage src ext) h := by
  have hio : ∀ io, { h with ioBuffer := io : RtmpProtocolHandler σ }.Inv := fun io =>
    ⟨hh.cache_length, hh.streams, hh.inChunkSize_pos⟩
  simp only [recvInterlacedMessage, holds_bind, holds_zoom]
  refine (holds_readBasicHeader h.ioBuffer).imp (fun _ io _ => hio io) ?_
  rintro ⟨fmt, cid⟩ io h₀
  dsimp only at h₀ ⊢
  obtain ⟨chunk, hchunk⟩ := (hio io).exists_chunkStream h₀
  have hinv := (hio io).streams cid chunk h₀ hchunk
  simp only [cassert, if_pos (show cid ≥ 0 from h₀), holds_pure, holds_get, hchunk, holds_some,
    onChunk, holds_zoom, holds_bind]
  refine (holds_readMessageHeader _ ext fmt hinv).imp (fun _ s hs => ?_) fun _ s hs => ?_
  · exact (hio io).setChunkStream h₀ hs s.2
  · obtain ⟨hs, m, hm, hhdr⟩ := hs
    refine (holds_readMessagePayload hsrc hh.inChunkSize_pos hs hm hhdr).imp (fun _ s' hs' => ?_) ?_
    · exact (hio io).setChunkStream h₀ hs' s'.2
    · rintro out s' ⟨hs', hout⟩
      exact ⟨(hio io).setChunkStream h₀ hs' s'.2, hout⟩

end RtmpProtocolHandler

/-! ## Whole runs -/

/-- The bytes `bs` as a source; reading past their end fails and stores nothing. -/
def ByteSource.ofBytes : ByteSource Bytes where
  readBytes := fun bs n =>
    if n ≤ bs.length then ((errorSuccess, bs.take n.toNat), bs.drop n.toNat)
    else ((errorSocketRead, []), bs)
  seekRead := fun bs _ => bs

theorem ByteSource.ofBytes_lawful : ByteSource.ofBytes.Lawful := by
  refine ⟨fun bs n hn => ?_, fun bs n hn hret => ?_⟩
  · simp only [ofBytes]
    split
    · rw [List.length_take]
      omega
    · exact hn
  · simp only [ofBytes] at hret ⊢
    split at hret
    · rw [if_pos ‹_›, List.length_take]
      omega
    · exact absurd (show errorSocketRead = errorSuccess from hret) (by decide)

/-- A call of `recv_interlaced_message`: the chunk size in force, and the extended timestamp it
would read. -/
structure RecvCall where
  inChunkSize : ℤ
  one_le : 1 ≤ inChunkSize
  ext : BitVec 32

/-- The call, its code kept as a value: a caller may go on after an error. -/
def RecvCall.run {σ : Type} (src : ByteSource σ) (call : RecvCall) :
    RtmpProtocolHandler.Call σ (Except ℤ (Option RtmpMessage)) := do
  put { (← get) with inChunkSize := call.inChunkSize }
  attempt (RtmpProtocolHandler.recvInterlacedMessage src call.ext)

/-- A reply with a complete message, or with none. -/
def CompleteReply (out : Except ℤ (Option RtmpMessage)) : Prop :=
  ∀ m, out = .ok (some m) → m.Complete

theorem RecvCall.refines {σ : Type} {src : ByteSource σ} (hsrc : src.Lawful) (call : RecvCall) :
    Refines (fun _ _ _ => False) (fun (h : RtmpProtocolHandler σ) (_ : Unit) => h.Inv)
      (fun _ _ out _ => CompleteReply out) (RecvCall.run src) call := by
  intro h _ hh
  have hsize : { h with inChunkSize := call.inChunkSize }.Inv :=
    ⟨hh.cache_length, hh.streams, call.one_le⟩
  simp only [RecvCall.run, holds_bind, holds_get, holds_put, holds_attempt]
  refine (RtmpProtocolHandler.holds_recvInterlacedMessage hsrc call.ext hsize).imp
    (fun c h' hh' => ⟨(), (fun m hm => by cases hm), hh'⟩) ?_
  rintro out h' ⟨hh', hout⟩
  exact ⟨(), fun m hm => hout m (Except.ok.inj hm), hh'⟩

/-- **The bound holds in every reachable state**: whatever the source delivers, wherever it fails
and whatever the extended timestamps are, any run of `recv_interlaced_message` calls stays inside
the allocations (it does not stop), leaves every chunk stream with a partial message that fits its
allocation, and hands out complete messages only. -/
theorem recv_keeps_chunk_streams {σ : Type} (src : ByteSource σ) (hsrc : src.Lawful) (io : σ)
    (fixTimestamp : Bool) (inChunkSize : ℤ) (hc : 1 ≤ inChunkSize) (calls : List RecvCall) :
    ∃ outs h, calls.mapM (RecvCall.run src)
        (RtmpProtocolHandler.new io fixTimestamp inChunkSize) = .ok (.ok outs, h)
      ∧ (∀ cid chunk, 0 ≤ cid → h.chunkStream cid = some chunk →
          ∀ m p, chunk.msg = some m → m.payload = some p →
            0 ≤ m.size ∧ m.size < chunk.header.payloadLength
              ∧ chunk.header.payloadLength < 2 ^ 24 ∧ p.length = chunk.header.payloadLength)
      ∧ ∀ m, Except.ok (some m) ∈ outs → m.size = m.header.payloadLength := by
  have hrun := Refines.mapM_const (fun call (_ : call ∈ calls) => RecvCall.refines hsrc call)
    (RtmpProtocolHandler.inv_new io fixTimestamp hc) (q := ())
  obtain ⟨outs, h, heq, _, hruns, hh⟩ := hrun.returns
  refine ⟨outs, h, heq, fun cid chunk h₀ hget m p hm hp => ?_, fun m hm => ?_⟩
  · have hinv := hh.streams cid chunk h₀ hget
    rcases hinv.partialMsg m hm with ⟨hnone, -⟩ | ⟨p', hp', hlen, hs₀, hs₁⟩
    · rw [hnone] at hp
      cases hp
    · obtain rfl := Option.some.inj (hp'.symm.trans hp)
      exact ⟨hs₀, hs₁, hinv.length_lt, hlen⟩
  · have hall : ∀ out ∈ outs, CompleteReply out :=
      hruns.forall_mem (P := CompleteReply) fun _ _ _ _ h => h
    exact (hall _ hm m rfl).1

/-- A message of three bytes cut after its second one by the end of the stream. -/
theorem recv_keeps_chunk_streams_cut :
    ∃ outs h, [RecvCall.mk 2 (by decide) 0, RecvCall.mk 2 (by decide) 0].mapM
          (RecvCall.run ByteSource.ofBytes)
          (RtmpProtocolHandler.new [3, 0, 0, 0, 0, 0, 3, 9, 1, 0, 0, 0, 7, 7, 0xC3] true 2)
        = .ok (.ok outs, h)
      ∧ (∀ cid chunk, 0 ≤ cid → h.chunkStream cid = some chunk →
          ∀ m p, chunk.msg = some m → m.payload = some p →
            0 ≤ m.size ∧ m.size < chunk.header.payloadLength
              ∧ chunk.header.payloadLength < 2 ^ 24 ∧ p.length = chunk.header.payloadLength)
      ∧ ∀ m, Except.ok (some m) ∈ outs → m.size = m.header.payloadLength :=
  recv_keeps_chunk_streams ByteSource.ofBytes ByteSource.ofBytes_lawful _ true 2 (by decide) _

end SmartStreaming
