import SmartStreaming.Machinery.Blocks
import SmartStreaming.Rtmp.Chunk.Invariant
import SmartStreaming.Rtmp.Control

/-!
# Rtmp/Chunk/CallerBuffer — `recv_message`: receiving into a buffer of the caller

`recv_message(buf, size)` gives `buf` to every message it receives a chunk of, as its `payload`, in
place of the block the message had, which is deleted.  A message deletes its payload when it ends.
Here a payload is a pointer, `payloads`, next to the chunk streams of `Rtmp/Chunk/Recv`, whose
messages keep none; `delete[]` of a block that is not allocated stops the program.
-/

namespace SmartStreaming

open Machinery Comp RtmpProtocolHandler

/-- A `char*` that is not `NULL`. -/
abbrev Ptr := ℕ

/-- The handler and the memory. -/
structure Receiver (σ : Type) where
  session : RtmpSession σ
  /-- `chunk->msg->payload` of each chunk stream. -/
  payloads : ℤ → Option Ptr
  memory : Blocks Byte

namespace Receiver

variable {σ : Type}

/-- Calls that receive. -/
abbrev Call (σ : Type) := Comp Fault (Receiver σ) ℤ

/-- A call of the chunk layer. -/
def onHandler {α : Type} (f : RtmpProtocolHandler.Call σ α) : Call σ α :=
  zoom (fun s => s.session.toRtmpProtocolHandler)
    (fun h s => { s with session := { s.session with toRtmpProtocolHandler := h } }) f

/-- The chunk stream `cid`. -/
def getChunkStream (cid : ℤ) : Call σ RtmpChunkStream := do
  ofOption .outOfBounds ((← get).session.chunkStream cid)

/-- A call on the chunk stream `cid`. -/
def onChunkStream {α : Type} (cid : ℤ) (f : OnChunk σ α) : Call σ α := do
  let chunk ← getChunkStream cid
  onHandler (onChunk cid chunk f)

/-- The payload pointer of the message of the chunk stream `cid`. -/
def setPayloadPtr (cid : ℤ) (payload : Option Ptr) : Call σ PUnit := do
  let s ← get
  put { s with payloads := fun i => if i = cid then payload else s.payloads i }

/-! ## Payloads -/

/-- `freepa(payload)`. -/
def freepa : Option Ptr → Call σ PUnit
  | none => return ⟨⟩
  | some p => do
    let s ← get
    let memory ← ofOption .deadBlock (s.memory.free p)
    put { s with memory := memory }

/-- `chunk->msg->set_payload(buf)`. -/
def setPayload (cid : ℤ) (buf : Ptr) : Call σ PUnit := do
  let s ← get
  freepa (s.payloads cid)
  setPayloadPtr cid (some buf)

/-- The buffer of the caller becomes the payload, and has to be long enough. -/
def attach (cid : ℤ) (recvBuf : Option Ptr) (bufSize : ℤ) : Call σ PUnit :=
  match recvBuf with
  | none => return ⟨⟩
  | some buf =>
    onlyIf (bufSize > 0) (do
      setPayload cid buf
      let chunk ← getChunkStream cid
      ensure (¬ bufSize < chunk.header.payloadLength) errorBufferNotEnough)

/-- `create_payload(payload_length)`, when the message has no payload. -/
def ensurePayloadPtr (cid payloadLength : ℤ) : Call σ Ptr := do
  let s ← get
  match s.payloads cid with
  | some p => return p
  | none =>
    let (p, memory) := s.memory.alloc (RtmpMessage.createPayload payloadLength)
    put { s with memory := memory }
    setPayloadPtr cid (some p)
    return p

/-- `io_buffer->read_bytes(payload + size, n)`. -/
def readBytesTo (src : ByteSource σ) (payload : Ptr) (size n : ℤ) : Call σ PUnit := do
  let s ← get
  let block ← ofOption .deadBlock (s.memory.get payload)
  if 0 ≤ size ∧ 0 ≤ n ∧ size + n ≤ block.length then
    let out := src.readBytes s.session.ioBuffer n
    let block ← ofOption .outOfBounds (store block size out.1.2)
    put { s with
      session := { s.session with ioBuffer := out.2 }
      memory := s.memory.set payload block }
    if out.1.1 ≠ errorSuccess then fail out.1.1 else return ⟨⟩
  else stop .outOfBounds

/-- The message leaves its chunk stream, with its payload. -/
def handOut (cid : ℤ) (msg : RtmpMessage) : Call σ (Option (RtmpMessage × Option Ptr)) := do
  let s ← get
  let payload := s.payloads cid
  onChunkStream cid (do setChunk { (← getChunk) with msg := none })
  setPayloadPtr cid none
  return some (msg, payload)

/-- The bytes of a chunk, and the message when they are its last ones. -/
def readPayload (src : ByteSource σ) (cid : ℤ) (chunk : RtmpChunkStream) (msg : RtmpMessage) :
    Call σ (Option (RtmpMessage × Option Ptr)) := do
  let payloadSize := min (chunk.header.payloadLength - msg.size) (← get).session.inChunkSize
  let payload ← ensurePayloadPtr cid chunk.header.payloadLength
  readBytesTo src payload msg.size payloadSize
  let msg := { msg with size := msg.size + payloadSize }
  if chunk.header.payloadLength = msg.size then
    handOut cid msg
  else
    onChunkStream cid (setChunk { chunk with msg := some msg })
    return none

/-- `read_message_payload(chunk, msg)`. -/
def readMessagePayloadTo (src : ByteSource σ) (cid : ℤ) :
    Call σ (Option (RtmpMessage × Option Ptr)) := do
  let chunk ← getChunkStream cid
  let msg ← ofOption .nullPointer chunk.msg
  if chunk.header.payloadLength ≤ 0 then handOut cid msg
  else readPayload src cid chunk msg

/-! ## Receiving -/

/-- `recv_interlaced_message(msg, recv_buf, buf_size)`: the message that the chunk completes, with
its payload. -/
def recvInterlacedMessageTo (src : ByteSource σ) (ext : BitVec 32) (recvBuf : Option Ptr)
    (bufSize : ℤ) : Call σ (Option (RtmpMessage × Option Ptr)) := do
  let (fmt, cid) ← onHandler
    (zoom ioBuffer (fun io h => { h with ioBuffer := io }) (readBasicHeader src))
  cassert (cid ≥ 0)
  let fixRtmpTimestamp := (← get).session.fixRtmpTimestamp
  onChunkStream cid (readMessageHeader src fixRtmpTimestamp ext fmt)
  attach cid recvBuf bufSize
  readMessagePayloadTo src cid

/-- `on_recv_message(msg, pkt)`, its code kept as a value. -/
def handleMessage (getRecvBytes : σ → BitVec 64) (msg : RtmpMessage) (payload : Option Ptr) :
    Call σ (Except ℤ (Option RtmpPacket)) := do
  let s ← get
  attempt (zoom Receiver.session (fun h s => { s with session := h })
    (RtmpSession.onRecvMessage getRecvBytes
      { msg with payload := payload.bind s.memory.get } none))

/-- What `recv_message` returns for a message. -/
def replyWith (msg : RtmpMessage) : Except ℤ (Option RtmpPacket) → Call σ ℤ
  | .error code => fail code
  | .ok _ => return msg.size

/-- The end of a round of `recv_message` that has a message to return: the message ends, and with
it its payload. -/
def finishMessage (getRecvBytes : σ → BitVec 64) (msg : RtmpMessage) (payload : Option Ptr) :
    Call σ ℤ := do
  let ret ← handleMessage getRecvBytes msg payload
  freepa payload
  replyWith msg ret

/-- `recv_message(buf, size)` with at most `fuel` chunks; `ext fuel` are the four bytes behind the
header block in that round. -/
def recvMessage (src : ByteSource σ) (getRecvBytes : σ → BitVec 64) (ext : ℕ → BitVec 32)
    (buf : Ptr) (size : ℤ) : ℕ → Call σ ℤ
  | 0 => stop .outOfFuel
  | fuel + 1 => do
    match ← recvInterlacedMessageTo src (ext fuel) (some buf) size with
    | none => recvMessage src getRecvBytes ext buf size fuel
    | some (msg, payload) =>
      if msg.size ≤ 0 ∨ msg.header.payloadLength ≤ 0 then
        -- an empty message ends here
        freepa payload
        recvMessage src getRecvBytes ext buf size fuel
      else finishMessage getRecvBytes msg payload

/-! ## Whose payload it is -/

section Payload

variable {src : ByteSource σ} {cid : ℤ} {buf : Ptr} {s : Receiver σ} {F : Fault → Prop}
  {E : ℤ → Receiver σ → Prop}

/-- Deleting a payload leaves the pointers. -/
theorem holds_freepa (payload : Option Ptr) :
    Holds (fun _ => True) (fun _ _ => True)
      (fun _ s' => s'.payloads = s.payloads
        ∧ ∀ p, payload = some p → s'.memory.get p = none)
      (freepa payload) s := by
  cases payload with
  | none => exact ⟨rfl, fun p hp => by cases hp⟩
  | some p =>
    rw [freepa, holds_bind, holds_get]
    cases hfree : s.memory.free p with
    | none => trivial
    | some memory =>
      refine ⟨rfl, fun q hq => ?_⟩
      obtain rfl := Option.some.inj hq
      exact Blocks.get_of_free hfree

/-- Looking up a chunk stream changes nothing. -/
theorem holds_getChunkStream (cid : ℤ) :
    Holds (fun _ => True) (fun _ _ => True) (fun _ s' => s' = s) (getChunkStream cid) s := by
  rw [getChunkStream, holds_bind, holds_get]
  cases s.session.chunkStream cid with
  | none => trivial
  | some chunk => rfl

/-- **The buffer of the caller is the payload** from here on. -/
theorem holds_attach {bufSize : ℤ} (hsize : 0 < bufSize) :
    Holds (fun _ => True) (fun _ _ => True) (fun _ s' => s'.payloads cid = some buf)
      (attach cid (some buf) bufSize) s := by
  rw [attach, onlyIf, if_pos hsize, setPayload, holds_bind, holds_bind, holds_get, holds_bind]
  refine (holds_freepa _).imp (fun _ _ => id) ?_
  intro _ s₁ _
  rw [setPayloadPtr, holds_bind, holds_get, holds_put, holds_bind]
  refine (holds_getChunkStream cid).imp (fun _ _ => id) ?_
  rintro chunk _ rfl
  rw [holds_ensure]
  exact ⟨fun _ => if_pos rfl, fun _ => trivial⟩

/-- A call on the chunk stream leaves the pointers. -/
theorem holds_onChunkStream {α : Type} (f : OnChunk σ α) :
    Holds (fun _ => True) (fun _ _ => True) (fun _ s' => s'.payloads = s.payloads)
      (onChunkStream cid f) s := by
  rw [onChunkStream, holds_bind]
  refine (holds_getChunkStream cid).imp (fun _ _ => id) ?_
  rintro chunk _ rfl
  rw [onHandler, onChunk, holds_zoom, holds_zoom, Holds]
  split <;> trivial

theorem holds_handOut (msg : RtmpMessage) (h : s.payloads cid = some buf) :
    Holds (fun _ => True) (fun _ _ => True)
      (fun out _ => ∀ m p, out = some (m, p) → p = some buf) (handOut cid msg) s := by
  rw [handOut, holds_bind, holds_get, holds_bind]
  refine (holds_onChunkStream _).imp (fun _ _ => id) ?_
  rintro _ s' -
  rw [setPayloadPtr, holds_bind, holds_bind, holds_get, holds_put, holds_pure]
  rintro m p hout
  obtain ⟨-, rfl⟩ := Prod.mk.inj (Option.some.inj hout)
  exact h

/-- Reading into the payload leaves the pointers. -/
theorem holds_readBytesTo (payload : Ptr) (size n : ℤ) :
    Holds (fun _ => True) (fun _ _ => True) (fun _ s' => s'.payloads = s.payloads)
      (readBytesTo src payload size n) s := by
  rw [readBytesTo, holds_bind, holds_get, holds_bind]
  cases s.memory.get payload with
  | none => trivial
  | some block =>
    rw [holds_some, holds_ite]
    refine ⟨fun _ => ?_, fun _ => trivial⟩
    rw [holds_bind]
    cases store block size (src.readBytes s.session.ioBuffer n).1.2 with
    | none => trivial
    | some block =>
      rw [holds_some, holds_bind, holds_put, holds_ite]
      exact ⟨fun _ => trivial, fun _ => rfl⟩

/-- **A message that is handed out has the payload its chunk stream had.** -/
theorem holds_readMessagePayloadTo (h : s.payloads cid = some buf) :
    Holds (fun _ => True) (fun _ _ => True)
      (fun out _ => ∀ m p, out = some (m, p) → p = some buf)
      (readMessagePayloadTo src cid) s := by
  rw [readMessagePayloadTo, holds_bind]
  refine (holds_getChunkStream cid).imp (fun _ _ => id) ?_
  rintro chunk _ rfl
  rw [holds_bind]
  cases chunk.msg with
  | none => trivial
  | some msg =>
    rw [holds_some, holds_ite]
    refine ⟨fun _ => holds_handOut msg h, fun _ => ?_⟩
    rw [readPayload, holds_bind, holds_get, holds_bind, ensurePayloadPtr, holds_bind, holds_get, h]
    dsimp only
    rw [holds_pure, holds_bind]
    refine (holds_readBytesTo _ _ _).imp (fun _ _ => id) ?_
    intro _ s' hs'
    rw [holds_ite]
    refine ⟨fun _ => holds_handOut _ (by rw [hs', h]), fun _ => ?_⟩
    rw [holds_bind]
    refine (holds_onChunkStream _).imp (fun _ _ => id) ?_
    rintro _ _ - m p hout
    cases hout

/-- A chunk that completes a message completes it in the buffer of the caller. -/
theorem holds_recvInterlacedMessageTo (ext : BitVec 32) {bufSize : ℤ} (hsize : 0 < bufSize) :
    Holds (fun _ => True) (fun _ _ => True)
      (fun out _ => ∀ m p, out = some (m, p) → p = some buf)
      (recvInterlacedMessageTo src ext (some buf) bufSize) s := by
  rw [recvInterlacedMessageTo, holds_bind]
  refine (holds_true _ _).imp (fun _ _ => id) ?_
  rintro ⟨fmt, cid⟩ s₁ -
  rw [holds_bind]
  refine (holds_true _ _).imp (fun _ _ => id) ?_
  rintro _ s₂ -
  rw [holds_bind, holds_get, holds_bind]
  refine (holds_true _ _).imp (fun _ _ => id) ?_
  rintro _ s₃ -
  rw [holds_bind]
  refine (holds_attach hsize).imp (fun _ _ => id) ?_
  intro _ s₄ hs₄
  exact holds_readMessagePayloadTo hs₄

end Payload

/-! ## What is left in the buffer -/

/-- A message that is returned takes its payload with it. -/
theorem holds_finishMessage (getRecvBytes : σ → BitVec 64) (msg : RtmpMessage) (buf : Ptr)
    (s : Receiver σ) :
    Holds (fun _ => True) (fun _ _ => True) (fun _ s' => s'.memory.get buf = none)
      (finishMessage getRecvBytes msg (some buf)) s := by
  rw [finishMessage, holds_bind]
  refine (holds_true _ _).imp (fun _ _ => id) ?_
  rintro ret s₁ -
  rw [holds_bind]
  refine (holds_freepa _).imp (fun _ _ => id) ?_
  rintro _ s₂ ⟨-, hgone⟩
  cases ret with
  | error code => trivial
  | ok packet => exact hgone buf rfl

/-- **`recv_message` deletes the buffer of its caller** whenever it returns a size. -/
theorem holds_recvMessage (src : ByteSource σ) (getRecvBytes : σ → BitVec 64) (ext : ℕ → BitVec 32)
    (buf : Ptr) {size : ℤ} (hsize : 0 < size) (fuel : ℕ) (s : Receiver σ) :
    Holds (fun _ => True) (fun _ _ => True) (fun _ s' => s'.memory.get buf = none)
      (recvMessage src getRecvBytes ext buf size fuel) s := by
  induction fuel generalizing s with
  | zero => trivial
  | succ fuel ih =>
    rw [recvMessage, holds_bind]
    refine (holds_recvInterlacedMessageTo (ext fuel) hsize).imp (fun _ _ => id) ?_
    rintro (_ | ⟨msg, payload⟩) s₁ hout
    · exact ih s₁
    · obtain rfl := hout msg payload rfl
      dsimp only
      rw [holds_ite]
      refine ⟨fun _ => ?_, fun _ => ?_⟩
      · rw [holds_bind]
        exact (holds_freepa _).imp (fun _ _ => id) fun _ s₂ _ => ih s₂
      · exact holds_finishMessage getRecvBytes msg buf s₁

/-- The bytes at `buf` begin with `payload`. -/
def HoldsAt (s : Receiver σ) (buf : Ptr) (payload : Bytes) : Prop :=
  ∃ block, s.memory.get buf = some block ∧ payload <+: block

/-- **Whenever `recv_message` returns the size of a message, its buffer holds no payload**: it is no
buffer any more. -/
theorem returned_payload_not_in_buffer (src : ByteSource σ) (getRecvBytes : σ → BitVec 64)
    (ext : ℕ → BitVec 32) (buf : Ptr) (size n : ℤ) (fuel : ℕ) (s s' : Receiver σ) (hn : 0 < n)
    (hsize : n ≤ size) (hrun : recvMessage src getRecvBytes ext buf size fuel s = .ok (.ok n, s'))
    (payload : Bytes) : ¬ s'.HoldsAt buf payload := by
  rintro ⟨block, hblock, -⟩
  have hgone : s'.memory.get buf = none :=
    (holds_recvMessage src getRecvBytes ext buf (by omega) fuel s).elim_ok hrun
  rw [hgone] at hblock
  cases hblock

/-- A handler that is about to receive `stream` in chunks of `inChunkSize` bytes, and one block of
eight bytes, at 0. -/
def ofStream (inChunkSize : ℤ) (stream : Bytes) : Receiver Bytes where
  session := {
    toRtmpProtocolHandler := .new stream false inChunkSize
    inAckSize := {}
    inBufferLength := 0
    requests := []
    autoResponseWhenRecv := true
    manualResponseQueue := [] }
  payloads := fun _ => none
  memory := ⟨fun p => if p = 0 then some (List.replicate 8 0) else none, 1⟩

/-- A video message of the bytes 7, 8, 9 in a single chunk. -/
def videoChunk : Bytes := [3, 0, 0, 0, 0, 0, 3, 9, 1, 0, 0, 0, 7, 8, 9]

/-- Two messages of four bytes on two chunk streams, cut into chunks of two bytes that alternate. -/
def alternatingChunks : Bytes :=
  [3, 0, 0, 0, 0, 0, 4, 9, 1, 0, 0, 0, 1, 2] ++ [4, 0, 0, 0, 0, 0, 4, 9, 1, 0, 0, 0, 5, 6]
    ++ [0xC3, 3, 4] ++ [0xC4, 7, 8]

/-- **A message of three bytes is returned in a buffer that is deleted**; of two messages that
alternate none is returned, since the second chunk of the first one deletes the buffer it is to be
read into. -/
theorem returned_buffer_deleted :
    (∃ s', recvMessage ByteSource.ofBytes (fun _ => 0) (fun _ => 0) 0 8 1 (ofStream 128 videoChunk)
        = .ok (.ok 3, s') ∧ ¬ s'.HoldsAt 0 [7, 8, 9])
    ∧ (recvMessage ByteSource.ofBytes (fun _ => 0) (fun _ => 0) 0 8 4).fault
        (ofStream 2 alternatingChunks) = some .deadBlock := by
  refine ⟨⟨_, rfl, ?_⟩, by decide +kernel⟩
  rintro ⟨block, hblock, -⟩
  cases hblock

theorem returned_payload_not_in_buffer_video : ∃ s',
    recvMessage ByteSource.ofBytes (fun _ => 0) (fun _ => 0) 0 8 1 (ofStream 128 videoChunk)
      = .ok (.ok 3, s') ∧ ¬ s'.HoldsAt 0 [7, 8, 9] :=
  ⟨_, rfl, returned_payload_not_in_buffer ByteSource.ofBytes (fun _ => 0) (fun _ => 0) 0 8 3 1
    (ofStream 128 videoChunk) _ (by decide) (by decide) rfl [7, 8, 9]⟩

end Receiver

end SmartStreaming
