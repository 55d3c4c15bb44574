import SmartStreaming.Base.Io.IOBuffer
import SmartStreaming.Http.Response

/-!
# Format/Raw — `RawMux` and `RawDeMux` of `tmss_format_raw.cpp`

The mux puts a packet into its buffer and writes the buffer out through its callback.  With a
callback that accepts every byte, what has been written is the status line followed by the packets
that the buffer has room for (`RawMux.output_eq`).  The demux makes a packet of all that its buffer
holds after at most one read (`RawDeMux.handleInput_eq`).
-/

namespace SmartStreaming

open Machinery Comp Buffer

/-- `class RawMux`; `client` is what the callback works on. -/
structure RawMux (ω : Type) where
  buffer : Buffer
  isSendHeader : Bool := false
  writePacketFunc : Option (ω → Bytes → ℤ × ω)
  client : ω

namespace RawMux

variable {ω : Type}

/-- Calls on a `RawMux*`. -/
abbrev Call (ω : Type) := Comp Fault (RawMux ω) ℤ

/-- `init_output`. -/
def new (buffer : Bytes) (bufferSize : ℤ) (writePacket : Option (ω → Bytes → ℤ × ω))
    (client : ω) : RawMux ω where
  buffer := Buffer.new buffer bufferSize
  writePacketFunc := writePacket
  client := client

def onBuffer {α : Type} (f : Stream α) : Call ω α :=
  zoom buffer (fun b m => { m with buffer := b }) f

/-- `write_packet_func(opaque, buffer->rcurrent(), n)`. -/
def writeOut (write : ω → Bytes → ℤ × ω) (n : ℤ) : Call ω ℤ := do
  let m ← get
  let bs ← ofOption .outOfBounds (load m.buffer.buf m.buffer.rpos n)
  put { m with client := (write m.client bs).2 }
  return (write m.client bs).1

/-- The second write of `flush_write`, of what is left behind the end of the block. -/
def flushRest (write : ω → Bytes → ℤ × ω) : Call ω PUnit := do
  let readLeft := (← get).buffer.readLeft
  onlyIf (readLeft > 0) do
    let _ ← writeOut write readLeft
    onBuffer reset

/-- What `flush_write` does with its callback. -/
def flushWith (write : ω → Bytes → ℤ × ω) : Call ω ℤ := do
  let writeSize ← writeOut write (← get).buffer.continuousReadLeft
  let _ ← onBuffer (seekRead writeSize)
  flushRest write
  return errorSuccess

def flushWrite : Call ω ℤ := do
  match (← get).writePacketFunc with
  | none => return errorSuccess
  | some write => flushWith write

/-- `buffer->write_bytes(packet->buffer(), packet->get_size())`, and out with it. -/
def writePacket (packet : Bytes) : Call ω ℤ := do
  let _ ← onBuffer (writeBytes packet packet.length)
  let _ ← flushWrite
  return 0

def handleOutput (packet : Bytes) : Call ω ℤ := do
  if (← get).buffer.writeLeft < packet.length then do
    let _ ← flushWrite
    if (← get).buffer.writeLeft < packet.length then
      return -1
    else writePacket packet
  else writePacket packet

/-- The text that `send_status` writes. -/
def statusText (status : ℤ) : Bytes :=
  text "HTTP/1.1 " ++ httpStatusDetail status ++ text "\r\n\r\n"

/-- What `send_status` does before the header has been sent. -/
def sendHeader (status : ℤ) : Call ω ℤ := do
  let m ← get
  match m.writePacketFunc with
  | none => put { m with isSendHeader := true }
  | some write =>
    put { m with client := (write m.client (statusText status)).2, isSendHeader := true }
  return errorSuccess

def sendStatus (status : ℤ) : Call ω ℤ := do
  if (← get).isSendHeader then
    return errorSuccess
  else sendHeader status

/-- A session: the status, and then the packets one after another. -/
def output (status : ℤ) (packets : List Bytes) : Call ω (List ℤ) := do
  let _ ← sendStatus status
  packets.mapM handleOutput

/-! ## What is written -/

/-- A callback that accepts every byte: what it has been given. -/
def accept (written bs : Bytes) : ℤ × Bytes := (bs.length, written ++ bs)

/-- The client takes every byte that it is sent. -/
def TakesAll (write : Bytes → Bytes → ℤ × Bytes) : Prop :=
  ∀ written bs, write written bs = ((bs.length : ℤ), written ++ bs)

theorem TakesAll.eq_accept {write : Bytes → Bytes → ℤ × Bytes} (h : TakesAll write) :
    write = accept := funext₂ h

theorem takesAll_accept : TakesAll accept := fun _ _ => rfl

/-- A mux between two packets, which has written `written`. -/
structure Idle (size : ℤ) (written : Bytes) (m : RawMux Bytes) : Prop where
  valid : m.buffer.Valid
  content_eq : m.buffer.content = []
  size_eq : m.buffer.size = size
  accepts : m.writePacketFunc = some accept
  client_eq : m.client = written

section Flush

variable {b : Buffer} {m : RawMux Bytes}

/-- The contiguous part is skipped as a whole. -/
theorem seekRead_continuousReadLeft (hb : b.Valid) :
    ∃ r, seekRead b.continuousReadLeft b = .ok (.ok r, b.skip b.continuousReadLeft) := by
  obtain ⟨h₀, -, h₁⟩ := continuousReadLeft_bounds hb
  obtain h | h := h₀.eq_or_lt
  · rw [← h, skip_zero hb]
    exact ⟨_, seekRead_of_le b (le_refl _)⟩
  · exact ⟨_, seekRead_eq b h h₁⟩

/-- **What is left behind it lies in one piece.** -/
theorem rpos_add_readLeft_skip (hb : b.Valid) :
    (b.skip b.continuousReadLeft).rpos + (b.skip b.continuousReadLeft).readLeft ≤ b.size := by
  obtain ⟨h₀, h₁, h₂⟩ := continuousReadLeft_bounds hb
  have hleft := readLeft_skip hb h₀ h₂
  have hrpos : (b.skip b.continuousReadLeft).rpos = b.next b.rpos b.continuousReadLeft := rfl
  have hnext := next_eq b hb.rpos_nonneg hb.rpos_lt h₀ (by have := hb.rpos_nonneg; omega)
  have hread := readLeft_eq hb
  have hwpos := hb.wpos_lt
  rw [hleft, hrpos, hnext]
  unfold continuousReadLeft at h₀ h₁ h₂ ⊢
  split at hread <;> split <;> split <;> omega

/-- The callback is given the bytes from `rcurrent()` on. -/
theorem writeOut_run {m : RawMux ω} (write : ω → Bytes → ℤ × ω) (hb : m.buffer.Valid) {n : ℤ}
    (h₀ : 0 ≤ n) (h₁ : n ≤ m.buffer.readLeft) (h₂ : m.buffer.rpos + n ≤ m.buffer.size) :
    writeOut write n m = .ok (.ok (write m.client (m.buffer.content.take n.toNat)).1,
      { m with client := (write m.client (m.buffer.content.take n.toNat)).2 }) := by
  rw [writeOut, run_get_bind, load_rpos hb h₀ h₁ h₂, run_some_bind, run_put_bind, run_pure]

theorem writeOut_eq (hb : m.buffer.Valid) {n : ℤ} (h₀ : 0 ≤ n) (h₁ : n ≤ m.buffer.readLeft)
    (h₂ : m.buffer.rpos + n ≤ m.buffer.size) :
    writeOut accept n m
      = .ok (.ok n, { m with client := m.client ++ m.buffer.content.take n.toNat }) := by
  have hlen := length_content hb
  have hn : ((m.buffer.content.take n.toNat).length : ℤ) = n := by
    rw [List.length_take]
    omega
  rw [writeOut_run accept hb h₀ h₁ h₂, accept, hn]

theorem onBuffer_eq {m : RawMux ω} {α : Type} {f : Stream α} {r : Except ℤ α}
    (h : f m.buffer = .ok (r, b)) : onBuffer f m = .ok (r, { m with buffer := b }) := by
  rw [onBuffer, zoom, h]

/-- What lies in one piece is written as a whole. -/
theorem flushRest_eq (hb : m.buffer.Valid)
    (hpiece : m.buffer.rpos + m.buffer.readLeft ≤ m.buffer.size) :
    ∃ b, flushRest accept m
        = .ok (.ok ⟨⟩, { m with buffer := b, client := m.client ++ m.buffer.content })
      ∧ b.Valid ∧ b.content = [] ∧ b.size = m.buffer.size := by
  have hlen := length_content hb
  have hread := readLeft_nonneg hb
  rw [flushRest, run_get_bind, onlyIf]
  split
  · have hall : m.buffer.content.take m.buffer.readLeft.toNat = m.buffer.content :=
      List.take_of_length_le (by omega)
    refine ⟨{ m.buffer with rpos := 0, wpos := 0 }, ?_, ?_, content_eq_nil_of_readLeft ?_, rfl⟩
    · rw [run_bind_ok (writeOut_eq hb hread (le_refl _) hpiece), hall]
      exact onBuffer_eq rfl
    · exact ⟨hb.size_pos, hb.size_le, le_refl _, hb.size_pos, le_refl _, hb.size_pos⟩
    · simp [readLeft]
  · have hnil : m.buffer.content = [] := content_eq_nil_of_readLeft (by omega)
    refine ⟨m.buffer, ?_, hb, hnil, rfl⟩
    rw [hnil, List.append_nil, run_pure]

/-- **All that the buffer holds is written**, in one piece or in two. -/
theorem flushWrite_eq {size : ℤ} {written : Bytes} (hb : m.buffer.Valid)
    (hsize : m.buffer.size = size) (hf : m.writePacketFunc = some accept)
    (hw : m.client ++ m.buffer.content = written) :
    ∃ m', flushWrite m = .ok (.ok errorSuccess, m') ∧ Idle size written m' := by
  obtain ⟨h₀, h₁, h₂⟩ := continuousReadLeft_bounds hb
  obtain ⟨r, hseek⟩ := seekRead_continuousReadLeft hb
  have hpiece := rpos_add_readLeft_skip hb
  have hcontent := content_skip hb h₀ h₂
  have hwrite := writeOut_eq hb h₀ h₂ h₁
  have hvalid := valid_skip hb h₀ h₂
  obtain ⟨b, hrest, hbvalid, hbnil, hbsize⟩ := flushRest_eq
    (m := { m with
      buffer := m.buffer.skip m.buffer.continuousReadLeft
      client := m.client ++ m.buffer.content.take m.buffer.continuousReadLeft.toNat })
    hvalid hpiece
  rw [hcontent, List.append_assoc, List.take_append_drop, hw] at hrest
  have hflush : flushWrite m = flushWith accept m := by
    rw [flushWrite, run_get_bind, hf]
  have hskip : onBuffer (seekRead m.buffer.continuousReadLeft)
      { m with client := m.client ++ m.buffer.content.take m.buffer.continuousReadLeft.toNat }
      = .ok (.ok r, { m with
          buffer := m.buffer.skip m.buffer.continuousReadLeft
          client := m.client ++ m.buffer.content.take m.buffer.continuousReadLeft.toNat }) :=
    onBuffer_eq hseek
  refine ⟨{ m with buffer := b, client := written }, ?_, hbvalid, hbnil, hbsize.trans hsize, hf,
    rfl⟩
  rw [hflush, flushWith, run_get_bind, run_bind_ok hwrite, run_bind_ok hskip, run_bind_ok hrest,
    run_pure]

end Flush

/-! ## Packets -/

section Packets

variable {size : ℤ} {written : Bytes} {m : RawMux Bytes}

/-- What becomes of a packet: it is written if the buffer has room for it. -/
def kept (size : ℤ) (packet : Bytes) : Bytes := if packet.length < size then packet else []

theorem Idle.writeLeft_eq (h : Idle size written m) : m.buffer.writeLeft = size - 1 := by
  have hroom := readLeft_add_writeLeft h.valid
  have hlen := length_content h.valid
  rw [h.content_eq, List.length_nil] at hlen
  rw [h.size_eq] at hroom
  omega

theorem writePacket_eq (h : Idle size written m) {packet : Bytes} (hfits : packet.length < size) :
    ∃ m', writePacket packet m = .ok (.ok 0, m') ∧ Idle size (written ++ packet) m' := by
  have hroom := h.writeLeft_eq
  have hroomy : (packet.length : ℤ) ≤ m.buffer.writeLeft := by omega
  obtain ⟨r, b, hwrite, happ⟩ := exists_writeBytes h.valid hroomy
  have hcontent : b.content = packet := by rw [happ.content_eq, h.content_eq, List.nil_append]
  obtain ⟨m', hflush, hidle⟩ := flushWrite_eq (m := { m with buffer := b }) happ.valid
    (happ.size_eq.trans h.size_eq) h.accepts (by rw [hcontent, h.client_eq])
  exact ⟨m', by rw [writePacket, run_bind_ok (onBuffer_eq hwrite), run_bind_ok hflush, run_pure],
    hidle⟩

/-- **A packet that fits is written at once**, one that does not is refused. -/
theorem handleOutput_eq (h : Idle size written m) (packet : Bytes) :
    ∃ r m', handleOutput packet m = .ok (.ok r, m')
      ∧ Idle size (written ++ kept size packet) m' := by
  have hroom := h.writeLeft_eq
  rw [handleOutput, run_get_bind, run_ite, kept]
  split
  · rename_i hfull
    obtain ⟨m', hflush, hidle⟩ := flushWrite_eq h.valid h.size_eq h.accepts
      (by rw [h.content_eq, List.append_nil, h.client_eq])
    have hroom' := hidle.writeLeft_eq
    refine ⟨-1, m', ?_, ?_⟩
    · rw [run_bind_ok hflush, run_get_bind, if_pos (by omega), run_pure]
    · rw [if_neg (by omega), List.append_nil]
      exact hidle
  · have hfits : (packet.length : ℤ) < size := by omega
    obtain ⟨m', hwrite, hidle⟩ := writePacket_eq h hfits
    rw [if_pos hfits]
    exact ⟨0, m', hwrite, hidle⟩

/-- Of a sequence of packets, those that fit are written, in order. -/
theorem mapM_handleOutput_eq (h : Idle size written m) (packets : List Bytes) :
    ∃ rs m', packets.mapM handleOutput m = .ok (.ok rs, m')
      ∧ Idle size (written ++ packets.flatMap (kept size)) m' := by
  induction packets generalizing written m with
  | nil => exact ⟨[], m, rfl, by rwa [List.flatMap_nil, List.append_nil]⟩
  | cons packet packets ih =>
    obtain ⟨r, m₁, hpacket, h₁⟩ := handleOutput_eq h packet
    obtain ⟨rs, m₂, hrest, h₂⟩ := ih h₁
    refine ⟨r :: rs, m₂, ?_, ?_⟩
    · rw [List.mapM_cons, run_bind_ok hpacket, run_bind_ok hrest, run_pure]
    · rwa [List.flatMap_cons, ← List.append_assoc]

/-- **The stream of a session**: the status line, and the packets that the buffer has room for. -/
theorem output_eq {buffer : Bytes} (h₀ : 0 < size) (h₁ : size ≤ buffer.length) (status : ℤ)
    (packets : List Bytes) :
    ∃ rs m', output status packets (new buffer size (some accept) []) = .ok (.ok rs, m')
      ∧ m'.client = statusText status ++ packets.flatMap (kept size) := by
  have hidle : Idle size (statusText status)
      { new buffer size (some accept) [] with client := statusText status, isSendHeader := true } :=
    ⟨valid_new h₀ h₁, content_new _ _, rfl, rfl, rfl⟩
  obtain ⟨rs, m', hrun, h⟩ := mapM_handleOutput_eq hidle packets
  exact ⟨rs, m', hrun, h.client_eq⟩

end Packets

end RawMux

/-! ## The demux -/

/-- What a connection answers to a read: bytes, of which no more are taken than were asked for, or a
code that is not positive. -/
inductive Received
  | bytes (bs : Bytes)
  | failed (err : ℕ)

/-- What `read(buf, n)` returns and what it puts into `buf`. -/
def Received.upTo (n : ℤ) : Received → ℤ × Bytes
  | .bytes bs => ((bs.take n.toNat).length, bs.take n.toNat)
  | .failed err => (-err, [])

/-- `class RawDeMux`, with a callback. -/
structure RawDeMux where
  buffer : Buffer
  contentLength : ℤ := 0
  deriving DecidableEq

namespace RawDeMux

abbrev Call := Comp Fault RawDeMux ℤ

/-- `init_input`. -/
def new (buffer : Bytes) (bufferSize : ℤ) : RawDeMux := { buffer := Buffer.new buffer bufferSize }

def onBuffer {α : Type} (f : Stream α) : Call α := zoom buffer (fun b d => { d with buffer := b }) f

def getTotalLength (d : RawDeMux) : ℤ := d.contentLength

/-- The read of `handle_input`, into the part of the block from `wcurrent()` on. -/
def fill (received : Received) : Call PUnit := do
  let answer := received.upTo (← get).buffer.continuousWriteLeft
  onBuffer (IOBuffer.storeAtWcurrent answer.2)
  let _ ← onBuffer (seekWrite answer.1)

/-- `flush_read`: one packet of all that the buffer holds, or a null pointer. -/
def flushRead : Call (Option Bytes) := do
  let readLeft := (← get).buffer.readLeft
  if readLeft ≤ 0 then
    return none
  else do
    let read ← onBuffer (readBytes readLeft)
    onBuffer reset
    return some read.2.1

def handleInput (received : Received) : Call (ℤ × Option Bytes) := do
  let b := (← get).buffer
  if b.size < 1 then
    return (-1, none)
  else do
    onlyIf (b.readLeft < 128) (fill received)
    let packet ← flushRead
    return (errorSuccess, packet)

def onIngest (contentLength : ℤ) (dataHeader : Bytes) : Call ℤ := do
  let d ← get
  put { d with contentLength := contentLength }
  if dataHeader.length > d.buffer.writeLeft then
    return errorBufferNotEnough
  else do
    let _ ← onBuffer (writeBytes dataHeader dataHeader.length)
    return errorSuccess

variable {d : RawDeMux} {b : Buffer}

/-- What there is to hand over after a read: what the buffer held, and what the read has brought. -/
def offered (received : Received) (d : RawDeMux) : Bytes :=
  d.buffer.content
    ++ if d.buffer.readLeft < 128 then (received.upTo d.buffer.continuousWriteLeft).2 else []

theorem onBuffer_eq {α : Type} {f : Stream α} {r : Except ℤ α} (h : f d.buffer = .ok (r, b)) :
    onBuffer f d = .ok (r, { d with buffer := b }) := by
  rw [onBuffer, zoom, h]

theorem fill_eq (hb : d.buffer.Valid) (received : Received) :
    ∃ b, fill received d = .ok (.ok ⟨⟩, { d with buffer := b })
      ∧ Appended d.buffer (received.upTo d.buffer.continuousWriteLeft).2 b := by
  obtain ⟨h₀, -, -⟩ := continuousWriteLeft_bounds hb
  rw [fill, run_get_bind]
  cases received with
  | bytes bs =>
    have hle : ((bs.take d.buffer.continuousWriteLeft.toNat).length : ℤ)
        ≤ d.buffer.continuousWriteLeft := by
      rw [List.length_take]
      omega
    obtain ⟨b₁, b₂, r, hstore, hseek, happ⟩ := IOBuffer.fill_eq hb hle
    have hseek' : onBuffer (seekWrite (bs.take d.buffer.continuousWriteLeft.toNat).length)
        { d with buffer := b₁ } = .ok (.ok r, { d with buffer := b₂ }) := onBuffer_eq hseek
    refine ⟨b₂, ?_, happ⟩
    rw [Received.upTo, run_bind_ok (onBuffer_eq hstore), run_bind_ok hseek', run_pure]
  | failed err =>
    have hnil : (([] : Bytes).length : ℤ) ≤ d.buffer.continuousWriteLeft := h₀
    obtain ⟨b₁, b₂, r, hstore, hseek, happ⟩ := IOBuffer.fill_eq hb hnil
    have hstay : seekWrite (([] : Bytes).length) b₁ = .ok (.ok errorBufferRead, b₁) :=
      seekWrite_of_le b₁ (le_refl _)
    rw [hstay] at hseek
    cases hseek
    have hseek' : onBuffer (seekWrite (-err)) { d with buffer := b₁ }
        = .ok (.ok errorBufferRead, { d with buffer := b₁ }) :=
      onBuffer_eq (seekWrite_of_le b₁ (by omega))
    refine ⟨b₁, ?_, happ⟩
    rw [Received.upTo, run_bind_ok (onBuffer_eq hstore), run_bind_ok hseek', run_pure]

theorem flushRead_eq (hb : d.buffer.Valid) :
    ∃ b, flushRead d = .ok (.ok (if d.buffer.content = [] then none else some d.buffer.content),
        { d with buffer := b })
      ∧ b.Valid ∧ b.content = [] ∧ b.size = d.buffer.size := by
  have hlen := length_content hb
  rw [flushRead, run_get_bind, run_ite]
  split
  · have hnil : d.buffer.content = [] := List.eq_nil_of_length_eq_zero (by omega)
    refine ⟨d.buffer, ?_, hb, hnil, rfl⟩
    rw [if_pos hnil, run_pure]
  · have hne : d.buffer.content ≠ [] := by
      intro hnil
      rw [hnil, List.length_nil] at hlen
      omega
    have hpos : 0 < d.buffer.readLeft := by omega
    have hread := readBytes_eq hb hpos
    have hall : d.buffer.content.take d.buffer.readLeft.toNat = d.buffer.content :=
      List.take_of_length_le (by omega)
    rw [hall] at hread
    refine ⟨{ d.buffer with rpos := 0, wpos := 0 }, ?_, ?_, ?_, rfl⟩
    · rw [if_neg hne, run_bind_ok (onBuffer_eq hread)]
      rfl
    · exact ⟨hb.size_pos, hb.size_le, le_refl _, hb.size_pos, le_refl _, hb.size_pos⟩
    · exact content_eq_nil_of_readLeft (by simp [readLeft])

/-- **`handle_input` hands over all there is**, and a null pointer if there is nothing; its code is
never an error. -/
theorem handleInput_eq (hb : d.buffer.Valid) (received : Received) :
    ∃ b, handleInput received d
        = .ok (.ok (errorSuccess,
            if offered received d = [] then none else some (offered received d)),
          { d with buffer := b })
      ∧ b.Valid ∧ b.content = [] ∧ b.size = d.buffer.size := by
  obtain ⟨b₁, hfill, hb₁, hcontent, hsize₁⟩ :
      ∃ b₁, onlyIf (d.buffer.readLeft < 128) (fill received) d
          = .ok (.ok ⟨⟩, { d with buffer := b₁ })
        ∧ b₁.Valid ∧ b₁.content = offered received d ∧ b₁.size = d.buffer.size := by
    rw [onlyIf, offered]
    split
    · obtain ⟨b₁, hfill, happ⟩ := fill_eq hb received
      exact ⟨b₁, hfill, happ.valid, happ.content_eq, happ.size_eq⟩
    · exact ⟨d.buffer, rfl, hb, (List.append_nil _).symm, rfl⟩
  obtain ⟨b₂, hflush, hb₂, hnil, hsize₂⟩ := flushRead_eq (d := { d with buffer := b₁ }) hb₁
  have hpos := hb.size_pos
  dsimp only at hflush
  rw [hcontent] at hflush
  refine ⟨b₂, ?_, hb₂, hnil, hsize₂.trans hsize₁⟩
  rw [handleInput, run_get_bind, run_ite, if_neg (by omega), run_bind_ok hfill,
    run_bind_ok hflush, run_pure]

/-- `on_ingest` leaves a buffer in order. -/
theorem onIngest_eq (hb : d.buffer.Valid) (contentLength : ℤ) (dataHeader : Bytes) :
    ∃ r b, onIngest contentLength dataHeader d = .ok (.ok r, ⟨b, contentLength⟩) ∧ b.Valid := by
  rw [onIngest, run_get_bind, run_put_bind, run_ite]
  split
  · exact ⟨_, d.buffer, rfl, hb⟩
  · rename_i hfits
    obtain ⟨r, b, hwrite, happ⟩ := exists_writeBytes hb (not_lt.1 hfits)
    have hwrite' : onBuffer (writeBytes dataHeader dataHeader.length) ⟨d.buffer, contentLength⟩
        = .ok (.ok r, ⟨b, contentLength⟩) := onBuffer_eq hwrite
    exact ⟨_, b, by rw [run_bind_ok hwrite', run_pure], happ.valid⟩

end RawDeMux

end SmartStreaming
