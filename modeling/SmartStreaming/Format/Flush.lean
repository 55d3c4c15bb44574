import SmartStreaming.Format.Raw

/-!
# Format/Flush — what a `RawMux` writes over a run

`handle_output` puts a packet into the ring buffer and has it written out at once, in one piece or
in two; the positions wander round the block from packet to packet.  A callback that accepts every
byte is given the packets and nothing else (`packets_written`).  One that accepts less loses bytes:
`flush_write` resets the buffer after its second write, whatever that write has accepted
(`no_byte_lost_iff`).
-/

namespace SmartStreaming

open Machinery Comp Buffer

namespace RawMux

/-! ## A callback that accepts every byte -/

section Accepting

variable {size : ℤ} {written : Bytes} {m : RawMux Bytes}

theorem handleOutput_of_fits (h : Idle size written m) {packet : Bytes}
    (hfits : packet.length < size) :
    ∃ m', handleOutput packet m = .ok (.ok 0, m') ∧ Idle size (written ++ packet) m' := by
  have hroom := h.writeLeft_eq
  obtain ⟨m', hwrite, hidle⟩ := writePacket_eq h hfits
  refine ⟨m', ?_, hidle⟩
  rw [handleOutput, run_get_bind, run_ite, if_neg (by omega), hwrite]

/-- Packets that all fit are written one after another. -/
theorem mapM_handleOutput_of_fits (h : Idle size written m) {packets : List Bytes}
    (hfits : ∀ packet ∈ packets, (packet.length : ℤ) < size) :
    ∃ m', packets.mapM handleOutput m = .ok (.ok (List.replicate packets.length 0), m')
      ∧ Idle size (written ++ packets.flatten) m' := by
  induction packets generalizing written m with
  | nil => exact ⟨m, rfl, by rwa [List.flatten_nil, List.append_nil]⟩
  | cons packet packets ih =>
    obtain ⟨m₁, hpacket, h₁⟩ := handleOutput_of_fits h (hfits packet List.mem_cons_self)
    obtain ⟨m₂, hrest, h₂⟩ := ih h₁ fun p hp => hfits p (List.mem_cons_of_mem _ hp)
    refine ⟨m₂, ?_, ?_⟩
    · rw [List.mapM_cons, run_bind_ok hpacket, run_bind_ok hrest, run_pure, List.length_cons,
        List.replicate_succ]
    · rwa [List.flatten_cons, ← List.append_assoc]

/-- **The packets are written as they are.**  After each call of a run the callback has been given
the packets so far, the buffer is empty, and every code was `0`. -/
theorem packets_written {buffer : Bytes} (h : 2 ≤ size) (hbuffer : size ≤ buffer.length)
    {packets : List Bytes} (hfits : ∀ packet ∈ packets, (packet.length : ℤ) ≤ size - 1)
    (i : ℕ) (hi : i ≤ packets.length) :
    ∃ m', (packets.take i).mapM handleOutput (new buffer size (some accept) [])
        = .ok (.ok (List.replicate i 0), m')
      ∧ m'.client = (packets.take i).flatten ∧ m'.buffer.readLeft = 0 := by
  have hpos : 0 < size := by omega
  have hidle : Idle size [] (new buffer size (some accept) []) :=
    ⟨valid_new hpos hbuffer, content_new _ _, rfl, rfl, rfl⟩
  have htake : ∀ packet ∈ packets.take i, (packet.length : ℤ) < size := fun packet hpacket => by
    have hle := hfits packet (List.mem_of_mem_take hpacket)
    omega
  obtain ⟨m', hrun, hm'⟩ := mapM_handleOutput_of_fits hidle htake
  rw [List.length_take, Nat.min_eq_left hi] at hrun
  refine ⟨m', hrun, ?_, ?_⟩
  · rw [hm'.client_eq, List.nil_append]
  · rw [← length_content hm'.valid, hm'.content_eq]
    rfl

/-- Two packets through a buffer of three bytes: the second one goes over the end of the block. -/
theorem packets_written_wrapped :
    ∃ m', (([[1, 2], [3, 4]] : List Bytes).take 2).mapM handleOutput
        (new [0, 0, 0] 3 (some accept) []) = .ok (.ok (List.replicate 2 0), m')
      ∧ m'.client = (([[1, 2], [3, 4]] : List Bytes).take 2).flatten ∧ m'.buffer.readLeft = 0 :=
  packets_written (by decide) (by decide) (by decide) 2 (by decide)

end Accepting

/-! ## A callback that accepts less

The buffer is empty between two packets, so that a packet lies in it alone: up to the end of the
block, and from the beginning on. -/

/-- A write callback: of what it is offered it accepts a part, or it returns an error. -/
structure Callback (ω : Type) where
  write : ω → Bytes → ℤ × ω
  le_length : ∀ s bs, (write s bs).1 ≤ bs.length

variable {ω : Type}

/-- The callback, and all that it has accepted. -/
def Callback.logged (f : Callback ω) (client : ω × Bytes) (bs : Bytes) : ℤ × (ω × Bytes) :=
  ((f.write client.1 bs).1, (f.write client.1 bs).2,
    client.2 ++ bs.take (f.write client.1 bs).1.toNat)

section Parts

variable (f : Callback ω) (m : RawMux (ω × Bytes)) (packet : Bytes)

/-- What is offered first: the part in front of the end of the block. -/
def firstPart : Bytes := packet.take (m.buffer.size - m.buffer.rpos).toNat

/-- What the callback makes of it. -/
def firstAnswer : ℤ × ω := f.write m.client.1 (firstPart m packet)

/-- What is offered then. -/
def secondPart : Bytes := packet.drop (firstAnswer f m packet).1.toNat

/-- **The callback takes the packet** in two writes: all of the first part, if the packet goes on
behind the end of the block, and all that the first write has left. -/
structure Takes : Prop where
  first : (firstAnswer f m packet).1 = (firstPart m packet).length ∨ firstPart m packet = packet
  second : secondPart f m packet = []
    ∨ (f.write (firstAnswer f m packet).2 (secondPart f m packet)).1
      = (secondPart f m packet).length

end Parts

/-- **No byte is dropped or repeated without an error result**: up to the first call that returns
one, what the callback has accepted and what the buffer still holds are the packets so far. -/
def NoByteLost : Bytes → List Bytes → RawMux (ω × Bytes) → Prop
  | _, [], _ => True
  | sofar, packet :: packets, m =>
    ∃ r m', handleOutput packet m = .ok (.ok r, m') ∧
      if r = 0 then
        m'.client.2 ++ m'.buffer.content = sofar ++ packet ∧ NoByteLost (sofar ++ packet) packets m'
      else m'.client.2 <+: sofar ++ packet

/-- Every packet for which there is room is taken. -/
def EachTaken (f : Callback ω) : List Bytes → RawMux (ω × Bytes) → Prop
  | [], _ => True
  | packet :: packets, m =>
    (packet.length < m.buffer.size → Takes f m packet)
      ∧ ∀ m', handleOutput packet m = .ok (.ok 0, m') → EachTaken f packets m'

/-! ### Two writes -/

section Flush

variable {m : RawMux ω} {write : ω → Bytes → ℤ × ω}

/-- Bytes behind the end of the block cannot be offered. -/
theorem writeOut_fault (hblock : m.buffer.size = m.buffer.buf.length) {n : ℤ}
    (h : m.buffer.size < m.buffer.rpos + n) : writeOut write n m = .error .outOfBounds := by
  have hload : load m.buffer.buf m.buffer.rpos n = none := if_neg (by omega)
  rw [writeOut, run_get_bind, hload, run_none_bind]

theorem seekRead_toNat {b : Buffer} (hb : b.Valid) {n : ℤ} (h : n ≤ b.readLeft) :
    ∃ r, seekRead n b = .ok (.ok r, b.skip n.toNat) := by
  obtain hn | hn := le_or_gt n 0
  · rw [Int.toNat_of_nonpos hn, Nat.cast_zero, skip_zero hb]
    exact ⟨_, seekRead_of_le b hn⟩
  · rw [Int.toNat_of_nonneg hn.le]
    exact ⟨_, seekRead_eq b hn h⟩

theorem take_continuousReadLeft {b : Buffer} (hb : b.Valid) :
    b.content.take b.continuousReadLeft.toNat = b.content.take (b.size - b.rpos).toNat := by
  have hlen := length_content hb
  have hread := readLeft_eq hb
  have hwpos := hb.wpos_lt
  rw [continuousReadLeft]
  split
  · rfl
  · rw [if_pos (by omega)] at hread
    rw [List.take_of_length_le (by omega), List.take_of_length_le (by omega)]

/-- The second write is not made when nothing is left. -/
theorem flushRest_of_nil (hb : m.buffer.Valid) (h : m.buffer.content = []) :
    flushRest write m = .ok (.ok ⟨⟩, m) := by
  have hlen := length_content hb
  rw [h, List.length_nil] at hlen
  rw [flushRest, run_get_bind, onlyIf, if_neg (by omega), run_pure]

/-- It is offered all that is left, and the buffer is empty afterwards. -/
theorem flushRest_of_piece (hb : m.buffer.Valid) (hne : m.buffer.content ≠ [])
    (hpiece : m.buffer.rpos + m.buffer.readLeft ≤ m.buffer.size) :
    flushRest write m = .ok (.ok ⟨⟩, { m with
      buffer := { m.buffer with rpos := 0, wpos := 0 }
      client := (write m.client m.buffer.content).2 }) := by
  have hlen := length_content hb
  have hpos : 0 < m.buffer.readLeft := by
    have := List.length_pos_iff.2 hne
    omega
  have hall : m.buffer.content.take m.buffer.readLeft.toNat = m.buffer.content :=
    List.take_of_length_le (by omega)
  rw [flushRest, run_get_bind, onlyIf, if_pos hpos,
    run_bind_ok (writeOut_run write hb hpos.le (le_refl _) hpiece), hall]
  exact onBuffer_eq rfl

theorem flushRest_fault (hb : m.buffer.Valid) (hblock : m.buffer.size = m.buffer.buf.length)
    (h : m.buffer.size < m.buffer.rpos + m.buffer.readLeft) :
    flushRest write m = .error .outOfBounds := by
  have hrpos := hb.rpos_lt
  rw [flushRest, run_get_bind, onlyIf, if_pos (by omega)]
  exact run_bind_fault (writeOut_fault hblock h) _

end Flush

section Parts

variable {f : Callback ω} {m : RawMux (ω × Bytes)} {packet sofar : Bytes} {size : ℤ}

/-- The first write accepts the beginning of the packet. -/
theorem take_firstPart (f : Callback ω) (m : RawMux (ω × Bytes)) (packet : Bytes) :
    (firstPart m packet).take (firstAnswer f m packet).1.toNat
      = packet.take (firstAnswer f m packet).1.toNat := by
  have hle := f.le_length m.client.1 (firstPart m packet)
  rw [firstPart, List.length_take] at hle
  rw [firstPart, List.take_take, Nat.min_eq_left]
  rw [firstAnswer, firstPart]
  omega

/-- What lies behind the end of the block follows the first part. -/
theorem first_of_secondPart_nil (h : secondPart f m packet = []) : firstPart m packet = packet := by
  have hle := f.le_length m.client.1 (firstPart m packet)
  rw [secondPart, List.drop_eq_nil_iff, firstAnswer] at h
  refine List.take_of_length_le ?_
  rw [firstPart, List.length_take] at hle
  rw [firstPart] at h
  omega

/-- The state between the two writes of `flush_write`. -/
def halfWritten (f : Callback ω) (m : RawMux (ω × Bytes)) (packet : Bytes) : RawMux (ω × Bytes) :=
  { m with
    buffer := m.buffer.skip (firstAnswer f m packet).1.toNat
    client := ((firstAnswer f m packet).2,
      m.client.2 ++ packet.take (firstAnswer f m packet).1.toNat) }

theorem halfWritten_client (f : Callback ω) (m : RawMux (ω × Bytes)) (packet : Bytes) :
    (halfWritten f m packet).client.1 = (firstAnswer f m packet).2 := rfl

theorem firstAnswer_le (hb : m.buffer.Valid) (hpacket : m.buffer.content = packet) :
    (firstAnswer f m packet).1 ≤ m.buffer.readLeft := by
  have hle := f.le_length m.client.1 (firstPart m packet)
  have hlen := length_content hb
  rw [hpacket] at hlen
  rw [firstPart, List.length_take] at hle
  rw [firstAnswer, firstPart]
  omega

/-- **The first write**, and the second one from where it leaves the buffer. -/
theorem flushWrite_halfWritten (hb : m.buffer.Valid) (hcalls : m.writePacketFunc = some f.logged)
    (hpacket : m.buffer.content = packet) :
    flushWrite m
      = (flushRest f.logged >>= fun _ => pure errorSuccess) (halfWritten f m packet) := by
  obtain ⟨h₀, h₁, h₂⟩ := continuousReadLeft_bounds hb
  have hfirst : m.buffer.content.take m.buffer.continuousReadLeft.toNat = firstPart m packet := by
    rw [take_continuousReadLeft hb, hpacket, firstPart]
  have hwrite := writeOut_run f.logged hb h₀ h₂ h₁
  rw [hfirst] at hwrite
  obtain ⟨r, hseek⟩ := seekRead_toNat hb (firstAnswer_le (f := f) hb hpacket)
  have hskip : onBuffer (seekRead (firstAnswer f m packet).1)
      { m with client := (f.logged m.client (firstPart m packet)).2 }
      = .ok (.ok r, halfWritten f m packet) := by
    rw [halfWritten, ← take_firstPart]
    exact onBuffer_eq hseek
  rw [flushWrite, run_get_bind, hcalls]
  dsimp only
  rw [flushWith, run_get_bind, run_bind_ok hwrite]
  exact run_bind_ok hskip

/-- What is left for the second write lies in one piece, unless a part of the first one is left
with it. -/
theorem rpos_add_readLeft_halfWritten (hb : m.buffer.Valid) (hpacket : m.buffer.content = packet) :
    (halfWritten f m packet).buffer.rpos + (halfWritten f m packet).buffer.readLeft ≤ m.buffer.size
      ↔ (firstAnswer f m packet).1 = (firstPart m packet).length
        ∨ firstPart m packet = packet := by
  have hle := f.le_length m.client.1 (firstPart m packet)
  have hleft := firstAnswer_le (f := f) hb hpacket
  have hlen := length_content hb
  have hfirst : (firstPart m packet).length
      = min (m.buffer.size - m.buffer.rpos).toNat packet.length := List.length_take
  have hwhole : firstPart m packet = packet ↔ packet.length ≤ (firstPart m packet).length := by
    constructor
    · intro h
      rw [h]
    · exact fun h => List.take_of_length_le (by omega)
  have hrpos := hb.rpos_nonneg
  have hlt := hb.rpos_lt
  have hread := readLeft_lt hb
  have hrest := readLeft_skip hb (n := (firstAnswer f m packet).1.toNat) (by omega) (by omega)
  have hnext := next_eq m.buffer hrpos hlt (n := (firstAnswer f m packet).1.toNat) (by omega)
    (by rw [firstAnswer]; omega)
  have hskip : (halfWritten f m packet).buffer.rpos
      = m.buffer.next m.buffer.rpos (firstAnswer f m packet).1.toNat := rfl
  have hbuffer : (halfWritten f m packet).buffer.readLeft
      = (m.buffer.skip (firstAnswer f m packet).1.toNat).readLeft := rfl
  rw [hwhole, hskip, hbuffer, hrest, hnext, ← hlen, hpacket]
  rw [hpacket] at hlen
  rw [← firstAnswer] at hle
  split <;> omega

end Parts

/-! ### Packets -/

/-- A mux that holds `held`, and whose callback has accepted `sofar`. -/
structure Filled (f : Callback ω) (size : ℤ) (sofar held : Bytes) (m : RawMux (ω × Bytes)) :
    Prop where
  valid : m.buffer.Valid
  content_eq : m.buffer.content = held
  size_eq : m.buffer.size = size
  block : m.buffer.size = m.buffer.buf.length
  calls : m.writePacketFunc = some f.logged
  accepted : m.client.2 = sofar

section Packets

variable {f : Callback ω} {m : RawMux (ω × Bytes)} {packet sofar : Bytes} {size : ℤ}

theorem Filled.writeLeft_eq (h : Filled f size sofar [] m) : m.buffer.writeLeft = size - 1 := by
  have hroom := readLeft_add_writeLeft h.valid
  have hlen := length_content h.valid
  rw [h.content_eq, List.length_nil] at hlen
  rw [h.size_eq] at hroom
  omega

/-- What is offered is decided by the positions, and these stay when a packet is put in. -/
theorem takes_congr {b : Buffer} (hrpos : b.rpos = m.buffer.rpos) (hsize : b.size = m.buffer.size) :
    Takes f { m with buffer := b } packet ↔ Takes f m packet := by
  have hfirst : firstPart { m with buffer := b } packet = firstPart m packet := by
    rw [firstPart, firstPart, hrpos, hsize]
  have hanswer : firstAnswer f { m with buffer := b } packet = firstAnswer f m packet := by
    rw [firstAnswer, firstAnswer, hfirst]
  have hsecond : secondPart f { m with buffer := b } packet = secondPart f m packet := by
    rw [secondPart, secondPart, hanswer]
  constructor
  · rintro ⟨h₁, h₂⟩
    rw [hanswer, hfirst] at h₁
    rw [hanswer, hsecond] at h₂
    exact ⟨h₁, h₂⟩
  · rintro ⟨h₁, h₂⟩
    rw [← hanswer, ← hfirst] at h₁
    rw [← hanswer, ← hsecond] at h₂
    exact ⟨h₁, h₂⟩

theorem Filled.writeBytes (h : Filled f size sofar [] m) (hfits : packet.length < size) :
    ∃ r b, onBuffer (writeBytes packet packet.length) m = .ok (.ok r, { m with buffer := b })
      ∧ Filled f size sofar packet { m with buffer := b }
      ∧ (Takes f { m with buffer := b } packet ↔ Takes f m packet) := by
  have hroom := h.writeLeft_eq
  have hfit : (packet.length : ℤ) ≤ m.buffer.writeLeft := by omega
  obtain ⟨r, b, hwrite, happ⟩ := exists_writeBytes h.valid hfit
  refine ⟨r, b, onBuffer_eq hwrite, ⟨happ.valid, ?_, happ.size_eq.trans h.size_eq, ?_, h.calls,
    h.accepted⟩, takes_congr happ.rpos_eq happ.size_eq⟩
  · rw [happ.content_eq, h.content_eq, List.nil_append]
  · rw [happ.size_eq, happ.length_eq, h.block]

theorem Filled.halfWritten (h : Filled f size sofar packet m) :
    Filled f size (sofar ++ packet.take (firstAnswer f m packet).1.toNat) (secondPart f m packet)
      (halfWritten f m packet) := by
  have hleft := firstAnswer_le (f := f) h.valid h.content_eq
  have hread := readLeft_nonneg h.valid
  refine ⟨valid_skip h.valid (by omega) (by omega), ?_, h.size_eq, h.block, h.calls, ?_⟩
  · refine (content_skip h.valid (by omega) (by omega)).trans ?_
    rw [h.content_eq, secondPart, Int.toNat_natCast]
  · rw [RawMux.halfWritten, h.accepted]

/-- The second write accepts the beginning of what it is offered; the rest is dropped. -/
theorem Filled.reset (h : Filled f size sofar packet m) :
    Filled f size (sofar ++ packet.take (f.write m.client.1 packet).1.toNat) [] { m with
      buffer := { m.buffer with rpos := 0, wpos := 0 }
      client := (f.logged m.client packet).2 } := by
  have hb := h.valid
  refine ⟨⟨hb.size_pos, hb.size_le, le_refl _, hb.size_pos, le_refl _, hb.size_pos⟩,
    content_eq_nil_of_readLeft ?_, h.size_eq, h.block, h.calls, ?_⟩
  · simp [readLeft]
  · rw [Callback.logged, h.accepted]

/-- A packet that is taken has been written, and nothing of it is left. -/
theorem Filled.flushWrite_of_takes (h : Filled f size sofar packet m) (htakes : Takes f m packet) :
    ∃ m', flushWrite m = .ok (.ok errorSuccess, m') ∧ Filled f size (sofar ++ packet) [] m' := by
  have hhalf := h.halfWritten
  have hsplit : packet.take (firstAnswer f m packet).1.toNat ++ secondPart f m packet = packet :=
    List.take_append_drop _ _
  rw [flushWrite_halfWritten h.valid h.calls h.content_eq]
  by_cases hnil : secondPart f m packet = []
  · rw [hnil, List.append_nil] at hsplit
    rw [hnil, hsplit] at hhalf
    exact ⟨_, by rw [run_bind_ok (flushRest_of_nil hhalf.valid hhalf.content_eq), run_pure],
      hhalf⟩
  · have hpiece := (rpos_add_readLeft_halfWritten h.valid h.content_eq).2 htakes.first
    have hall : (f.write (firstAnswer f m packet).2 (secondPart f m packet)).1.toNat
        = (secondPart f m packet).length := by
      rw [htakes.second.resolve_left hnil, Int.toNat_natCast]
    have hreset := hhalf.reset
    rw [halfWritten_client, hall,
      List.take_length, List.append_assoc, hsplit] at hreset
    refine ⟨_, ?_, hreset⟩
    rw [run_bind_ok (flushRest_of_piece hhalf.valid (hhalf.content_eq ▸ hnil) hpiece),
      hhalf.content_eq, run_pure]

/-- One that is not has been lost in part, or is sought behind the end of the block. -/
theorem Filled.flushWrite_of_not_takes (h : Filled f size sofar packet m)
    (htakes : ¬ Takes f m packet) {r : ℤ} {m' : RawMux (ω × Bytes)}
    (hrun : flushWrite m = .ok (.ok r, m')) :
    m'.client.2 ++ m'.buffer.content ≠ sofar ++ packet := by
  have hhalf := h.halfWritten
  have hnil : secondPart f m packet ≠ [] := fun hnil =>
    htakes ⟨.inr (first_of_secondPart_nil hnil), .inl hnil⟩
  rw [flushWrite_halfWritten h.valid h.calls h.content_eq] at hrun
  by_cases hfirst : (firstAnswer f m packet).1 = (firstPart m packet).length
      ∨ firstPart m packet = packet
  · have hpiece := (rpos_add_readLeft_halfWritten h.valid h.content_eq).2 hfirst
    have hreset := hhalf.reset
    rw [run_bind_ok (flushRest_of_piece hhalf.valid (hhalf.content_eq ▸ hnil) hpiece),
      hhalf.content_eq, run_pure] at hrun
    cases hrun
    have hle := f.le_length (firstAnswer f m packet).2 (secondPart f m packet)
    have hshort : (f.write (firstAnswer f m packet).2 (secondPart f m packet)).1
        ≠ (secondPart f m packet).length := fun hall => htakes ⟨hfirst, .inr hall⟩
    have hpos := List.length_pos_iff.2 hnil
    rw [hreset.accepted, hreset.content_eq, List.append_nil, List.append_assoc]
    intro heq
    -- fewer bytes have been accepted than there are
    have hlen := congrArg List.length (List.append_cancel_left heq)
    have hsplit : (packet.take (firstAnswer f m packet).1.toNat).length
        + (secondPart f m packet).length = packet.length := by
      rw [← List.length_append, secondPart, List.take_append_drop]
    rw [halfWritten_client, List.length_append, List.length_take (l := secondPart f m packet)]
      at hlen
    omega
  · have hout := (rpos_add_readLeft_halfWritten h.valid h.content_eq).not.2 hfirst
    rw [run_bind_fault (flushRest_fault hhalf.valid hhalf.block (not_le.1 hout))] at hrun
    cases hrun

/-- A packet for which there is no room is refused, and nothing is written. -/
theorem Filled.handleOutput_of_long (h : Filled f size sofar [] m) (hlong : size ≤ packet.length) :
    ∃ m', handleOutput packet m = .ok (.ok (-1), m') ∧ m'.client.2 = sofar := by
  have hroom := h.writeLeft_eq
  have htakes : Takes f m [] := ⟨.inr List.take_nil, .inl List.drop_nil⟩
  obtain ⟨m', hflush, h'⟩ := h.flushWrite_of_takes htakes
  have hroom' := Filled.writeLeft_eq ((List.append_nil sofar) ▸ h')
  refine ⟨m', ?_, by rw [h'.accepted, List.append_nil]⟩
  rw [handleOutput, run_get_bind, run_ite, if_pos (by omega), run_bind_ok hflush, run_get_bind,
    if_pos (by omega), run_pure]

theorem Filled.handleOutput_of_takes (h : Filled f size sofar [] m) (hfits : packet.length < size)
    (htakes : Takes f m packet) :
    ∃ m', handleOutput packet m = .ok (.ok 0, m') ∧ Filled f size (sofar ++ packet) [] m' := by
  have hroom := h.writeLeft_eq
  obtain ⟨r, b, hwrite, hfilled, hiff⟩ := h.writeBytes hfits
  obtain ⟨m', hflush, h'⟩ := hfilled.flushWrite_of_takes (hiff.2 htakes)
  refine ⟨m', ?_, h'⟩
  rw [handleOutput, run_get_bind, run_ite, if_neg (by omega), writePacket, run_bind_ok hwrite,
    run_bind_ok hflush, run_pure]

theorem Filled.handleOutput_of_not_takes (h : Filled f size sofar [] m)
    (hfits : packet.length < size) (htakes : ¬ Takes f m packet) {r : ℤ} {m' : RawMux (ω × Bytes)}
    (hrun : handleOutput packet m = .ok (.ok r, m')) :
    r = 0 ∧ m'.client.2 ++ m'.buffer.content ≠ sofar ++ packet := by
  have hroom := h.writeLeft_eq
  obtain ⟨r₁, b, hwrite, hfilled, hiff⟩ := h.writeBytes hfits
  rw [handleOutput, run_get_bind, run_ite, if_neg (by omega), writePacket,
    run_bind_ok hwrite] at hrun
  rcases hflush : flushWrite { m with buffer := b } with e | ⟨c | code, m₁⟩
  · rw [run_bind_fault hflush] at hrun
    cases hrun
  · rw [run_bind_error hflush] at hrun
    cases hrun
  · rw [run_bind_ok hflush, run_pure] at hrun
    cases hrun
    exact ⟨rfl, hfilled.flushWrite_of_not_takes (hiff.not.2 htakes) hflush⟩

/-- **One packet**: nothing is lost exactly when it is taken, if there is room for it. -/
theorem Filled.noByteLost_iff (h : Filled f size sofar [] m) (packets : List Bytes) :
    NoByteLost sofar packets m ↔ EachTaken f packets m := by
  induction packets generalizing sofar m with
  | nil => exact Iff.rfl
  | cons packet packets ih =>
    rw [NoByteLost, EachTaken, h.size_eq]
    by_cases hfits : (packet.length : ℤ) < size
    · by_cases htakes : Takes f m packet
      · obtain ⟨m', hrun, h'⟩ := h.handleOutput_of_takes hfits htakes
        have hkept : m'.client.2 ++ m'.buffer.content = sofar ++ packet := by
          rw [h'.accepted, h'.content_eq, List.append_nil]
        constructor
        · rintro ⟨r, m₁, hrun₁, hlost⟩
          rw [hrun] at hrun₁
          cases hrun₁
          rw [if_pos rfl] at hlost
          refine ⟨fun _ => htakes, fun m₂ hrun₂ => ?_⟩
          rw [hrun] at hrun₂
          cases hrun₂
          exact (ih h').1 hlost.2
        · rintro ⟨-, hrest⟩
          refine ⟨0, m', hrun, ?_⟩
          rw [if_pos rfl]
          exact ⟨hkept, (ih h').2 (hrest m' hrun)⟩
      · constructor
        · rintro ⟨r, m₁, hrun, hlost⟩
          obtain ⟨rfl, hne⟩ := h.handleOutput_of_not_takes hfits htakes hrun
          rw [if_pos rfl] at hlost
          exact absurd hlost.1 hne
        · rintro ⟨hall, -⟩
          exact absurd (hall hfits) htakes
    · obtain ⟨m', hrun, haccepted⟩ := h.handleOutput_of_long (not_lt.1 hfits)
      constructor
      · rintro -
        refine ⟨fun hlt => absurd hlt hfits, fun m₁ hrun₁ => ?_⟩
        rw [hrun] at hrun₁
        cases hrun₁
      · rintro -
        refine ⟨-1, m', hrun, ?_⟩
        rw [if_neg (by decide), haccepted]
        exact List.prefix_append sofar packet

/-- **When no byte is lost.**  Over a run of a mux with any callback, the callback has accepted
exactly the packets so far, up to the first error, if and only if it takes each packet that the
buffer has room for in the one or two writes it is asked for. -/
theorem no_byte_lost_iff (f : Callback ω) (s : ω) {buffer : Bytes} (h : buffer ≠ [])
    (packets : List Bytes) :
    NoByteLost [] packets (new buffer buffer.length (some f.logged) (s, []))
      ↔ EachTaken f packets (new buffer buffer.length (some f.logged) (s, [])) := by
  have hpos : (0 : ℤ) < buffer.length := Int.natCast_pos.2 (List.length_pos_iff.2 h)
  have hfilled : Filled f buffer.length [] []
      (new buffer buffer.length (some f.logged) (s, [])) :=
    ⟨valid_new hpos (le_refl _), content_new _ _, rfl, rfl, rfl, rfl⟩
  exact hfilled.noByteLost_iff packets

/-- A callback that accepts one byte at a time. -/
def oneByte : Callback Unit where
  write _ bs := (min 1 bs.length, ())
  le_length _ bs := by omega

/-- Two packets of one byte. -/
theorem no_byte_lost_iff_short :
    NoByteLost [] [[1], [2]] (new [0, 0] 2 (some oneByte.logged) ((), []))
      ↔ EachTaken oneByte [[1], [2]] (new [0, 0] 2 (some oneByte.logged) ((), [])) :=
  no_byte_lost_iff oneByte () (List.cons_ne_nil 0 [0]) [[1], [2]]

/-- **What the second write does not accept is dropped**, and `handle_output` returns `0`. -/
theorem byte_dropped :
    ¬ NoByteLost [] [[1, 2, 3]] (new [0, 0, 0, 0] 4 (some oneByte.logged) ((), [])) := by
  rintro ⟨r, m', hrun, hlost⟩
  have hview : ((handleOutput [1, 2, 3]
      (new [0, 0, 0, 0] 4 (some oneByte.logged) ((), []))).toOption.map fun out =>
        (out.1.toOption, out.2.client.2, out.2.buffer.content)) = some (some 0, [1, 2], []) := by
    decide +kernel
  rw [hrun] at hview
  change some (some r, m'.client.2, m'.buffer.content) = _ at hview
  rw [Option.some.injEq, Prod.mk.injEq, Prod.mk.injEq, Option.some.injEq] at hview
  obtain ⟨rfl, haccepted, hcontent⟩ := hview
  rw [if_pos rfl, haccepted, hcontent] at hlost
  exact absurd hlost.1 (by decide)

end Packets

end RawMux

end SmartStreaming
