import SmartStreaming.Base.Io.BufferAppend
import SmartStreaming.Machinery.Refine

/-!
# Base/Io/BufferFifo — the ring buffer is a FIFO queue of capacity `size - 1`

`BufferOp` are the operations of `Buffer`, `FifoStep cap` what each of them does to a queue of bytes
of capacity `cap`: writing operations push at the back, reading operations pop at the front, a
refused one changes nothing.  `BufferOp.refines` is the step, `Refines.mapM` the run.
-/

namespace SmartStreaming

open Machinery Comp

/-! ## Operations and replies -/

/-- An operation of `Buffer` and its arguments.  The block handed to `write_bytes` has the length
the caller says. -/
inductive BufferOp
  | writeBytes (src : Bytes) (len : ℤ) (hsrc : len ≤ src.length)
  | write1byte (value : BitVec 8)
  | write2bytes (value : BitVec 16)
  | write3bytes (value : BitVec 32)
  | write4bytes (value : BitVec 32)
  | write8bytes (value : BitVec 64)
  | readBytes (len : ℤ)
  | read1byte
  | read2bytes
  | read3bytes
  | read4bytes
  | read8bytes
  | readString (len : ℤ)
  | seekRead (len : ℤ)
  | seekWrite (len : ℤ)
  | reset

/-- What an operation returns. -/
inductive Reply
  /-- A return code. -/
  | code (ret : ℤ)
  /-- The code of `read_bytes`, what it copied out, and the length it reports. -/
  | bytes (ret : ℤ) (dst : Bytes) (len : ℤ)
  /-- An integer of `w` bits. -/
  | int (w : ℕ) (value : BitVec w)
  | string (result : Bytes)
  | unit

namespace BufferOp

/-- The call an operation makes. -/
def run : BufferOp → Stream Reply
  | writeBytes src len _ => do return .code (← Buffer.writeBytes src len)
  | write1byte value => do return .code (← Buffer.write1byte value)
  | write2bytes value => do return .code (← Buffer.write2bytes value)
  | write3bytes value => do return .code (← Buffer.write3bytes value)
  | write4bytes value => do return .code (← Buffer.write4bytes value)
  | write8bytes value => do return .code (← Buffer.write8bytes value)
  | readBytes len => do
    let (ret, dst, n) ← Buffer.readBytes len
    return .bytes ret dst n
  | read1byte => do return .int 8 (← Buffer.read1byte)
  | read2bytes => do return .int 16 (← Buffer.read2bytes)
  | read3bytes => do return .int 32 (← Buffer.read3bytes)
  | read4bytes => do return .int 32 (← Buffer.read4bytes)
  | read8bytes => do return .int 64 (← Buffer.read8bytes)
  | readString len => do return .string (← Buffer.readString len)
  | seekRead len => do return .code (← Buffer.seekRead len)
  | seekWrite len => do return .code (← Buffer.seekWrite len)
  | reset => do
    Buffer.reset
    return .unit

end BufferOp

/-! ## The queue -/

/-- Pushing `bs`, with the return code of the call. -/
def Pushes (cap : ℤ) (q bs : Bytes) (r : Reply) (q' : Bytes) : Prop :=
  q.length + bs.length ≤ cap ∧ r = .code errorSuccess ∧ q' = q ++ bs

/-- Popping an `n`-byte big-endian integer of `w` bits. -/
def PopsInt (w n : ℕ) (q : Bytes) (r : Reply) (q' : Bytes) : Prop :=
  n ≤ q.length ∧ r = .int w (BitVec.ofNat w (beNat (q.take n))) ∧ q' = q.drop n

/-- **What each operation does to a queue of capacity `cap`.**  A length that is not positive, or
for which there is no room (`write_bytes`, `seek_write`) or not enough to read (`seek_read`), is
refused: nothing changes.  `seek_write` pushes bytes of which nothing is said. -/
def FifoStep (cap : ℤ) (q : Bytes) : BufferOp → Reply → Bytes → Prop
  | .writeBytes src len _, r, q' =>
    if 0 < len ∧ q.length + len ≤ cap then
      r = .code errorSuccess ∧ q' = q ++ src.take len.toNat
    else r = .code errorBufferRead ∧ q' = q
  | .write1byte value, r, q' => Pushes cap q (beBytes 1 value.toNat) r q'
  | .write2bytes value, r, q' => Pushes cap q (beBytes 2 value.toNat) r q'
  | .write3bytes value, r, q' => Pushes cap q (beBytes 3 value.toNat) r q'
  | .write4bytes value, r, q' => Pushes cap q (beBytes 4 value.toNat) r q'
  | .write8bytes value, r, q' => Pushes cap q (beBytes 8 value.toNat) r q'
  | .readBytes len, r, q' =>
    if 0 < len then
      r = .bytes errorSuccess (q.take len.toNat) (min len q.length) ∧ q' = q.drop len.toNat
    else r = .bytes errorBufferRead [] len ∧ q' = q
  | .read1byte, r, q' => PopsInt 8 1 q r q'
  | .read2bytes, r, q' => PopsInt 16 2 q r q'
  | .read3bytes, r, q' => PopsInt 32 3 q r q'
  | .read4bytes, r, q' => PopsInt 32 4 q r q'
  | .read8bytes, r, q' => PopsInt 64 8 q r q'
  | .readString len, r, q' =>
    if 0 ≤ len then
      len ≤ q.length ∧ r = .string (q.take len.toNat) ∧ q' = q.drop len.toNat
    else q' = q
  | .seekRead len, r, q' =>
    if 0 < len ∧ len ≤ q.length then r = .code errorSuccess ∧ q' = q.drop len.toNat
    else r = .code errorBufferRead ∧ q' = q
  | .seekWrite len, r, q' =>
    if 0 < len ∧ q.length + len ≤ cap then
      r = .code errorSuccess ∧ ∃ bs : Bytes, bs.length = len.toNat ∧ q' = q ++ bs
    else r = .code errorBufferRead ∧ q' = q
  | .reset, r, q' => r = .unit ∧ q' = []

/-! ## One operation -/

/-- The buffer holds the queue `q` in a block of `size` bytes. -/
def HoldsQueue (size : ℤ) (b : Buffer) (q : Bytes) : Prop :=
  b.Valid ∧ b.size = size ∧ b.content = q

/-- **An operation that reaches beyond the queue**: an integer for which there is no room, or more
bytes than the queue has. -/
def BufferOp.Overreaches (cap : ℤ) (q : Bytes) : BufferOp → Prop
  | .write1byte _ => cap < q.length + 1
  | .write2bytes _ => cap < q.length + 2
  | .write3bytes _ => cap < q.length + 3
  | .write4bytes _ => cap < q.length + 4
  | .write8bytes _ => cap < q.length + 8
  | .read1byte => q.length < 1
  | .read2bytes => q.length < 2
  | .read3bytes => q.length < 3
  | .read4bytes => q.length < 4
  | .read8bytes => q.length < 8
  | .readString len => q.length < len
  | _ => False

/-- What may stop an operation: a `read_left` or `write_left` assertion of the class, where it
reaches beyond the queue, or `std::length_error` at a `read_string` of negative length. -/
def StopsAt (cap : ℤ) (q : Bytes) (op : BufferOp) : Fault → Prop
  | .assertion => op.Overreaches cap q
  | .lengthError => ∃ len < 0, op = .readString len
  | _ => False

section Step

variable {size : ℤ} {b : Buffer} {q : Bytes}

theorem HoldsQueue.room (h : HoldsQueue size b q) : b.writeLeft = size - 1 - q.length := by
  obtain ⟨hb, hsize, rfl⟩ := h
  have h₁ := Buffer.readLeft_add_writeLeft hb
  have h₂ := Buffer.length_content hb
  omega

theorem HoldsQueue.readLeft (h : HoldsQueue size b q) : b.readLeft = q.length := by
  obtain ⟨hb, hsize, rfl⟩ := h
  exact (Buffer.length_content hb).symm

theorem HoldsQueue.append {b' : Buffer} {bs : Bytes} (h : HoldsQueue size b q)
    (ha : Buffer.Appended b bs b') : HoldsQueue size b' (q ++ bs) :=
  ⟨ha.valid, ha.size_eq.trans h.2.1, by rw [ha.content_eq, h.2.2]⟩

theorem HoldsQueue.skip (h : HoldsQueue size b q) {n : ℤ} (h₀ : 0 ≤ n) (h₁ : n ≤ q.length) :
    HoldsQueue size (b.skip n) (q.drop n.toNat) := by
  have hleft := h.readLeft
  obtain ⟨hb, hsize, rfl⟩ := h
  exact ⟨Buffer.valid_skip hb h₀ (by omega), hsize, Buffer.content_skip hb h₀ (by omega)⟩

theorem push_int {F : Fault → Prop} {n : ℕ} (hF : size - 1 < q.length + n → F .assertion)
    (h : HoldsQueue size b q) (x : ℕ) :
    Holds F (fun _ _ => False)
      (fun r b' => ∃ q', Pushes (size - 1) q (beBytes n x) r q' ∧ HoldsQueue size b' q')
      (do return Reply.code (← Buffer.writeInt n x)) b := by
  have hroom := h.room
  rw [holds_bind]
  by_cases hn : n ≤ b.writeLeft
  · obtain ⟨b', hrun, happ⟩ := Buffer.writeInt_eq h.1 x hn
    rw [Holds, hrun]
    exact ⟨_, ⟨by rw [length_beBytes]; omega, rfl, rfl⟩, h.append happ⟩
  · rw [Holds, Buffer.writeInt_full b (by omega)]
    exact hF (by omega)

theorem pop_int {F : Fault → Prop} {n : ℕ} (hF : q.length < n → F .assertion)
    (h : HoldsQueue size b q) (w : ℕ) :
    Holds F (fun _ _ => False)
      (fun r b' => ∃ q', PopsInt w n q r q' ∧ HoldsQueue size b' q')
      (do return Reply.int w (← Buffer.readInt w n)) b := by
  have hleft := h.readLeft
  have hlen := Buffer.length_content h.1
  have hskip := h.skip (n := n) (by omega)
  obtain ⟨hb, hsize, rfl⟩ := h
  rw [holds_bind]
  by_cases hn : n ≤ b.content.length
  · rw [Holds, Buffer.readInt_eq hb hn]
    exact ⟨_, ⟨hn, rfl, rfl⟩, hskip (by omega)⟩
  · rw [Holds, Buffer.readInt_short hb (by omega)]
    exact hF (by omega)

/-- A negative length makes `read_string` throw or copy out bytes nobody asked for; the queue
stays. -/
theorem readString_of_neg (hb : b.Valid) {len : ℤ} (h : len < 0) :
    Buffer.readString len b = .error .lengthError
      ∨ ∃ s, Buffer.readString len b = .ok (.ok s, b) := by
  have hread := Buffer.readLeft_nonneg hb
  have hr₀ := hb.rpos_nonneg
  have hr₁ := hb.rpos_lt
  have hsize := hb.size_le
  have hseek := Buffer.seekRead_of_le b h.le
  have hnext : b.next b.rpos len ≤ b.rpos := by
    rw [Buffer.next]
    rcases le_or_gt 0 (b.rpos + len) with hp | hp
    · rw [Int.tmod_eq_of_lt hp (by omega)]
      omega
    · have := Int.tmod_nonneg b.size (show 0 ≤ -(b.rpos + len) by omega)
      rw [Int.neg_tmod] at this
      omega
  rw [Buffer.readString, run_get_bind, cassert, if_pos (by omega), pure_bind]
  beta_reduce
  split
  · rename_i hwrap
    obtain ⟨head, hhead⟩ : ∃ head, load b.buf b.rpos (b.size - b.rpos) = some head :=
      ⟨_, load_eq_some hr₀ (by omega) (by omega)⟩
    rw [run_bind_ok (Buffer.append_eq (by omega) hhead)]
    rcases le_or_gt 0 (b.next b.rpos len) with hp | hp
    · obtain ⟨tail, htail⟩ : ∃ tail, load b.buf 0 (b.next b.rpos len) = some tail :=
        ⟨_, load_eq_some (le_refl _) hp (by omega)⟩
      rw [run_bind_ok (Buffer.append_eq hp htail), run_bind_ok hseek, run_pure]
      exact Or.inr ⟨_, rfl⟩
    · rw [Buffer.append, if_pos hp, run_stop_bind]
      exact Or.inl rfl
  · rw [Buffer.append, if_pos h, run_stop_bind]
    exact Or.inl rfl

/-- An operation whose call returned, seen through `g`. -/
theorem holds_reply {α : Type} {f : Stream α} {g : α → Reply} {F : Fault → Prop} {a : α}
    {b' : Buffer} {Q : Reply → Buffer → Prop} (hrun : f b = .ok (.ok a, b')) (hQ : Q (g a) b') :
    Holds F (fun _ _ => False) Q (do return g (← f)) b := by
  rw [holds_bind]
  exact holds_of_run hrun hQ

/-- **Each operation of the buffer is the operation of the queue.** -/
theorem BufferOp.refines (size : ℤ) (op : BufferOp) :
    Refines (StopsAt (size - 1)) (HoldsQueue size) (FifoStep (size - 1)) BufferOp.run op := by
  intro b q h
  have hroom := h.room
  have hleft := h.readLeft
  have hlen := Buffer.length_content h.1
  cases op with
  | writeBytes src len hsrc =>
    by_cases hfit : 0 < len ∧ q.length + len ≤ size - 1
    · obtain ⟨b', hrun, happ⟩ := Buffer.writeBytes_eq h.1 hfit.1 hsrc (by omega)
      exact holds_reply hrun ⟨_, by rw [FifoStep, if_pos hfit]; exact ⟨rfl, rfl⟩, h.append happ⟩
    · exact holds_reply (Buffer.writeBytes_refused b src (by omega))
        ⟨q, by rw [FifoStep, if_neg hfit]; exact ⟨rfl, rfl⟩, h⟩
  | write1byte value =>
    rw [run, Buffer.write1byte_eq_writeInt]
    exact push_int id h _
  | write2bytes value =>
    rw [run, Buffer.write2bytes_eq_writeInt]
    exact push_int id h _
  | write3bytes value =>
    rw [run, Buffer.write3bytes_eq_writeInt]
    exact push_int id h _
  | write4bytes value =>
    rw [run, Buffer.write4bytes_eq_writeInt]
    exact push_int id h _
  | write8bytes value =>
    rw [run, Buffer.write8bytes_eq_writeInt]
    exact push_int id h _
  | readBytes len =>
    rw [run, holds_bind]
    rcases le_or_gt len 0 with h₀ | h₀
    · rw [Holds, Buffer.readBytes_of_le b h₀]
      exact ⟨q, by rw [FifoStep, if_neg (by omega)]; exact ⟨rfl, rfl⟩, h⟩
    · have hskip := h.skip (n := min len b.readLeft) (by omega) (by omega)
      have hdrop := Buffer.drop_min_readLeft h.1 len
      rw [h.2.2] at hdrop
      rw [Holds, Buffer.readBytes_eq h.1 h₀]
      refine ⟨_, ?_, hskip⟩
      rw [FifoStep, if_pos h₀, hdrop, h.2.2, hleft]
      exact ⟨rfl, rfl⟩
  | read1byte =>
    rw [run, Buffer.read1byte_eq_readInt]
    exact pop_int id h 8
  | read2bytes =>
    rw [run, Buffer.read2bytes_eq_readInt]
    exact pop_int id h 16
  | read3bytes =>
    rw [run, Buffer.read3bytes_eq_readInt]
    exact pop_int id h 32
  | read4bytes =>
    rw [run, Buffer.read4bytes_eq_readInt]
    exact pop_int id h 32
  | read8bytes =>
    rw [run, Buffer.read8bytes_eq_readInt]
    exact pop_int id h 64
  | readString len =>
    rcases lt_or_ge len 0 with h₀ | h₀
    · rcases readString_of_neg h.1 h₀ with hrun | ⟨s, hrun⟩
      · rw [run, holds_bind, Holds, hrun]
        exact ⟨len, h₀, rfl⟩
      · exact holds_reply hrun ⟨q, by rw [FifoStep, if_neg (by omega)], h⟩
    · rcases le_or_gt len b.readLeft with h₁ | h₁
      · refine holds_reply (Buffer.readString_eq h.1 h₀ h₁) ⟨_, ?_, h.skip h₀ (by omega)⟩
        rw [FifoStep, if_pos h₀, h.2.2]
        exact ⟨by omega, rfl, rfl⟩
      · rw [run, holds_bind, Holds, Buffer.readString_short b h₁]
        exact show (q.length : ℤ) < len by omega
  | seekRead len =>
    by_cases hfit : 0 < len ∧ len ≤ q.length
    · exact holds_reply (Buffer.seekRead_eq b hfit.1 (by omega))
        ⟨_, by rw [FifoStep, if_pos hfit]; exact ⟨rfl, rfl⟩, h.skip hfit.1.le hfit.2⟩
    · exact holds_reply (Buffer.seekRead_refused b (by omega))
        ⟨q, by rw [FifoStep, if_neg hfit]; exact ⟨rfl, rfl⟩, h⟩
  | seekWrite len =>
    by_cases hfit : 0 < len ∧ q.length + len ≤ size - 1
    · have happ := Buffer.appended_seekWrite h.1 hfit.1 (by omega)
      refine holds_reply (Buffer.seekWrite_eq b hfit.1 (by omega)) ⟨_, ?_, h.append happ⟩
      have hgrow := happ.writeLeft_eq h.1
      have hroom' := (h.append happ).room
      rw [FifoStep, if_pos hfit]
      refine ⟨rfl, _, ?_, rfl⟩
      have := h.1.size_le
      have := Buffer.readLeft_add_writeLeft h.1
      rw [length_ring (by omega) (by omega)]
    · exact holds_reply (Buffer.seekWrite_refused b (by omega))
        ⟨q, by rw [FifoStep, if_neg hfit]; exact ⟨rfl, rfl⟩, h⟩
  | reset =>
    obtain ⟨hb, hsize, -⟩ := h
    have hvalid : { b with rpos := 0, wpos := 0 : Buffer }.Valid :=
      ⟨hb.size_pos, hb.size_le, le_refl _, hb.size_pos, le_refl _, hb.size_pos⟩
    have hempty : { b with rpos := 0, wpos := 0 : Buffer }.content = [] :=
      Buffer.content_eq_nil_of_readLeft (by simp [Buffer.readLeft])
    exact ⟨[], ⟨rfl, rfl⟩, hvalid, hsize, hempty⟩

end Step

/-! ## Whole runs -/

/-- The operations one after the other. -/
def runOps (ops : List BufferOp) : Stream (List Reply) := ops.mapM BufferOp.run

/-- The replies of a run are those of the queue, and the buffer it leaves holds the queue. -/
theorem holds_runOps {buffer : Bytes} {size : ℤ} (h₀ : 1 ≤ size) (hbuf : size ≤ buffer.length)
    (ops : List BufferOp) :
    Holds (fun e => ComesTo (FifoStep (size - 1)) (fun q op => StopsAt (size - 1) q op e) [] ops)
      (fun _ _ => False)
      (fun rs b => ∃ q, Runs (FifoStep (size - 1)) [] ops rs q ∧ HoldsQueue size b q)
      (runOps ops) (Buffer.new buffer size) :=
  Refines.mapM (fun op _ => BufferOp.refines size op)
    ⟨Buffer.valid_new h₀ hbuf, rfl, Buffer.content_new buffer size⟩

/-- What holds of a buffer that holds a queue: the positions and the contiguous stretches at
`rcurrent` and `wcurrent` lie inside the block, one slot stays free, and no sum of positions leaves
the range of an `int`. -/
structure InBlock (size : ℤ) (b : Buffer) (q : Bytes) : Prop where
  rpos : 0 ≤ b.rpos ∧ b.rpos < size
  wpos : 0 ≤ b.wpos ∧ b.wpos < size
  readLeft_eq : b.readLeft = q.length
  readLeft_add_writeLeft : b.readLeft + b.writeLeft = size - 1
  content_eq : b.content = q
  continuousRead : 0 ≤ b.continuousReadLeft ∧ b.rpos + b.continuousReadLeft ≤ size
    ∧ size ≤ b.buf.length
  continuousRead_eq : ((b.buf.drop b.rpos.toNat).take b.continuousReadLeft.toNat) <+: q
  continuousWrite : 0 ≤ b.continuousWriteLeft ∧ b.wpos + b.continuousWriteLeft ≤ size
    ∧ b.continuousWriteLeft ≤ b.writeLeft
  noOverflow : b.rpos + size < 2 ^ 31 ∧ b.wpos + size < 2 ^ 31

theorem HoldsQueue.inBlock {size : ℤ} {b : Buffer} {q : Bytes} (h : HoldsQueue size b q)
    (hsize : size ≤ 2 ^ 30) : InBlock size b q := by
  have hleft := h.readLeft
  obtain ⟨hb, rfl, rfl⟩ := h
  have hr := Buffer.continuousReadLeft_bounds hb
  have hlt := Buffer.readLeft_lt hb
  have := hb.size_le
  have := hb.rpos_lt
  have := hb.wpos_lt
  have hr₀ := hb.rpos_nonneg
  refine ⟨⟨hb.rpos_nonneg, hb.rpos_lt⟩, ⟨hb.wpos_nonneg, hb.wpos_lt⟩, hleft,
    Buffer.readLeft_add_writeLeft hb, rfl, ⟨hr.1, hr.2.1, hb.size_le⟩, ?_,
    Buffer.continuousWriteLeft_bounds hb, by omega, by omega⟩
  have hblock : (b.buf.drop b.rpos.toNat).take b.continuousReadLeft.toNat
      = b.content.take b.continuousReadLeft.toNat := by
    rw [Buffer.content, take_ring, Nat.min_eq_left (by omega),
      ring_eq_take_drop (by omega) (by omega)]
  rw [hblock]
  exact List.take_prefix _ _

/-- **The ring buffer refines a FIFO queue of capacity `size - 1`**, over any sequence of
operations from a new buffer: unless an operation reaches beyond the queue, which an assertion of
the class stops, its replies are the queue's, its content is the queue, and its positions stay in
the block.  (Only a `read_string` of negative length can throw.) -/
theorem buffer_refines_fifo (buffer : Bytes) (size : ℤ) (h₀ : 1 ≤ size) (h₁ : size ≤ 2 ^ 30)
    (hbuf : size ≤ buffer.length) (ops : List BufferOp) :
    (runOps ops (Buffer.new buffer size) = .error .assertion
        ∧ ComesTo (FifoStep (size - 1)) (fun q op => op.Overreaches (size - 1) q) [] ops)
      ∨ (runOps ops (Buffer.new buffer size) = .error .lengthError
          ∧ ∃ len < 0, BufferOp.readString len ∈ ops)
      ∨ ∃ rs b q, runOps ops (Buffer.new buffer size) = .ok (.ok rs, b)
          ∧ Runs (FifoStep (size - 1)) [] ops rs q ∧ InBlock size b q := by
  have h := holds_runOps h₀ hbuf ops
  unfold Holds at h
  split at h
  · rename_i e he
    cases e with
    | assertion => exact Or.inl ⟨he, h⟩
    | lengthError =>
      obtain ⟨op, hop, -, len, hlen, rfl⟩ := h.exists_mem
      exact Or.inr (Or.inl ⟨he, len, hlen, hop⟩)
    | _ => obtain ⟨-, -, -, ⟨⟩⟩ := h.exists_mem
  · exact h.elim
  · rename_i rs b hrun
    obtain ⟨q, hruns, hq⟩ := h
    exact Or.inr (Or.inr ⟨rs, b, q, hrun, hruns, hq.inBlock h₁⟩)

/-- A ring of three slots, around its end. -/
def threeSlots : List BufferOp := [.write2bytes 0x0102, .readBytes 5, .write1byte 3, .read1byte]

theorem buffer_refines_fifo_three :
    (runOps threeSlots (Buffer.new [0, 0, 0] 3) = .error .assertion
        ∧ ComesTo (FifoStep (3 - 1)) (fun q op => op.Overreaches (3 - 1) q) [] threeSlots)
      ∨ (runOps threeSlots (Buffer.new [0, 0, 0] 3) = .error .lengthError
          ∧ ∃ len < 0, BufferOp.readString len ∈ threeSlots)
      ∨ ∃ rs b q, runOps threeSlots (Buffer.new [0, 0, 0] 3) = .ok (.ok rs, b)
          ∧ Runs (FifoStep (3 - 1)) [] threeSlots rs q ∧ InBlock 3 b q :=
  buffer_refines_fifo [0, 0, 0] 3 (by decide) (by decide) (by decide) threeSlots

end SmartStreaming
