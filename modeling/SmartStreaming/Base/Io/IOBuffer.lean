import SmartStreaming.Base.Io.BufferFifo

/-!
# Base/Io/IOBuffer — reading a connection through a cache

`IOBuffer` reads ahead from a connection into a `Buffer`, or past it once `set_no_cache` has been
called.  The connection is a parameter: an `IReader` is anything that answers `read(buf, n)` with at
most `n` bytes.  `readBytes_delivers` is one call, `iobuffer_delivers_stream` any run of them: what
was delivered, followed by what is cached, is what the reader produced.
-/

namespace SmartStreaming

open Machinery Comp

/-- `class IReader`: `read(buf, n)` gives the return value and the bytes stored at `buf`. -/
structure IReader (σ : Type) where
  read : σ → ℤ → (ℤ × Bytes) × σ

/-- A reader that returns between `0` and `n` bytes when asked for `n`. -/
structure IReader.Lawful {σ : Type} (reader : IReader σ) : Prop where
  length_eq : ∀ s n, 0 ≤ n → ((reader.read s n).1.2.length : ℤ) = (reader.read s n).1.1
  le : ∀ s n, 0 ≤ n → (reader.read s n).1.1 ≤ n

/-- The reader with a log of all it has produced. -/
def IReader.logged {σ : Type} (reader : IReader σ) : IReader (σ × Bytes) where
  read := fun (s, log) n =>
    let (out, s') := reader.read s n
    (out, s', log ++ out.2)

theorem IReader.Lawful.logged {σ : Type} {reader : IReader σ} (h : reader.Lawful) :
    reader.logged.Lawful :=
  ⟨fun s n hn => h.length_eq s.1 n hn, fun s n hn => h.le s.1 n hn⟩

/-- `class IOBuffer`, with the state of its reader. -/
structure IOBuffer (σ : Type) where
  buffer : Buffer
  reader : σ
  noCache : Bool

namespace IOBuffer

variable {σ : Type}

/-- A call on the cache. -/
def onBuffer {α : Type} (f : Stream α) : Comp Fault (IOBuffer σ) ℤ α :=
  zoom buffer (fun b io => { io with buffer := b }) f

/-- A call of the reader. -/
def callReader (rd : IReader σ) (n : ℤ) : Comp Fault (IOBuffer σ) ℤ (ℤ × Bytes) := do
  let io ← get
  let (out, s) := rd.read io.reader n
  put { io with reader := s }
  return out

/-- `IOBuffer(reader, buffer)`. -/
def new (reader : σ) (buffer : Buffer) : IOBuffer σ := ⟨buffer, reader, false⟩

def setNoCache : Comp Fault (IOBuffer σ) ℤ PUnit := do
  put { (← get) with noCache := true }

/-- `read_from_cache(dst, len)`: what was copied to `dst`, and the new `len`. -/
def readFromCache (len : ℤ) : Stream (Bytes × ℤ) := do
  let cacheSize := (← get).readLeft
  if cacheSize > 0 then
    if cacheSize ≥ len then
      let (_, dst, len) ← Buffer.readBytes len
      return (dst, len)
    else
      let (_, dst, readSize) ← Buffer.readBytes cacheSize
      return (dst, readSize)
  else
    return ([], 0)

/-- What a reader stored at `wcurrent()`. -/
def storeAtWcurrent (bs : Bytes) : Stream PUnit := do
  let b ← get
  let mem ← ofOption .outOfBounds (store b.buf b.wpos bs)
  put { b with buf := mem }

/-- `read_bytes(dst, len)`: the return value and what `dst` holds. -/
def readBytes (rd : IReader σ) (len : ℤ) : Comp Fault (IOBuffer σ) ℤ (ℤ × Bytes) := do
  let (dst, readSize) ← onBuffer (readFromCache len)
  let io ← get
  if io.noCache then
    let (readFromReader, bs) ← callReader rd (len - readSize)
    return (readSize + readFromReader, dst ++ bs)
  else
    let needReadSize := len - readSize
    if needReadSize = 0 then
      return (readSize, dst)
    else
      let (readSizeFromReader, bs) ← callReader rd io.buffer.continuousWriteLeft
      onBuffer (storeAtWcurrent bs)
      if readSizeFromReader < 0 then
        return (readSizeFromReader, dst)
      else
        let _ ← onBuffer (Buffer.seekWrite readSizeFromReader)
        let (more, wantedSize) ← onBuffer (readFromCache needReadSize)
        return (readSize + wantedSize, dst ++ more)

/-! ## The cache -/

section Cache

variable {b : Buffer}

/-- **`read_from_cache` delivers the oldest bytes**, as many as there are. -/
theorem readFromCache_eq (hb : b.Valid) {len : ℤ} (h : 0 ≤ len) :
    readFromCache len b = .ok (.ok (b.content.take len.toNat, min len b.readLeft),
      b.skip (min len b.readLeft)) := by
  have hlen := Buffer.length_content hb
  have hread := Buffer.readLeft_nonneg hb
  rw [readFromCache, run_get_bind]
  by_cases hpos : b.readLeft > 0
  · rw [if_pos hpos]
    by_cases hge : b.readLeft ≥ len
    · rw [if_pos hge]
      rcases h.eq_or_lt with rfl | h₀
      · rw [run_bind_ok (Buffer.readBytes_of_le b (le_refl _)), min_eq_left hread,
          Buffer.skip_zero hb]
        rfl
      · rw [run_bind_ok (Buffer.readBytes_eq hb h₀)]
        rfl
    · rw [if_neg hge, run_bind_ok (Buffer.readBytes_eq hb hpos)]
      dsimp only
      rw [run_pure, min_self, min_eq_right (by omega), List.take_of_length_le (by omega),
        List.take_of_length_le (by omega)]
  · have hnil : b.content = [] := Buffer.content_eq_nil_of_readLeft (by omega)
    rw [if_neg hpos, run_pure, hnil, min_eq_right (by omega), List.take_nil,
      show b.readLeft = 0 by omega, Buffer.skip_zero hb]

/-- What a reader stored at `wcurrent`, once `seek_write` has passed over it, is appended. -/
theorem fill_eq (hb : b.Valid) {bs : Bytes} (h : bs.length ≤ b.continuousWriteLeft) :
    ∃ b₁ b₂ r, storeAtWcurrent bs b = .ok (.ok ⟨⟩, b₁)
      ∧ Buffer.seekWrite bs.length b₁ = .ok (.ok r, b₂) ∧ Buffer.Appended b bs b₂ := by
  obtain ⟨hc₀, hc₁, hc₂⟩ := Buffer.continuousWriteLeft_bounds hb
  obtain ⟨hstore, happ⟩ := Buffer.appended_splice hb bs (by omega) (by omega)
  set b₁ : Buffer := { b with buf := splice b.buf b.wpos.toNat bs } with hb₁
  have hrun : storeAtWcurrent bs b = .ok (.ok ⟨⟩, b₁) := by
    rw [storeAtWcurrent, run_get_bind, hstore, run_some_bind, run_put]
  rcases Nat.eq_zero_or_pos bs.length with h₀ | h₀
  · refine ⟨b₁, b₁, _, hrun, Buffer.seekWrite_of_le b₁ (by omega), ?_⟩
    have hstay : b.advance (splice b.buf b.wpos.toNat bs) bs.length = b₁ := by
      rw [Buffer.advance, h₀, Nat.cast_zero, Buffer.next_eq b hb.wpos_nonneg hb.wpos_lt (le_refl _)
        hb.size_pos.le, Int.add_zero, if_pos hb.wpos_lt, hb₁]
    rwa [hstay] at happ
  · exact ⟨b₁, _, _, hrun,
      Buffer.seekWrite_eq b₁ (by omega) (show (bs.length : ℤ) ≤ b.writeLeft by omega), happ⟩

end Cache

/-! ## One call -/

/-- **The cache holds what was produced and not yet delivered.** -/
structure Cached (size : ℤ) (io : IOBuffer (σ × Bytes)) (delivered : Bytes) : Prop where
  valid : io.buffer.Valid
  size_eq : io.buffer.size = size
  produced : delivered ++ io.buffer.content = io.reader.2

theorem Cached.inBlock {size : ℤ} {io : IOBuffer (σ × Bytes)} {q : Bytes} (h : Cached size io q)
    (hsize : size ≤ 2 ^ 30) : InBlock size io.buffer io.buffer.content :=
  HoldsQueue.inBlock ⟨h.valid, h.size_eq, rfl⟩ hsize

/-- Delivering the oldest cached bytes. -/
theorem Cached.deliver {size : ℤ} {io : IOBuffer (σ × Bytes)} {q : Bytes} (h : Cached size io q)
    {len : ℤ} (h₀ : 0 ≤ len) :
    Cached size { io with buffer := io.buffer.skip (min len io.buffer.readLeft) }
      (q ++ io.buffer.content.take len.toNat) := by
  have hread := Buffer.readLeft_nonneg h.valid
  have hlen := Buffer.length_content h.valid
  refine ⟨Buffer.valid_skip h.valid (by omega) (by omega), h.size_eq, ?_⟩
  change _ ++ (io.buffer.skip _).content = _
  rw [Buffer.content_skip h.valid (by omega) (by omega), Buffer.drop_min_readLeft h.valid,
    List.append_assoc, List.take_append_drop, h.produced]

theorem holds_onBuffer {α : Type} {F : Fault → Prop} {E : ℤ → IOBuffer σ → Prop}
    {Q : α → IOBuffer σ → Prop} (f : Stream α) (io : IOBuffer σ) :
    Holds F E Q (onBuffer f) io
      ↔ Holds F (fun c b => E c { io with buffer := b }) (fun a b => Q a { io with buffer := b }) f
        io.buffer :=
  holds_zoom _ _ f io

/-- The reader's answer goes to the log. -/
theorem holds_callReader {F : Fault → Prop} {E : ℤ → IOBuffer (σ × Bytes) → Prop}
    {Q : ℤ × Bytes → IOBuffer (σ × Bytes) → Prop} (reader : IReader σ) (n : ℤ)
    (io : IOBuffer (σ × Bytes)) :
    Holds F E Q (callReader reader.logged n) io
      ↔ Q (reader.read io.reader.1 n).1 { io with reader :=
          ((reader.read io.reader.1 n).2, io.reader.2 ++ (reader.read io.reader.1 n).1.2) } := by
  rw [callReader, holds_bind, holds_get]
  exact Iff.rfl

/-- What one call of `read_bytes(dst, len)` establishes: at most `len` bytes are delivered, and
nothing is lost, repeated or reordered. -/
def Delivers (size len : ℤ) (q : Bytes) (out : ℤ × Bytes) (io' : IOBuffer (σ × Bytes)) : Prop :=
  0 ≤ out.1 ∧ out.1 ≤ len ∧ (out.2.length : ℤ) = out.1 ∧ Cached size io' (q ++ out.2)

/-- How many bytes `read_bytes(dst, len)` asks its reader for, if it does. -/
def askedSize (len : ℤ) (io : IOBuffer σ) : ℤ :=
  if io.noCache then len - min len io.buffer.readLeft
  else (io.buffer.skip (min len io.buffer.readLeft)).continuousWriteLeft

/-- **One call of `read_bytes`** whose reader answers with as many bytes as it says, from the cache,
past it, or both. -/
theorem readBytes_delivers_of {reader : IReader σ} {size len : ℤ} (h₀ : 0 ≤ len)
    {io : IOBuffer (σ × Bytes)} {q : Bytes} (h : Cached size io q)
    (hbs : ((reader.read io.reader.1 (askedSize len io)).1.2.length : ℤ)
      = (reader.read io.reader.1 (askedSize len io)).1.1)
    (hle : (reader.read io.reader.1 (askedSize len io)).1.1 ≤ askedSize len io) :
    Holds (fun _ => False) (fun _ _ => False) (Delivers size len q)
      (readBytes reader.logged len) io := by
  have hread := Buffer.readLeft_nonneg h.valid
  have hlen := Buffer.length_content h.valid
  have hdst : ((io.buffer.content.take len.toNat).length : ℤ) = min len io.buffer.readLeft := by
    rw [List.length_take]; omega
  have hfirst := h.deliver h₀
  rw [readBytes, holds_bind, holds_onBuffer]
  refine holds_of_run (readFromCache_eq h.valid h₀) ?_
  dsimp only
  set dst := io.buffer.content.take len.toNat
  set readSize := min len io.buffer.readLeft with hreadSize
  set io₁ : IOBuffer (σ × Bytes) := { io with buffer := io.buffer.skip readSize } with hio₁
  rw [holds_bind, holds_get, holds_ite]
  refine ⟨fun hno => ?_, fun hcache => ?_⟩
  · -- past the cache, which is empty or has already given all that was asked for
    have hasked : askedSize len io = len - readSize := if_pos hno
    rw [hasked] at hbs hle
    change ((reader.read io₁.reader.1 (len - readSize)).1.2.length : ℤ)
      = (reader.read io₁.reader.1 (len - readSize)).1.1 at hbs
    change (reader.read io₁.reader.1 (len - readSize)).1.1 ≤ len - readSize at hle
    have hleft : io₁.buffer.content.length = io.buffer.readLeft - readSize := by
      rw [Buffer.length_content hfirst.valid]
      exact Buffer.readLeft_skip h.valid (by omega) (by omega)
    rw [holds_bind, holds_callReader]
    refine ⟨by dsimp only; omega, by dsimp only; omega, by simp only [List.length_append]; omega,
      hfirst.valid, hfirst.size_eq, ?_⟩
    have hprod := hfirst.produced
    dsimp only at hprod ⊢
    rcases le_total io.buffer.readLeft len with hcase | hcase
    · have hnil : io₁.buffer.content = [] := List.length_eq_zero_iff.1 (by omega)
      rw [hnil, List.append_nil] at hprod
      rw [hnil, List.append_nil, ← List.append_assoc, hprod]
    · have hnil : (reader.read io₁.reader.1 (len - readSize)).1.2 = [] :=
        List.length_eq_zero_iff.1 (by omega)
      rw [hnil, List.append_nil, List.append_nil, hprod]
  · rw [holds_ite]
    refine ⟨fun hneed => ?_, fun hneed => ?_⟩
    · exact ⟨by dsimp only; omega, by dsimp only; omega, by dsimp only; omega, hfirst⟩
    · -- the cache is empty: fill it and serve the rest from it
      have hasked : askedSize len io = io₁.buffer.continuousWriteLeft := if_neg hcache
      rw [hasked] at hbs hle
      rw [holds_bind, holds_callReader]
      set out := reader.read io₁.reader.1 io₁.buffer.continuousWriteLeft with hout
      have hfit : out.1.2.length ≤ io₁.buffer.continuousWriteLeft := by omega
      obtain ⟨b₁, b₂, r, hstore, hseek, happ⟩ := fill_eq hfirst.valid hfit
      have hfill : Cached size
          { io₁ with buffer := b₂, reader := (out.2, io₁.reader.2 ++ out.1.2) } (q ++ dst) := by
        refine ⟨happ.valid, happ.size_eq.trans hfirst.size_eq, ?_⟩
        have hprod := hfirst.produced
        dsimp only at hprod ⊢
        rw [happ.content_eq, ← List.append_assoc, hprod]
      have hread₂ := Buffer.readLeft_nonneg happ.valid
      have hlen₂ := Buffer.length_content happ.valid
      have hmore : ((b₂.content.take (len - readSize).toNat).length : ℤ)
          = min (len - readSize) b₂.readLeft := by
        rw [List.length_take]; omega
      rw [holds_bind, holds_onBuffer]
      refine holds_of_run hstore ?_
      rw [holds_ite]
      refine ⟨fun hneg => by omega, fun _ => ?_⟩
      rw [holds_bind, holds_onBuffer, ← hbs]
      refine holds_of_run hseek ?_
      rw [holds_bind, holds_onBuffer]
      refine holds_of_run (readFromCache_eq happ.valid (by omega)) ?_
      refine ⟨by dsimp only; omega, by dsimp only; omega,
        by simp only [List.length_append]; omega, ?_⟩
      rw [← List.append_assoc]
      exact hfill.deliver (by omega)

/-- One call of `read_bytes` on a lawful reader. -/
theorem readBytes_delivers {reader : IReader σ} (hr : reader.Lawful) {size len : ℤ} (h₀ : 0 ≤ len)
    {io : IOBuffer (σ × Bytes)} {q : Bytes} (h : Cached size io q) :
    Holds (fun _ => False) (fun _ _ => False) (Delivers size len q)
      (readBytes reader.logged len) io := by
  have hread := Buffer.readLeft_nonneg h.valid
  have hasked : 0 ≤ askedSize len io := by
    rw [askedSize]
    split
    · omega
    · exact (Buffer.continuousWriteLeft_bounds (h.deliver h₀).valid).1
  exact readBytes_delivers_of h₀ h (hr.length_eq _ _ hasked) (hr.le _ _ hasked)

end IOBuffer

/-! ## Whole runs -/

/-- What a caller does: read at most `len` bytes, or turn the cache off. -/
inductive IOOp
  | readBytes (len : ℤ) (hlen : 0 ≤ len)
  | setNoCache

/-- The operation on a reader with a log; `set_no_cache` delivers nothing. -/
def IOOp.run {σ : Type} (reader : IReader σ) :
    IOOp → Comp Fault (IOBuffer (σ × Bytes)) ℤ (ℤ × Bytes)
  | .readBytes len _ => IOBuffer.readBytes reader.logged len
  | .setNoCache => do
    IOBuffer.setNoCache
    return (0, [])

/-- The length an operation asks for. -/
def IOOp.wanted : IOOp → ℤ
  | .readBytes len _ => len
  | .setNoCache => 0

/-- What an operation does to the bytes delivered so far: it appends the `r` bytes it returns, at
most as many as were asked for. -/
def DeliverStep (delivered : Bytes) (op : IOOp) (out : ℤ × Bytes) (delivered' : Bytes) : Prop :=
  0 ≤ out.1 ∧ out.1 ≤ op.wanted ∧ (out.2.length : ℤ) = out.1 ∧ delivered' = delivered ++ out.2

theorem IOOp.refines {σ : Type} {reader : IReader σ} (hr : reader.Lawful) (size : ℤ) (op : IOOp) :
    Refines (fun _ _ _ => False) (IOBuffer.Cached size) DeliverStep (IOOp.run reader) op := by
  intro io q h
  cases op with
  | readBytes len hlen =>
    refine (IOBuffer.readBytes_delivers hr hlen h).imp (fun _ _ => id) ?_
    rintro out io' ⟨h₀, h₁, h₂, h₃⟩
    exact ⟨_, ⟨h₀, h₁, h₂, rfl⟩, h₃⟩
  | setNoCache =>
    exact ⟨q, ⟨le_refl _, le_refl _, rfl, (List.append_nil q).symm⟩, h.valid, h.size_eq,
      h.produced⟩

/-- A run delivers its replies one after the other. -/
theorem DeliverStep.flatten {q q' : Bytes} {ops : List IOOp} {outs : List (ℤ × Bytes)}
    (h : Runs DeliverStep q ops outs q') : q' = q ++ (outs.map Prod.snd).flatten := by
  induction h with
  | nil q => exact (List.append_nil q).symm
  | cons hstep _ ih => rw [ih, hstep.2.2.2, List.map_cons, List.flatten_cons, List.append_assoc]

/-- **The stream survives the cache**: over any run of `read_bytes` calls on a lawful reader, with
`set_no_cache` anywhere in it, each call returns `0 ≤ r ≤ len` and `r` bytes, and the bytes
delivered so far followed by the bytes still cached are the bytes the reader has produced. -/
theorem iobuffer_delivers_stream {σ : Type} (reader : IReader σ) (hr : reader.Lawful) (s : σ)
    (buffer : Bytes) (size : ℤ) (h₀ : 2 ≤ size) (h₁ : size ≤ 2 ^ 30) (hbuf : size ≤ buffer.length)
    (ops : List IOOp) :
    ∃ outs io, ops.mapM (IOOp.run reader) (IOBuffer.new (s, []) (Buffer.new buffer size))
        = .ok (.ok outs, io)
      ∧ Runs DeliverStep [] ops outs (outs.map Prod.snd).flatten
      ∧ (outs.map Prod.snd).flatten ++ io.buffer.content = io.reader.2
      ∧ InBlock size io.buffer io.buffer.content := by
  have hnew : IOBuffer.Cached size (IOBuffer.new (s, []) (Buffer.new buffer size)) [] :=
    ⟨Buffer.valid_new (by omega) hbuf, rfl, Buffer.content_new buffer size⟩
  have h := Refines.mapM_const (fun op (_ : op ∈ ops) => IOOp.refines hr size op) hnew
  obtain ⟨outs, io, hrun, q, hruns, hq⟩ := h.returns
  have hflat := DeliverStep.flatten hruns
  rw [List.nil_append] at hflat
  subst hflat
  exact ⟨outs, io, hrun, hruns, hq.produced, hq.inBlock h₁⟩

/-- A reader that hands out what is left of a stream, at most three bytes at a time. -/
def dribble : IReader Bytes where
  read := fun rest n =>
    ((((rest.take (min n 3).toNat).length : ℤ), rest.take (min n 3).toNat),
      rest.drop (min n 3).toNat)

theorem dribble_lawful : dribble.Lawful where
  length_eq _ _ _ := rfl
  le s n hn := by
    change ((s.take (min n 3).toNat).length : ℤ) ≤ n
    rw [List.length_take]
    omega

theorem iobuffer_delivers_stream_dribble :
    ∃ outs io, [IOOp.readBytes 2 (by decide), .setNoCache, .readBytes 4 (by decide)].mapM
          (IOOp.run dribble) (IOBuffer.new (text "stream", []) (Buffer.new [0, 0, 0, 0] 4))
        = .ok (.ok outs, io)
      ∧ Runs DeliverStep [] [IOOp.readBytes 2 (by decide), .setNoCache, .readBytes 4 (by decide)]
          outs (outs.map Prod.snd).flatten
      ∧ (outs.map Prod.snd).flatten ++ io.buffer.content = io.reader.2
      ∧ InBlock 4 io.buffer io.buffer.content :=
  iobuffer_delivers_stream dribble dribble_lawful _ [0, 0, 0, 0] 4 (by decide) (by decide)
    (by decide) _

end SmartStreaming
