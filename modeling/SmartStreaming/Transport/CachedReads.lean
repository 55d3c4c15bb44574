import SmartStreaming.Transport.Tcp

/-!
# Transport/CachedReads — `IOBuffer::read_bytes` over a connection that fails

The cache is drained before the connection is read, so that a failure finds the cached bytes already
taken: `read_bytes` returns the error and they are lost.  Past the cache the error is added to their
number.  The positive `error_socket_already_closed` is taken for a number of bytes.
`readBytes_meets_iff` says when none of this happens.
-/

namespace SmartStreaming

open Machinery Comp

namespace IOBuffer

variable {σ : Type}

/-- **What a call should bring**: `r` of the `len` bytes asked for, which are the next ones, or an
error that leaves them all to later calls.  `q` is what has been delivered before. -/
def MeetsRead (size len : ℤ) (q : Bytes) (out : ℤ × Bytes) (io' : IOBuffer (σ × Bytes)) : Prop :=
  (0 ≤ out.1 ∧ out.1 ≤ len ∧ out.1 ≤ out.2.length ∧ Cached size io' (q ++ out.2.take out.1.toNat))
    ∨ (out.1 < 0 ∧ Cached size io' q)

/-- `read_bytes(dst, len)` calls its reader. -/
def CallsReader (len : ℤ) (io : IOBuffer σ) : Prop :=
  io.noCache = true ∨ io.buffer.readLeft < len

/-- What the reader answers when it is called. -/
def answer (reader : IReader σ) (len : ℤ) (io : IOBuffer (σ × Bytes)) : ℤ × Bytes :=
  (reader.read io.reader.1 (askedSize len io)).1

/-- The reader has brought what it says; or it has failed before anything was taken out of the
cache; or it was closed, and the cache is too small for that to pass as a number of bytes. -/
def Harmless (answer : ℤ × Bytes) (len : ℤ) (io : IOBuffer σ) : Prop :=
  (answer.2.length : ℤ) = answer.1 ∨ (answer.1 < 0 ∧ (len = 0 ∨ io.buffer.content = []))
    ∨ (0 ≤ answer.1 ∧ io.noCache = false ∧ io.buffer.size ≤ answer.1)

section Runs

variable {rd : IReader σ} {io : IOBuffer σ} {len : ℤ}

theorem onBuffer_ok {α : Type} {f : Stream α} {r : Except ℤ α} {b : Buffer}
    (h : f io.buffer = .ok (r, b)) : onBuffer f io = .ok (r, { io with buffer := b }) :=
  run_zoom_ok h

/-- **Past the cache**: the reader's answer is added to what the cache has given. -/
theorem readBytes_past (hv : io.buffer.Valid) (h₀ : 0 ≤ len) (hno : io.noCache = true) :
    readBytes rd len io
      = .ok (.ok (min len io.buffer.readLeft + (rd.read io.reader (askedSize len io)).1.1,
          io.buffer.content.take len.toNat ++ (rd.read io.reader (askedSize len io)).1.2),
        { io with
          buffer := io.buffer.skip (min len io.buffer.readLeft)
          reader := (rd.read io.reader (askedSize len io)).2 }) := by
  have hfirst : onBuffer (readFromCache len) io
      = .ok (.ok (io.buffer.content.take len.toNat, min len io.buffer.readLeft),
        { io with buffer := io.buffer.skip (min len io.buffer.readLeft) }) :=
    run_zoom_ok (readFromCache_eq hv h₀)
  rw [readBytes, run_bind_ok hfirst]
  dsimp only
  rw [run_get_bind, if_pos hno, askedSize, if_pos hno]
  rfl

/-- **From the cache**, where it holds enough. -/
theorem readBytes_cached (hv : io.buffer.Valid) (h₀ : 0 ≤ len) (h : ¬ io.CallsReader len) :
    readBytes rd len io
      = .ok (.ok (len, io.buffer.content.take len.toNat),
        { io with buffer := io.buffer.skip len }) := by
  obtain ⟨hno, hle⟩ := not_or.1 h
  have hmin : min len io.buffer.readLeft = len := min_eq_left (not_lt.1 hle)
  have hfirst : onBuffer (readFromCache len) io
      = .ok (.ok (io.buffer.content.take len.toNat, len),
        { io with buffer := io.buffer.skip len }) := by
    have hcache := readFromCache_eq hv h₀
    rw [hmin] at hcache
    exact run_zoom_ok hcache
  rw [readBytes, run_bind_ok hfirst]
  dsimp only
  rw [run_get_bind, if_neg hno]
  dsimp only
  rw [if_pos (sub_self len), run_pure]

/-- A cache that has given all it had. -/
theorem content_drained {b : Buffer} (hb : b.Valid) : (b.skip b.readLeft).content = [] := by
  have hread := Buffer.readLeft_nonneg hb
  have hlen := Buffer.length_content hb
  rw [Buffer.content_skip hb hread (le_refl _), List.drop_eq_nil_iff]
  omega

/-- **Through the cache**, where the reader stores nothing. -/
theorem readBytes_unanswered (hv : io.buffer.Valid) (hno : io.noCache = false)
    (hlt : io.buffer.readLeft < len) (hbs : (rd.read io.reader (askedSize len io)).1.2 = []) :
    readBytes rd len io
      = (if (rd.read io.reader (askedSize len io)).1.1 < 0 then
          return ((rd.read io.reader (askedSize len io)).1.1, io.buffer.content)
        else do
          let _ ← onBuffer (Buffer.seekWrite (rd.read io.reader (askedSize len io)).1.1)
          let (more, wantedSize) ← onBuffer (readFromCache (len - io.buffer.readLeft))
          return (io.buffer.readLeft + wantedSize, io.buffer.content ++ more))
        { io with
          buffer := io.buffer.skip io.buffer.readLeft
          reader := (rd.read io.reader (askedSize len io)).2 } := by
  have hread := Buffer.readLeft_nonneg hv
  have hlen := Buffer.length_content hv
  have hmin : min len io.buffer.readLeft = io.buffer.readLeft := min_eq_right hlt.le
  have hvalid := Buffer.valid_skip hv hread (le_refl _)
  have hfirst : onBuffer (readFromCache len) io
      = .ok (.ok (io.buffer.content, io.buffer.readLeft),
        { io with buffer := io.buffer.skip io.buffer.readLeft }) := by
    have hcache := readFromCache_eq hv (by omega : 0 ≤ len)
    rw [hmin, List.take_of_length_le (by omega)] at hcache
    exact run_zoom_ok hcache
  have hstore : ∀ s : σ, onBuffer (storeAtWcurrent [])
      { io with buffer := io.buffer.skip io.buffer.readLeft, reader := s }
      = .ok (.ok ⟨⟩, { io with buffer := io.buffer.skip io.buffer.readLeft, reader := s }) := by
    intro s
    obtain ⟨h₁, h₂, h₃, h₄, h₅, h₆⟩ := hvalid
    have hone : store (io.buffer.skip io.buffer.readLeft).buf
        (io.buffer.skip io.buffer.readLeft).wpos []
        = some (io.buffer.skip io.buffer.readLeft).buf := by
      rw [store_eq_some h₅ (by rw [List.length_nil]; omega)]
      simp [splice]
    refine run_zoom_ok (s := io.buffer.skip io.buffer.readLeft) ?_
    rw [storeAtWcurrent, run_get_bind, hone, run_some_bind, run_put]
  have hasked : askedSize len io = (io.buffer.skip io.buffer.readLeft).continuousWriteLeft := by
    rw [askedSize, hno, if_neg Bool.false_ne_true, hmin]
  have hcall : callReader rd (io.buffer.skip io.buffer.readLeft).continuousWriteLeft
      { io with buffer := io.buffer.skip io.buffer.readLeft }
      = .ok (.ok (rd.read io.reader (askedSize len io)).1,
        { io with
          buffer := io.buffer.skip io.buffer.readLeft
          reader := (rd.read io.reader (askedSize len io)).2 }) := by
    rw [hasked]
    rfl
  have hcache : ¬ io.noCache = true := by
    rw [hno]
    exact Bool.false_ne_true
  rw [readBytes, run_bind_ok hfirst]
  dsimp only
  rw [run_get_bind, if_neg hcache]
  dsimp only
  rw [if_neg (by omega), run_bind_ok hcall, hbs, run_bind_ok (hstore _)]

end Runs

/-! ## One call -/

section Meets

variable {reader : IReader σ} {size len : ℤ} {io : IOBuffer (σ × Bytes)} {q : Bytes}

theorem Cached.length_eq (h : Cached size io q) :
    (q.length : ℤ) + io.buffer.readLeft = io.reader.2.length := by
  rw [← Buffer.length_content h.valid, ← h.produced, List.length_append, Nat.cast_add]

/-- What was taken out of the cache has to be delivered. -/
theorem Cached.skip_iff (h : Cached size io q) {n : ℤ} (h₀ : 0 ≤ n) (h₁ : n ≤ io.buffer.readLeft)
    (s : σ) :
    Cached size
        { io with buffer := io.buffer.skip n, reader := (s, io.reader.2 ++ []) } q
      ↔ n = 0 := by
  constructor
  · intro hskip
    have hlen := hskip.length_eq
    have hlen₀ := h.length_eq
    dsimp only at hlen
    rw [Buffer.readLeft_skip h.valid h₀ h₁, List.append_nil] at hlen
    omega
  · rintro rfl
    rw [Buffer.skip_zero h.valid, List.append_nil]
    exact ⟨h.valid, h.size_eq, h.produced⟩

/-- Bytes that nobody has produced are not what the call should bring. -/
theorem not_meetsRead_of_short {out : ℤ × Bytes} (h₀ : 0 ≤ out.1) (h : out.2.length < out.1)
    {io' : IOBuffer (σ × Bytes)} : ¬ MeetsRead size len q out io' := by
  rintro (⟨-, -, hle, -⟩ | ⟨hneg, -⟩)
  · omega
  · omega

/-- The reader has stored nothing. -/
theorem logged_read_eq {code : ℤ} (ha : answer reader len io = (code, [])) :
    reader.logged.read io.reader (askedSize len io)
      = ((code, []), (reader.read io.reader.1 (askedSize len io)).2, io.reader.2 ++ []) := by
  rw [answer] at ha
  change ((reader.read io.reader.1 (askedSize len io)).1,
    (reader.read io.reader.1 (askedSize len io)).2,
    io.reader.2 ++ (reader.read io.reader.1 (askedSize len io)).1.2) = _
  rw [ha]

/-- A reader that is called although the cache is on finds too few bytes in it. -/
theorem readLeft_lt_of_calls (hcalls : io.CallsReader len) (hno : io.noCache = false) :
    io.buffer.readLeft < len :=
  hcalls.resolve_left (by rw [hno]; exact Bool.false_ne_true)

/-- The reader has failed with a negative value. -/
theorem meetsRead_failed_iff (h : Cached size io q) (h₀ : 0 ≤ len) (hcalls : io.CallsReader len)
    {code : ℤ} (hcode : code < 0) (ha : answer reader len io = (code, [])) :
    ∃ out io', readBytes reader.logged len io = .ok (.ok out, io')
      ∧ (MeetsRead size len q out io' ↔ len = 0 ∨ io.buffer.content = []) := by
  have hread := Buffer.readLeft_nonneg h.valid
  have hlen := Buffer.length_content h.valid
  have hzero : min len io.buffer.readLeft = 0 ↔ len = 0 ∨ io.buffer.content = [] := by
    rw [← List.length_eq_zero_iff]
    omega
  have hanswer := logged_read_eq ha
  have hskip := h.skip_iff (n := min len io.buffer.readLeft) (by omega) (by omega)
    (reader.read io.reader.1 (askedSize len io)).2
  rcases Bool.eq_false_or_eq_true io.noCache with hno | hno
  · refine ⟨_, _, readBytes_past h.valid h₀ hno, ?_⟩
    rw [hanswer, ← hzero]
    refine ⟨?_, fun hmin => Or.inr ⟨by dsimp only; omega, hskip.2 hmin⟩⟩
    rintro (⟨hr₀, -, hr, hcached⟩ | ⟨-, hcached⟩)
    · have hlen₁ := hcached.length_eq
      have hlen₀ := h.length_eq
      dsimp only at hr₀ hr hlen₁
      rw [Buffer.readLeft_skip h.valid (by omega) (by omega), List.append_nil, List.append_nil,
        List.length_append, List.length_take] at hlen₁
      rw [List.append_nil, List.length_take] at hr
      omega
    · exact hskip.1 hcached
  · have hlt := readLeft_lt_of_calls hcalls hno
    rw [min_eq_right hlt.le] at hskip
    have hrun : readBytes reader.logged len io = _ :=
      readBytes_unanswered h.valid hno hlt (by rw [hanswer])
    rw [hanswer, if_pos hcode, run_pure] at hrun
    refine ⟨_, _, hrun, ?_⟩
    rw [← hzero, min_eq_right hlt.le]
    refine ⟨?_, fun hmin => Or.inr ⟨hcode, hskip.2 hmin⟩⟩
    rintro (⟨hr₀, -⟩ | ⟨-, hcached⟩)
    · exact absurd hcode (not_lt.2 hr₀)
    · exact hskip.1 hcached

/-- The number of the error is taken for what the reader has brought. -/
theorem readBytes_closed (h : Cached size io q) (hno : io.noCache = false)
    (hlt : io.buffer.readLeft < len)
    (ha : answer reader len io = (errorSocketAlreadyClosed, [])) :
    readBytes reader.logged len io
      = (do
          let _ ← onBuffer (Buffer.seekWrite errorSocketAlreadyClosed)
          let (more, wantedSize) ← onBuffer (readFromCache (len - io.buffer.readLeft))
          return (io.buffer.readLeft + wantedSize, io.buffer.content ++ more))
        { io with
          buffer := io.buffer.skip io.buffer.readLeft
          reader := ((reader.read io.reader.1 (askedSize len io)).2, io.reader.2 ++ []) } := by
  have hanswer := logged_read_eq ha
  have hrun : readBytes reader.logged len io = _ :=
    readBytes_unanswered h.valid hno hlt (by rw [hanswer])
  rwa [hanswer, if_neg (by decide : ¬ errorSocketAlreadyClosed < 0)] at hrun

/-- **The number of the error is refused** by a cache that has no room for so many bytes. -/
theorem meetsRead_closed (h : Cached size io q) (hno : io.noCache = false)
    (hlt : io.buffer.readLeft < len)
    (ha : answer reader len io = (errorSocketAlreadyClosed, []))
    (hsmall : io.buffer.size ≤ errorSocketAlreadyClosed) :
    ∃ out io', readBytes reader.logged len io = .ok (.ok out, io')
      ∧ MeetsRead size len q out io' := by
  have hread := Buffer.readLeft_nonneg h.valid
  have hlen := Buffer.length_content h.valid
  have hcode : errorSocketAlreadyClosed = 10009 := rfl
  have hrun := readBytes_closed h hno hlt ha
  have hvalid := Buffer.valid_skip h.valid hread (le_refl _)
  have hempty := Buffer.readLeft_skip h.valid hread (le_refl _)
  have hroom := Buffer.readLeft_add_writeLeft hvalid
  have hsize : (io.buffer.skip io.buffer.readLeft).size = io.buffer.size := rfl
  set b₁ := io.buffer.skip io.buffer.readLeft with hb₁
  have hnil : b₁.content = [] := content_drained h.valid
  have hseek := Buffer.seekWrite_refused b₁ fun _ : 0 < errorSocketAlreadyClosed => by omega
  have hcache := readFromCache_eq hvalid (by omega : 0 ≤ len - io.buffer.readLeft)
  rw [hnil, List.take_nil, min_eq_right (by omega), show b₁.readLeft = 0 by omega,
    Buffer.skip_zero hvalid] at hcache
  rw [run_bind_ok (onBuffer_ok hseek), run_bind_ok (onBuffer_ok hcache)] at hrun
  dsimp only at hrun
  rw [run_pure] at hrun
  refine ⟨_, _, hrun, Or.inl ?_⟩
  refine ⟨by dsimp only; omega, by dsimp only; omega, ?_, hvalid, h.size_eq, ?_⟩
  · rw [List.append_nil]
    dsimp only
    omega
  · dsimp only
    rw [List.append_nil, List.append_nil, hnil, List.append_nil,
      List.take_of_length_le (by omega), h.produced]

/-- **The number of the error passes for a number of bytes** where there is room for so many. -/
theorem not_meetsRead_closed (h : Cached size io q) (hno : io.noCache = false)
    (hlt : io.buffer.readLeft < len)
    (ha : answer reader len io = (errorSocketAlreadyClosed, []))
    (hlarge : errorSocketAlreadyClosed < io.buffer.size) :
    ∃ out io', readBytes reader.logged len io = .ok (.ok out, io')
      ∧ ¬ MeetsRead size len q out io' := by
  have hread := Buffer.readLeft_nonneg h.valid
  have hlen := Buffer.length_content h.valid
  have hcode : errorSocketAlreadyClosed = 10009 := rfl
  have hrun := readBytes_closed h hno hlt ha
  have hvalid := Buffer.valid_skip h.valid hread (le_refl _)
  have hempty := Buffer.readLeft_skip h.valid hread (le_refl _)
  have hroom := Buffer.readLeft_add_writeLeft hvalid
  have hsize : (io.buffer.skip io.buffer.readLeft).size = io.buffer.size := rfl
  set b₁ := io.buffer.skip io.buffer.readLeft with hb₁
  have hseek : Buffer.seekWrite errorSocketAlreadyClosed b₁ = _ :=
    Buffer.seekWrite_eq b₁ (by decide) (by omega)
  have hvalid₂ : (b₁.advance b₁.buf errorSocketAlreadyClosed).Valid :=
    Buffer.valid_advance hvalid rfl (by omega) (by omega)
  have hread₂ : (b₁.advance b₁.buf errorSocketAlreadyClosed).readLeft
      = b₁.readLeft + errorSocketAlreadyClosed :=
    Buffer.readLeft_advance hvalid rfl (by omega) (by omega)
  set b₂ := b₁.advance b₁.buf errorSocketAlreadyClosed
  have hlen₂ := Buffer.length_content hvalid₂
  have hcache := readFromCache_eq hvalid₂ (by omega : 0 ≤ len - io.buffer.readLeft)
  have hleft := Buffer.readLeft_skip hvalid₂ (n := min (len - io.buffer.readLeft) b₂.readLeft)
    (by omega) (by omega)
  set n := min (len - io.buffer.readLeft) b₂.readLeft with hn
  rw [run_bind_ok (onBuffer_ok hseek), run_bind_ok (onBuffer_ok hcache)] at hrun
  dsimp only at hrun
  rw [run_pure] at hrun
  refine ⟨_, _, hrun, ?_⟩
  rintro (⟨-, -, -, hcached⟩ | ⟨hneg, -⟩)
  · -- the log has nothing of what is handed out
    have hlen₁ := hcached.length_eq
    have hlen₀ := h.length_eq
    dsimp only at hlen₁
    rw [hleft, List.append_nil, List.length_append, List.length_take, List.length_append,
      List.length_take] at hlen₁
    omega
  · dsimp only at hneg
    omega

/-- The reader was closed. -/
theorem meetsRead_closed_iff (h : Cached size io q) (h₀ : 0 ≤ len) (hcalls : io.CallsReader len)
    (ha : answer reader len io = (errorSocketAlreadyClosed, [])) :
    ∃ out io', readBytes reader.logged len io = .ok (.ok out, io')
      ∧ (MeetsRead size len q out io'
        ↔ io.noCache = false ∧ io.buffer.size ≤ errorSocketAlreadyClosed) := by
  have hread := Buffer.readLeft_nonneg h.valid
  have hlen := Buffer.length_content h.valid
  have hcode : errorSocketAlreadyClosed = 10009 := rfl
  rcases Bool.eq_false_or_eq_true io.noCache with hno | hno
  · refine ⟨_, _, readBytes_past h.valid h₀ hno, ?_⟩
    rw [logged_read_eq ha, hno]
    refine iff_of_false (not_meetsRead_of_short ?_ ?_) (fun hfalse => absurd hfalse.1 (by decide))
    · dsimp only
      omega
    · dsimp only
      rw [List.append_nil, List.length_take]
      omega
  · have hlt := readLeft_lt_of_calls hcalls hno
    by_cases hsmall : io.buffer.size ≤ errorSocketAlreadyClosed
    · obtain ⟨out, io', hrun, hmeets⟩ := meetsRead_closed h hno hlt ha hsmall
      exact ⟨out, io', hrun, iff_of_true hmeets ⟨hno, hsmall⟩⟩
    · obtain ⟨out, io', hrun, hmeets⟩ := not_meetsRead_closed h hno hlt ha (not_le.1 hsmall)
      exact ⟨out, io', hrun, iff_of_false hmeets fun hcond => hsmall hcond.2⟩

theorem harmless_failed_iff {code : ℤ} (hcode : code < 0) :
    Harmless (code, []) len io ↔ len = 0 ∨ io.buffer.content = [] := by
  constructor
  · rintro (hbytes | ⟨-, hnone⟩ | ⟨hpos, -⟩)
    · exact absurd hbytes (by rw [List.length_nil]; dsimp only; omega)
    · exact hnone
    · exact absurd hcode (not_lt.2 hpos)
  · exact fun hnone => Or.inr (Or.inl ⟨hcode, hnone⟩)

theorem harmless_closed_iff :
    Harmless (errorSocketAlreadyClosed, []) len io
      ↔ io.noCache = false ∧ io.buffer.size ≤ errorSocketAlreadyClosed := by
  constructor
  · rintro (hbytes | ⟨hneg, -⟩ | ⟨-, hsmall⟩)
    · exact absurd hbytes (by decide)
    · exact absurd hneg (by decide)
    · exact hsmall
  · exact fun hsmall => Or.inr (Or.inr ⟨by decide, hsmall⟩)

/-- **`read_bytes` keeps the stream**, from any state of the cache and whatever a reader answers
that returns bytes, fails or was closed, exactly if it does not call the reader or the answer is
harmless in that state. -/
theorem readBytes_meets_iff (hr : reader.Answers) (h₀ : 0 ≤ len) (h : Cached size io q) :
    ∃ out io', readBytes reader.logged len io = .ok (.ok out, io')
      ∧ (MeetsRead size len q out io'
        ↔ (io.CallsReader len → Harmless (answer reader len io) len io)) := by
  have hread := Buffer.readLeft_nonneg h.valid
  have hlen := Buffer.length_content h.valid
  by_cases hcalls : io.CallsReader len
  · have hasked : 0 ≤ askedSize len io := by
      rw [askedSize]
      split
      · omega
      · exact (Buffer.continuousWriteLeft_bounds (h.deliver h₀).valid).1
    have hanswer : Answered (askedSize len io) (answer reader len io) := hr _ _ hasked
    generalize ha : answer reader len io = a at hanswer
    cases hanswer with
    | @bytes bs hbs =>
      have hone : (reader.read io.reader.1 (askedSize len io)).1 = (↑bs.length, bs) := ha
      have hrun := readBytes_delivers_of h₀ h (by rw [hone]) (by rw [hone]; exact hbs)
      obtain ⟨out, io', hrun, hr₀, hr₁, hr₂, hcached⟩ := hrun.returns
      refine ⟨out, io', hrun, iff_of_true (Or.inl ⟨hr₀, hr₁, hr₂.ge, ?_⟩) fun _ => Or.inl rfl⟩
      rwa [List.take_of_length_le (by omega)]
    | @failed code hcode =>
      obtain ⟨out, io', hrun, hiff⟩ := meetsRead_failed_iff h h₀ hcalls hcode ha
      refine ⟨out, io', hrun, hiff.trans ?_⟩
      rw [imp_iff_right hcalls, harmless_failed_iff hcode]
    | closed =>
      obtain ⟨out, io', hrun, hiff⟩ := meetsRead_closed_iff h h₀ hcalls ha
      refine ⟨out, io', hrun, hiff.trans ?_⟩
      rw [imp_iff_right hcalls, harmless_closed_iff]
  · have hle : len ≤ io.buffer.readLeft := not_lt.1 fun hlt => hcalls (Or.inr hlt)
    refine ⟨_, _, readBytes_cached h.valid h₀ hcalls, iff_of_true (Or.inl ?_)
      fun hcall => absurd hcall hcalls⟩
    have hcached := h.deliver h₀
    rw [min_eq_left hle] at hcached
    refine ⟨h₀, le_refl _, by rw [List.length_take]; omega, ?_⟩
    rwa [List.take_take, min_self]

end Meets

/-! ## A connection that has failed -/

/-- A socket that answers every call with `-1`. -/
def failedSocket : StSocket Unit where
  read _ _ := ((-1, []), ())
  write _ _ := ((-1, []), ())

theorem failedSocket_lawful : failedSocket.Lawful :=
  ⟨fun _ _ _ _ => rfl, fun _ _ _ h => absurd (show (0 : ℤ) ≤ -1 from h) (by decide)⟩

/-- Two bytes are cached when the socket fails. -/
def twoCached : IOBuffer (Transport.TcpStreamConn Unit × Bytes) where
  buffer := { Buffer.new [0x61, 0x62, 0, 0, 0, 0, 0, 0] 8 with wpos := 2 }
  reader := ({ clientFd := (), isConnected := true }, [0x61, 0x62])
  noCache := false

theorem cached_twoCached : Cached 8 twoCached [] :=
  ⟨⟨by decide, by decide, by decide, by decide, by decide, by decide⟩, rfl, by decide⟩

theorem readBytes_meets_iff_failed :
    ∃ out io', readBytes (Transport.TcpStreamConn.reader failedSocket).logged 4 twoCached
        = .ok (.ok out, io')
      ∧ (MeetsRead 8 4 [] out io'
        ↔ (twoCached.CallsReader 4
          → Harmless (answer (Transport.TcpStreamConn.reader failedSocket) 4 twoCached) 4
            twoCached)) :=
  readBytes_meets_iff (Transport.TcpStreamConn.reader_answers failedSocket_lawful) (by decide)
    cached_twoCached

/-- **Cached bytes are lost**: a call for four bytes returns `-1` and leaves the cache empty. -/
theorem readBytes_loses_cached :
    Cached 8 twoCached []
      ∧ ∃ out io', readBytes (Transport.TcpStreamConn.reader failedSocket).logged 4 twoCached
          = .ok (.ok out, io')
        ∧ out.1 = -1 ∧ io'.buffer.content = [] ∧ ¬ MeetsRead 8 4 [] out io' := by
  refine ⟨cached_twoCached, _, _, rfl, by decide, by decide, ?_⟩
  rintro (⟨hneg, -⟩ | ⟨-, hcached⟩)
  · exact absurd hneg (by decide)
  · exact absurd hcached.produced (by decide)

end IOBuffer

end SmartStreaming
