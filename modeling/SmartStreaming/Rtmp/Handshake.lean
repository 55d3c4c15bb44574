import SmartStreaming.Base.Io.Buffer
import SmartStreaming.Transport.Tcp

/-!
# Rtmp/Handshake — `RtmpClient::simple_handshake`

`create_c0c1` writes nine bytes to a `Buffer` of size nine, which takes eight: with assertions the
handshake ends there.  Without them (`ndebug`) it goes on, and neither asks how much `write` has
sent nor reads anything: `TcpStreamConn::read_fully` is empty, so that S0 is what `new` has found in
the memory (`fresh`).
-/

namespace SmartStreaming

open Machinery Comp Buffer

def errorRtmpHandshake : ℤ := 14002

/-- `assert(p)`, which is left out where `NDEBUG` is defined. -/
def assertIn {σ : Type} (ndebug : Bool) (p : Prop) [Decidable p] : Comp Fault σ ℤ PUnit :=
  if ndebug then pure ⟨⟩ else cassert p

/-- `write_1byte(value)` with or without its assertion. -/
def Buffer.write1byteIn (ndebug : Bool) (value : BitVec 8) : Stream ℤ := do
  assertIn ndebug ((← get).writeLeft ≥ 1)
  putByte value
  return errorSuccess

/-- `write_4bytes(value)` with or without its assertion. -/
def Buffer.write4bytesIn (ndebug : Bool) (value : BitVec 32) : Stream ℤ := do
  assertIn ndebug ((← get).writeLeft ≥ 4)
  putByte (byteAt value 3)
  putByte (byteAt value 2)
  putByte (byteAt value 1)
  putByte (byteAt value 0)
  return errorSuccess

theorem Buffer.write1byteIn_false (value : BitVec 8) :
    write1byteIn false value = write1byte value := rfl

theorem Buffer.write4bytesIn_false (value : BitVec 32) :
    write4bytesIn false value = write4bytes value := rfl

/-- `Buffer buffer(block, size)`, some calls on it, and the block afterwards. -/
def onBlock {σ α : Type} (block : Bytes) (size : ℤ) (f : Stream α) :
    Comp Fault σ ℤ Bytes := fun s =>
  match f (Buffer.new block size) with
  | .error e => .error e
  | .ok (.error c, _) => .ok (.error c, s)
  | .ok (.ok _, b) => .ok (.ok b.buf, s)

/-- What the bytes of a handshake depend on besides the connection: the build, the clock,
`random_generate`, and what lies in a block that `new char[n]` has allocated. -/
structure HandshakeEnv where
  ndebug : Bool
  time : BitVec 32
  random : ℕ → Byte
  fresh : ℕ → Byte

/-- `class RtmpHandshakeBytes`. -/
structure RtmpHandshakeBytes where
  c0c1 : Option Bytes := none
  s0s1s2 : Option Bytes := none
  c2 : Option Bytes := none

namespace RtmpHandshakeBytes

variable {σ : Type}

/-- `new char[n]`. -/
@[irreducible] def allocated (env : HandshakeEnv) (n : ℕ) : Bytes := (List.range n).map env.fresh

/-- `new char[n]` followed by `random_generate`. -/
@[irreducible] def generated (env : HandshakeEnv) (n : ℕ) : Bytes :=
  (List.range n).map env.random

theorem length_allocated (env : HandshakeEnv) (n : ℕ) : (allocated env n).length = n := by
  rw [allocated, List.length_map, List.length_range]

theorem length_generated (env : HandshakeEnv) (n : ℕ) : (generated env n).length = n := by
  rw [generated, List.length_map, List.length_range]

theorem loadByte_allocated (env : HandshakeEnv) {n : ℕ} (h : 0 < n) :
    loadByte (allocated env n) 0 = some (env.fresh 0) := by
  rw [loadByte, if_pos (le_refl _), allocated, Int.toNat_zero, List.getElem?_map,
    List.getElem?_range h, Option.map_some]

/-- `create_c0c1()`. -/
def createC0c1 (env : HandshakeEnv) (handshake : RtmpHandshakeBytes) :
    Comp Fault σ ℤ RtmpHandshakeBytes :=
  match handshake.c0c1 with
  | some _ => return handshake
  | none => do
    let c0c1 ← onBlock (generated env 1537) 9 do
      let _ ← write1byteIn env.ndebug 0x03
      let _ ← write4bytesIn env.ndebug env.time
      write4bytesIn env.ndebug 0x00
    return { handshake with c0c1 := some c0c1 }

/-- `read_s0s1s2(conn)`: whatever `read_fully` returns, this returns `error_success`. -/
def readS0s1s2 (env : HandshakeEnv) (handshake : RtmpHandshakeBytes) :
    Comp Fault σ ℤ RtmpHandshakeBytes :=
  match handshake.s0s1s2 with
  | some _ => return handshake
  | none =>
    return { handshake with
      s0s1s2 := some (Transport.TcpStreamConn.readFully 3073 (allocated env 3073)).2 }

/-- `create_c2()`. -/
def createC2 (env : HandshakeEnv) (handshake : RtmpHandshakeBytes) :
    Comp Fault σ ℤ RtmpHandshakeBytes :=
  match handshake.c2 with
  | some _ => return handshake
  | none => do
    let c2 ← onBlock (generated env 1536) 8 do
      let _ ← write4bytesIn env.ndebug env.time
      match handshake.s0s1s2 with
      | some s0s1s2 => do
        let s1 ← ofOption .outOfBounds (load s0s1s2 1 4)
        writeBytes s1 4
      | none => return errorSuccess
    return { handshake with c2 := some c2 }

end RtmpHandshakeBytes

namespace RtmpClient

variable {σ : Type}

/-- `conn->write(buf, size)`, the result as a `size_t`. -/
def write (sock : StSocket σ) (buf : Bytes) : Comp Fault (Transport.TcpStreamConn σ) ℤ ℕ := do
  let conn ← get
  let (ret, conn) := conn.write sock buf
  put conn
  return (BitVec.ofInt 64 ret).toNat

/-- `simple_handshake(conn)`. -/
def simpleHandshake (sock : StSocket σ) (env : HandshakeEnv) :
    Comp Fault (Transport.TcpStreamConn σ) ℤ ℤ := do
  let handshake ← RtmpHandshakeBytes.createC0c1 env {}
  let nsize ← write sock (handshake.c0c1.getD [])
  if nsize < 0 then
    return errorSuccess
  let handshake ← handshake.readS0s1s2 env
  let s0 ← ofOption .outOfBounds (loadByte (handshake.s0s1s2.getD []) 0)
  if s0 ≠ 0x03 then
    return errorRtmpHandshake
  let handshake ← handshake.createC2 env
  let s1 ← ofOption .outOfBounds (load (handshake.s0s1s2.getD []) 1 1536)
  let c2 ← ofOption .outOfBounds (store (handshake.c2.getD []) 0 s1)
  let nsize ← write sock c2
  if (nsize : ℤ) ≠ errorSuccess then
    return errorSuccess
  return errorSuccess

/-- **A complete handshake**: C0 and C1 have been sent, S0, S1 and S2 have been received with the
version 3, and S1 has been sent back as C2. -/
def Completed (conn conn' : Transport.TcpStreamConn (Traffic σ)) : Prop :=
  ∃ c0c1 s0s1s2 : Bytes, c0c1.length = 1537 ∧ s0s1s2.length = 3073 ∧ s0s1s2[0]? = some 0x03
    ∧ conn'.clientFd.received = conn.clientFd.received ++ s0s1s2
    ∧ conn'.clientFd.sent = conn.clientFd.sent ++ (c0c1 ++ (s0s1s2.drop 1).take 1536)

/-! ## With assertions -/

section Assertions

variable {env : HandshakeEnv}

/-- **The nine bytes do not fit**: `create_c0c1` stops at its last write. -/
theorem createC0c1_asserts (h : env.ndebug = false) :
    (RtmpHandshakeBytes.createC0c1 env {} :
        Comp Fault (Transport.TcpStreamConn σ) ℤ RtmpHandshakeBytes)
      = stop .assertion := by
  have hvalid : (Buffer.new (RtmpHandshakeBytes.generated env 1537) 9).Valid :=
    Buffer.valid_new (by decide) (by rw [RtmpHandshakeBytes.length_generated]; decide)
  have hroom : (Buffer.new (RtmpHandshakeBytes.generated env 1537) 9).writeLeft = 8 := rfl
  obtain ⟨b₁, hrun₁, happ₁⟩ := Buffer.writeInt_eq hvalid (0x03 : BitVec 8).toNat
    (show ((1 : ℕ) : ℤ) ≤ _ by rw [hroom]; decide)
  have hroom₁ := happ₁.writeLeft_eq hvalid
  rw [length_beBytes, hroom] at hroom₁
  obtain ⟨b₂, hrun₂, happ₂⟩ := Buffer.writeInt_eq happ₁.valid env.time.toNat
    (show ((4 : ℕ) : ℤ) ≤ _ by rw [hroom₁]; decide)
  have hroom₂ := happ₂.writeLeft_eq happ₁.valid
  rw [length_beBytes, hroom₁] at hroom₂
  have hfull := Buffer.writeInt_full b₂ (n := 4) (x := (0x00 : BitVec 32).toNat)
    (by rw [hroom₂]; decide)
  rw [← write1byte_eq_writeInt] at hrun₁
  rw [← write4bytes_eq_writeInt] at hrun₂ hfull
  funext conn
  rw [RtmpHandshakeBytes.createC0c1, h]
  dsimp only
  refine run_bind_fault ?_ _
  rw [onBlock, write1byteIn_false, write4bytesIn_false, write4bytesIn_false, run_bind_ok hrun₁,
    run_bind_ok hrun₂, hfull]

end Assertions

/-! ## Without assertions -/

section NoAssertions

variable {F : Fault → Prop} {b : Buffer} {n : ℕ}

/-- A buffer over a block of `n` bytes. -/
structure OnBlock (n : ℕ) (b : Buffer) : Prop where
  valid : b.Valid
  length_eq : b.buf.length = n

/-- A call that returns and keeps the block. -/
def KeepsBlock {α : Type} (f : Stream α) : Prop :=
  ∀ n b, OnBlock n b → Holds (fun _ => False) (fun _ _ => False) (fun _ b' => OnBlock n b') f b

theorem KeepsBlock.bind {α β : Type} {f : Stream α} {g : α → Stream β} (hf : KeepsBlock f)
    (hg : ∀ a, KeepsBlock (g a)) : KeepsBlock (f >>= g) := by
  intro n b hb
  rw [holds_bind]
  exact (hf n b hb).imp (fun _ _ => id) fun a b' hb' => hg a n b' hb'

/-- A byte that has no room is written to the free slot. -/
theorem keepsBlock_putByte (x : Byte) : KeepsBlock (putByte x) := by
  intro n b hb
  by_cases hroom : 1 ≤ b.writeLeft
  · obtain ⟨b', hrun, happ⟩ := putByte_eq hb.valid hroom x
    exact holds_of_run hrun ⟨happ.valid, happ.length_eq.trans hb.length_eq⟩
  · have hone : ([x] : Bytes).length = 1 := rfl
    obtain ⟨h₁, h₂, h₃, h₄, h₅, h₆⟩ := hb.valid
    have hstore : store b.buf b.wpos [x] = some (splice b.buf b.wpos.toNat [x]) :=
      store_eq_some h₅ (by omega)
    have hlen : (splice b.buf b.wpos.toNat [x]).length = b.buf.length :=
      length_splice (by omega)
    have hseek : seekWrite 1 { b with buf := splice b.buf b.wpos.toNat [x] }
        = .ok (.ok errorBufferRead, { b with buf := splice b.buf b.wpos.toNat [x] }) :=
      seekWrite_refused _ fun _ => not_le.1 hroom
    rw [putByte, holds_bind, holds_get, hstore, holds_bind, holds_some, holds_bind, holds_put,
      holds_bind]
    exact holds_of_run hseek ⟨⟨h₁, by rw [hlen]; exact h₂, h₃, h₄, h₅, h₆⟩,
      hlen.trans hb.length_eq⟩

theorem keepsBlock_pure {α : Type} (a : α) : KeepsBlock (pure a) := fun _ _ hb => hb

theorem keepsBlock_write1byteIn (value : BitVec 8) : KeepsBlock (write1byteIn true value) := by
  intro n b hb
  rw [write1byteIn, holds_bind, holds_get]
  exact (keepsBlock_putByte value).bind (fun _ => keepsBlock_pure _) n b hb

theorem keepsBlock_write4bytesIn (value : BitVec 32) : KeepsBlock (write4bytesIn true value) := by
  intro n b hb
  rw [write4bytesIn, holds_bind, holds_get]
  refine ((keepsBlock_putByte _).bind fun _ => (keepsBlock_putByte _).bind fun _ =>
    (keepsBlock_putByte _).bind fun _ => (keepsBlock_putByte _).bind fun _ => ?_) n b hb
  exact keepsBlock_pure _

theorem keepsBlock_writeBytes {src : Bytes} {len : ℤ} (h₀ : 0 < len) (hsrc : len ≤ src.length) :
    KeepsBlock (writeBytes src len) := by
  intro n b hb
  by_cases hroom : len ≤ b.writeLeft
  · obtain ⟨b', hrun, happ⟩ := writeBytes_eq hb.valid h₀ hsrc hroom
    exact holds_of_run hrun ⟨happ.valid, happ.length_eq.trans hb.length_eq⟩
  · exact holds_of_run (writeBytes_refused b src fun _ => not_le.1 hroom) hb

/-- The block after such calls. -/
theorem holds_onBlock {α : Type} {f : Stream α} {block : Bytes} {size : ℤ} (hf : KeepsBlock f)
    (h₀ : 0 < size) (h₁ : size ≤ block.length) (s : σ) :
    Holds (fun _ => False) (fun _ _ => False)
      (fun mem s' => mem.length = block.length ∧ s' = s) (onBlock block size f) s := by
  have h := hf block.length (Buffer.new block size) ⟨Buffer.valid_new h₀ h₁, rfl⟩
  unfold Holds onBlock at *
  rcases hrun : f (Buffer.new block size) with e | ⟨c | a, b⟩
  · rw [hrun] at h
    exact h
  · rw [hrun] at h
    exact h
  · rw [hrun] at h
    exact ⟨h.length_eq, rfl⟩

/-- Whatever is sent, nothing is received. -/
theorem holds_write {E : ℤ → Transport.TcpStreamConn (Traffic σ) → Prop}
    {Q : ℕ → Transport.TcpStreamConn (Traffic σ) → Prop} (sock : StSocket σ) (buf : Bytes)
    {conn : Transport.TcpStreamConn (Traffic σ)}
    (hQ : ∀ nsize conn', conn'.clientFd.received = conn.clientFd.received → Q nsize conn') :
    Holds F E Q (write sock.logged buf) conn := by
  have hsame : (conn.write sock.logged buf).2.clientFd.received = conn.clientFd.received := by
    rw [Transport.TcpStreamConn.write]
    split
    · rfl
    · dsimp only
      split <;> rfl
  rw [write, holds_bind, holds_get]
  exact hQ _ _ hsame

variable {env : HandshakeEnv}

/-- **Without assertions the handshake receives nothing**, and takes what lies in the memory for
S0. -/
theorem holds_simpleHandshake (sock : StSocket σ) (h : env.ndebug = true)
    (conn : Transport.TcpStreamConn (Traffic σ)) :
    Holds (fun _ => False) (fun _ _ => False)
      (fun ret conn' => conn'.clientFd.received = conn.clientFd.received
        ∧ (env.fresh 0 = 0x03 → ret = errorSuccess)
        ∧ (env.fresh 0 ≠ 0x03 → ret = errorRtmpHandshake))
      (simpleHandshake sock.logged env) conn := by
  have hs0 := RtmpHandshakeBytes.loadByte_allocated env (Nat.succ_pos 3072)
  have hs1 : ∀ n : ℤ, 0 ≤ n → 1 + n ≤ 3073 → ∃ s1,
      load (RtmpHandshakeBytes.allocated env 3073) 1 n = some s1 ∧ (s1.length : ℤ) = n := by
    intro n h₀ h₁
    have hlen := RtmpHandshakeBytes.length_allocated env 3073
    refine ⟨_, load_eq_some (by decide) h₀ (by rw [hlen]; exact h₁), ?_⟩
    rw [List.length_take, List.length_drop, hlen]
    omega
  have hkeep₁ : KeepsBlock (write1byteIn true 0x03 >>= fun _ =>
      write4bytesIn true env.time >>= fun _ => write4bytesIn true 0x00) :=
    (keepsBlock_write1byteIn _).bind fun _ =>
      (keepsBlock_write4bytesIn _).bind fun _ => keepsBlock_write4bytesIn _
  rw [simpleHandshake, holds_bind, RtmpHandshakeBytes.createC0c1, h]
  dsimp only
  rw [holds_bind]
  have hlen₁ := RtmpHandshakeBytes.length_generated env 1537
  refine (holds_onBlock hkeep₁ (by decide) (by omega) conn).imp (fun _ _ => id)
    fun c0c1 conn₀ hc0c1 => ?_
  rw [hc0c1.2, holds_pure, holds_bind]
  refine holds_write sock _ fun nsize conn₁ hconn₁ => ?_
  rw [holds_ite]
  refine ⟨fun hneg => absurd hneg (Nat.not_lt_zero _), fun _ => ?_⟩
  rw [RtmpHandshakeBytes.readS0s1s2]
  dsimp only [Transport.TcpStreamConn.readFully]
  rw [holds_bind, holds_pure, Option.getD_some, hs0, holds_bind, holds_some, holds_ite]
  refine ⟨fun hne => ⟨hconn₁, fun heq => absurd heq hne, fun _ => rfl⟩, fun heq => ?_⟩
  -- the version is right by chance
  have hversion : env.fresh 0 = 0x03 := not_not.1 heq
  obtain ⟨first, hfirst, hfirstlen⟩ := hs1 4 (by decide) (by decide)
  obtain ⟨s1, hs1, hs1len⟩ := hs1 1536 (by decide) (by decide)
  have hkeep₂ : KeepsBlock (write4bytesIn true env.time >>= fun _ => writeBytes first 4) :=
    (keepsBlock_write4bytesIn _).bind fun _ => keepsBlock_writeBytes (by decide) (by omega)
  rw [RtmpHandshakeBytes.createC2, h]
  dsimp only
  rw [hfirst, holds_bind, holds_bind]
  have hlen₂ := RtmpHandshakeBytes.length_generated env 1536
  refine (holds_onBlock hkeep₂ (by decide) (by omega) conn₁).imp (fun _ _ => id)
    fun c2 conn₂ hc2 => ?_
  have hlen := hc2.1
  rw [hc2.2, holds_pure]
  dsimp only [Option.getD_some]
  rw [holds_bind, hs1, holds_some, holds_bind, store_eq_some (le_refl _) (by omega), holds_some,
    holds_bind]
  refine holds_write sock _ fun nsize conn₃ hconn₃ => ?_
  rw [holds_ite]
  have hdone : conn₃.clientFd.received = conn.clientFd.received := hconn₃.trans hconn₁
  exact ⟨fun _ => ⟨hdone, fun _ => rfl, fun hne => absurd hversion hne⟩,
    fun _ => ⟨hdone, fun _ => rfl, fun hne => absurd hversion hne⟩⟩

/-- Nobody has received S0, S1 and S2 where nothing has been received. -/
theorem not_completed {conn conn' : Transport.TcpStreamConn (Traffic σ)}
    (h : conn'.clientFd.received = conn.clientFd.received) : ¬ Completed conn conn' := by
  rintro ⟨c0c1, s0s1s2, -, hlen, -, hreceived, -⟩
  rw [h, List.self_eq_append_right] at hreceived
  rw [hreceived] at hlen
  cases hlen

theorem exists_simpleHandshake (sock : StSocket σ) (h : env.ndebug = true)
    (conn : Transport.TcpStreamConn (Traffic σ)) :
    ∃ ret conn', simpleHandshake sock.logged env conn = .ok (.ok ret, conn')
      ∧ conn'.clientFd.received = conn.clientFd.received
      ∧ (env.fresh 0 = 0x03 → ret = errorSuccess)
      ∧ (env.fresh 0 ≠ 0x03 → ret = errorRtmpHandshake) :=
  (holds_simpleHandshake sock h conn).returns

end NoAssertions

/-! ## When success means a complete handshake -/

/-- `simple_handshake` returns `error_success` only after a complete handshake. -/
def SuccessCompleted (sock : StSocket σ) (env : HandshakeEnv)
    (conn : Transport.TcpStreamConn (Traffic σ)) : Prop :=
  ∀ conn', simpleHandshake sock.logged env conn = .ok (.ok errorSuccess, conn')
    → Completed conn conn'

/-- **The handshake vouches for nothing**: `error_success` means a complete handshake only where it
is never returned, because the program stops at an assertion or the memory that S0 should be read
into does not begin with the version. -/
theorem successCompleted_iff (sock : StSocket σ) (env : HandshakeEnv)
    (conn : Transport.TcpStreamConn (Traffic σ)) :
    SuccessCompleted sock env conn ↔ env.ndebug = false ∨ env.fresh 0 ≠ 0x03 := by
  rcases hndebug : env.ndebug with _ | _
  · refine iff_of_true (fun conn' hrun => ?_) (Or.inl rfl)
    rw [simpleHandshake, createC0c1_asserts hndebug, run_stop_bind] at hrun
    cases hrun
  · obtain ⟨ret, conn₁, hrun, hreceived, hthree, hother⟩ :=
      exists_simpleHandshake sock hndebug conn
    constructor
    · refine fun hall => Or.inr fun hversion => ?_
      rw [hthree hversion] at hrun
      exact not_completed hreceived (hall conn₁ hrun)
    · rintro (hfalse | hversion) conn' hrun'
      · cases hfalse
      · rw [hrun, hother hversion] at hrun'
        cases hrun'

/-- A socket that sends nothing and receives nothing. -/
def deadSocket : StSocket PUnit where
  read _ _ := ((-1, []), ⟨⟩)
  write _ _ := ((-1, []), ⟨⟩)

/-- A build without assertions, in a process whose memory holds threes. -/
def threes : HandshakeEnv where
  ndebug := true
  time := 0
  random _ := 0x0f
  fresh _ := 0x03

/-- **Success over a dead socket.** -/
theorem handshake_over_dead_socket :
    ¬ SuccessCompleted deadSocket threes ⟨⟨⟨⟩, [], []⟩, true, 0, 0⟩ := by
  intro hall
  have hndebug : threes.ndebug = true := rfl
  obtain ⟨ret, conn', hrun, hreceived, hthree, -⟩ :=
    exists_simpleHandshake deadSocket hndebug ⟨⟨⟨⟩, [], []⟩, true, 0, 0⟩
  rw [hthree rfl] at hrun
  exact not_completed hreceived (hall conn' hrun)

end RtmpClient

end SmartStreaming
