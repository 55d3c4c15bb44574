import SmartStreaming.Base.Io.IOBuffer

/-!
# Transport/Tcp — `TcpStreamConn` over a socket of the coroutine library

`st_read` and `st_write` are a parameter: an `StSocket` answers with any return value, what it has
stored and what it has sent.  `Answered` is what `TcpStreamConn::read` can return for that: some of
the bytes, a negative value, or, when not connected, the positive `error_socket_already_closed`.
-/

namespace SmartStreaming

/-- `st_read(fd, buf, nbyte)`, with the bytes stored at `buf`, and `st_write(fd, buf, nbyte)`, with
the bytes that have been sent. -/
structure StSocket (σ : Type) where
  read : σ → ℤ → (ℤ × Bytes) × σ
  write : σ → Bytes → (ℤ × Bytes) × σ

/-- Reads return the number of bytes they store, or a negative value and store none. -/
structure StSocket.Lawful {σ : Type} (sock : StSocket σ) : Prop where
  read_neg : ∀ fd n, 0 ≤ n → (sock.read fd n).1.1 < 0 → (sock.read fd n).1.2 = []
  read_length : ∀ fd n, 0 ≤ n → 0 ≤ (sock.read fd n).1.1 →
    ((sock.read fd n).1.2.length : ℤ) = (sock.read fd n).1.1 ∧ (sock.read fd n).1.1 ≤ n

/-- A socket with all that has passed through it. -/
structure Traffic (σ : Type) where
  fd : σ
  received : Bytes := []
  sent : Bytes := []

/-- The socket, keeping its traffic. -/
def StSocket.logged {σ : Type} (sock : StSocket σ) : StSocket (Traffic σ) where
  read t n :=
    let (out, fd) := sock.read t.fd n
    (out, { t with fd, received := t.received ++ out.2 })
  write t buf :=
    let (out, fd) := sock.write t.fd buf
    (out, { t with fd, sent := t.sent ++ out.2 })

/-- `class TcpStreamConn`, which reads and writes the bytes of a socket. -/
structure Transport.TcpStreamConn (σ : Type) where
  clientFd : σ
  isConnected : Bool
  recvBytes : ℤ := 0
  sendBytes : ℤ := 0

namespace Transport.TcpStreamConn

variable {σ : Type}

/-- `read(buf, size)`: the return value and what was stored at `buf`. -/
def read (sock : StSocket σ) (conn : TcpStreamConn σ) (size : ℤ) :
    (ℤ × Bytes) × TcpStreamConn σ :=
  if conn.isConnected = false then ((errorSocketAlreadyClosed, []), conn)
  else
    let ((ret, bs), fd) := sock.read conn.clientFd size
    if ret < 0 then ((ret, bs), { conn with clientFd := fd })
    else ((ret, bs), { conn with clientFd := fd, recvBytes := conn.recvBytes + ret })

/-- `read_fully(buf, size)`, which leaves `buf` and the connection alone. -/
def readFully (_size : ℤ) (buf : Bytes) : ℤ × Bytes := (errorSuccess, buf)

/-- `write(buf, size)` of a block of that size. -/
def write (sock : StSocket σ) (conn : TcpStreamConn σ) (buf : Bytes) : ℤ × TcpStreamConn σ :=
  if conn.isConnected = false then (errorSocketAlreadyClosed, conn)
  else
    let ((ret, _), fd) := sock.write conn.clientFd buf
    if ret < 0 then (ret, { conn with clientFd := fd })
    else (ret, { conn with clientFd := fd, sendBytes := conn.sendBytes + ret })

/-- The connection as the reader of an `IOBuffer`. -/
def reader (sock : StSocket σ) : IReader (TcpStreamConn σ) where
  read conn n := conn.read sock n

end Transport.TcpStreamConn

/-- What a reader answers that is asked for `n` bytes: some bytes, a negative error, or that the
connection is closed. -/
inductive Answered (n : ℤ) : ℤ × Bytes → Prop
  | bytes {bs : Bytes} (h : (bs.length : ℤ) ≤ n) : Answered n (bs.length, bs)
  | failed {code : ℤ} (h : code < 0) : Answered n (code, [])
  | closed : Answered n (errorSocketAlreadyClosed, [])

/-- A reader all of whose answers are of these three kinds. -/
def IReader.Answers {σ : Type} (reader : IReader σ) : Prop :=
  ∀ s n, 0 ≤ n → Answered n (reader.read s n).1

/-- **A `TcpStreamConn` is such a reader.** -/
theorem Transport.TcpStreamConn.reader_answers {σ : Type} {sock : StSocket σ} (h : sock.Lawful) :
    (Transport.TcpStreamConn.reader sock).Answers := by
  intro conn n hn
  change Answered n (conn.read sock n).1
  rw [Transport.TcpStreamConn.read]
  split
  · exact .closed
  · rcases hread : sock.read conn.clientFd n with ⟨⟨ret, bs⟩, fd⟩
    have hneg := h.read_neg conn.clientFd n hn
    have hlength := h.read_length conn.clientFd n hn
    rw [hread] at hneg hlength
    dsimp only at hneg hlength ⊢
    split
    · rename_i hret
      rw [hneg hret]
      exact .failed hret
    · rename_i hret
      obtain ⟨heq, hle⟩ := hlength (not_lt.1 hret)
      rw [← heq]
      exact .bytes (by rw [heq]; exact hle)

end SmartStreaming
