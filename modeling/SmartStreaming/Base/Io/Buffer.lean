import SmartStreaming.Base.Defs

/-!
# Base/Io/Buffer — the simple ring buffer of `io_buffer.cpp`

`Buffer` is the class over a block of memory; its member functions are calls on a `Buffer` state
that stop the program where the class asserts.  One slot of the block stays free, so that
`rpos = wpos` means empty.
-/

namespace SmartStreaming

open Machinery Comp

/-- `class Buffer`. -/
structure Buffer where
  /-- The block the buffer begins at. -/
  buf : Bytes
  /-- The write position. -/
  wpos : ℤ
  /-- The read position. -/
  rpos : ℤ
  /-- The buffer size. -/
  size : ℤ
  deriving DecidableEq, Repr

/-- Calls on a `Buffer*`. -/
abbrev Stream := Comp Fault Buffer ℤ

namespace Buffer

/-- `Buffer(char* buffer, int size)`. -/
def new (buffer : Bytes) (size : ℤ) : Buffer := ⟨buffer, 0, 0, size⟩

def writeLeft (b : Buffer) : ℤ := (b.rpos + b.size - b.wpos - 1).tmod b.size

def readLeft (b : Buffer) : ℤ := (b.wpos + b.size - b.rpos).tmod b.size

def continuousWriteLeft (b : Buffer) : ℤ :=
  if b.wpos ≥ b.rpos then min (b.size - b.wpos) b.writeLeft else b.writeLeft

def continuousReadLeft (b : Buffer) : ℤ :=
  if b.rpos > b.wpos then b.size - b.rpos else b.readLeft

def readRequire (b : Buffer) (requiredSize : ℤ) : Bool :=
  if requiredSize < 0 then false else requiredSize ≤ b.readLeft

def readEmpty (b : Buffer) : Bool := b.readLeft = 0

/-- The position `len` after `pos`. -/
def next (b : Buffer) (pos len : ℤ) : ℤ := (pos + len).tmod b.size

/-- `if (!stream->read_require(n)) { return code; }` -/
def requireRead (n code : ℤ) : Stream PUnit := do
  ensure ((← get).readRequire n) code

/-! ## Reading -/

/-- `read_bytes(dst, len)`: the code, what was copied to `dst`, and the new `len`. -/
def readBytes (len : ℤ) : Stream (ℤ × Bytes × ℤ) := do
  let b ← get
  if len ≤ 0 then
    return (errorBufferRead, [], len)
  let len := if len < b.readLeft then len else b.readLeft
  let nextRpos := b.next b.rpos len
  if nextRpos < b.rpos then
    let head ← ofOption .outOfBounds (load b.buf b.rpos (b.size - b.rpos))
    let tail ← ofOption .outOfBounds (load b.buf 0 nextRpos)
    put { b with rpos := nextRpos }
    return (errorSuccess, head ++ tail, len)
  else
    let dst ← ofOption .outOfBounds (load b.buf b.rpos len)
    put { b with rpos := nextRpos }
    return (errorSuccess, dst, len)

def seekRead (len : ℤ) : Stream ℤ := do
  let b ← get
  if len ≤ 0 then
    return errorBufferRead
  if len ≤ b.readLeft then
    put { b with rpos := b.next b.rpos len }
    return errorSuccess
  else
    return errorBufferRead

/-- `*(buf + rpos)` followed by `seek_read(1)`. -/
def takeByte : Stream Byte := do
  let b ← get
  let x ← ofOption .outOfBounds (loadByte b.buf b.rpos)
  let _ ← seekRead 1
  return x

def read1byte : Stream (BitVec 8) := do
  cassert ((← get).readLeft ≥ 1)
  takeByte

def read2bytes : Stream (BitVec 16) := do
  cassert ((← get).readLeft ≥ 2)
  let pp1 ← takeByte
  let pp0 ← takeByte
  return fromMemory 16 [pp0, pp1]

def read3bytes : Stream (BitVec 32) := do
  cassert ((← get).readLeft ≥ 3)
  let pp2 ← takeByte
  let pp1 ← takeByte
  let pp0 ← takeByte
  return fromMemory 32 [pp0, pp1, pp2, 0]

def read4bytes : Stream (BitVec 32) := do
  cassert ((← get).readLeft ≥ 4)
  let pp3 ← takeByte
  let pp2 ← takeByte
  let pp1 ← takeByte
  let pp0 ← takeByte
  return fromMemory 32 [pp0, pp1, pp2, pp3]

def read8bytes : Stream (BitVec 64) := do
  cassert ((← get).readLeft ≥ 8)
  let pp7 ← takeByte
  let pp6 ← takeByte
  let pp5 ← takeByte
  let pp4 ← takeByte
  let pp3 ← takeByte
  let pp2 ← takeByte
  let pp1 ← takeByte
  let pp0 ← takeByte
  return fromMemory 64 [pp0, pp1, pp2, pp3, pp4, pp5, pp6, pp7]

/-- `std::string::append(ptr, n)`: a negative `n` becomes a huge `size_t`. -/
def append (result mem : Bytes) (off n : ℤ) : Stream Bytes :=
  if n < 0 then stop .lengthError
  else do
    let bs ← ofOption .outOfBounds (load mem off n)
    return result ++ bs

def readString (len : ℤ) : Stream Bytes := do
  let b ← get
  cassert (b.readLeft ≥ len)
  let nextRpos := b.next b.rpos len
  let result ←
    if nextRpos < b.rpos then do
      let head ← append [] b.buf b.rpos (b.size - b.rpos)
      append head b.buf 0 nextRpos
    else append [] b.buf b.rpos len
  let _ ← seekRead len
  return result

/-! ## Writing -/

/-- `write_bytes(src, len)`, reading `len` bytes of the caller's block `src`. -/
def writeBytes (src : Bytes) (len : ℤ) : Stream ℤ := do
  let b ← get
  if len ≤ 0 then
    return errorBufferRead
  if len > b.writeLeft then
    return errorBufferRead
  let nextWpos := b.next b.wpos len
  if nextWpos < b.wpos then
    let head ← ofOption .outOfBounds (load src 0 (b.size - b.wpos))
    let mem ← ofOption .outOfBounds (store b.buf b.wpos head)
    let tail ← ofOption .outOfBounds (load src (b.size - b.wpos) nextWpos)
    let mem ← ofOption .outOfBounds (store mem 0 tail)
    put { b with buf := mem, wpos := nextWpos }
    return errorSuccess
  else
    let bs ← ofOption .outOfBounds (load src 0 len)
    let mem ← ofOption .outOfBounds (store b.buf b.wpos bs)
    put { b with buf := mem, wpos := nextWpos }
    return errorSuccess

def seekWrite (len : ℤ) : Stream ℤ := do
  let b ← get
  if len ≤ 0 then
    return errorBufferRead
  if len ≤ b.writeLeft then
    put { b with wpos := b.next b.wpos len }
    return errorSuccess
  else
    return errorBufferRead

/-- `*(buf + wpos) = x` followed by `seek_write(1)`. -/
def putByte (x : Byte) : Stream PUnit := do
  let b ← get
  let mem ← ofOption .outOfBounds (store b.buf b.wpos [x])
  put { b with buf := mem }
  let _ ← seekWrite 1

def write1byte (value : BitVec 8) : Stream ℤ := do
  cassert ((← get).writeLeft ≥ 1)
  putByte value
  return errorSuccess

def write2bytes (value : BitVec 16) : Stream ℤ := do
  cassert ((← get).writeLeft ≥ 2)
  putByte (byteAt value 1)
  putByte (byteAt value 0)
  return errorSuccess

def write3bytes (value : BitVec 32) : Stream ℤ := do
  cassert ((← get).writeLeft ≥ 3)
  putByte (byteAt value 2)
  putByte (byteAt value 1)
  putByte (byteAt value 0)
  return errorSuccess

def write4bytes (value : BitVec 32) : Stream ℤ := do
  cassert ((← get).writeLeft ≥ 4)
  putByte (byteAt value 3)
  putByte (byteAt value 2)
  putByte (byteAt value 1)
  putByte (byteAt value 0)
  return errorSuccess

def write8bytes (value : BitVec 64) : Stream ℤ := do
  cassert ((← get).writeLeft ≥ 8)
  putByte (byteAt value 7)
  putByte (byteAt value 6)
  putByte (byteAt value 5)
  putByte (byteAt value 4)
  putByte (byteAt value 3)
  putByte (byteAt value 2)
  putByte (byteAt value 1)
  putByte (byteAt value 0)
  return errorSuccess

def reset : Stream PUnit := do
  put { (← get) with rpos := 0, wpos := 0 }

end Buffer

end SmartStreaming
