import SmartStreaming.Rtmp.Chunk.Send
import SmartStreaming.Rtmp.Control

/-!
# Rtmp/SendPacket — `send_packet` over a `TcpStreamConn`

`send_packet` takes what `writev` returns for an error code, and `TcpStreamConn::writev` returns the
number of bytes that have been written: the loop over the chunks of a message ends with the first
one (`sendPacket_eq`), and `send_packet` never returns `error_success` for a message
(`message_never_sent`).
-/

namespace SmartStreaming

open Machinery Comp

/-! ## The connection -/

/-- `class TcpStreamConn`, and the vectors of bytes that have been given to `st_writev`. -/
structure TcpStreamConn where
  isConnected : Bool
  sendBytes : BitVec 64 := 0
  written : List (List Bytes) := []
  deriving DecidableEq

/-- `st_tcp_writev(fd, iov, iov_size, timeout)`, all of whose bytes are accepted: their number, as
an `int`. -/
def stTcpWritev (iov : List Bytes) : ℤ := (BitVec.ofNat 32 iov.flatten.length).toInt

/-- `writev(iov, iov_size)`: what it returns, and the connection it leaves. -/
def TcpStreamConn.writev (iov : List Bytes) (conn : TcpStreamConn) : ℤ × TcpStreamConn :=
  if ¬ conn.isConnected then (errorSocketAlreadyClosed, conn)
  else if stTcpWritev iov < 0 then
    (stTcpWritev iov, { conn with written := conn.written ++ [iov] })
  else
    (stTcpWritev iov, { conn with
      written := conn.written ++ [iov]
      sendBytes := conn.sendBytes + BitVec.ofInt 64 (stTcpWritev iov) })

/-! ## The packet -/

/-- `requests[transactionId] = name`. -/
def Requests.set (transactionId : Double) (name : Bytes) : Requests → Requests
  | [] => [(transactionId, name)]
  | request :: requests =>
    if request.1.lt transactionId then request :: Requests.set transactionId name requests
    else if transactionId.lt request.1 then (transactionId, name) :: request :: requests
    else (request.1, name) :: requests

/-- `class RtmpProtocolHandler`, as far as `send_packet` reads and writes it. -/
structure RtmpSender where
  conn : TcpStreamConn
  outChunkSize : ℤ
  outAckSize : AckWindowSize
  requests : Requests

namespace RtmpSender

abbrev Call := Comp Fault RtmpSender ℤ

def writev (iov : List Bytes) : Call ℤ := do
  let s ← get
  put { s with conn := (s.conn.writev iov).2 }
  return (s.conn.writev iov).1

/-- The loop over the chunks, from `payload + p` on. -/
def sendLoop (header : MessageHeader) (payload : Bytes) : ℕ → ℤ → Call PUnit
  | 0, _ => stop .outOfFuel
  | fuel + 1, p => do
    if p < payload.length then do
      let payloadSize := min (payload.length - p) (← get).outChunkSize
      let ret ← writev [chunkHeader header p, (payload.drop p.toNat).take payloadSize.toNat]
      ensure (ret = errorSuccess) ret
      sendLoop header payload fuel (p + payloadSize)
    else
      return ⟨⟩

/-- The branch of `RTMP_MSG_SetChunkSize`. -/
def sentChunkSize : RtmpPacket → Call PUnit
  | .setChunkSize packet => do put { (← get) with outChunkSize := packet.chunkSize.toInt }
  | _ => stop .nullPointer

/-- The branch of `RTMP_MSG_WindowAcknowledgementSize`. -/
def sentWindowAckSize : RtmpPacket → Call PUnit
  | .setWindowAckSize packet => do
    let s ← get
    put { s with outAckSize := { s.outAckSize with window := packet.ackowledgementWindowSize } }
  | _ => stop .nullPointer

/-- `requests[transaction_id] = command_name`. -/
def setRequest (transactionId : Double) (commandName : Bytes) : Call PUnit := do
  let s ← get
  put { s with requests := s.requests.set transactionId commandName }

/-- The branch of the command messages. -/
def sentCommand : RtmpPacket → Call PUnit
  | .connectApp packet => setRequest packet.transactionId packet.commandName
  | .createStream packet => setRequest packet.transactionId packet.commandName
  | .fmleStart packet => setRequest packet.transactionId packet.commandName
  | _ => return ⟨⟩

/-- The `switch` over the type of what has been sent. -/
def sent (header : MessageHeader) (pkt : RtmpPacket) : Call PUnit :=
  if header.messageType = rtmpMsgSetChunkSize then sentChunkSize pkt
  else if header.messageType = rtmpMsgWindowAcknowledgementSize then sentWindowAckSize pkt
  else if header.messageType = rtmpMsgAMF0CommandMessage
      ∨ header.messageType = rtmpMsgAMF3CommandMessage then sentCommand pkt
  else return ⟨⟩

/-- `send_packet(pkt, streamid)`, of what `encode` gives and the header that is made for it: the
loop goes round at most once for each byte. -/
def sendPacket (pkt : RtmpPacket) (header : MessageHeader) : Except ℤ Bytes → Call PUnit
  | .error ret => fail ret
  | .ok payload => do
    if payload = [] then return ⟨⟩
    else do
      sendLoop header payload (payload.length + 1) 0
      sent header pkt

/-! ## What should be sent -/

/-- The chunks of a message whose payload is cut into `parts`. -/
def chunkVectors (header : MessageHeader) : List Bytes → List (List Bytes)
  | [] => []
  | part :: parts => [chunkHeader header 0, part] :: parts.map fun part =>
      [chunkHeaderC3 header.perferCid (BitVec.ofInt 32 header.timestamp)
        tmssConstsRtmpMaxFmt0HeaderSize, part]

/-- **The message is sent**: all its chunks have been given to `writev`, the payload in
`ceil(n / c)` parts of at most `c` bytes, and the call returns `error_success`. -/
def SentWhole (header : MessageHeader) (payload : Bytes) (s : RtmpSender)
    (out : Except Fault (Except ℤ PUnit × RtmpSender)) : Prop :=
  ∃ parts s', out = .ok (.ok ⟨⟩, s')
    ∧ s'.conn.written = s.conn.written ++ chunkVectors header parts
    ∧ parts.flatten = payload
    ∧ (∀ part ∈ parts, (part.length : ℤ) ≤ s.outChunkSize)
    ∧ (parts.length : ℤ) = (payload.length + s.outChunkSize - 1) / s.outChunkSize

/-! ## What is sent -/

variable {header : MessageHeader} {payload : Bytes} {s : RtmpSender}

/-- The vector of the first chunk. -/
def firstVector (header : MessageHeader) (payload : Bytes) (outChunkSize : ℤ) : List Bytes :=
  [chunkHeader header 0, payload.take (min (payload.length : ℤ) outChunkSize).toNat]

theorem length_chunkHeader_zero_le (header : MessageHeader) :
    (chunkHeader header 0).length ≤ 16 := by
  rw [chunkHeader, if_pos rfl, chunkHeaderC0, extendedTimestampBytes]
  split
  · exact Nat.zero_le 16
  · split <;> split <;> simp

/-- A count of bytes that an `unsigned int` holds is `0` as an `int` only where there are none. -/
theorem stTcpWritev_ne {iov : List Bytes} (hpos : 0 < iov.flatten.length)
    (hlt : iov.flatten.length < 2 ^ 32) : stTcpWritev iov ≠ errorSuccess := by
  intro h
  have hnat := congrArg BitVec.toNat (BitVec.toInt_inj.1 (h.trans BitVec.toInt_zero.symm))
  rw [BitVec.toNat_ofNat, BitVec.toNat_zero, Nat.mod_eq_of_lt hlt] at hnat
  omega

theorem length_firstVector (header : MessageHeader) (payload : Bytes) (outChunkSize : ℤ) :
    (firstVector header payload outChunkSize).flatten.length
      = (chunkHeader header 0).length + (min (payload.length : ℤ) outChunkSize).toNat := by
  rw [firstVector, List.flatten_cons, List.flatten_singleton, List.length_append, List.length_take]
  omega

/-- **What `writev` returns for the first chunk is never `error_success`**: an error code, or the
number of bytes. -/
theorem writev_firstVector_ne (hpos : payload ≠ []) (hint : payload.length < 2 ^ 31)
    (hc : 1 ≤ s.outChunkSize) :
    (s.conn.writev (firstVector header payload s.outChunkSize)).1 ≠ errorSuccess := by
  have hheader := length_chunkHeader_zero_le header
  have hlen := List.length_pos_iff.2 hpos
  have hcount := length_firstVector header payload s.outChunkSize
  have hne : stTcpWritev (firstVector header payload s.outChunkSize) ≠ errorSuccess :=
    stTcpWritev_ne (by omega) (by omega)
  unfold TcpStreamConn.writev
  split
  · change errorSocketAlreadyClosed ≠ errorSuccess
    decide
  · split <;> simpa only using hne

/-- **`send_packet` ends with the first chunk**, and returns what `writev` has returned for it. -/
theorem sendPacket_eq (pkt : RtmpPacket) (hpos : payload ≠ []) (hint : payload.length < 2 ^ 31)
    (hc : 1 ≤ s.outChunkSize) :
    sendPacket pkt header (.ok payload) s
      = .ok (.error (s.conn.writev (firstVector header payload s.outChunkSize)).1,
        { s with conn := (s.conn.writev (firstVector header payload s.outChunkSize)).2 }) := by
  have hlen := List.length_pos_iff.2 hpos
  have hret : (s.conn.writev (firstVector header payload s.outChunkSize)).1 ≠ errorSuccess :=
    writev_firstVector_ne hpos hint hc
  have hwritev : writev (firstVector header payload s.outChunkSize) s
      = .ok (.ok (s.conn.writev (firstVector header payload s.outChunkSize)).1,
        { s with conn := (s.conn.writev (firstVector header payload s.outChunkSize)).2 }) := rfl
  have hloop : sendLoop header payload (payload.length + 1) 0 s
      = .ok (.error (s.conn.writev (firstVector header payload s.outChunkSize)).1,
        { s with conn := (s.conn.writev (firstVector header payload s.outChunkSize)).2 }) := by
    rw [sendLoop, if_pos (by omega), run_get_bind, sub_zero, Int.toNat_zero, List.drop_zero]
    rw [firstVector] at hwritev hret ⊢
    rw [run_bind_ok hwritev, ensure, if_neg hret, run_fail_bind]
  rw [sendPacket, if_neg hpos]
  exact run_bind_error hloop

/-- **No message is sent**: what `writev` returns for the first chunk ends the call. -/
theorem message_never_sent (pkt : RtmpPacket) (hpos : payload ≠ [])
    (hint : payload.length < 2 ^ 31) (hc : 1 ≤ s.outChunkSize) :
    ¬ SentWhole header payload s (sendPacket pkt header (.ok payload) s) := by
  rintro ⟨parts, s', hrun, -⟩
  rw [sendPacket_eq pkt hpos hint hc] at hrun
  cases hrun

/-- A handler over a connection that is established, with `outChunkSize` as a handler begins. -/
def connected : RtmpSender :=
  { conn := { isConnected := true }, outChunkSize := 128, outAckSize := {}, requests := [] }

/-- A message of one byte. -/
theorem message_never_sent_oneByte :
    ¬ SentWhole { payloadLength := 1 } [7] connected
      (sendPacket .base { payloadLength := 1 } (.ok [7]) connected) :=
  message_never_sent .base (by decide) (by decide) (by decide)

/-- Of three hundred bytes the first 128 are sent, after twelve bytes of header: `send_packet`
returns 140. -/
theorem threeHundred_cut :
    sendPacket .base { payloadLength := 300 } (.ok (List.replicate 300 7)) connected
        = .ok (.error 140, { connected with conn :=
          { isConnected := true, sendBytes := 140, written :=
            [firstVector { payloadLength := 300 } (List.replicate 300 7) 128] } })
      ∧ ¬ SentWhole { payloadLength := 300 } (List.replicate 300 7) connected
        (sendPacket .base { payloadLength := 300 } (.ok (List.replicate 300 7)) connected) := by
  have hlen : (List.replicate 300 (7 : BitVec 8)).length = 300 := List.length_replicate
  have hpos : List.replicate 300 (7 : BitVec 8) ≠ [] := List.ne_nil_of_length_pos (by omega)
  have hint : (List.replicate 300 (7 : BitVec 8)).length < 2 ^ 31 := by omega
  have hrun : sendPacket .base { payloadLength := 300 } (.ok (List.replicate 300 7)) connected
      = _ := sendPacket_eq .base hpos hint (by decide)
  have hcount : stTcpWritev (firstVector { payloadLength := 300 } (List.replicate 300 7) 128)
      = 140 := by
    rw [stTcpWritev, length_firstVector, hlen]
    decide
  constructor
  · rw [hrun, connected, TcpStreamConn.writev, if_neg (by decide), hcount, if_neg (by decide)]
    rfl
  · rintro ⟨parts, s', hok, -⟩
    rw [hrun] at hok
    cases hok

end RtmpSender

end SmartStreaming
