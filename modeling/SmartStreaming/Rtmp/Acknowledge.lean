import SmartStreaming.Rtmp.Control

/-!
# Rtmp/Acknowledge — runs of `response_acknowledgement_message`

`Acked` counts in natural numbers what the handler keeps in 64 and 32 bits.  The calls of a run
follow it as long as the sum of the last number and the bytes since stays below `2 ^ 32`: the code
resets the number where the sum is above `0xf0000000`, but adds in 32 bits first.
-/

namespace SmartStreaming

open Machinery Comp Buffer

/-- The bytes received at the last acknowledgement, and the number it carried. -/
structure Acked where
  bytes : ℕ := 0
  number : ℕ := 0

namespace Acked

/-- The bytes received since the last acknowledgement. -/
def since (a : Acked) (received : ℕ) : ℕ := received - a.bytes

/-- Half of the window has been received. -/
abbrev Due (a : Acked) (received window : ℕ) : Prop := window / 2 ≤ a.since received

/-- The number the next acknowledgement carries. -/
def nextNumber (a : Acked) (received : ℕ) : ℕ :=
  if a.number + a.since received ≤ 0xf0000000 then a.number + a.since received
  else a.since received

/-- What is acknowledged after a call. -/
def next (a : Acked) (received window : ℕ) : Acked :=
  if a.Due received window then ⟨received, a.nextNumber received⟩ else a

end Acked

namespace RtmpSession

variable {σ : Type}

/-- `in_ack_size` after an acknowledgement with the number `n`. -/
def acknowledged (getRecvBytes : σ → BitVec 64) (h : RtmpSession σ) (n : BitVec 32) :
    RtmpSession σ :=
  { h with inAckSize :=
    { h.inAckSize with nbRecvBytes := getRecvBytes h.ioBuffer, sequenceNumber := n } }

/-- `manual_response_queue.push_back(pkt)`. -/
def queued (h : RtmpSession σ) (pkt : RtmpPacket) : RtmpSession σ :=
  { h with manualResponseQueue := h.manualResponseQueue ++ [pkt] }

/-- The packet is queued, or `send_packet` returns with success. -/
def SentOrQueued (pkt : RtmpPacket) (h h' : RtmpSession σ) : Prop :=
  if h.autoResponseWhenRecv then sendPacket pkt h = .ok (.ok ⟨⟩, h') else h' = h.queued pkt

/-- **The call does what is due**: it sends or queues the acknowledgement with the next number, or
else changes nothing. -/
def Follows (getRecvBytes : σ → BitVec 64) (a : Acked) (h : RtmpSession σ) : Prop :=
  ∃ h', responseAcknowledgementMessage getRecvBytes h = .ok (.ok ⟨⟩, h') ∧
    if a.Due (getRecvBytes h.ioBuffer).toNat h.inAckSize.window.toNat then
      ∃ n : BitVec 32, n.toNat = a.nextNumber (getRecvBytes h.ioBuffer).toNat
        ∧ SentOrQueued (.acknowledgement { sequenceNumber := n }) (h.acknowledged getRecvBytes n) h'
    else h' = h

/-- **The acknowledgement that is due is one the code gets right**: it is queued and not sent, and
the sum of the last number and the bytes since does not wrap around, or wraps to a number that is
reset as well. -/
def Fits (getRecvBytes : σ → BitVec 64) (a : Acked) (h : RtmpSession σ) : Prop :=
  a.Due (getRecvBytes h.ioBuffer).toNat h.inAckSize.window.toNat →
    h.autoResponseWhenRecv = false ∧ a.since (getRecvBytes h.ioBuffer).toNat < 2 ^ 32
      ∧ (a.number + a.since (getRecvBytes h.ioBuffer).toNat < 2 ^ 32
        ∨ 2 ^ 32 + 0xf0000000 < a.number + a.since (getRecvBytes h.ioBuffer).toNat)

/-- Every call of the run does what is due. -/
def AllFollow (getRecvBytes : σ → BitVec 64) : Acked → List (RtmpSession σ) → Prop
  | _, [] => True
  | a, h :: hs => Follows getRecvBytes a h ∧ AllFollow getRecvBytes
      (a.next (getRecvBytes h.ioBuffer).toNat h.inAckSize.window.toNat) hs

/-- Every acknowledgement that is due in the run is one the code gets right. -/
def AllFit (getRecvBytes : σ → BitVec 64) : Acked → List (RtmpSession σ) → Prop
  | _, [] => True
  | a, h :: hs => Fits getRecvBytes a h ∧ AllFit getRecvBytes
      (a.next (getRecvBytes h.ioBuffer).toNat h.inAckSize.window.toNat) hs

/-- **A run of calls from the handlers of the list**, after the handler `left`: between two calls
bytes are received and anything else may happen, but `nb_recv_bytes` and `sequence_number` are left
alone. -/
inductive AckRun (getRecvBytes : σ → BitVec 64) : RtmpSession σ → List (RtmpSession σ) → Prop
  | nil (left : RtmpSession σ) : AckRun getRecvBytes left []
  | cons {left h h' : RtmpSession σ} {ret : Except ℤ PUnit} {hs : List (RtmpSession σ)}
      (nbRecvBytes : h.inAckSize.nbRecvBytes = left.inAckSize.nbRecvBytes)
      (sequenceNumber : h.inAckSize.sequenceNumber = left.inAckSize.sequenceNumber)
      (received : (getRecvBytes left.ioBuffer).toNat ≤ (getRecvBytes h.ioBuffer).toNat)
      (window : h.inAckSize.window ≠ 0)
      (run : responseAcknowledgementMessage getRecvBytes h = .ok (ret, h'))
      (rest : AckRun getRecvBytes h' hs) : AckRun getRecvBytes left (h :: hs)

/-! ## One call -/

variable {getRecvBytes : σ → BitVec 64} {a : Acked} {h : RtmpSession σ}

/-- The handler keeps what is acknowledged. -/
structure Keeps (getRecvBytes : σ → BitVec 64) (a : Acked) (h : RtmpSession σ) : Prop where
  bytes : h.inAckSize.nbRecvBytes.toNat = a.bytes
  number : h.inAckSize.sequenceNumber.toNat = a.number
  received : a.bytes ≤ (getRecvBytes h.ioBuffer).toNat

/-- `delta`. -/
def delta (getRecvBytes : σ → BitVec 64) (h : RtmpSession σ) : BitVec 32 :=
  (getRecvBytes h.ioBuffer - h.inAckSize.nbRecvBytes).setWidth 32

/-- The number the code sends. -/
def sentNumber (getRecvBytes : σ → BitVec 64) (h : RtmpSession σ) : BitVec 32 :=
  if (h.inAckSize.sequenceNumber + h.delta getRecvBytes).toNat > 0xf0000000 then
    h.delta getRecvBytes
  else h.inAckSize.sequenceNumber + h.delta getRecvBytes

theorem Keeps.toNat_delta (hk : Keeps getRecvBytes a h) :
    (h.delta getRecvBytes).toNat = a.since (getRecvBytes h.ioBuffer).toNat % 2 ^ 32 := by
  have hle := hk.received
  rw [← hk.bytes] at hle
  rw [delta, BitVec.toNat_setWidth, BitVec.toNat_sub_of_le (BitVec.le_def.2 hle), hk.bytes,
    Acked.since]

theorem run_of_lt (hlt : (h.delta getRecvBytes).toNat < h.inAckSize.window.toNat / 2) :
    responseAcknowledgementMessage getRecvBytes h = .ok (.ok ⟨⟩, h) := by
  rw [responseAcknowledgementMessage, run_get_bind]
  split
  · rfl
  · exact congrFun (if_pos hlt) h

theorem run_of_le (hwindow : h.inAckSize.window ≠ 0)
    (hle : h.inAckSize.window.toNat / 2 ≤ (h.delta getRecvBytes).toNat) :
    responseAcknowledgementMessage getRecvBytes h
      = respond (.acknowledgement { sequenceNumber := h.sentNumber getRecvBytes })
        (h.acknowledged getRecvBytes (h.sentNumber getRecvBytes)) := by
  rw [responseAcknowledgementMessage, run_get_bind, if_neg hwindow]
  exact congrFun (if_neg (not_lt.2 hle)) h

/-- **What is sent at once never gets out.** -/
theorem not_sent (pkt : RtmpAcknowledgementPacket) (h h' : RtmpSession σ) :
    sendPacket (.acknowledgement pkt) h ≠ .ok (.ok ⟨⟩, h') := fun hrun =>
  (holds_sendAcknowledgement pkt h).elim_ok hrun

/-- The number sent, while the bytes since fit 32 bits. -/
theorem Keeps.toNat_sentNumber (hk : Keeps getRecvBytes a h)
    (hsince : a.since (getRecvBytes h.ioBuffer).toNat < 2 ^ 32) :
    (h.sentNumber getRecvBytes).toNat = a.nextNumber (getRecvBytes h.ioBuffer).toNat
      ↔ a.number + a.since (getRecvBytes h.ioBuffer).toNat < 2 ^ 32
        ∨ 2 ^ 32 + 0xf0000000 < a.number + a.since (getRecvBytes h.ioBuffer).toNat := by
  have hdelta := hk.toNat_delta
  rw [Nat.mod_eq_of_lt hsince] at hdelta
  have hnumber : a.number < 2 ^ 32 := hk.number ▸ h.inAckSize.sequenceNumber.isLt
  rw [sentNumber, Acked.nextNumber, apply_ite BitVec.toNat, BitVec.toNat_add, hdelta, hk.number]
  generalize a.since (getRecvBytes h.ioBuffer).toNat = d at *
  split <;> split <;> omega

/-- **An acknowledgement is sent or queued only by being queued.** -/
theorem sentOrQueued_iff (pkt : RtmpAcknowledgementPacket) (h h' : RtmpSession σ) :
    SentOrQueued (.acknowledgement pkt) h h'
      ↔ h.autoResponseWhenRecv = false ∧ h' = h.queued (.acknowledgement pkt) := by
  rw [SentOrQueued]
  cases h.autoResponseWhenRecv with
  | true => exact iff_of_false (not_sent pkt h h') fun hqueued => Bool.noConfusion hqueued.1
  | false => exact (and_iff_right rfl).symm

/-- A queued response. -/
theorem run_respond_queued (hmanual : h.autoResponseWhenRecv = false) (pkt : RtmpPacket) :
    respond pkt h = .ok (.ok ⟨⟩, h.queued pkt) := by
  rw [respond, run_get_bind, if_pos (by rw [hmanual]; exact Bool.false_ne_true)]
  rfl

/-- The call where an acknowledgement is due and queued. -/
theorem Keeps.run_queued (hk : Keeps getRecvBytes a h) (hwindow : h.inAckSize.window ≠ 0)
    (hdue : a.Due (getRecvBytes h.ioBuffer).toNat h.inAckSize.window.toNat)
    (hmanual : h.autoResponseWhenRecv = false)
    (hsince : a.since (getRecvBytes h.ioBuffer).toNat < 2 ^ 32) :
    responseAcknowledgementMessage getRecvBytes h = .ok (.ok ⟨⟩,
      (h.acknowledged getRecvBytes (h.sentNumber getRecvBytes)).queued
        (.acknowledgement { sequenceNumber := h.sentNumber getRecvBytes })) := by
  have hdelta := hk.toNat_delta
  rw [Nat.mod_eq_of_lt hsince] at hdelta
  rw [run_of_le hwindow (hdelta ▸ hdue)]
  have hmanual' : (h.acknowledged getRecvBytes (h.sentNumber getRecvBytes)).autoResponseWhenRecv
      = false := hmanual
  exact run_respond_queued hmanual' _

/-- **One call does what is due exactly if what is due is one the code gets right.** -/
theorem follows_iff_fits (hk : Keeps getRecvBytes a h) (hwindow : h.inAckSize.window ≠ 0) :
    Follows getRecvBytes a h ↔ Fits getRecvBytes a h := by
  have hdelta := hk.toNat_delta
  have hlt := h.inAckSize.window.isLt
  by_cases hdue : a.Due (getRecvBytes h.ioBuffer).toNat h.inAckSize.window.toNat
  · constructor
    · rintro ⟨h', hrun, hdone⟩ -
      rw [if_pos hdue] at hdone
      obtain ⟨n, hn, hsent⟩ := hdone
      have hsince : a.since (getRecvBytes h.ioBuffer).toNat < 2 ^ 32 := by
        have hbound := n.isLt
        rw [hn, Acked.nextNumber] at hbound
        split at hbound <;> omega
      rw [sentOrQueued_iff] at hsent
      obtain ⟨hmanual, rfl⟩ := hsent
      have hstate := (run_unique (hk.run_queued hwindow hdue hmanual hsince) hrun).2
      have hnumber : h.sentNumber getRecvBytes = n :=
        congrArg (fun h => h.inAckSize.sequenceNumber) hstate
      exact ⟨hmanual, hsince, (hk.toNat_sentNumber hsince).1 (hnumber ▸ hn)⟩
    · intro hfits
      obtain ⟨hmanual, hsince, hsum⟩ := hfits hdue
      refine ⟨_, hk.run_queued hwindow hdue hmanual hsince, ?_⟩
      rw [if_pos hdue]
      exact ⟨_, (hk.toNat_sentNumber hsince).2 hsum, (sentOrQueued_iff _ _ _).2 ⟨hmanual, rfl⟩⟩
  · have hidle : (h.delta getRecvBytes).toNat < h.inAckSize.window.toNat / 2 := by
      rw [hdelta, Nat.mod_eq_of_lt (by omega)]
      omega
    exact iff_of_true ⟨h, run_of_lt hidle, by rw [if_neg hdue]⟩ fun hdue' => absurd hdue' hdue

/-! ## Runs -/

/-- After a call that has done what was due the handler keeps what is acknowledged now. -/
theorem Follows.keeps (hk : Keeps getRecvBytes a h) (hfollows : Follows getRecvBytes a h)
    {ret : Except ℤ PUnit} {h' : RtmpSession σ}
    (hrun : responseAcknowledgementMessage getRecvBytes h = .ok (ret, h')) :
    Keeps getRecvBytes (a.next (getRecvBytes h.ioBuffer).toNat h.inAckSize.window.toNat) h' := by
  obtain ⟨h'', hrun', hdone⟩ := hfollows
  obtain rfl : h'' = h' := (run_unique hrun' hrun).2
  rw [Acked.next]
  split at hdone
  · rename_i hdue
    obtain ⟨n, hn, hsent⟩ := hdone
    obtain ⟨-, rfl⟩ := (sentOrQueued_iff _ _ _).1 hsent
    rw [if_pos hdue]
    exact ⟨rfl, hn, le_refl _⟩
  · rename_i hdue
    rw [if_neg hdue, hdone]
    exact hk

/-- **A run from a handler that keeps what is acknowledged**, by induction on it. -/
theorem allFollow_iff_allFit {left : RtmpSession σ} {hs : List (RtmpSession σ)}
    (hrun : AckRun getRecvBytes left hs) (hk : Keeps getRecvBytes a left) :
    AllFollow getRecvBytes a hs ↔ AllFit getRecvBytes a hs := by
  induction hrun generalizing a with
  | nil left => rfl
  | @cons left h h' ret hs hbytes hnumber hreceived hwindow hrun _ ih =>
    have hk' : Keeps getRecvBytes a h :=
      ⟨hbytes ▸ hk.bytes, hnumber ▸ hk.number, hk.received.trans hreceived⟩
    have hstep := follows_iff_fits hk' hwindow
    rw [AllFollow, AllFit]
    constructor
    · rintro ⟨hfollows, hrest⟩
      exact ⟨hstep.1 hfollows, (ih (hfollows.keeps hk' hrun)).1 hrest⟩
    · rintro ⟨hfits, hrest⟩
      exact ⟨hstep.2 hfits, (ih ((hstep.2 hfits).keeps hk' hrun)).2 hrest⟩

/-- **Every call of a run does what is due**, from a handler that has acknowledged nothing yet,
exactly if every acknowledgement that is due in it is queued and carries a sum that does not wrap
around (or wraps to a number above `0xf0000000`). -/
theorem acknowledgements_follow_iff (getRecvBytes : σ → BitVec 64) (start : RtmpSession σ)
    (hs : List (RtmpSession σ)) (hbytes : start.inAckSize.nbRecvBytes = 0)
    (hnumber : start.inAckSize.sequenceNumber = 0) (hrun : AckRun getRecvBytes start hs) :
    AllFollow getRecvBytes {} hs ↔ AllFit getRecvBytes {} hs :=
  allFollow_iff_allFit hrun ⟨by rw [hbytes]; rfl, by rw [hnumber]; rfl, Nat.zero_le _⟩

/-- A handler that queues its responses, for a peer that has set the window `w`. -/
def windowed (auto : Bool) (w : BitVec 32) (received : BitVec 64) : RtmpSession (BitVec 64) where
  toRtmpProtocolHandler := .new received false 128
  inAckSize := { window := w }
  inBufferLength := 0
  requests := []
  autoResponseWhenRecv := auto
  manualResponseQueue := []

/-- Two of four bytes received. -/
theorem acknowledgements_follow_iff_two :
    AllFollow id {} [windowed false 4 2] ↔ AllFit id {} [windowed false 4 2] :=
  acknowledgements_follow_iff id (windowed false 4 0) [windowed false 4 2] rfl rfl
    (.cons rfl rfl (by decide) (by decide) rfl (.nil _))

/-- The handler after a call. -/
def answered (h : RtmpSession (BitVec 64)) : RtmpSession (BitVec 64) :=
  match responseAcknowledgementMessage id h with
  | .ok (_, h') => h'
  | .error _ => h

/-- The calls after each of the counts, with nothing else happening between them. -/
def callsAt (left : RtmpSession (BitVec 64)) : List (BitVec 64) → List (RtmpSession (BitVec 64))
  | [] => []
  | received :: rest =>
    { left with ioBuffer := received }
      :: callsAt (answered { left with ioBuffer := received }) rest

/-- Every call returns, and leaves the counter and the window alone. -/
theorem run_answered (h : RtmpSession (BitVec 64)) :
    ∃ ret, responseAcknowledgementMessage id h = .ok (ret, h.answered)
      ∧ h.answered.ioBuffer = h.ioBuffer ∧ h.answered.inAckSize.window = h.inAckSize.window := by
  have hholds : Holds (fun _ => False)
      (fun _ h' => h'.ioBuffer = h.ioBuffer ∧ h'.inAckSize.window = h.inAckSize.window)
      (fun _ h' => h'.ioBuffer = h.ioBuffer ∧ h'.inAckSize.window = h.inAckSize.window)
      (responseAcknowledgementMessage id) h := by
    simp only [responseAcknowledgementMessage, respond, holds_bind, holds_get, holds_ite,
      holds_pure, holds_put, true_and]
    refine ⟨fun _ => trivial, fun _ => ⟨fun _ => trivial, fun _ => ⟨fun _ => trivial, fun _ => ?_⟩⟩⟩
    refine (holds_sendAcknowledgement _ _).imp ?_ fun _ _ => False.elim
    rintro c h' ⟨-, rfl⟩
    exact ⟨rfl, rfl⟩
  unfold Holds at hholds
  unfold answered
  split at hholds
  · exact hholds.elim
  · rename_i code h' hrun
    rw [hrun]
    exact ⟨_, rfl, hholds⟩
  · rename_i ret h' hrun
    rw [hrun]
    exact ⟨_, rfl, hholds⟩

/-- Calls at counts that do not decrease are a run. -/
theorem ackRun_callsAt (left : RtmpSession (BitVec 64)) (hwindow : left.inAckSize.window ≠ 0)
    (counts : List (BitVec 64)) (hcounts : List.IsChain (· ≤ ·) (left.ioBuffer :: counts)) :
    AckRun id left (callsAt left counts) := by
  induction counts generalizing left with
  | nil => exact .nil left
  | cons received counts ih =>
    rw [List.isChain_cons_cons] at hcounts
    obtain ⟨ret, hrun, hio, hw⟩ := run_answered { left with ioBuffer := received }
    refine .cons rfl rfl (BitVec.le_def.1 hcounts.1) hwindow hrun (ih _ ?_ ?_)
    · rw [hw]
      exact hwindow
    · rw [hio]
      exact hcounts.2

instance (a : Acked) (h : RtmpSession σ) : Decidable (Fits getRecvBytes a h) :=
  inferInstanceAs (Decidable (_ → _))

instance decidableAllFit (getRecvBytes : σ → BitVec 64) :
    ∀ (a : Acked) (hs : List (RtmpSession σ)), Decidable (AllFit getRecvBytes a hs)
  | _, [] => inferInstanceAs (Decidable True)
  | a, h :: hs =>
    have := decidableAllFit getRecvBytes
      (a.next (getRecvBytes h.ioBuffer).toNat h.inAckSize.window.toNat) hs
    inferInstanceAs (Decidable (_ ∧ _))

/-- `2 ^ 25 - 1` bytes between any two of 132 calls. -/
def steadyCounts : List (BitVec 64) := (List.range 132).map fun i => 33554431 * (i + 1)

/-- **The number wraps around**: with the largest window the peer can set, the acknowledgement
after three that add up to 3321888669 bytes is for 1107296223 more, and carries 134217596.  A
handler that sends its responses at once sends none. -/
theorem acknowledgements_wrong :
    AckRun id (windowed false 0x7fffffff 0) (callsAt (windowed false 0x7fffffff 0) steadyCounts)
    ∧ ¬ AllFollow id {} (callsAt (windowed false 0x7fffffff 0) steadyCounts)
    ∧ (callsAt (windowed false 0x7fffffff 0) steadyCounts).getLast?.map
        (fun h => (h.inAckSize.sequenceNumber, h.delta id, h.answered.inAckSize.sequenceNumber))
      = some (3321888669, 1107296223, 134217596)
    ∧ AckRun id (windowed true 4 0) [windowed true 4 2]
    ∧ ¬ AllFollow id {} [windowed true 4 2] := by
  have hsteady : AckRun id (windowed false 0x7fffffff 0)
      (callsAt (windowed false 0x7fffffff 0) steadyCounts) :=
    ackRun_callsAt _ (by decide) _ (by decide +kernel)
  have hauto : AckRun id (windowed true 4 0) [windowed true 4 2] :=
    ackRun_callsAt _ (by decide) [2] (by decide +kernel)
  have hstart : ∀ (auto : Bool) (w : BitVec 32), Keeps id {} (windowed auto w 0) := fun _ _ =>
    ⟨rfl, rfl, le_refl _⟩
  refine ⟨hsteady, ?_, by decide +kernel, hauto, ?_⟩
  · rw [allFollow_iff_allFit hsteady (hstart _ _)]
    decide +kernel
  · rw [allFollow_iff_allFit hauto (hstart _ _)]
    decide +kernel

end RtmpSession

end SmartStreaming
