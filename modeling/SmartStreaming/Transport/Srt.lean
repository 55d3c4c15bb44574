import SmartStreaming.Base.Defs

/-!
# Transport/Srt — `SRTStreamConn::write` over `srt_sendmsg`

    srt_sendmsg ──▸ sent k ──▸ has_send += k
                 ╰▸ again ──▸ st_srt_epoll ──▸ 0: once more / error: return it
                 ╰▸ failed ──▸ return SRT_ERROR

The library is a list of results, one for each call.  `st_srt_write` writes back how much it has
sent on success only, and its caller checks for `SRT_ERROR` only: any other error comes out as `0`,
whatever has been sent (`SrtStreamConn.reportsSent_iff`).
-/

namespace SmartStreaming

def errorSrtSocketTimeout : ℤ := 10108
def errorSrtSocketAlreadyClosed : ℤ := 10109

/-- `SRT_ERROR` -/
def srtError : ℤ := -1

/-- A result of `srt_sendmsg`; where it would block, with what the wait for `ST_SRT_OUT` returns. -/
inductive SendResult
  | sent (k : ℕ)
  | again (wait : ℤ)
  | failed
  deriving DecidableEq, Repr

/-- What `st_srt_write` leaves: its return value, `nwrite` where it sets it, and what was sent. -/
structure SrtWritten where
  ret : ℤ
  nwrite : Option ℕ := none
  sent : Bytes := []
  deriving DecidableEq, Repr

/-! ## The model

`plsize` is `SRT_LIVE_DEF_PLSIZE`, the size of the largest slice. -/

section Model

variable (plsize : ℕ)

/-- The size of the next slice. -/
def nextSend (nbyte hasSend : ℕ) : ℕ :=
  if nbyte - hasSend > plsize then plsize else nbyte - hasSend

/-- `st_srt_write(fd, buf, nbyte, timeout, nwrite)` once it has sent `has_send` bytes; `none` if it
has not returned when the results end. -/
def stSrtWrite (buf : Bytes) (hasSend : ℕ) (results : List SendResult) : Option SrtWritten :=
  if hasSend < buf.length then
    match results with
    | [] => none
    | .sent k :: rest =>
      let slice := (buf.drop hasSend).take (nextSend plsize buf.length hasSend)
      (stSrtWrite buf (hasSend + k) rest).map fun w => { w with sent := slice.take k ++ w.sent }
    | .again wait :: rest =>
      if wait ≠ errorSuccess then some { ret := wait } else stSrtWrite buf hasSend rest
    | .failed :: _ => some { ret := srtError }
  else
    some { ret := errorSuccess, nwrite := some hasSend }

/-- `class SRTStreamConn`; its socket is the list of results. -/
structure SrtStreamConn where
  isConnected : Bool

/-- `write(buf, size)` of a buffer of that size: the return value and what was sent. -/
def SrtStreamConn.write (conn : SrtStreamConn) (buf : Bytes) (results : List SendResult) :
    Option (ℤ × Bytes) :=
  if conn.isConnected = false then some (errorSrtSocketAlreadyClosed, [])
  else
    (stSrtWrite plsize buf 0 results).map fun w =>
      if w.ret = srtError then (w.ret, w.sent)
      else (((w.nwrite.getD 0 : ℕ) : ℤ), w.sent)

/-- The results over a call that returns, from `has_send` bytes on: slices are sent whole or in
part. -/
inductive SendPattern (nbyte : ℕ) : ℕ → List SendResult → Prop
  | done {hasSend : ℕ} (h : nbyte ≤ hasSend) : SendPattern nbyte hasSend []
  | sent {hasSend k : ℕ} {rest : List SendResult} (h : hasSend < nbyte) (h₁ : 1 ≤ k)
      (hk : k ≤ nextSend plsize nbyte hasSend) (hrest : SendPattern nbyte (hasSend + k) rest) :
      SendPattern nbyte hasSend (.sent k :: rest)
  | ready {hasSend : ℕ} {rest : List SendResult} (h : hasSend < nbyte)
      (hrest : SendPattern nbyte hasSend rest) :
      SendPattern nbyte hasSend (.again errorSuccess :: rest)
  | notReady {hasSend : ℕ} {wait : ℤ} (h : hasSend < nbyte) (hwait : wait ≠ errorSuccess) :
      SendPattern nbyte hasSend [.again wait]
  | failed {hasSend : ℕ} (h : hasSend < nbyte) : SendPattern nbyte hasSend [.failed]

end Model

/-- A result `n ≥ 0` says that the first `n` bytes were sent, and nothing else. -/
def ReportsSent (buf : Bytes) (out : ℤ × Bytes) : Prop :=
  out.1 < 0 ∨ (out.1 ≤ buf.length ∧ out.2 = buf.take out.1.toNat)

/-- The last wait ends with an error other than `SRT_ERROR` after a slice, or a part of one, was
sent. -/
def FailsAfterProgress (results : List SendResult) : Prop :=
  ∃ front wait, results = front ++ [.again wait] ∧ wait ≠ errorSuccess ∧ wait ≠ srtError
    ∧ ∃ k, .sent k ∈ front

/-! ## How a call ends -/

/-- The bytes a result has sent. -/
def SendResult.size : SendResult → ℕ
  | .sent k => k
  | .again _ => 0
  | .failed => 0

/-- The bytes sent over a call. -/
def totalSent (results : List SendResult) : ℕ := (results.map SendResult.size).sum

@[simp] theorem totalSent_nil : totalSent [] = 0 := rfl

@[simp] theorem totalSent_cons (r : SendResult) (rest : List SendResult) :
    totalSent (r :: rest) = r.size + totalSent rest := List.sum_cons

theorem totalSent_append (front back : List SendResult) :
    totalSent (front ++ back) = totalSent front + totalSent back := by
  rw [totalSent, List.map_append, List.sum_append, totalSent, totalSent]

theorem totalSent_eq_zero_iff {results : List SendResult} :
    totalSent results = 0 ↔ ∀ r ∈ results, r.size = 0 := by
  induction results with
  | nil => exact iff_of_true rfl fun _ hr => absurd hr List.not_mem_nil
  | cons r rest ih => rw [totalSent_cons, Nat.add_eq_zero_iff, ih, List.forall_mem_cons]

/-- The three ways a call ends: all was sent, the library failed, or a wait did. -/
inductive SendEnded (nbyte hasSend : ℕ) : List SendResult → ℤ → Option ℕ → Prop
  | complete {results : List SendResult}
      (hwait : ∀ wait, .again wait ∈ results → wait = errorSuccess)
      (hall : nbyte ≤ hasSend + totalSent results) :
      SendEnded nbyte hasSend results errorSuccess (some (hasSend + totalSent results))
  | failed (front : List SendResult) : SendEnded nbyte hasSend (front ++ [.failed]) srtError none
  | notReady (front : List SendResult) {wait : ℤ} (hwait : wait ≠ errorSuccess) :
      SendEnded nbyte hasSend (front ++ [.again wait]) wait none

theorem SendEnded.cons {nbyte hasSend : ℕ} {r : SendResult} {rest : List SendResult} {ret : ℤ}
    {nwrite : Option ℕ} (h : SendEnded nbyte (hasSend + r.size) rest ret nwrite)
    (hr : ∀ wait, r = .again wait → wait = errorSuccess) :
    SendEnded nbyte hasSend (r :: rest) ret nwrite := by
  cases h with
  | complete hwait hall =>
    rw [Nat.add_assoc, ← totalSent_cons] at hall ⊢
    refine .complete (fun wait hmem => ?_) hall
    rcases List.mem_cons.1 hmem with heq | hmem
    · exact hr wait heq.symm
    · exact hwait wait hmem
  | failed front => exact .failed (r :: front)
  | notReady front hwait => exact .notReady (r :: front) hwait

namespace SendPattern

variable {plsize : ℕ} {buf : Bytes} {hasSend : ℕ} {results : List SendResult}

theorem sent_pos {nbyte k : ℕ} (h : SendPattern plsize nbyte hasSend results)
    (hk : .sent k ∈ results) : 1 ≤ k := by
  induction h with
  | done => cases hk
  | sent h h₁ _ _ ih =>
    rcases List.mem_cons.1 hk with heq | hmem
    · cases heq
      exact h₁
    · exact ih hmem
  | ready h _ ih =>
    rcases List.mem_cons.1 hk with heq | hmem
    · cases heq
    · exact ih hmem
  | notReady => simp at hk
  | failed => simp at hk

/-- No more is sent than the buffer holds. -/
theorem totalSent_le {nbyte : ℕ} (h : SendPattern plsize nbyte hasSend results) :
    totalSent results ≤ nbyte - hasSend := by
  induction h with
  | done => exact Nat.zero_le _
  | @sent hasSend k rest h _ hk _ ih =>
    have hslice : nextSend plsize nbyte hasSend ≤ nbyte - hasSend := by
      rw [nextSend]
      split <;> omega
    rw [totalSent_cons, SendResult.size]
    omega
  | ready _ _ ih => rwa [totalSent_cons, SendResult.size, Nat.zero_add]
  | notReady => exact Nat.zero_le _
  | failed => exact Nat.zero_le _

/-- **`st_srt_write` over its results**: what was sent is the bytes from `has_send` on, in order and
once. -/
theorem stSrtWrite_eq (h : SendPattern plsize buf.length hasSend results) :
    ∃ ret nwrite, SendEnded buf.length hasSend results ret nwrite
      ∧ stSrtWrite plsize buf hasSend results
        = some ⟨ret, nwrite, (buf.drop hasSend).take (totalSent results)⟩ := by
  induction h with
  | done h =>
    refine ⟨_, _, .complete (fun _ hmem => absurd hmem List.not_mem_nil) h, ?_⟩
    rw [stSrtWrite, if_neg (not_lt.2 h)]
    rfl
  | @sent hasSend k rest h h₁ hk hrest ih =>
    obtain ⟨ret, nwrite, hended, hrun⟩ := ih
    refine ⟨ret, nwrite, .cons hended fun wait hwait => (nomatch hwait), ?_⟩
    rw [stSrtWrite, if_pos h]
    dsimp only
    rw [hrun, Option.map_some, List.take_take, min_eq_left hk, totalSent_cons, SendResult.size,
      ← List.drop_drop, List.take_add]
  | @ready hasSend rest h hrest ih =>
    obtain ⟨ret, nwrite, hended, hrun⟩ := ih
    refine ⟨ret, nwrite, .cons hended fun wait hwait => (SendResult.again.inj hwait).symm, ?_⟩
    rw [stSrtWrite, if_pos h, if_neg (not_not.2 rfl), hrun, totalSent_cons, SendResult.size,
      Nat.zero_add]
  | notReady h hwait =>
    refine ⟨_, _, .notReady [] hwait, ?_⟩
    rw [stSrtWrite, if_pos h, if_pos hwait]
    rfl
  | failed h =>
    refine ⟨_, _, .failed [], ?_⟩
    rw [stSrtWrite, if_pos h]
    rfl

/-- Something was sent before the last wait failed. -/
theorem failsAfterProgress_iff {nbyte : ℕ} {front : List SendResult} {wait : ℤ}
    (h : SendPattern plsize nbyte hasSend (front ++ [.again wait])) (hwait : wait ≠ errorSuccess) :
    FailsAfterProgress (front ++ [.again wait]) ↔ wait ≠ srtError ∧ totalSent front ≠ 0 := by
  rw [Ne, Ne, totalSent_eq_zero_iff]
  constructor
  · rintro ⟨front', wait', heq, -, herr, k, hk⟩
    obtain ⟨rfl, hlast⟩ := List.append_inj' heq rfl
    obtain rfl := SendResult.again.inj (List.singleton_inj.1 hlast)
    have hpos := h.sent_pos (List.mem_append_left _ hk)
    exact ⟨herr, fun hzero => absurd (hzero _ hk) (Nat.one_le_iff_ne_zero.1 hpos)⟩
  · rintro ⟨herr, hprogress⟩
    push Not at hprogress
    obtain ⟨r, hr, hsize⟩ := hprogress
    cases r with
    | sent k => exact ⟨front, wait, rfl, hwait, herr, k, hr⟩
    | again _ => exact absurd rfl hsize
    | failed => exact absurd rfl hsize

end SendPattern

namespace SrtStreamConn

variable {plsize : ℕ} {buf : Bytes} {results : List SendResult}

/-- `0` is returned although `n` bytes were sent. -/
theorem reportsSent_zero_iff {n : ℕ} (h : n ≤ buf.length) :
    ReportsSent buf (0, buf.take n) ↔ n = 0 := by
  constructor
  · rintro (hneg | ⟨-, htake⟩)
    · exact absurd hneg (lt_irrefl 0)
    · have hlen := congrArg List.length htake
      change (buf.take n).length = (buf.take 0).length at hlen
      rw [List.take_zero, List.length_nil, List.length_take] at hlen
      omega
  · rintro rfl
    exact Or.inr ⟨Int.natCast_nonneg _, rfl⟩

/-- The code of a connection that is not connected reads as a number of bytes. -/
theorem not_reportsSent_closed : ¬ ReportsSent buf (errorSrtSocketAlreadyClosed, []) := by
  rintro (hneg | ⟨hle, htake⟩)
  · exact absurd hneg (by decide)
  · have hlen := congrArg List.length htake
    change 0 = (buf.take 10109).length at hlen
    change (10109 : ℤ) ≤ buf.length at hle
    rw [List.length_take] at hlen
    omega

/-- **A count is what was sent**, for any buffer, connection and results of the library, exactly if
the connection is connected and no wait fails, otherwise than with `SRT_ERROR`, after a part of the
buffer was sent. -/
theorem reportsSent_iff (conn : SrtStreamConn) (h : SendPattern plsize buf.length 0 results) :
    ∃ out, conn.write plsize buf results = some out
      ∧ (ReportsSent buf out ↔ conn.isConnected = true ∧ ¬ FailsAfterProgress results) := by
  rcases Bool.eq_false_or_eq_true conn.isConnected with hconn | hconn
  · obtain ⟨ret, nwrite, hended, hrun⟩ := h.stSrtWrite_eq
    have hconn' : ¬ conn.isConnected = false := by
      rw [hconn]
      exact Bool.noConfusion
    rw [write, if_neg hconn', hrun, Option.map_some, List.drop_zero]
    dsimp only
    refine ⟨_, rfl, ?_⟩
    cases hended with
    | complete hwait hall =>
      have hle := h.totalSent_le
      rw [if_neg (by decide)]
      refine iff_of_true (Or.inr ⟨?_, ?_⟩) ⟨hconn, ?_⟩
      · rw [Option.getD_some, Nat.zero_add]
        exact Int.ofNat_le.2 hle
      · rw [Option.getD_some, Nat.zero_add, Int.toNat_natCast]
      · rintro ⟨front, wait, rfl, hne, -⟩
        exact hne (hwait wait (List.mem_append_right _ (List.mem_singleton_self _)))
    | failed front =>
      rw [if_pos rfl]
      refine iff_of_true (Or.inl (show srtError < 0 by decide)) ⟨hconn, ?_⟩
      rintro ⟨front', wait, heq, -⟩
      have hlast := (List.append_inj' heq rfl).2
      cases hlast
    | notReady front hwait =>
      have htotal : totalSent (front ++ [.again ret]) = totalSent front :=
        totalSent_append front [.again ret]
      have hle := h.totalSent_le
      rw [h.failsAfterProgress_iff hwait, htotal]
      by_cases herr : ret = srtError
      · rw [if_pos herr, herr]
        exact iff_of_true (Or.inl (show srtError < 0 by decide)) ⟨hconn, fun hfails => hfails.1 rfl⟩
      · rw [if_neg herr]
        refine (reportsSent_zero_iff (by omega)).trans ⟨fun hzero => ?_, fun hcond => ?_⟩
        · exact ⟨hconn, fun hfails => hfails.2 hzero⟩
        · by_contra hne
          exact hcond.2 ⟨herr, hne⟩
  · have hnot : ¬ conn.isConnected = true := by
      rw [hconn]
      exact Bool.false_ne_true
    exact ⟨(errorSrtSocketAlreadyClosed, []), if_pos hconn,
      iff_of_false not_reportsSent_closed fun hcond => hnot hcond.1⟩

theorem reportsSent_iff_partly :
    ∃ out, (SrtStreamConn.mk true).write 1316 (text "media") [.sent 2, .again errorSuccess, .failed]
        = some out
      ∧ (ReportsSent (text "media") out
        ↔ true = true ∧ ¬ FailsAfterProgress [.sent 2, .again errorSuccess, .failed]) :=
  reportsSent_iff ⟨true⟩
    (.sent (by decide) (by decide) (by decide) (.ready (by decide) (.failed (by decide))))

/-- **Progress is forgotten**: two of five bytes are sent and the wait for room times out; the
result is `0`. -/
theorem write_forgets_progress :
    SendPattern 1316 (text "media").length 0 [.sent 2, .again errorSrtSocketTimeout]
      ∧ (SrtStreamConn.mk true).write 1316 (text "media") [.sent 2, .again errorSrtSocketTimeout]
        = some (0, text "me")
      ∧ ¬ ReportsSent (text "media") (0, text "me") := by
  refine ⟨.sent (by decide) (by decide) (by decide) (.notReady (by decide) (by decide)), rfl, ?_⟩
  rintro (hneg | ⟨-, htake⟩)
  · exact absurd hneg (by decide)
  · exact absurd htake (by decide)

end SrtStreamConn

end SmartStreaming
