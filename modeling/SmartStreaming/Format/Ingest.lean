import SmartStreaming.Format.Raw

/-!
# Format/Ingest — what a `RawDeMux` makes of what arrives

Bytes come to a demux by `on_ingest` and through its read callback; `handle_input` hands over all
that its buffer holds as one packet.  Over every run, the packets and what is still in the buffer
are what has arrived, in order (`packets_arrived`).
-/

namespace SmartStreaming

open Machinery Comp Buffer

namespace RawDeMux

/-! ## Calls -/

/-- What the callback delivers to `handle_input`, which asks it only if little is left to read. -/
def delivered (received : Received) (d : RawDeMux) : Bytes :=
  if d.buffer.readLeft < 128 then (received.upTo d.buffer.continuousWriteLeft).2 else []

/-- A call from outside: the head of the data, or one turn of the loop that reads the rest. -/
inductive Feed
  | ingest (contentLength : ℤ) (dataHeader : Bytes)
  | input (received : Received)

/-- The call, with what has arrived by it and the packet it makes. -/
def Feed.call : Feed → Call (Bytes × Option Bytes)
  | .ingest contentLength dataHeader => do
    let ret ← onIngest contentLength dataHeader
    return (if ret = errorSuccess then dataHeader else [], none)
  | .input received => do
    let arrived := delivered received (← get)
    let handled ← handleInput received
    return (arrived, handled.2)

variable {d : RawDeMux}

/-- An `on_ingest` that succeeds appends the data to what the buffer holds. -/
theorem onIngest_content (hb : d.buffer.Valid) (contentLength : ℤ) (dataHeader : Bytes) :
    ∃ r b, onIngest contentLength dataHeader d = .ok (.ok r, ⟨b, contentLength⟩) ∧ b.Valid
      ∧ b.content = d.buffer.content ++ if r = errorSuccess then dataHeader else [] := by
  rw [onIngest, run_get_bind, run_put_bind, run_ite]
  split
  · refine ⟨_, d.buffer, rfl, hb, ?_⟩
    rw [if_neg (by decide), List.append_nil]
  · rename_i hfits
    obtain ⟨r, b, hwrite, happ⟩ := exists_writeBytes hb (not_lt.1 hfits)
    have hwrite' : onBuffer (writeBytes dataHeader dataHeader.length) ⟨d.buffer, contentLength⟩
        = .ok (.ok r, ⟨b, contentLength⟩) := onBuffer_eq hwrite
    refine ⟨errorSuccess, b, ?_, happ.valid, ?_⟩
    · rw [run_bind_ok hwrite', run_pure]
    · rw [if_pos rfl, happ.content_eq]

/-- **One call**: what arrives comes behind what the buffer holds, and a packet takes it all. -/
theorem Feed.call_eq (hb : d.buffer.Valid) (feed : Feed) :
    ∃ arrived packet d', feed.call d = .ok (.ok (arrived, packet), d') ∧ d'.buffer.Valid
      ∧ packet.toList.flatten ++ d'.buffer.content = d.buffer.content ++ arrived := by
  cases feed with
  | ingest contentLength dataHeader =>
    obtain ⟨r, b, hrun, hvalid, hcontent⟩ := onIngest_content hb contentLength dataHeader
    refine ⟨if r = errorSuccess then dataHeader else [], none, ⟨b, contentLength⟩, ?_, hvalid,
      hcontent⟩
    rw [Feed.call, run_bind_ok hrun, run_pure]
  | input received =>
    obtain ⟨b, hrun, hvalid, hnil, -⟩ := handleInput_eq hb received
    refine ⟨_, _, _, by rw [Feed.call, run_get_bind, run_bind_ok hrun, run_pure], hvalid, ?_⟩
    dsimp only
    rw [hnil, List.append_nil]
    split
    · rename_i hoffered
      exact hoffered.symm
    · exact List.flatten_singleton

/-! ## Runs -/

/-- What is still in the buffer comes behind the packets. -/
theorem mapM_call_eq (hb : d.buffer.Valid) (feeds : List Feed) :
    ∃ rs d', feeds.mapM Feed.call d = .ok (.ok rs, d') ∧ d'.buffer.Valid
      ∧ (rs.flatMap fun r => r.2.toList.flatten) ++ d'.buffer.content
        = d.buffer.content ++ rs.flatMap Prod.fst := by
  induction feeds generalizing d with
  | nil => exact ⟨[], d, rfl, hb, (List.append_nil _).symm⟩
  | cons feed feeds ih =>
    obtain ⟨arrived, packet, d₁, hcall, h₁, hone⟩ := feed.call_eq hb
    obtain ⟨rs, d₂, hrest, h₂, hmore⟩ := ih h₁
    refine ⟨(arrived, packet) :: rs, d₂, ?_, h₂, ?_⟩
    · rw [List.mapM_cons, run_bind_ok hcall, run_bind_ok hrest, run_pure]
    · rw [List.flatMap_cons, List.flatMap_cons, List.append_assoc, hmore, ← List.append_assoc,
        hone, List.append_assoc]

/-- **The packets are what has arrived.**  Every run of a demux returns, and its packets followed by
what is still readable are the accepted heads and the delivered bytes, in the order they came. -/
theorem packets_arrived {buffer : Bytes} {size : ℤ} (h : 1 ≤ size) (hbuffer : size ≤ buffer.length)
    (feeds : List Feed) :
    ∃ rs d, feeds.mapM Feed.call (new buffer size) = .ok (.ok rs, d)
      ∧ (rs.flatMap fun r => r.2.toList.flatten) ++ d.buffer.content = rs.flatMap Prod.fst := by
  obtain ⟨rs, d, hrun, -, hmore⟩ := mapM_call_eq (d := new buffer size) (valid_new h hbuffer) feeds
  rw [show (new buffer size).buffer.content = [] from content_new buffer size] at hmore
  exact ⟨rs, d, hrun, hmore⟩

/-- A head, and a read that brings more than there is room for behind it. -/
theorem packets_arrived_head :
    ∃ rs d, [Feed.ingest 5 [1, 2], .input (.bytes [3, 4, 5])].mapM Feed.call (new [0, 0, 0, 0] 4)
        = .ok (.ok rs, d)
      ∧ (rs.flatMap fun r => r.2.toList.flatten) ++ d.buffer.content = rs.flatMap Prod.fst :=
  packets_arrived (by decide) (by decide) _

end RawDeMux

end SmartStreaming
