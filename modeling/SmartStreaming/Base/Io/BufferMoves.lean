import SmartStreaming.Base.Io.BufferAppend

/-!
# Base/Io/BufferMoves — a writer as the list of its moves

A writer asks for bytes to read, writes integers behind the room test of an assertion, and writes
strings whose refusal nobody looks at.  `emit` makes such moves one after the other.  It returns an
error exactly where it is `Starved` (`emit_failed_iff`): the room does not count among the tests
that end in one, so a writer tests the room (`ChecksRoom`) only by accident (`checksRoom_iff`).
-/

namespace SmartStreaming

open Machinery Comp

namespace Buffer

/-- One step of a writer. -/
inductive Move
  /-- `if (!stream->read_require(n)) { return code; }` -/
  | require (n code : ℤ)
  /-- `write_1byte` … `write_8bytes`. -/
  | int (k x : ℕ)
  /-- `write_bytes`. -/
  | bytes (bs : Bytes)
  /-- A null pointer is followed. -/
  | null

/-- The bytes a move appends. -/
def Move.payload : Move → Bytes
  | require _ _ => []
  | int k x => beBytes k x
  | bytes bs => bs
  | null => []

/-- The bytes of a writer. -/
def encoding (ms : List Move) : Bytes := ms.flatMap Move.payload

/-- The writer of the moves. -/
def emit : List Move → Stream PUnit
  | [] => return ⟨⟩
  | .require n code :: ms => do
    requireRead n code
    emit ms
  | .int k x :: ms => do
    let _ ← writeInt k x
    emit ms
  | .bytes bs :: ms => do
    let _ ← writeBytes bs bs.length
    emit ms
  | .null :: _ => stop .nullPointer

/-- **The writer runs short of readable bytes**: among the first moves for which there is room, or
which are strings left out for want of it, it comes to a requirement of more than is readable. -/
def Starved (readable room : ℤ) : List Move → Prop
  | [] => False
  | .require n _ :: ms => ¬ (0 ≤ n ∧ n ≤ readable) ∨ Starved readable room ms
  | .int k _ :: ms => k ≤ room ∧ Starved (readable + k) (room - k) ms
  | .bytes bs :: ms =>
    if bs.length ≤ room then Starved (readable + bs.length) (room - bs.length) ms
    else Starved readable room ms
  | .null :: _ => False

/-- **A writer that tests the room** for the bytes `e`: it never runs into the assertion, returns
only with all of them appended, and fails where there is no room for them. -/
structure ChecksRoom (e : Bytes) (f : Stream PUnit) (b : Buffer) : Prop where
  not_assertion : f b ≠ .error .assertion
  complete : ∀ b', f b = .ok (.ok ⟨⟩, b') → Appended b e b'
  refuses : b.writeLeft < e.length → ∃ code b', f b = .ok (.error code, b')

theorem encoding_append (ms ns : List Move) : encoding (ms ++ ns) = encoding ms ++ encoding ns :=
  List.flatMap_append

/-- **Writers follow each other.** -/
theorem emit_append (ms ns : List Move) : emit (ms ++ ns) = emit ms >>= fun _ => emit ns := by
  induction ms with
  | nil => rfl
  | cons m ms ih =>
    cases m with
    | null => rfl
    | _ => rw [List.cons_append, emit, emit, ih, bind_assoc]

variable {b : Buffer}

theorem requireRead_eq (hb : b.Valid) {n : ℤ} (code : ℤ) (h : 0 ≤ n ∧ n ≤ b.readLeft) :
    requireRead n code b = .ok (.ok ⟨⟩, b) := by
  rw [← length_content hb] at h
  rw [requireRead, run_get_bind, ensure, if_pos ((readRequire_iff hb).2 h), run_pure]

theorem requireRead_failed (hb : b.Valid) {n : ℤ} (code : ℤ) (h : ¬ (0 ≤ n ∧ n ≤ b.readLeft)) :
    requireRead n code b = .ok (.error code, b) := by
  rw [← length_content hb] at h
  rw [requireRead, run_get_bind, ensure, if_neg (mt (readRequire_iff hb).1 h)]
  rfl

/-- **A writer fails exactly where it runs short**, by induction on the moves. -/
theorem emit_failed_iff (hb : b.Valid) (ms : List Move) :
    (∃ code b', emit ms b = .ok (.error code, b')) ↔ Starved b.readLeft b.writeLeft ms := by
  induction ms generalizing b with
  | nil => simp [emit, Starved]
  | cons m ms ih =>
    cases m with
    | require n code =>
      by_cases h : 0 ≤ n ∧ n ≤ b.readLeft
      · rw [emit, run_bind_ok (requireRead_eq hb code h), ih hb, Starved]
        exact (or_iff_right (not_not.2 h)).symm
      · rw [emit, run_bind_error (requireRead_failed hb code h)]
        exact iff_of_true ⟨_, _, rfl⟩ (Or.inl h)
    | int k x =>
      by_cases h : k ≤ b.writeLeft
      · obtain ⟨b', hrun, happ⟩ := writeInt_eq hb x h
        have hread := happ.readLeft_eq hb
        have hroom := happ.writeLeft_eq hb
        rw [length_beBytes] at hread hroom
        rw [emit, run_bind_ok hrun, ih happ.valid, Starved, hread, hroom]
        exact (and_iff_right h).symm
      · rw [emit, run_bind_fault (writeInt_full b (by omega))]
        exact iff_of_false (by simp) fun hs => h hs.1
    | bytes bs =>
      by_cases h : bs.length ≤ b.writeLeft
      · obtain ⟨r, b', hrun, happ⟩ := exists_writeBytes hb h
        rw [emit, run_bind_ok hrun, ih happ.valid, Starved, if_pos h, happ.readLeft_eq hb,
          happ.writeLeft_eq hb]
      · rw [emit, run_bind_ok (writeBytes_refused b bs fun _ => by omega), ih hb, Starved,
          if_neg h]
    | null => exact iff_of_false (by simp [emit, stop]) id

/-- **Where there is room for everything** the assertion holds, and a success has appended it. -/
theorem emit_of_room (hb : b.Valid) (ms : List Move) (h : (encoding ms).length ≤ b.writeLeft) :
    Holds (fun e => e ≠ .assertion) (fun _ _ => True) (fun _ b' => Appended b (encoding ms) b')
      (emit ms) b := by
  induction ms generalizing b with
  | nil => exact Appended.refl hb
  | cons m ms ih =>
    have hlen : (encoding (m :: ms)).length = m.payload.length + (encoding ms).length := by
      rw [encoding, List.flatMap_cons, List.length_append]
      rfl
    -- the bytes of the first move are appended, and there is room for the others
    have hrest : ∀ {b' : Buffer}, Appended b m.payload b' →
        Holds (fun e => e ≠ .assertion) (fun _ _ => True)
          (fun _ b'' => Appended b (encoding (m :: ms)) b'') (emit ms) b' := by
      intro b' happ
      have hroom := happ.writeLeft_eq hb
      refine (ih happ.valid (by omega)).imp (fun _ _ => id) fun _ b'' happ' => ?_
      exact happ.trans happ'
    cases m with
    | require n code =>
      by_cases hn : 0 ≤ n ∧ n ≤ b.readLeft
      · rw [emit, Holds, run_bind_ok (requireRead_eq hb code hn)]
        exact hrest (Appended.refl hb)
      · rw [emit, Holds, run_bind_error (requireRead_failed hb code hn)]
        trivial
    | int k x =>
      rw [Move.payload, length_beBytes] at hlen
      obtain ⟨b', hrun, happ⟩ := writeInt_eq hb x (n := k) (by omega)
      rw [emit, Holds, run_bind_ok hrun]
      exact hrest happ
    | bytes bs =>
      rw [Move.payload] at hlen
      have hfits : (bs.length : ℤ) ≤ b.writeLeft := by omega
      obtain ⟨r, b', hrun, happ⟩ := exists_writeBytes hb hfits
      rw [emit, Holds, run_bind_ok hrun]
      exact hrest happ
    | null => simp [emit]

/-- **A writer tests the room** exactly where there is room, or where it runs short of readable
bytes. -/
theorem checksRoom_iff (hb : b.Valid) (ms : List Move) :
    ChecksRoom (encoding ms) (emit ms) b
      ↔ (encoding ms).length ≤ b.writeLeft ∨ Starved b.readLeft b.writeLeft ms := by
  rw [← emit_failed_iff hb ms]
  constructor
  · intro h
    rcases Int.lt_or_le b.writeLeft (encoding ms).length with hroom | hroom
    · exact Or.inr (h.refuses hroom)
    · exact Or.inl hroom
  · rintro (hroom | ⟨code, b', hrun⟩)
    · have hall := emit_of_room hb ms hroom
      refine ⟨fun hrun => ?_, fun b' hrun => hall.elim_ok hrun, fun h => absurd hroom (by omega)⟩
      rw [Holds, hrun] at hall
      exact hall rfl
    · refine ⟨fun h => ?_, fun b'' h => ?_, fun _ => ⟨code, b', hrun⟩⟩
      · exact absurd (hrun.symm.trans h) (by simp)
      · exact absurd (hrun.symm.trans h) (by simp)

end Buffer

end SmartStreaming
