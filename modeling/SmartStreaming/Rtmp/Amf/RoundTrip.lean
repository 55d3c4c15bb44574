import SmartStreaming.Rtmp.Amf.Progress
import SmartStreaming.Rtmp.Amf.Sized

/-!
# Rtmp/Amf/RoundTrip — what `write` appends is not read back

`write` appends at most `total_size()` bytes, and `amf0_read_any` takes more than that for every
value it returns.  So no value comes back from its own bytes, whatever follows them.
-/

namespace SmartStreaming

open Machinery Comp Buffer

namespace Amf0Any

/-- `amf0_read_any` on `b` returns `v` and leaves `tail`. -/
def ReadBack (b : Buffer) (v : Amf0Any) (tail : Bytes) : Prop :=
  ∃ b', amf0ReadAny b = .ok (.ok v, b') ∧ b'.content = tail

/-- A value that is read takes more bytes than its size, or is an empty object that the last two
bytes were taken for. -/
theorem ReadBack.swallowed {b : Buffer} (hb : b.Valid) {v : Amf0Any} {tail : Bytes}
    (h : ReadBack b v tail) : Swallowed b.content.length v tail := by
  obtain ⟨b', hrun, rfl⟩ := h
  obtain ⟨c', ⟨_, rfl⟩, hc'⟩ := ((reads_amf0ReadAny b.content).holds ⟨hb, rfl⟩).elim_ok hrun
  exact hc'

/-- A marker is written or the call fails: there is no success without it. -/
theorem holds_amf0WriteMarker (marker : Byte) {b : Buffer} (hb : b.Valid) :
    Holds (fun _ => True) (fun _ _ => True)
      (fun _ b' => ∃ e : Bytes, Appended b e b' ∧ e.length = 1) (amf0WriteMarker marker) b := by
  rw [amf0WriteMarker, requireRead, write1byte_eq_writeInt]
  simp only [holds_bind, holds_get, holds_ensure, holds_pure]
  exact ⟨fun _ => holds_writeInt hb 1 marker.toNat, fun _ => trivial⟩

/-- **An empty object is never cut short**: its marker and the three bytes of an object's end. -/
theorem appended_write_object_nil {b b' : Buffer} (hb : b.Valid)
    (h : (object []).write b = .ok (.ok ⟨⟩, b')) : ∃ e : Bytes, Appended b e b' ∧ e.length = 4 := by
  have hwrite : Holds (fun _ => True) (fun _ _ => True)
      (fun _ b' => ∃ e : Bytes, Appended b e b' ∧ e.length = 4) ((object []).write) b := by
    rw [write, writeProperties, amf0WriteObjectEof, requireRead, write2bytes_eq_writeInt]
    simp only [holds_bind, holds_get, holds_ensure, holds_pure]
    refine (holds_amf0WriteMarker _ hb).imp (fun _ _ => id) ?_
    rintro _ b₁ ⟨e₁, h₁, hlen₁⟩
    refine ⟨fun _ => ?_, fun _ => trivial⟩
    refine (holds_writeInt h₁.valid 2 0).imp (fun _ _ => id) ?_
    rintro _ b₂ ⟨e₂, h₂, hlen₂⟩
    refine (holds_amf0WriteMarker _ h₂.valid).imp (fun _ _ => id) ?_
    rintro _ b₃ ⟨e₃, h₃, hlen₃⟩
    refine ⟨e₁ ++ e₂ ++ e₃, (h₁.trans h₂).trans h₃, ?_⟩
    rw [List.length_append, List.length_append, hlen₁, hlen₂, hlen₃]
  exact hwrite.elim_ok h

/-- **No value is read back from the bytes written for it.** -/
theorem written_value_not_read_back (v : Amf0Any) (w w' b : Buffer) (e tail : Bytes)
    (hw : w.Valid) (hwrite : v.write w = .ok (.ok ⟨⟩, w')) (he : w'.content = w.content ++ e)
    (hb : b.Valid) (hc : b.content = e ++ tail) : ¬ ReadBack b v tail := by
  intro hback
  obtain ⟨e', happ, hle, _⟩ := (writes_write v).appended hw hwrite
  have he' : e' = e := List.append_cancel_left (happ.content_eq.symm.trans he)
  obtain ⟨_, hsize | ⟨hshort, rfl, rfl⟩⟩ := hback.swallowed hb
  · rw [hc, List.length_append, ← he'] at hsize
    omega
  · obtain ⟨e₄, happ₄, hlen⟩ := appended_write_object_nil hw hwrite
    have he₄ : e₄ = e := List.append_cancel_left (happ₄.content_eq.symm.trans he)
    rw [hc, List.length_append, ← he₄] at hshort
    omega

/-- The object `{"a": null}`, written after three bytes that were there. -/
theorem written_value_not_read_back_object :
    ¬ ReadBack ⟨[0x03, 0x00, 0x01, 0x61, 0x05, 0x00, 0x00, 0x09, 0x00], 8, 0, 9⟩
      (object [(text "a", null)]) [] := by
  refine written_value_not_read_back (object [(text "a", null)])
    ⟨[0x07, 0x07, 0x07, 0, 0, 0, 0, 0, 0, 0, 0, 0], 3, 0, 12⟩
    ⟨[0x07, 0x07, 0x07, 0x03, 0x00, 0x01, 0x61, 0x05, 0x00, 0x00, 0x09, 0], 11, 0, 12⟩ _
    [0x03, 0x00, 0x01, 0x61, 0x05, 0x00, 0x00, 0x09] [] ?_ ?_ ?_ ?_ ?_
  · constructor <;> decide
  · decide +kernel
  · decide +kernel
  · constructor <;> decide
  · decide +kernel

/-- **The object's own bytes are refused**: `discovery` has swallowed the first three of them and
takes the key's `a` for a type marker. -/
theorem written_object_refused :
    (object [(text "a", null)]).write
        ⟨[0x07, 0x07, 0x07, 0, 0, 0, 0, 0, 0, 0, 0, 0], 3, 0, 12⟩
      = .ok (.ok ⟨⟩,
          ⟨[0x07, 0x07, 0x07, 0x03, 0x00, 0x01, 0x61, 0x05, 0x00, 0x00, 0x09, 0], 11, 0, 12⟩)
    ∧ (⟨[0x03, 0x00, 0x01, 0x61, 0x05, 0x00, 0x00, 0x09, 0x00], 8, 0, 9⟩ : Buffer).content
      = [0x03, 0x00, 0x01, 0x61, 0x05, 0x00, 0x00, 0x09]
    ∧ amf0ReadAny.failure ⟨[0x03, 0x00, 0x01, 0x61, 0x05, 0x00, 0x00, 0x09, 0x00], 8, 0, 9⟩
      = some errorRtmpAmf0Invalid := by
  refine ⟨?_, ?_, ?_⟩
  · decide +kernel
  · decide +kernel
  · decide +kernel

end Amf0Any

end SmartStreaming
