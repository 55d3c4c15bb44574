import SmartStreaming.Base.Io.BufferEcho
import SmartStreaming.Base.Io.BufferSkipped
import SmartStreaming.Rtmp.Amf.Progress

/-!
# Rtmp/Amf/Consumed — what `amf0_read_any` takes from a buffer

`Rtmp/Amf/Progress` counts the bytes that a reader leaves; here they are the newest of those that
there were, and nothing else of the buffer has changed.
-/

namespace SmartStreaming

open Machinery Comp Buffer

section Scalars

variable {b : Buffer} (hb : b.Valid)

include hb

/-- The marker is gone whether it was the required one or not. -/
theorem skips_amf0ReadMarker (required : Byte) : Keeps (Skipped b) (amf0ReadMarker required) :=
  (keeps_requireRead _ _).bind fun _ => (keeps_read1byte hb).bind fun _ => keeps_ensure _ _

/-- A string that is too short leaves its length read. -/
theorem skips_amf0ReadUtf8 (value : Bytes) : Keeps (Skipped b) (amf0ReadUtf8 value) :=
  (keeps_requireRead _ _).bind fun _ => (keeps_read2bytes hb).bind fun _ =>
    Keeps.ite (keeps_pure _) ((keeps_requireRead _ _).bind fun _ => keeps_readString hb _)

/-- The end marker, or what was found in its place. -/
theorem skips_amf0ReadObjectEof : Keeps (Skipped b) amf0ReadObjectEof :=
  (keeps_requireRead _ _).bind fun _ => (keeps_read2bytes hb).bind fun _ =>
    (keeps_ensure _ _).bind fun _ => skips_amf0ReadMarker hb _

/-- The look ahead: what it has read it does not give back. -/
theorem skips_amf0IsObjectEof : Keeps (Skipped b) amf0IsObjectEof :=
  Keeps.get_bind fun _ _ => Keeps.ite ((keeps_read3bytes hb).bind fun _ =>
    (keeps_seekRead hb _).bind fun _ => keeps_pure _) (keeps_pure _)

end Scalars

namespace Amf0Any

variable {b : Buffer} {any : Stream Amf0Any} (hb : b.Valid) (hany : Keeps (Skipped b) any)

include hb

/-- The marker that decides about the class is taken as well. -/
theorem skips_discovery : Keeps (Skipped b) discovery := by
  refine (skips_amf0IsObjectEof hb).bind fun eof => Keeps.ite (keeps_pure _) ?_
  refine (keeps_requireRead _ _).bind fun _ => (keeps_read1byte hb).bind fun marker => ?_
  refine (keeps_seekRead hb _).bind fun _ => ?_
  cases ofMarker marker with
  | none => exact keeps_fail _
  | some v => exact keeps_pure v

include hany

/-- The loop over the properties, by induction on its rounds. -/
theorem skips_readProperties (more : UnSortedHashtable → Bool) (fuel : ℕ)
    (properties : UnSortedHashtable) :
    Keeps (Skipped b) (readProperties any more fuel properties) := by
  induction fuel generalizing properties with
  | zero => exact keeps_stop _
  | succ fuel ih =>
    refine Keeps.get_bind fun _ _ => Keeps.ite ?_ (keeps_pure _)
    refine (skips_amf0IsObjectEof hb).bind fun _ => ?_
    refine Keeps.ite ((skips_amf0ReadObjectEof hb).bind fun _ => keeps_pure _) ?_
    exact (skips_amf0ReadUtf8 hb _).bind fun _ => hany.bind fun _ => ih _

omit hb in
/-- The loop over the elements, by induction on its rounds. -/
theorem skips_readElements (count : ℤ) (fuel : ℕ) (i : ℤ) (properties : List Amf0Any) :
    Keeps (Skipped b) (readElements any count fuel i properties) := by
  induction fuel generalizing i properties with
  | zero => exact keeps_stop _
  | succ fuel ih =>
    exact Keeps.get_bind fun _ _ => Keeps.ite (hany.bind fun _ => ih _ _) (keeps_pure _)

omit hany in
/-- What both arrays begin with. -/
theorem skips_count {α : Type} {marker : Byte} {g : BitVec 32 → Stream α}
    (hg : ∀ count, Keeps (Skipped b) (g count)) : Keeps (Skipped b) (do
      amf0ReadMarker marker
      requireRead 4 errorRtmpAmf0Decode
      let count ← read4bytes
      g count) :=
  (skips_amf0ReadMarker hb _).bind fun _ => (keeps_requireRead _ _).bind fun _ =>
    (keeps_read4bytes hb).bind hg

/-- A value of a class that is known, given what the values in it take. -/
theorem skips_read (fuel : ℕ) (v : Amf0Any) : Keeps (Skipped b) (v.read any fuel) := by
  have hmarker := skips_amf0ReadMarker hb
  cases v with
  | string value =>
    exact ((hmarker _).bind fun _ => skips_amf0ReadUtf8 hb value).bind fun _ => keeps_pure _
  | boolean _ =>
    exact ((hmarker _).bind fun _ => (keeps_requireRead _ _).bind fun _ =>
      (keeps_read1byte hb).bind fun _ => keeps_pure _).bind fun _ => keeps_pure _
  | number _ =>
    exact ((hmarker _).bind fun _ => (keeps_requireRead _ _).bind fun _ =>
      keeps_read8bytes hb).bind fun _ => keeps_pure _
  | date _ _ =>
    refine Keeps.bind ?_ fun _ => keeps_pure _
    exact (hmarker _).bind fun _ => (keeps_requireRead _ _).bind fun _ =>
      (keeps_read8bytes hb).bind fun _ => (keeps_requireRead _ _).bind fun _ =>
        (keeps_read2bytes hb).bind fun _ => keeps_pure _
  | null => exact (hmarker _).bind fun _ => keeps_pure _
  | undefined => exact (hmarker _).bind fun _ => keeps_pure _
  | objectEof => exact (skips_amf0ReadObjectEof hb).bind fun _ => keeps_pure _
  | object properties =>
    exact (hmarker _).bind fun _ => (skips_readProperties hb hany _ _ _).bind fun _ => keeps_pure _
  | ecmaArray properties _ =>
    exact skips_count hb fun count => (skips_readProperties hb hany _ _ _).bind fun _ =>
      keeps_pure _
  | strictArray properties _ =>
    exact skips_count hb fun count => (skips_readElements hany _ _ _ _).bind fun _ =>
      keeps_pure _

omit hany in
/-- **Reading a value takes bytes**, by induction on the depth. -/
theorem skips_readAny (fuel : ℕ) : Keeps (Skipped b) (readAny fuel) := by
  induction fuel with
  | zero => exact keeps_stop _
  | succ fuel ih => exact (skips_discovery hb).bind fun v => skips_read hb ih fuel v

end Amf0Any

/-- With a unit of fuel for each byte there is. -/
theorem skips_amf0ReadAny {b : Buffer} (hb : b.Valid) : Keeps (Skipped b) amf0ReadAny :=
  Keeps.get_bind fun _ _ => Amf0Any.skips_readAny hb _

/-- A reading call whose end depends on the bytes alone skips as many bytes in every buffer that
shows them. -/
theorem exists_skip {α : Type} {f : Stream α} {Q : α → Bytes → Prop} {c : Bytes}
    (hreads : Reads Q f c) (hskips : ∀ b : Buffer, b.Valid → Keeps (Skipped b) f) :
    ∃ r, ∃ n ≤ c.length, (∀ v, r = .ok v → Q v (c.drop n))
      ∧ ∀ b, Shows b c → f b = .ok (r, b.skip n) := by
  have hskip : ∀ {r : Except ℤ α} {c' : Bytes} {b b' : Buffer}, Shows b c → Shows b' c' →
      f b = .ok (r, b') → c.length - c'.length ≤ c.length ∧ c.drop (c.length - c'.length) = c'
        ∧ b' = b.skip (c.length - c'.length : ℕ) := by
    rintro r c' b b' ⟨hb, rfl⟩ ⟨_, rfl⟩ hrun
    obtain ⟨n, h₀, h₁, rfl⟩ := (hskips b hb b (Skipped.refl hb)).elim_state hrun
    have hlen := length_content hb
    have hcontent := content_skip hb h₀ h₁
    have hn : b.content.length - (b.skip n).content.length = n.toNat := by
      rw [hcontent, List.length_drop]
      omega
    rw [hn]
    exact ⟨by omega, hcontent.symm, by rw [Int.toNat_of_nonneg h₀]⟩
  obtain ⟨b₀, hb₀⟩ := exists_shows c
  rcases hreads with ⟨_, _, hno⟩ | ⟨x, c', hends, _⟩ | ⟨a, c', hends, hQ⟩
  · exact hno.elim
  · obtain ⟨b', hrun, hb'⟩ := hends b₀ hb₀
    refine ⟨.error x, _, (hskip hb₀ hb' hrun).1, fun _ h => (by cases h), fun b hb => ?_⟩
    obtain ⟨b', hrun, hb'⟩ := hends b hb
    rw [hrun, (hskip hb hb' hrun).2.2]
  · obtain ⟨b', hrun, hb'⟩ := hends b₀ hb₀
    obtain ⟨hle, hdrop, _⟩ := hskip hb₀ hb' hrun
    refine ⟨.ok a, _, hle, fun v h => ?_, fun b hb => ?_⟩
    · obtain rfl := Except.ok.inj h
      rwa [hdrop]
    · obtain ⟨b', hrun, hb'⟩ := hends b hb
      rw [hrun, (hskip hb hb' hrun).2.2]

/-- **`amf0_read_any` on any bytes**, wherever they lie in the ring: it returns or fails, does so
in the same way for the same bytes, and only takes some of them; where it returns there is a value,
and a byte has been taken. -/
theorem any_value_read (c : Bytes) :
    ∃ r, ∃ n ≤ c.length, (∀ v, r = .ok v → 0 < n)
      ∧ ∀ b, Shows b c → amf0ReadAny b = .ok (r, b.skip n) := by
  obtain ⟨r, n, hle, hvalue, hrun⟩ :=
    exists_skip (reads_amf0ReadAny c) fun _ hb => skips_amf0ReadAny hb
  refine ⟨r, n, hle, fun v hv => ?_, hrun⟩
  have hlt := (hvalue v hv).1
  rw [List.length_drop] at hlt
  omega

end SmartStreaming
