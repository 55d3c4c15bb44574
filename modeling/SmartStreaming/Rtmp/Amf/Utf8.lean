import SmartStreaming.Base.Io.BufferEcho
import SmartStreaming.Rtmp.Amf.Codec

/-!
# Rtmp/Amf/Utf8 — a string written and read back

    amf0_write_utf8 ──▸ length mod 2^16 | bytes, if there is room for them
    amf0_read_utf8  ◂── int16_t length  | bytes, if it is positive

The length is written unsigned and read signed, a length that is not positive leaves the variable as
it was, and the writer drops the refusal of `write_bytes`.  `utf8_restored_iff` says for which
strings, room and old values the two undo each other.
-/

namespace SmartStreaming

open Machinery Comp Buffer

/-- The two bytes of the length. -/
def utf8Length (value : Bytes) : Bytes := beBytes 2 (BitVec.ofNat 16 value.length).toNat

theorem length_utf8Length (value : Bytes) : (utf8Length value).length = 2 := length_beBytes _ _

/-- What `amf0_write_utf8` appends where there is `room`. -/
def utf8Appended (value : Bytes) (room : ℤ) : Bytes :=
  utf8Length value ++ if 2 + value.length ≤ room then value else []

/-! ## Writing -/

theorem holds_amf0WriteUtf8 {w : Buffer} (hw : w.Valid) (value : Bytes) :
    Holds (fun _ => True) (fun _ _ => True)
      (fun _ w' => Appended w (utf8Appended value w.writeLeft) w') (amf0WriteUtf8 value) w := by
  rw [amf0WriteUtf8, requireRead, bind_assoc, holds_bind, holds_get, holds_bind, holds_ensure]
  refine ⟨fun _ => ?_, fun _ => trivial⟩
  rw [holds_bind, write2bytes_eq_writeInt]
  by_cases hroom : (2 : ℕ) ≤ w.writeLeft
  · obtain ⟨w₁, hrun, happ⟩ := writeInt_eq hw (BitVec.ofNat 16 value.length).toNat hroom
    have hleft := happ.writeLeft_eq hw
    rw [length_beBytes] at hleft
    refine holds_of_run hrun ?_
    rw [holds_ite]
    refine ⟨fun hempty => ?_, fun hsome => ?_⟩
    · obtain rfl : value = [] := List.length_eq_zero_iff.1 (by omega)
      rw [holds_pure, utf8Appended, ite_self, List.append_nil]
      exact happ
    · rw [requireRead, bind_assoc, holds_bind, holds_get, holds_bind, holds_ensure]
      refine ⟨fun _ => ?_, fun _ => trivial⟩
      rw [holds_bind, utf8Appended]
      by_cases hfit : 2 + (value.length : ℤ) ≤ w.writeLeft
      · obtain ⟨r, w₂, hwrite, happ₂⟩ : ∃ r w₂, writeBytes value value.length w₁
            = .ok (.ok r, w₂) ∧ Appended w₁ value w₂ := exists_writeBytes happ.valid (by omega)
        rw [if_pos hfit]
        exact holds_of_run hwrite (happ.trans happ₂)
      · rw [if_neg hfit, List.append_nil]
        exact holds_of_run (writeBytes_refused w₁ value fun _ => by omega) happ
  · rw [Holds, writeInt_full w (by omega)]
    trivial

/-! ## Reading -/

section Reading

variable {value old rest : Bytes}

/-- The length as it is read. -/
theorem toInt_utf8Length (h : value.length ≤ 65535) :
    (BitVec.ofNat 16 value.length).toInt
      = if value.length < 2 ^ 15 then (value.length : ℤ) else value.length - 2 ^ 16 := by
  rw [BitVec.toInt_eq_toNat_cond, BitVec.toNat_ofNat, Nat.mod_eq_of_lt (by omega)]
  split <;> split <;> omega

/-- The call from its length on. -/
theorem via_utf8Length {F : Fault → Prop} {E : ℤ → Bytes → Prop} {Q : Bytes → Bytes → Prop}
    {g : BitVec 16 → Stream Bytes}
    (hg : Via Shows F E Q (g (BitVec.ofNat 16 value.length)) rest) :
    Via Shows F E Q (do requireRead 2 errorRtmpAmf0Decode; let len ← read2bytes; g len)
      (utf8Length value ++ rest) := by
  refine (restores_requireRead _ (by decide) ?_).bind_via ?_
  · rw [List.length_append, length_utf8Length]
    omega
  · rw [read2bytes_eq_readInt]
    exact (restores_readInt (BitVec.isLt _) rest).bind_via hg

/-- A length that is not positive leaves the variable as it was. -/
theorem restores_amf0ReadUtf8_old (h : value.length ≤ 65535)
    (hlen : value = [] ∨ 2 ^ 15 ≤ value.length) :
    Restores (amf0ReadUtf8 old) old (utf8Length value ++ rest) rest := by
  refine via_utf8Length ?_
  rw [toInt_utf8Length h, if_pos]
  · exact restores_pure _ _
  · rcases hlen with rfl | hlong
    · decide
    · rw [if_neg (by omega)]
      omega

theorem restores_amf0ReadUtf8_short (h : value.length < 2 ^ 15) (hne : value ≠ []) :
    Restores (amf0ReadUtf8 old) value (utf8Length value ++ (value ++ rest)) rest := by
  have hpos := List.length_pos_of_ne_nil hne
  refine via_utf8Length ?_
  rw [toInt_utf8Length (by omega), if_pos h, if_neg (by omega)]
  refine (restores_requireRead _ (by omega) ?_).bind (restores_readString value rest)
  rw [List.length_append]
  omega

/-- The string's bytes are taken from what follows the length, if there are so many. -/
theorem reads_amf0ReadUtf8_short (h : value.length < 2 ^ 15) (hne : value ≠ []) :
    Reads (fun _ c => c.length + value.length = rest.length) (amf0ReadUtf8 old)
      (utf8Length value ++ rest) := by
  have hpos := List.length_pos_of_ne_nil hne
  refine via_utf8Length ?_
  rw [toInt_utf8Length (by omega), if_pos h, if_neg (by omega)]
  refine Via.bind (via_requireRead (fun _ hle => ?_) trivial)
  refine via_readString (by omega) hle ?_
  rw [List.length_drop]
  omega

/-- What a restored value says about what was wanted. -/
theorem restores_iff {g : Stream Bytes} {a c tail : Bytes} {r : Buffer} (hg : Restores g a c rest)
    (hr : Shows r c) :
    (∃ r', g r = .ok (.ok value, r') ∧ r'.content = tail) ↔ a = value ∧ rest = tail := by
  obtain ⟨r₁, hrun, hr₁⟩ := hg.run hr
  rw [hrun]
  constructor
  · rintro ⟨r', heq, rfl⟩
    cases heq
    exact ⟨rfl, hr₁.2.symm⟩
  · rintro ⟨rfl, rfl⟩
    exact ⟨r₁, rfl, hr₁.2⟩

end Reading

/-! ## Written and read -/

/-- **Where `amf0_read_utf8` undoes `amf0_write_utf8`**: the string had room behind its length, is
shorter than `2^15` and, if it is empty, the variable was; or it had no room, is longer, and is what
the variable held. -/
def Utf8Restored (value old : Bytes) (room : ℤ) : Prop :=
  if 2 + value.length ≤ room then value.length < 2 ^ 15 ∧ (value ≠ [] ∨ old = [])
  else 2 ^ 15 ≤ value.length ∧ old = value

section Restored

variable {value old tail e : Bytes} {w w' r : Buffer}

/-- **A string is read back**, from a buffer that shows what a success of the writer has appended,
followed by anything, exactly in these cases. -/
theorem utf8_restored_iff (hlen : value.length ≤ 65535) (hw : w.Valid)
    (hwrite : amf0WriteUtf8 value w = .ok (.ok ⟨⟩, w')) (he : w'.content = w.content ++ e)
    (hr : Shows r (e ++ tail)) :
    (∃ r', amf0ReadUtf8 old r = .ok (.ok value, r') ∧ r'.content = tail)
      ↔ Utf8Restored value old w.writeLeft := by
  have happ := (holds_amf0WriteUtf8 hw value).elim_ok hwrite
  obtain rfl := List.append_cancel_left (he.symm.trans happ.content_eq)
  have hroom : 2 ≤ w.writeLeft := by
    have hleft := happ.writeLeft_eq hw
    have hleft₀ := writeLeft_nonneg happ.valid
    rw [utf8Appended, List.length_append, length_utf8Length] at hleft
    omega
  rw [utf8Appended, List.append_assoc] at hr
  rw [Utf8Restored]
  rcases eq_or_ne value [] with rfl | hne
  · -- the variable keeps what it held
    rw [ite_self, List.nil_append] at hr
    rw [restores_iff (restores_amf0ReadUtf8_old hlen (Or.inl rfl)) hr,
      if_pos (by simpa using hroom)]
    simp
  · have hpos := List.length_pos_of_ne_nil hne
    by_cases hfit : 2 + (value.length : ℤ) ≤ w.writeLeft
    · rw [if_pos hfit] at hr ⊢
      rcases lt_or_ge value.length (2 ^ 15) with hshort | hlong
      · rw [restores_iff (restores_amf0ReadUtf8_short hshort hne) hr]
        exact iff_of_true ⟨rfl, rfl⟩ ⟨hshort, Or.inl hne⟩
      · rw [restores_iff (restores_amf0ReadUtf8_old hlen (Or.inr hlong)) hr]
        refine iff_of_false (fun hboth => hne ?_) fun hcond => absurd hcond.1 (not_lt.2 hlong)
        exact List.self_eq_append_left.1 hboth.2.symm
    · -- the length stands alone
      rw [if_neg hfit] at hr ⊢
      rw [List.nil_append] at hr
      rcases lt_or_ge value.length (2 ^ 15) with hshort | hlong
      · refine iff_of_false ?_ fun hcond => absurd hcond.1 (not_le.2 hshort)
        rintro ⟨r', hrun, rfl⟩
        have hreads := (Via.holds (reads_amf0ReadUtf8_short hshort hne) hr).elim_ok hrun
        obtain ⟨c, hc, hlen'⟩ := hreads
        rw [← hc.2] at hlen'
        omega
      · rw [restores_iff (restores_amf0ReadUtf8_old hlen (Or.inr hlong)) hr]
        exact ⟨fun hboth => ⟨hlong, hboth.1⟩, fun hcond => ⟨hcond.2, rfl⟩⟩

end Restored

/-- A buffer of 16 bytes with four to read, as the writers ask for. -/
def fourToRead : Buffer := { Buffer.new (List.replicate 16 0) 16 with wpos := 4 }

theorem valid_fourToRead : fourToRead.Valid :=
  ⟨by decide, by decide, by decide, by decide, by decide, by decide⟩

/-- The buffer after `"live"` has been written to it. -/
def liveWritten : Buffer :=
  { Buffer.new [0, 0, 0, 0, 0, 4, 0x6C, 0x69, 0x76, 0x65, 0, 0, 0, 0, 0, 0] 16 with wpos := 10 }

/-- A buffer that shows `"live"` as it is written, and one byte behind it. -/
def liveToRead : Buffer := { Buffer.new [0, 4, 0x6C, 0x69, 0x76, 0x65, 1, 0] 8 with wpos := 7 }

theorem utf8_restored_iff_live :
    (∃ r', amf0ReadUtf8 (text "vod") liveToRead = .ok (.ok (text "live"), r') ∧ r'.content = [1])
      ↔ Utf8Restored (text "live") (text "vod") fourToRead.writeLeft :=
  utf8_restored_iff (e := [0, 4, 0x6C, 0x69, 0x76, 0x65]) (by decide) valid_fourToRead
    (show amf0WriteUtf8 (text "live") fourToRead = .ok (.ok ⟨⟩, liveWritten) from rfl) rfl
    ⟨⟨by decide, by decide, by decide, by decide, by decide, by decide⟩, rfl⟩

/-- **The empty string does not replace the old value**. -/
theorem empty_string_keeps_old :
    ∃ w' e r, amf0WriteUtf8 [] fourToRead = .ok (.ok ⟨⟩, w')
      ∧ w'.content = fourToRead.content ++ e ∧ Shows r (e ++ [])
      ∧ ¬ ∃ r', amf0ReadUtf8 (text "vod") r = .ok (.ok [], r') ∧ r'.content = [] := by
  refine ⟨{ fourToRead with wpos := 6 }, [0, 0], { Buffer.new [0, 0, 0] 3 with wpos := 2 },
    rfl, rfl, ⟨⟨by decide, by decide, by decide, by decide, by decide, by decide⟩, rfl⟩, ?_⟩
  rintro ⟨r', hrun, -⟩
  cases hrun

end SmartStreaming
