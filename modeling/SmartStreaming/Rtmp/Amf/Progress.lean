import SmartStreaming.Base.Io.BufferView
import SmartStreaming.Rtmp.Amf.Codec
import Mathlib.Tactic.Linarith

/-!
# Rtmp/Amf/Progress — the AMF0 readers on any bytes

No byte string makes an AMF0 reader fail an assertion, leave the block or run out of fuel, and how
it ends depends on the bytes alone (`reads_amf0ReadAny`).

The lemmas also count.  `seek_read` refuses to go back, so `amf0_is_object_eof` and `discovery`
swallow what they peek at: a value that is read takes more bytes than `total_size()` says, except
an object of which only two bytes are left (`Swallowed`).
-/

namespace SmartStreaming

open Machinery Comp Buffer

section Scalars

variable {c : Bytes}

theorem reads_amf0ReadMarker (required : Byte) :
    Reads (fun _ c' => c'.length + 1 = c.length) (amf0ReadMarker required) c := by
  refine Via.bind (via_requireRead (fun _ h => ?_) trivial)
  refine (reads_read1byte (by omega)).seq fun marker c' hc => ?_
  exact Via.ensure (fun _ => hc) fun _ => trivial

/-- **A string takes its length field and its bytes**; an empty one leaves the old value. -/
theorem reads_amf0ReadUtf8 (value : Bytes) :
    Reads (fun str c' => c'.length + 2 + str.length ≤ c.length + value.length)
      (amf0ReadUtf8 value) c := by
  refine Via.bind (via_requireRead (fun _ h => ?_) trivial)
  refine (reads_read2bytes (by omega)).seq fun len c₁ hc₁ => ?_
  refine Via.ite (fun _ => Via.pure ?_) fun hlen => ?_
  · omega
  · refine Via.bind (via_requireRead (fun h₀ h₁ => ?_) trivial)
    refine via_readString h₀ h₁ ?_
    rw [List.length_take, List.length_drop]
    omega

theorem reads_amf0ReadString (value : Bytes) :
    Reads (fun str c' => c'.length + 3 + str.length ≤ c.length + value.length)
      (amf0ReadString value) c := by
  refine (reads_amf0ReadMarker _).seq fun _ c₁ hc₁ => ?_
  refine (reads_amf0ReadUtf8 value).imp fun str c' hc' => ?_
  omega

theorem reads_amf0ReadBoolean : Reads (fun _ c' => c'.length + 2 = c.length) amf0ReadBoolean c := by
  refine (reads_amf0ReadMarker _).seq fun _ c₁ hc₁ => ?_
  refine Via.bind (via_requireRead (fun _ h => ?_) trivial)
  refine (reads_read1byte (by omega)).seq fun value c' hc' => Via.pure ?_
  omega

theorem reads_amf0ReadNumber : Reads (fun _ c' => c'.length + 9 = c.length) amf0ReadNumber c := by
  refine (reads_amf0ReadMarker _).seq fun _ c₁ hc₁ => ?_
  refine Via.bind (via_requireRead (fun _ h => ?_) trivial)
  refine (reads_read8bytes (by omega)).imp fun value c' hc' => ?_
  omega

theorem reads_amf0ReadDate : Reads (fun _ c' => c'.length + 11 = c.length) amf0ReadDate c := by
  refine (reads_amf0ReadMarker _).seq fun _ c₁ hc₁ => ?_
  refine Via.bind (via_requireRead (fun _ h => ?_) trivial)
  refine (reads_read8bytes (by omega)).seq fun dateValue c₂ hc₂ => ?_
  refine Via.bind (via_requireRead (fun _ h => ?_) trivial)
  refine (reads_read2bytes (by omega)).seq fun timeZone c₃ hc₃ => Via.pure ?_
  omega

theorem reads_amf0ReadObjectEof :
    Reads (fun _ c' => c'.length + 3 = c.length) amf0ReadObjectEof c := by
  refine Via.bind (via_requireRead (fun _ h => ?_) trivial)
  refine (reads_read2bytes (by omega)).seq fun temp c₁ hc₁ => ?_
  refine Via.bind (Via.ensure (fun _ => ?_) fun _ => trivial)
  refine (reads_amf0ReadMarker _).imp fun _ c' hc' => ?_
  omega

/-- **Peeking at the end-of-object marker swallows three bytes** wherever there are three. -/
theorem reads_amf0IsObjectEof :
    Reads (fun eof c' => (3 ≤ c.length ∧ c'.length + 3 = c.length)
      ∨ (c.length < 3 ∧ eof = false ∧ c' = c)) amf0IsObjectEof c := by
  by_cases h : 3 ≤ c.length
  · refine Via.get_bind (fun b hb => if_pos (hb.readRequire_iff.2 (by omega))) ?_
    refine (reads_read3bytes h).seq fun flag c₁ hc₁ => ?_
    refine Via.bind (via_seekRead_of_le (by decide) (Via.pure ?_))
    exact Or.inl ⟨h, hc₁⟩
  · refine Via.get_bind (fun b hb => if_neg ?_) (Via.pure (Or.inr ⟨by omega, rfl, rfl⟩))
    rw [hb.readRequire_iff]
    omega

end Scalars

namespace Amf0Any

/-! ## `discovery` -/

/-- A value as its class constructs it. -/
def Fresh (v : Amf0Any) : Prop :=
  v = string [] ∨ v = boolean false ∨ v = number 0 ∨ v = null ∨ v = undefined ∨ v = object []
    ∨ v = ecmaArray [] 0 ∨ v = strictArray [] 0 ∨ v = date 0 0

theorem fresh_of_ofMarker {marker : Byte} {v : Amf0Any} (h : ofMarker marker = some v) :
    Fresh v := by
  unfold ofMarker at h
  unfold Fresh
  split_ifs at h <;> simp_all

/-- What `discovery` leaves: the end-of-object marker takes three bytes; any other value takes the
type marker, and the three bytes peeked at. -/
theorem reads_discovery {c : Bytes} :
    Reads (fun v c' => (v = objectEof ∧ c'.length + 3 = c.length)
      ∨ (Fresh v ∧ (c'.length + 4 = c.length ∨ (c.length < 3 ∧ c'.length + 1 = c.length))))
      discovery c := by
  refine reads_amf0IsObjectEof.seq fun eof c₁ hc₁ => ?_
  refine Via.ite (fun heof => Via.pure ?_) fun _ => ?_
  · rcases hc₁ with ⟨_, hlen⟩ | ⟨_, hfalse, _⟩
    · exact Or.inl ⟨rfl, hlen⟩
    · rw [hfalse] at heof
      exact absurd heof (by decide)
  · refine Via.bind (via_requireRead (fun _ h => ?_) trivial)
    refine (reads_read1byte (by omega)).seq fun marker c₂ hc₂ => ?_
    refine Via.bind (via_seekRead_of_le (by decide) ?_)
    cases hv : ofMarker marker with
    | none => exact Via.fail trivial
    | some v =>
      refine Via.pure (Or.inr ⟨fresh_of_ofMarker hv, ?_⟩)
      rcases hc₁ with ⟨_, hlen⟩ | ⟨hlen, _, rfl⟩ <;> omega

/-! ## The loops -/

/-- What reading the value `v` from `n` bytes leaves, as far as the sizes go. -/
def Swallowed (n : ℕ) (v : Amf0Any) (c' : Bytes) : Prop :=
  c'.length < n ∧ (c'.length + v.totalSize + 1 ≤ n ∨ (n ≤ 2 ∧ c' = [] ∧ v = object []))

section Loops

variable {any : Stream Amf0Any} {N : ℕ}

/-- With nothing to read the properties stay as they are. -/
theorem reads_readProperties_nil (more : UnSortedHashtable → Bool) (fuel : ℕ)
    (properties : UnSortedHashtable) :
    Reads (fun ps c' => ps = properties ∧ c' = []) (readProperties any more (fuel + 1) properties)
      [] := by
  refine Via.get_bind (fun b hb => if_neg ?_) (Via.pure ⟨rfl, rfl⟩)
  rw [hb.readEmpty_iff.2 rfl]
  simp

/-- **The loop over the properties**: each round takes more than its property's size. -/
theorem reads_readProperties
    (hany : ∀ c : Bytes, c.length < N → Reads (Swallowed c.length) any c)
    (more : UnSortedHashtable → Bool) (fuel : ℕ) (properties : UnSortedHashtable) {c : Bytes}
    (hfuel : c.length < fuel) (hN : c.length ≤ N) :
    Reads (fun ps c' => c'.length + propertiesSize ps ≤ c.length + propertiesSize properties)
      (readProperties any more fuel properties) c := by
  induction fuel generalizing properties c with
  | zero => omega
  | succ fuel ih =>
    by_cases hmore : c ≠ [] ∧ more properties = true
    · refine Via.get_bind (fun b hb => if_pos ⟨mt hb.readEmpty_iff.1 hmore.1, hmore.2⟩) ?_
      refine reads_amf0IsObjectEof.seq fun eof c₁ hc₁ => Via.ite (fun heof => ?_) fun _ => ?_
      · refine reads_amf0ReadObjectEof.seq fun _ c₂ hc₂ => Via.pure ?_
        rcases hc₁ with ⟨_, hlen⟩ | ⟨_, _, rfl⟩ <;> omega
      · refine (reads_amf0ReadUtf8 []).seq fun name c₂ hc₂ => ?_
        rw [List.length_nil] at hc₂
        refine (hany c₂ (by rcases hc₁ with ⟨_, hlen⟩ | ⟨_, _, rfl⟩ <;> omega)).seq ?_
        rintro value c₃ ⟨hlt, hc₃⟩
        -- with fewer than three bytes left the name took them all: there is no value to read
        have hthree : c₁.length + 3 = c.length := by
          rcases hc₁ with ⟨_, hlen⟩ | ⟨hlen, _, rfl⟩ <;> omega
        have hset := propertiesSize_set_le properties name value
        rw [Amf0Size.utf8] at hset
        have hround : c₃.length + propertiesSize (properties.set name (some value))
            ≤ c.length + propertiesSize properties := by
          rcases hc₃ with hc₃ | ⟨_, rfl, rfl⟩
          · omega
          · have hsize : (object []).totalSize = 4 := rfl
            rw [List.length_nil] at hlt ⊢
            omega
        refine (ih (properties.set name (some value)) (by omega) (by omega)).imp fun ps c' hc' => ?_
        omega
    · refine Via.get_bind (fun b hb => if_neg ?_) (Via.pure (le_refl _))
      rwa [hb.readEmpty_iff]

theorem reads_readElements_nil (count : ℤ) (fuel : ℕ) (i : ℤ) (properties : List Amf0Any) :
    Reads (fun vs c' => vs = properties ∧ c' = []) (readElements any count (fuel + 1) i properties)
      [] := by
  refine Via.get_bind (fun b hb => if_neg ?_) (Via.pure ⟨rfl, rfl⟩)
  rw [hb.readEmpty_iff.2 rfl]
  simp

/-- **The loop over the elements**: only the last element can take less than its size. -/
theorem reads_readElements
    (hany : ∀ c : Bytes, c.length < N → Reads (Swallowed c.length) any c)
    (count : ℤ) (fuel : ℕ) (i : ℤ) (properties : List Amf0Any) {c : Bytes}
    (hfuel : c.length < fuel) (hN : c.length < N) :
    Reads (fun vs c' => c'.length + elementsSize vs ≤ c.length + elementsSize properties + 3)
      (readElements any count fuel i properties) c := by
  induction fuel generalizing i properties c with
  | zero => omega
  | succ fuel ih =>
    by_cases hmore : i < count ∧ c ≠ []
    · refine Via.get_bind (fun b hb => if_pos ⟨hmore.1, mt hb.readEmpty_iff.1 hmore.2⟩) ?_
      refine (hany c hN).seq ?_
      rintro elem c₁ ⟨hlt, hc₁⟩
      have happ : elementsSize (properties ++ [elem])
          = elementsSize properties + elem.totalSize := by
        rw [elementsSize_append, elementsSize, elementsSize, add_zero]
      rcases hc₁ with hc₁ | ⟨_, rfl, rfl⟩
      · refine (ih (i + 1) (properties ++ [elem]) (by omega) (by omega)).imp fun vs c' hc' => ?_
        omega
      · obtain ⟨fuel, rfl⟩ : ∃ f, fuel = f + 1 := ⟨fuel - 1, by omega⟩
        refine (reads_readElements_nil count fuel (i + 1) (properties ++ [object []])).imp ?_
        rintro vs c' ⟨rfl, rfl⟩
        have hsize : (object []).totalSize = 4 := rfl
        rw [List.length_nil] at hlt ⊢
        omega
    · refine Via.get_bind (fun b hb => if_neg ?_) (Via.pure (by omega))
      rwa [hb.readEmpty_iff]

end Loops

/-! ## `read` and `amf0_read_any` -/

section Read

variable {any : Stream Amf0Any} {fuel : ℕ}

/-- The marker and the count of an array. -/
theorem reads_count {α : Type} {Q : α → Bytes → Prop} {marker : Byte} {c : Bytes}
    {g : BitVec 32 → Stream α}
    (hg : ∀ count c', c'.length + 5 = c.length → Reads Q (g count) c') :
    Reads Q (do
      amf0ReadMarker marker
      requireRead 4 errorRtmpAmf0Decode
      let count ← read4bytes
      g count) c := by
  refine (reads_amf0ReadMarker marker).seq fun _ c₁ hc₁ => ?_
  refine Via.bind (via_requireRead (fun _ h => ?_) trivial)
  refine (reads_read4bytes (by omega)).seq fun count c₂ hc₂ => hg count c₂ ?_
  omega

/-- What reading over a fresh value leaves of `n` bytes: at most the three bytes of an object's end
are missing, and from a single byte only values of that size are read, or an empty object. -/
def Taken (n : ℕ) (u : Amf0Any) (c' : Bytes) : Prop :=
  c'.length < n ∧ c'.length + u.totalSize ≤ n + 3
    ∧ (n ≤ 1 → c' = [] ∧ (u.totalSize = 1 ∨ u = object []))

variable (hany : ∀ c : Bytes, c.length < fuel → Reads (Swallowed c.length) any c)

include hany

theorem reads_readObject {c : Bytes} (hc : c.length ≤ fuel) :
    Reads (Taken c.length) (readObject any fuel []) c := by
  refine (reads_amf0ReadMarker _).seq fun _ c₁ hc₁ => ?_
  rcases Nat.eq_zero_or_pos c₁.length with h₀ | h₀
  · obtain rfl := List.length_eq_zero_iff.1 h₀
    obtain ⟨fuel, rfl⟩ : ∃ f, fuel = f + 1 := ⟨fuel - 1, by omega⟩
    refine (reads_readProperties_nil _ fuel []).seq ?_
    rintro ps c' ⟨rfl, rfl⟩
    have hsize : (object []).totalSize = 4 := rfl
    refine Via.pure ⟨?_, ?_, fun _ => ⟨rfl, Or.inr rfl⟩⟩
    · rw [List.length_nil]
      omega
    · rw [List.length_nil]
      omega
  · refine (reads_readProperties hany _ fuel [] (by omega) (by omega)).seq fun ps c' hc' => ?_
    have hps := propertiesSize_nonneg ps
    rw [propertiesSize] at hc'
    refine Via.pure ⟨by omega, ?_, fun _ => by omega⟩
    rw [totalSize, Amf0Size.objectEof]
    omega

theorem reads_readEcmaArray {c : Bytes} (hc : c.length ≤ fuel) :
    Reads (Taken c.length) (readEcmaArray any fuel []) c := by
  refine reads_count fun count c₁ hc₁ => ?_
  refine (reads_readProperties hany _ fuel [] (by omega) (by omega)).seq fun ps c' hc' => ?_
  have hps := propertiesSize_nonneg ps
  rw [propertiesSize] at hc'
  refine Via.pure ⟨by omega, ?_, fun _ => by omega⟩
  rw [totalSize, Amf0Size.objectEof]
  omega

theorem reads_readStrictArray {c : Bytes} (hc : c.length ≤ fuel) :
    Reads (Taken c.length) (readStrictArray any fuel []) c := by
  refine reads_count fun count c₁ hc₁ => ?_
  refine (reads_readElements hany count.toInt fuel 0 [] (by omega) (by omega)).seq
    fun vs c' hc' => ?_
  have hvs := elementsSize_nonneg vs
  rw [elementsSize] at hc'
  refine Via.pure ⟨by omega, ?_, fun _ => by omega⟩
  rw [totalSize]
  omega

/-- **Reading over a value as its class constructs it.** -/
theorem reads_read {v : Amf0Any} (hv : Fresh v) {c : Bytes} (hc : c.length ≤ fuel) :
    Reads (Taken c.length) (v.read any fuel) c := by
  rcases hv with rfl | rfl | rfl | rfl | rfl | rfl | rfl | rfl | rfl
  · refine (reads_amf0ReadString []).seq fun str c' hc' => Via.pure ?_
    rw [List.length_nil] at hc'
    refine ⟨by omega, ?_, fun _ => by omega⟩
    rw [totalSize, Amf0Size.str, Amf0Size.utf8]
    omega
  · refine reads_amf0ReadBoolean.seq fun _ c' hc' => Via.pure ⟨by omega, ?_, fun _ => by omega⟩
    rw [totalSize, Amf0Size.boolean]
    omega
  · refine reads_amf0ReadNumber.seq fun _ c' hc' => Via.pure ⟨by omega, ?_, fun _ => by omega⟩
    rw [totalSize, Amf0Size.number]
    omega
  · refine (reads_amf0ReadMarker _).seq fun _ c' hc' => Via.pure ⟨by omega, ?_, fun _ => ⟨?_, ?_⟩⟩
    · rw [totalSize, Amf0Size.null]
      omega
    · exact List.length_eq_zero_iff.1 (by omega)
    · exact Or.inl rfl
  · refine (reads_amf0ReadMarker _).seq fun _ c' hc' => Via.pure ⟨by omega, ?_, fun _ => ⟨?_, ?_⟩⟩
    · rw [totalSize, Amf0Size.undefined]
      omega
    · exact List.length_eq_zero_iff.1 (by omega)
    · exact Or.inl rfl
  · exact reads_readObject hany hc
  · exact reads_readEcmaArray hany hc
  · exact reads_readStrictArray hany hc
  · refine reads_amf0ReadDate.seq fun _ c' hc' => Via.pure ⟨by omega, ?_, fun _ => by omega⟩
    rw [totalSize, Amf0Size.date]
    omega

omit hany in
/-- **A value that is read takes more than its size**, by induction on the fuel. -/
theorem reads_readAny (n : ℕ) {c : Bytes} (hc : c.length < n) :
    Reads (Swallowed c.length) (readAny n) c := by
  induction n generalizing c with
  | zero => omega
  | succ n ih =>
    refine reads_discovery.seq fun v c₁ hc₁ => ?_
    rcases hc₁ with ⟨rfl, hc₁⟩ | ⟨hv, hc₁⟩
    · refine reads_amf0ReadObjectEof.seq fun _ c' hc' => Via.pure ⟨by omega, Or.inl ?_⟩
      rw [totalSize, Amf0Size.objectEof]
      omega
    · refine (reads_read (fun c h => ih h) hv (by omega)).imp ?_
      rintro u c' ⟨hlt, hsize, hshort⟩
      refine ⟨by omega, ?_⟩
      rcases hc₁ with hc₁ | ⟨hthree, hc₁⟩
      · exact Or.inl (by omega)
      · obtain ⟨rfl, h | rfl⟩ := hshort (by omega)
        · rw [List.length_nil] at hlt ⊢
          exact Or.inl (by omega)
        · exact Or.inr ⟨by omega, rfl, rfl⟩

end Read

end Amf0Any

/-- **`amf0_read_any` on any bytes**: it stops nowhere, how it ends depends on the bytes alone, and
a value takes more than its size. -/
theorem reads_amf0ReadAny (c : Bytes) : Reads (Amf0Any.Swallowed c.length) amf0ReadAny c := by
  refine Via.get_bind (fun b hb => ?_) (Amf0Any.reads_readAny (c.length + 1) (Nat.lt_succ_self _))
  rw [hb.readLeft_eq, Int.toNat_natCast]

end SmartStreaming
