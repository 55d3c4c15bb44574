import SmartStreaming.Base.Io.BufferEcho
import SmartStreaming.Rtmp.Amf.Encoding
import SmartStreaming.Rtmp.Amf.Sized
import SmartStreaming.Rtmp.Amf.Table
import SmartStreaming.Rtmp.Amf.Utf8

/-!
# Rtmp/Amf/Containers — how the three containers delimit their entries

    object          marker                  properties   00 00 09
    ecma array      marker   count (4)      properties   00 00 09
    strict array    marker   count (4)      elements

The readers, over a test for the end marker that only peeks and a reader that restores the contained
values.  An `Amf0EcmaArray` is read up to `_count` entries and not beyond, so its end marker is
taken only where `_count` is larger than the number of entries.
-/

namespace SmartStreaming

open Machinery Comp Buffer

/-- The three bytes of `Amf0ObjectEOF`. -/
def objectEofBytes : Bytes := [0x00, 0x00, 0x09]

/-- **The test only peeks**: it says whether the end marker is next, and takes nothing. -/
def Peeks (isEof : Stream Bool) : Prop :=
  ∀ c, Restores isEof (decide (objectEofBytes <+: c)) c c

namespace Amf0Any

/-- `readProperties` with `isEof` for `amf0_is_object_eof`. -/
def readPropertiesWith (isEof : Stream Bool) (any : Stream Amf0Any)
    (more : UnSortedHashtable → Bool) : ℕ → UnSortedHashtable → Stream UnSortedHashtable
  | 0, _ => stop .outOfFuel
  | fuel + 1, properties => do
    if ¬ (← get).readEmpty ∧ more properties then
      if ← isEof then
        amf0ReadObjectEof
        return properties
      else
        let propertyName ← amf0ReadUtf8 []
        let propertyValue ← any
        readPropertiesWith isEof any more fuel (properties.set propertyName (some propertyValue))
    else
      return properties

theorem readPropertiesWith_amf0IsObjectEof (any : Stream Amf0Any)
    (more : UnSortedHashtable → Bool) (fuel : ℕ) (properties : UnSortedHashtable) :
    readPropertiesWith amf0IsObjectEof any more fuel properties
      = readProperties any more fuel properties := by
  induction fuel generalizing properties with
  | zero => rfl
  | succ fuel ih => simp only [readPropertiesWith, readProperties, ih]

end Amf0Any

/-- An `Amf0Object`, `Amf0EcmaArray` or `Amf0StrictArray`. -/
inductive Container
  | object (properties : UnSortedHashtable)
  | ecmaArray (properties : UnSortedHashtable) (count : BitVec 32)
  | strictArray (properties : List Amf0Any) (count : BitVec 32)

namespace Container

def value : Container → Amf0Any
  | object properties => .object properties
  | ecmaArray properties count => .ecmaArray properties count
  | strictArray properties count => .strictArray properties count

/-- The contained values. -/
def values : Container → List Amf0Any
  | object properties | ecmaArray properties _ => properties.map Prod.snd
  | strictArray properties _ => properties

/-- Distinct keys, each of a length that `read_2bytes` gives back as it is. -/
def KeysFit : Container → Prop
  | object properties | ecmaArray properties _ =>
    (properties.map Prod.fst).Nodup ∧ ∀ p ∈ properties, p.1.length ≤ 32767
  | strictArray _ _ => True

/-- The value has the class and, in their order, the entries of the container. -/
def SameEntries : Container → Amf0Any → Prop
  | object properties, v => v = .object properties
  | ecmaArray properties _, v => ∃ count, v = .ecmaArray properties count
  | strictArray properties _, v => ∃ count, v = .strictArray properties count

/-- A new container of the class. -/
def fresh : Container → Amf0Any
  | object _ => .object []
  | ecmaArray _ _ => .ecmaArray [] 0
  | strictArray _ _ => .strictArray [] 0

/-- `read` of a new container of the class, with `isEof` for `amf0_is_object_eof` and `any` for
`amf0_read_any`. -/
def readWith (isEof : Stream Bool) (any : Stream Amf0Any) (fuel : ℕ) : Container → Stream Amf0Any
  | object _ => do
    amf0ReadMarker rtmpAmf0Object
    let properties ← Amf0Any.readPropertiesWith isEof any (fun _ => true) fuel []
    return .object properties
  | ecmaArray _ _ => do
    amf0ReadMarker rtmpAmf0EcmaArray
    requireRead 4 errorRtmpAmf0Decode
    let count ← read4bytes
    let properties ←
      Amf0Any.readPropertiesWith isEof any (fun ps => ps.count < count.toInt) fuel []
    return .ecmaArray properties count
  | strictArray _ _ => do
    amf0ReadMarker rtmpAmf0StrictArray
    requireRead 4 errorRtmpAmf0Decode
    let count ← read4bytes
    let properties ← Amf0Any.readElements any count.toInt fuel 0 []
    return .strictArray properties count

/-- `read`, with enough fuel for the bytes there are. -/
def read (isEof : Stream Bool) (any : Stream Amf0Any) (x : Container) : Stream Amf0Any := do
  let fuel := (← get).readLeft.toNat + 1
  x.readWith isEof any fuel

/-- With the code's own test it is the reader of the code. -/
theorem readWith_amf0IsObjectEof (any : Stream Amf0Any) (fuel : ℕ) (x : Container) :
    x.readWith amf0IsObjectEof any fuel = x.fresh.read any fuel := by
  cases x with
  | object properties =>
    simp only [readWith, Amf0Any.readPropertiesWith_amf0IsObjectEof]
    rfl
  | ecmaArray properties count =>
    simp only [readWith, Amf0Any.readPropertiesWith_amf0IsObjectEof]
    rfl
  | strictArray properties count => rfl

/-- **The delimiters agree**: the reader comes to the end where the writer put it.  The end marker
of an `Amf0EcmaArray` is looked for only below its `_count`, and an `Amf0StrictArray` has no other
delimiter than its `_count`. -/
def Delimited : Container → Prop
  | object _ => True
  | ecmaArray properties count => properties.length < count.toInt
  | strictArray properties count => max count.toInt 0 = properties.length

/-- **The container is restored from the bytes `e`**, whatever follows them: its entries, in order,
with `total_size()` bytes taken and the others left. -/
def RestoredFrom (isEof : Stream Bool) (any : Stream Amf0Any) (x : Container) (e : Bytes) : Prop :=
  ∀ tail b, Shows b (e ++ tail) → ∃ v b', x.read isEof any b = .ok (.ok v, b')
    ∧ x.SameEntries v ∧ Shows b' tail ∧ b.readLeft - b'.readLeft = x.value.totalSize

end Container

/-! ## The parts of a container, read back -/

theorem restores_amf0ReadMarker (marker : Byte) (rest : Bytes) :
    Restores (amf0ReadMarker marker) ⟨⟩ (marker :: rest) rest := by
  have hbytes : marker :: rest = beBytes 1 marker.toNat ++ rest := by simp [beBytes, leBytes]
  refine (restores_requireRead _ (by decide) ?_).bind ?_
  · rw [List.length_cons]
    omega
  · rw [hbytes, read1byte_eq_readInt]
    exact (restores_readInt marker.isLt rest).bind (Via.ensure (fun _ => ⟨rfl, rfl⟩) (absurd rfl))

/-- A name, which may be empty. -/
theorem restores_amf0ReadUtf8 {name : Bytes} (h : name.length ≤ 32767) (rest : Bytes) :
    Restores (amf0ReadUtf8 []) name
      (beBytes 2 (BitVec.ofNat 16 name.length).toNat ++ (name ++ rest)) rest := by
  rcases eq_or_ne name [] with rfl | hne
  · exact restores_amf0ReadUtf8_old (by decide) (Or.inl rfl)
  · exact restores_amf0ReadUtf8_short (by omega) hne

theorem restores_amf0ReadObjectEof (rest : Bytes) :
    Restores amf0ReadObjectEof ⟨⟩ (objectEofBytes ++ rest) rest := by
  have hbytes : objectEofBytes ++ rest
      = beBytes 2 (0 : BitVec 16).toNat ++ (rtmpAmf0ObjectEnd :: rest) := rfl
  refine (restores_requireRead _ (by decide) ?_).bind ?_
  · rw [objectEofBytes, List.length_append]
    simp only [List.length_cons, List.length_nil]
    omega
  rw [hbytes, read2bytes_eq_readInt]
  have hzero : Restores (ensure ((0 : BitVec 16) = 0x00) errorRtmpAmf0Decode) ⟨⟩
      (rtmpAmf0ObjectEnd :: rest) (rtmpAmf0ObjectEnd :: rest) :=
    Via.ensure (fun _ => ⟨rfl, rfl⟩) (absurd rfl)
  refine (restores_readInt (BitVec.isLt _) _).bind (hzero.bind ?_)
  exact restores_amf0ReadMarker _ rest

/-- The count of the two array types. -/
theorem restores_count (count : BitVec 32) (rest : Bytes) :
    Restores (do requireRead 4 errorRtmpAmf0Decode; read4bytes) count
      (beBytes 4 count.toNat ++ rest) rest := by
  refine (restores_requireRead _ (by decide) ?_).bind ?_
  · rw [List.length_append, length_beBytes]
    omega
  · rw [read4bytes_eq_readInt]
    exact restores_readInt count.isLt rest

namespace Amf0Any

/-- **No value begins with the last byte of the end marker**, so a nameless property is never taken
for the end. -/
theorem encoding_eq_cons (v : Amf0Any) : ∃ m cs, v.encoding = m :: cs ∧ m ≠ rtmpAmf0ObjectEnd := by
  have hmarker : ∀ (marker : Byte) (ms : List Move), marker ≠ rtmpAmf0ObjectEnd →
      ∃ m cs, Buffer.encoding (amf0MarkerMoves marker ++ ms) = m :: cs ∧ m ≠ rtmpAmf0ObjectEnd := by
    intro marker ms hne
    rw [encoding_append, encoding_amf0MarkerMoves]
    exact ⟨marker, _, rfl, hne⟩
  cases v with
  | string value => exact hmarker _ _ (by decide)
  | boolean value => exact hmarker _ _ (by decide)
  | number value => exact hmarker _ _ (by decide)
  | date dateValue timeZone => exact hmarker _ _ (by decide)
  | null => exact hmarker rtmpAmf0Null [] (by decide)
  | undefined => exact hmarker rtmpAmf0Undefined [] (by decide)
  | objectEof => exact ⟨0x00, [0x00, 0x09], by decide, by decide⟩
  | object properties => exact hmarker _ _ (by decide)
  | ecmaArray properties count => exact hmarker _ _ (by decide)
  | strictArray properties count => exact hmarker _ _ (by decide)

/-- A property is not taken for the end marker. -/
theorem not_objectEof_encoding (p : Bytes × Amf0Any) (hp : p.1.length ≤ 32767)
    (properties : UnSortedHashtable) (rest : Bytes) :
    ¬ objectEofBytes <+: propertiesEncoding (p :: properties) ++ rest := by
  rintro ⟨cs, hcs⟩
  obtain ⟨m, ds, hds, hm⟩ := p.2.encoding_eq_cons
  have hlen : (BitVec.ofNat 16 p.1.length).toNat = p.1.length := by
    rw [BitVec.toNat_ofNat, Nat.mod_eq_of_lt (by omega)]
  rw [propertiesEncoding_cons, hlen, hds] at hcs
  have htwo : beBytes 2 p.1.length = [0x00, 0x00] := by
    have h := congrArg (List.take 2) hcs
    rw [List.append_assoc, List.take_left' (length_beBytes 2 _)] at h
    exact h.symm
  have hzero : p.1.length = 0 := by
    have h := congrArg beNat htwo
    rw [beNat_beBytes, Nat.mod_eq_of_lt (by omega)] at h
    exact h.trans (by decide)
  rw [htwo, List.length_eq_zero_iff.1 hzero] at hcs
  exact hm (List.cons.inj (List.cons.inj (List.cons.inj hcs).2).2).1.symm

variable {isEof : Stream Bool} {any : Stream Amf0Any} {more : UnSortedHashtable → Bool}

/-- The value is read back from its bytes, whatever follows. -/
def ReadBackBy (any : Stream Amf0Any) (v : Amf0Any) : Prop :=
  ∀ rest, Restores any v (v.encoding ++ rest) rest

/-- **One round of the loop over the properties.** -/
theorem continuesAt_property (hpeeks : Peeks isEof) (p : Bytes × Amf0Any)
    (hp : p.1.length ≤ 32767) (hany : ReadBackBy any p.2) {done : UnSortedHashtable}
    (hmore : more done = true) (fuel : ℕ) (ps : UnSortedHashtable) {rest : Bytes} {b : Buffer}
    (hb : Shows b (propertiesEncoding (p :: ps) ++ rest)) :
    ContinuesAt (readPropertiesWith isEof any more (fuel + 1) done) b
      (readPropertiesWith isEof any more fuel (done.set p.1 (some p.2)))
      (propertiesEncoding ps ++ rest) := by
  have hne : ¬ b.readEmpty = true := by
    rw [hb.readEmpty_iff, propertiesEncoding_cons]
    intro h
    have hlen := congrArg List.length h
    rw [List.append_assoc, List.length_append, length_beBytes, List.length_nil] at hlen
    omega
  have hbytes : propertiesEncoding (p :: ps) ++ rest
      = beBytes 2 (BitVec.ofNat 16 p.1.length).toNat
        ++ (p.1 ++ (p.2.encoding ++ (propertiesEncoding ps ++ rest))) := by
    rw [propertiesEncoding_cons]
    simp only [List.append_assoc]
  have heof := hpeeks (propertiesEncoding (p :: ps) ++ rest)
  rw [decide_eq_false (not_objectEof_encoding p hp ps rest)] at heof
  have hbody : ContinuesAt (readPropertiesWith isEof any more (fuel + 1) done) b
      (do
        let propertyName ← amf0ReadUtf8 []
        let propertyValue ← any
        readPropertiesWith isEof any more fuel (done.set propertyName (some propertyValue)))
      (propertiesEncoding (p :: ps) ++ rest) := by
    obtain ⟨b', hrun, hb'⟩ := heof.run hb
    refine ⟨b', hb', ?_⟩
    rw [readPropertiesWith, run_get_bind, if_pos ⟨hne, hmore⟩, run_bind_ok hrun,
      if_neg Bool.false_ne_true]
  refine hbody.trans fun b' hb' => ?_
  rw [hbytes] at hb'
  refine (ContinuesAt.of_restores (restores_amf0ReadUtf8 hp _) hb').trans fun b'' hb'' => ?_
  exact ContinuesAt.of_restores (hany _) hb''

/-- **The loop over the properties it was given**, by induction on them. -/
theorem continuesAt_properties (hpeeks : Peeks isEof) (more : UnSortedHashtable → Bool)
    (ps done : UnSortedHashtable) (hnodup : ((done ++ ps).map Prod.fst).Nodup)
    (hps : ∀ p ∈ ps, p.1.length ≤ 32767) (hany : ∀ p ∈ ps, ReadBackBy any p.2)
    (hmore : ∀ qs : UnSortedHashtable, qs.length < (done ++ ps).length → more qs = true)
    (fuel : ℕ) {rest : Bytes} {b : Buffer} (hb : Shows b (propertiesEncoding ps ++ rest)) :
    ContinuesAt (readPropertiesWith isEof any more (fuel + ps.length) done) b
      (readPropertiesWith isEof any more fuel (done ++ ps)) rest := by
  induction ps generalizing done b with
  | nil =>
    rw [List.append_nil]
    exact ⟨b, hb, rfl⟩
  | cons p ps ih =>
    have hshift : done ++ p :: ps = (done ++ [p]) ++ ps := by simp
    have hfresh : p.1 ∉ done.map Prod.fst := by
      rw [List.map_append, List.nodup_append] at hnodup
      exact fun hmem => hnodup.2.2 _ hmem _ (List.mem_map_of_mem List.mem_cons_self) rfl
    have hset : done.set p.1 (some p.2) = done ++ [p] := UnSortedHashtable.set_of_notMem hfresh _
    have hround := continuesAt_property hpeeks p (hps p List.mem_cons_self)
      (hany p List.mem_cons_self) (hmore done (by rw [List.length_append, List.length_cons]; omega))
      (fuel + ps.length) ps hb
    rw [hset] at hround
    refine hround.trans fun b' hb' => ?_
    rw [hshift] at hnodup hmore ⊢
    exact ih (done ++ [p]) hnodup (fun q hq => hps q (List.mem_cons_of_mem _ hq))
      (fun q hq => hany q (List.mem_cons_of_mem _ hq)) hmore hb'

/-- At the end marker, which is looked for only where `more` asks for another entry. -/
theorem readPropertiesWith_end (hpeeks : Peeks isEof) (any : Stream Amf0Any)
    {ps : UnSortedHashtable} (more : UnSortedHashtable → Bool) (hmore : more ps = true) (fuel : ℕ)
    {rest : Bytes} {b : Buffer} (hb : Shows b (objectEofBytes ++ rest)) :
    ∃ b', readPropertiesWith isEof any more (fuel + 1) ps b = .ok (.ok ps, b') ∧ Shows b' rest := by
  have hne : ¬ b.readEmpty = true := by
    rw [hb.readEmpty_iff]
    exact List.cons_ne_nil _ _
  have heof := hpeeks (objectEofBytes ++ rest)
  rw [decide_eq_true (List.prefix_append _ _)] at heof
  obtain ⟨b₁, hrun₁, hb₁⟩ := heof.run hb
  obtain ⟨b₂, hrun₂, hb₂⟩ := (restores_amf0ReadObjectEof rest).run hb₁
  refine ⟨b₂, ?_, hb₂⟩
  rw [readPropertiesWith, run_get_bind, if_pos ⟨hne, hmore⟩, run_bind_ok hrun₁, if_pos rfl,
    run_bind_ok hrun₂, run_pure]

/-- With enough entries the loop takes nothing more. -/
theorem readPropertiesWith_full {ps : UnSortedHashtable} (hmore : more ps = false) (fuel : ℕ)
    (b : Buffer) : readPropertiesWith isEof any more (fuel + 1) ps b = .ok (.ok ps, b) := by
  rw [readPropertiesWith, run_get_bind, if_neg (by simp [hmore]), run_pure]

/-- **The loop over the elements it was given.** -/
theorem continuesAt_elements {count : ℤ} (vs done : List Amf0Any) (i : ℤ)
    (hany : ∀ v ∈ vs, ReadBackBy any v) (hcount : i + vs.length ≤ count) (fuel : ℕ) {rest : Bytes}
    {b : Buffer} (hb : Shows b (elementsEncoding vs ++ rest)) :
    ContinuesAt (readElements any count (fuel + vs.length) i done) b
      (readElements any count fuel (i + vs.length) (done ++ vs)) rest := by
  induction vs generalizing i done b with
  | nil =>
    refine ⟨b, hb, ?_⟩
    rw [List.append_nil, List.length_nil, Nat.cast_zero, add_zero, add_zero]
  | cons v vs ih =>
    rw [List.length_cons, Nat.cast_succ] at hcount
    rw [elementsEncoding_cons, List.append_assoc] at hb
    have hne : ¬ b.readEmpty = true := by
      obtain ⟨m, cs, hv, -⟩ := v.encoding_eq_cons
      rw [hb.readEmpty_iff, hv]
      exact List.cons_ne_nil _ _
    have hround : ContinuesAt (readElements any count (fuel + vs.length + 1) i done) b
        (readElements any count (fuel + vs.length) (i + 1) (done ++ [v]))
        (elementsEncoding vs ++ rest) := by
      obtain ⟨b', hrun, hb'⟩ := (hany v List.mem_cons_self _).run hb
      refine ⟨b', hb', ?_⟩
      rw [readElements, run_get_bind, if_pos ⟨by omega, hne⟩, run_bind_ok hrun]
    refine hround.trans fun b' hb' => ?_
    have hrest := ih (done ++ [v]) (i + 1) (fun u hu => hany u (List.mem_cons_of_mem _ hu))
      (by omega) hb'
    have hidx : i + ((v :: vs).length : ℤ) = i + 1 + vs.length := by
      rw [List.length_cons, Nat.cast_succ]
      omega
    rw [hidx]
    rwa [List.append_assoc, List.singleton_append] at hrest

/-- The loop over the elements only adds. -/
theorem holds_readElements {count : ℤ} (fuel : ℕ) (i : ℤ) (vs : List Amf0Any) (b : Buffer) :
    Holds (fun _ => True) (fun _ _ => True) (fun us _ => vs.length ≤ us.length)
      (readElements any count fuel i vs) b := by
  induction fuel generalizing i vs b with
  | zero => trivial
  | succ fuel ih =>
    rw [readElements, holds_bind, holds_get]
    split
    · rw [holds_bind]
      refine (holds_true any b).imp (fun _ _ => id) fun v b' _ => ?_
      refine (ih (i + 1) (vs ++ [v]) b').imp (fun _ _ => id) fun us _ hus => ?_
      rw [List.length_append] at hus
      omega
    · exact le_refl _

/-- **Bytes that are left are taken for another element** where the count asks for one. -/
theorem holds_readElements_more {count : ℤ} (fuel : ℕ) {i : ℤ} (hi : i < count)
    (vs : List Amf0Any) {b : Buffer} (hb : ¬ b.readEmpty = true) :
    Holds (fun _ => True) (fun _ _ => True) (fun us _ => vs.length < us.length)
      (readElements any count (fuel + 1) i vs) b := by
  rw [readElements, holds_bind, holds_get, if_pos ⟨hi, hb⟩, holds_bind]
  refine (holds_true any b).imp (fun _ _ => id) fun v b' _ => ?_
  refine (holds_readElements fuel (i + 1) (vs ++ [v]) b').imp (fun _ _ => id) fun us _ hus => ?_
  rw [List.length_append, List.length_singleton] at hus
  omega

/-- The loop stops at its count, or where nothing is left. -/
theorem readElements_stop {count : ℤ} (fuel : ℕ) {i : ℤ} (vs : List Amf0Any) {b : Buffer}
    (h : count ≤ i ∨ b.readEmpty = true) :
    readElements any count (fuel + 1) i vs b = .ok (.ok vs, b) := by
  rw [readElements, run_get_bind, if_neg, run_pure]
  rintro ⟨hi, hne⟩
  exact h.elim (fun hle => absurd hi (not_lt.2 hle)) hne

theorem length_le_propertiesEncoding (ps : UnSortedHashtable) :
    2 * ps.length ≤ (propertiesEncoding ps).length := by
  induction ps with
  | nil => exact le_refl _
  | cons p ps ih =>
    rw [propertiesEncoding_cons]
    simp only [List.length_append, length_beBytes, List.length_cons]
    omega

theorem length_le_elementsEncoding (vs : List Amf0Any) :
    vs.length ≤ (elementsEncoding vs).length := by
  induction vs with
  | nil => exact le_refl _
  | cons v vs ih =>
    obtain ⟨m, cs, hv, -⟩ := v.encoding_eq_cons
    rw [elementsEncoding_cons, hv]
    simp only [List.length_append, List.length_cons]
    omega

theorem propertiesEncoding_append (ps qs : UnSortedHashtable) :
    propertiesEncoding (ps ++ qs) = propertiesEncoding ps ++ propertiesEncoding qs := by
  induction ps with
  | nil => rfl
  | cons p ps ih =>
    rw [List.cons_append, propertiesEncoding_cons, propertiesEncoding_cons, ih]
    simp only [List.append_assoc]

theorem elementsEncoding_append (us vs : List Amf0Any) :
    elementsEncoding (us ++ vs) = elementsEncoding us ++ elementsEncoding vs := by
  induction us with
  | nil => rfl
  | cons u us ih =>
    rw [List.cons_append, elementsEncoding_cons, elementsEncoding_cons, ih, List.append_assoc]

end Amf0Any

/-! ## Whole containers -/

namespace Container

open Amf0Any

variable {isEof : Stream Bool} {any : Stream Amf0Any} {b : Buffer} {tail : Bytes}

/-- The fuel of `read` is enough for the entries. -/
theorem exists_fuel {n : ℕ} {c : Bytes} (hb : Shows b (c ++ tail)) (hn : n ≤ c.length) :
    ∃ fuel, b.readLeft.toNat + 1 = fuel + 1 + n := by
  have hlen := hb.readLeft_eq
  rw [List.length_append] at hlen
  exact ⟨b.readLeft.toNat - n, by omega⟩

theorem length_values_le (x : Container) : x.values.length ≤ x.value.encoding.length := by
  cases x with
  | object ps =>
    have hle := length_le_propertiesEncoding ps
    rw [value, values, encoding_object]
    simp only [List.length_cons, List.length_append, List.length_map]
    omega
  | ecmaArray ps count =>
    have hle := length_le_propertiesEncoding ps
    rw [value, values, encoding_ecmaArray]
    simp only [List.length_cons, List.length_append, List.length_map]
    omega
  | strictArray es count =>
    have hle := length_le_elementsEncoding es
    rw [value, values, encoding_strictArray]
    simp only [List.length_cons, List.length_append]
    omega

/-- An `Amf0Object` ends at its end marker. -/
theorem read_object (hpeeks : Peeks isEof) {ps : UnSortedHashtable} (hkeys : (object ps).KeysFit)
    (hany : ∀ v ∈ (object ps).values, ReadBackBy any v)
    (hb : Shows b ((object ps).value.encoding ++ tail)) :
    ∃ b', (object ps).read isEof any b = .ok (.ok (.object ps), b') ∧ Shows b' tail := by
  obtain ⟨fuel, hfuel⟩ := exists_fuel hb (length_values_le _)
  rw [values, List.length_map] at hfuel
  rw [value, encoding_object, List.cons_append, List.append_assoc] at hb
  obtain ⟨b₁, hrun₁, hb₁⟩ := (restores_amf0ReadMarker _ _).run hb
  obtain ⟨b₂, hb₂, hrun₂⟩ := continuesAt_properties hpeeks (fun _ => true) ps [] hkeys.1
    hkeys.2 (fun p hp => hany p.2 (List.mem_map_of_mem hp)) (fun _ _ => rfl) (fuel + 1) hb₁
  obtain ⟨b₃, hrun₃, hb₃⟩ := readPropertiesWith_end hpeeks any (fun _ => true) rfl fuel hb₂
  refine ⟨b₃, ?_, hb₃⟩
  rw [read, run_get_bind, hfuel, readWith, run_bind_ok hrun₁, run_bind_ok (hrun₂.trans hrun₃)]
  rfl

/-- **The first `n` properties of an `Amf0EcmaArray`**, where `_count` asks for as many. -/
theorem continuesAt_ecmaArray (hpeeks : Peeks isEof) {ps : UnSortedHashtable} {count : BitVec 32}
    (hkeys : (ecmaArray ps count).KeysFit)
    (hany : ∀ v ∈ (ecmaArray ps count).values, ReadBackBy any v)
    (hb : Shows b ((ecmaArray ps count).value.encoding ++ tail)) {n : ℕ} (hn : n ≤ ps.length)
    (hcount : n ≤ max count.toInt 0) : ∃ fuel,
    ContinuesAt ((ecmaArray ps count).read isEof any) b
      (do
        let properties ← readPropertiesWith isEof any (fun qs => qs.count < count.toInt) (fuel + 1)
          (ps.take n)
        return .ecmaArray properties count)
      (propertiesEncoding (ps.drop n) ++ (objectEofBytes ++ tail)) := by
  have hlen : (ps.take n).length = n := List.length_take_of_le hn
  have hsplit : propertiesEncoding ps
      = propertiesEncoding (ps.take n) ++ propertiesEncoding (ps.drop n) := by
    rw [← propertiesEncoding_append, List.take_append_drop]
  have hsub : ∀ p ∈ ps.take n, p ∈ ps := fun p => List.mem_of_mem_take
  have hle := length_values_le (ecmaArray ps count)
  rw [values, List.length_map] at hle
  obtain ⟨fuel, hfuel⟩ := exists_fuel hb (hn.trans hle)
  rw [value, encoding_ecmaArray, hsplit] at hb
  simp only [List.cons_append, List.append_assoc] at hb
  obtain ⟨b₁, hrun₁, hb₁⟩ := (restores_amf0ReadMarker _ _).run hb
  obtain ⟨b₂, hrun₂, hb₂⟩ := (restores_count count _).run hb₁
  have hmore : ∀ qs : UnSortedHashtable, qs.length < (ps.take n).length →
      decide (qs.count < count.toInt) = true := fun qs hqs => by
    rw [UnSortedHashtable.count]
    exact decide_eq_true (by omega)
  have hloop := continuesAt_properties hpeeks (fun qs => qs.count < count.toInt) (ps.take n) []
    (hkeys.1.sublist ((List.take_sublist n ps).map Prod.fst)) (fun p hp => hkeys.2 p (hsub p hp))
    (fun p hp => hany p.2 (List.mem_map_of_mem (hsub p hp))) hmore (fuel + 1) hb₂
  rw [hlen, List.nil_append] at hloop
  obtain ⟨b₃, hb₃, hrun₃⟩ := hloop.bind fun properties => pure (Amf0Any.ecmaArray properties count)
  refine ⟨fuel, b₃, hb₃, ?_⟩
  rw [read, run_get_bind, hfuel, readWith, run_bind_ok hrun₁, ← bind_assoc, run_bind_ok hrun₂]
  exact hrun₃

/-- An `Amf0EcmaArray` ends at its end marker where its `_count` asks for one more. -/
theorem read_ecmaArray (hpeeks : Peeks isEof) {ps : UnSortedHashtable} {count : BitVec 32}
    (hkeys : (ecmaArray ps count).KeysFit)
    (hany : ∀ v ∈ (ecmaArray ps count).values, ReadBackBy any v) (hcount : ps.length < count.toInt)
    (hb : Shows b ((ecmaArray ps count).value.encoding ++ tail)) :
    ∃ b', (ecmaArray ps count).read isEof any b = .ok (.ok (.ecmaArray ps count), b')
      ∧ Shows b' tail := by
  obtain ⟨fuel, b₁, hb₁, hrun₁⟩ := continuesAt_ecmaArray hpeeks hkeys hany hb (le_refl ps.length)
    (by omega)
  rw [List.drop_length, propertiesEncoding, propertiesMoves] at hb₁
  rw [List.take_length] at hrun₁
  obtain ⟨b₂, hrun₂, hb₂⟩ := readPropertiesWith_end hpeeks any (fun qs => qs.count < count.toInt)
    (decide_eq_true hcount) fuel hb₁
  exact ⟨b₂, hrun₁.trans (run_bind_ok hrun₂), hb₂⟩

/-- **Otherwise the end marker is left**, and with it the properties beyond `_count`. -/
theorem read_ecmaArray_left (hpeeks : Peeks isEof) {ps : UnSortedHashtable} {count : BitVec 32}
    (hkeys : (ecmaArray ps count).KeysFit)
    (hany : ∀ v ∈ (ecmaArray ps count).values, ReadBackBy any v) (hcount : count.toInt ≤ ps.length)
    (hb : Shows b ((ecmaArray ps count).value.encoding ++ tail)) :
    ∃ b', (ecmaArray ps count).read isEof any b
        = .ok (.ok (.ecmaArray (ps.take count.toInt.toNat) count), b')
      ∧ Shows b' (propertiesEncoding (ps.drop count.toInt.toNat) ++ (objectEofBytes ++ tail)) := by
  obtain ⟨fuel, b₁, hb₁, hrun₁⟩ := continuesAt_ecmaArray hpeeks hkeys hany hb
    (n := count.toInt.toNat) (by omega) (by omega)
  have hlen : (ps.take count.toInt.toNat).length = count.toInt.toNat :=
    List.length_take_of_le (by omega)
  have hfull : decide (UnSortedHashtable.count (ps.take count.toInt.toNat) < count.toInt)
      = false := by
    rw [UnSortedHashtable.count, hlen]
    exact decide_eq_false (by omega)
  exact ⟨b₁, hrun₁.trans (run_bind_ok (readPropertiesWith_full hfull fuel b₁)), hb₁⟩

/-- **The first `n` elements of an `Amf0StrictArray`**, where `_count` asks for as many. -/
theorem continuesAt_strictArray (isEof : Stream Bool) {es : List Amf0Any} {count : BitVec 32}
    (hany : ∀ v ∈ (strictArray es count).values, ReadBackBy any v)
    (hb : Shows b ((strictArray es count).value.encoding ++ tail)) {n : ℕ} (hn : n ≤ es.length)
    (hcount : n ≤ max count.toInt 0) : ∃ fuel,
    ContinuesAt ((strictArray es count).read isEof any) b
      (do
        let properties ← readElements any count.toInt (fuel + 1) n (es.take n)
        return .strictArray properties count)
      (elementsEncoding (es.drop n) ++ tail) := by
  have hlen : (es.take n).length = n := List.length_take_of_le hn
  have hsplit : elementsEncoding es
      = elementsEncoding (es.take n) ++ elementsEncoding (es.drop n) := by
    rw [← elementsEncoding_append, List.take_append_drop]
  obtain ⟨fuel, hfuel⟩ := exists_fuel hb (hn.trans (length_values_le (strictArray es count)))
  rw [value, encoding_strictArray, hsplit] at hb
  simp only [List.cons_append, List.append_assoc] at hb
  obtain ⟨b₁, hrun₁, hb₁⟩ := (restores_amf0ReadMarker _ _).run hb
  obtain ⟨b₂, hrun₂, hb₂⟩ := (restores_count count _).run hb₁
  have hloop : ContinuesAt (readElements any count.toInt (fuel + 1 + (es.take n).length) 0 []) b₂
      (readElements any count.toInt (fuel + 1) (0 + (es.take n).length) ([] ++ es.take n))
      (elementsEncoding (es.drop n) ++ tail) := by
    rcases Nat.eq_zero_or_pos n with rfl | hpos
    · exact ⟨b₂, hb₂, rfl⟩
    · exact continuesAt_elements (es.take n) [] 0 (fun v hv => hany v (List.mem_of_mem_take hv))
        (by omega) (fuel + 1) hb₂
  rw [hlen, List.nil_append, zero_add] at hloop
  obtain ⟨b₃, hb₃, hrun₃⟩ := hloop.bind fun properties =>
    pure (Amf0Any.strictArray properties count)
  refine ⟨fuel, b₃, hb₃, ?_⟩
  rw [read, run_get_bind, hfuel, readWith, run_bind_ok hrun₁, ← bind_assoc, run_bind_ok hrun₂]
  exact hrun₃

/-- An `Amf0StrictArray` is read up to its `_count`, which leaves the elements beyond it. -/
theorem read_strictArray (isEof : Stream Bool) {es : List Amf0Any} {count : BitVec 32}
    (hany : ∀ v ∈ (strictArray es count).values, ReadBackBy any v)
    (hcount : max count.toInt 0 ≤ es.length)
    (hb : Shows b ((strictArray es count).value.encoding ++ tail)) :
    ∃ b', (strictArray es count).read isEof any b
        = .ok (.ok (.strictArray (es.take count.toInt.toNat) count), b')
      ∧ Shows b' (elementsEncoding (es.drop count.toInt.toNat) ++ tail) := by
  obtain ⟨fuel, b₁, hb₁, hrun₁⟩ := continuesAt_strictArray isEof hany hb
    (n := count.toInt.toNat) (by omega) (by omega)
  exact ⟨b₁, hrun₁.trans (run_bind_ok (readElements_stop fuel _ (Or.inl (by omega)))), hb₁⟩

/-- **Asked for more, it takes what follows for an element.** -/
theorem holds_read_strictArray (isEof : Stream Bool) {es : List Amf0Any} {count : BitVec 32}
    (hany : ∀ v ∈ (strictArray es count).values, ReadBackBy any v)
    (hcount : es.length < count.toInt) (htail : tail ≠ [])
    (hb : Shows b ((strictArray es count).value.encoding ++ tail)) :
    Holds (fun _ => True) (fun _ _ => True)
      (fun v _ => ∃ us count, v = .strictArray us count ∧ es.length < us.length)
      ((strictArray es count).read isEof any) b := by
  obtain ⟨fuel, b₁, hb₁, hrun₁⟩ := continuesAt_strictArray isEof hany hb (le_refl es.length)
    (by omega)
  rw [List.drop_length, elementsEncoding, elementsMoves] at hb₁
  rw [Holds, hrun₁, List.take_length, ← Holds, holds_bind]
  have hne : ¬ b₁.readEmpty = true := fun h => htail (hb₁.readEmpty_iff.1 h)
  refine (holds_readElements_more fuel hcount es hne).imp (fun _ _ => id) fun us _ hus => ?_
  exact ⟨us, count, rfl, hus⟩

/-- A reader that leaves something of the container's own bytes does not restore it. -/
theorem not_restoredFrom_of_left {x : Container} {v : Amf0Any} {e left : Bytes} {b' : Buffer}
    (hb : Shows b (e ++ [])) (hrun : x.read isEof any b = .ok (.ok v, b')) (hb' : Shows b' left)
    (hleft : left ≠ []) : ¬ x.RestoredFrom isEof any e := by
  intro h
  obtain ⟨v', b'', hrun', -, hb'', -⟩ := h [] b hb
  have hsame : b'' = b' := (run_unique hrun' hrun).2
  exact hleft (hb'.2.symm.trans (hsame ▸ hb''.2))

/-- What is left of the bytes says how many were taken. -/
theorem taken_eq {x : Container} {b b' : Buffer} (hb : Shows b (x.value.encoding ++ tail))
    (hb' : Shows b' tail) : b.readLeft - b'.readLeft = x.value.totalSize := by
  have hlen := x.value.length_encoding
  rw [hb.readLeft_eq, hb'.readLeft_eq, List.length_append]
  omega

theorem restoredFrom_ecmaArray_iff (hpeeks : Peeks isEof) {ps : UnSortedHashtable}
    {count : BitVec 32} (hkeys : (ecmaArray ps count).KeysFit)
    (hany : ∀ v ∈ (ecmaArray ps count).values, ReadBackBy any v) :
    (ecmaArray ps count).RestoredFrom isEof any (ecmaArray ps count).value.encoding
      ↔ (ecmaArray ps count).Delimited := by
  constructor
  · intro h
    by_contra hcount
    obtain ⟨b₀, hb₀⟩ := exists_shows ((ecmaArray ps count).value.encoding ++ [])
    obtain ⟨b', hrun, hb'⟩ := read_ecmaArray_left hpeeks hkeys hany (not_lt.1 hcount) hb₀
    refine not_restoredFrom_of_left hb₀ hrun hb' ?_ h
    exact List.append_ne_nil_of_right_ne_nil _ (List.cons_ne_nil _ _)
  · intro hcount tail b hb
    obtain ⟨b', hrun, hb'⟩ := read_ecmaArray hpeeks hkeys hany hcount hb
    exact ⟨_, b', hrun, ⟨count, rfl⟩, hb', taken_eq hb hb'⟩

/-- With fewer elements than it has, or more, a strict array is not restored. -/
theorem restoredFrom_strictArray_iff (isEof : Stream Bool) {es : List Amf0Any} {count : BitVec 32}
    (hany : ∀ v ∈ (strictArray es count).values, ReadBackBy any v) :
    (strictArray es count).RestoredFrom isEof any (strictArray es count).value.encoding
      ↔ (strictArray es count).Delimited := by
  constructor
  · intro h
    rcases lt_trichotomy (max count.toInt 0) es.length with hlt | heq | hgt
    · obtain ⟨b₀, hb₀⟩ := exists_shows ((strictArray es count).value.encoding ++ [])
      obtain ⟨b', hrun, hb'⟩ := read_strictArray isEof hany hlt.le hb₀
      refine absurd h (not_restoredFrom_of_left hb₀ hrun hb' ?_)
      intro hnil
      have hlen := length_le_elementsEncoding (es.drop count.toInt.toNat)
      rw [List.append_nil] at hnil
      rw [hnil, List.length_drop, List.length_nil] at hlen
      omega
    · exact heq
    · obtain ⟨b, hb⟩ := exists_shows ((strictArray es count).value.encoding ++ [0x00])
      obtain ⟨v, b', hrun, ⟨count', rfl⟩, -⟩ := h [0x00] b hb
      have hcount : es.length < count.toInt := by omega
      have hmore := holds_read_strictArray isEof hany hcount (List.cons_ne_nil _ _) hb
      obtain ⟨us, count'', heq, hus⟩ := hmore.elim_ok hrun
      rw [Amf0Any.strictArray.injEq] at heq
      rw [heq.1] at hus
      exact absurd hus (lt_irrefl _)
  · intro hcount tail b hb
    obtain ⟨b', hrun, hb'⟩ := read_strictArray isEof hany hcount.le hb
    have hn : count.toInt.toNat = es.length := by
      have hcount' : max count.toInt 0 = es.length := hcount
      omega
    rw [hn, List.take_length] at hrun
    rw [hn, List.drop_length] at hb'
    exact ⟨_, b', hrun, ⟨count, rfl⟩, hb', taken_eq hb hb'⟩

/-- **From its whole bytes a container is restored exactly if its delimiters agree.** -/
theorem restoredFrom_encoding_iff (hpeeks : Peeks isEof) {x : Container} (hkeys : x.KeysFit)
    (hany : ∀ v ∈ x.values, ReadBackBy any v) :
    x.RestoredFrom isEof any x.value.encoding ↔ x.Delimited := by
  cases x with
  | object ps =>
    refine iff_of_true (fun tail b hb => ?_) trivial
    obtain ⟨b', hrun, hb'⟩ := read_object hpeeks hkeys hany hb
    exact ⟨_, b', hrun, rfl, hb', taken_eq hb hb'⟩
  | ecmaArray ps count => exact restoredFrom_ecmaArray_iff hpeeks hkeys hany
  | strictArray es count => exact restoredFrom_strictArray_iff isEof hany

/-- What `write` has appended: the bytes of the value, or fewer for lack of room. -/
theorem written_eq (v : Amf0Any) {w w' : Buffer} {e : Bytes} (hw : w.Valid)
    (hwrite : v.write w = .ok (.ok ⟨⟩, w')) (he : w'.content = w.content ++ e) :
    (v.totalSize ≤ w.writeLeft → e = v.encoding)
      ∧ (w.writeLeft < v.totalSize → e.length < v.totalSize) := by
  constructor
  · intro hroom
    rw [← v.length_encoding] at hroom
    rw [v.write_eq_emit] at hwrite
    have happ := (emit_of_room hw v.moves hroom).elim_ok hwrite
    exact List.append_cancel_left (he.symm.trans happ.content_eq)
  · intro hroom
    obtain ⟨e', happ, -⟩ := (writes_write v).appended hw hwrite
    obtain rfl : e = e' := List.append_cancel_left (he.symm.trans happ.content_eq)
    have hleft := happ.writeLeft_eq hw
    have hnonneg := writeLeft_nonneg happ.valid
    omega

/-- **A container is restored from what its `write` appended**, over a test for the end marker that
only peeks and a reader that restores the contained values, exactly if there was room for all of
its bytes and its delimiters agree. -/
theorem container_restored_iff (isEof : Stream Bool) (any : Stream Amf0Any) (x : Container)
    (w w' : Buffer) (e : Bytes) (hpeeks : Peeks isEof) (hkeys : x.KeysFit)
    (hany : ∀ v ∈ x.values, ReadBackBy any v) (hw : w.Valid)
    (hwrite : x.value.write w = .ok (.ok ⟨⟩, w')) (he : w'.content = w.content ++ e) :
    x.RestoredFrom isEof any e ↔ x.value.totalSize ≤ w.writeLeft ∧ x.Delimited := by
  obtain ⟨hfull, hcut⟩ := written_eq x.value hw hwrite he
  rcases Int.lt_or_le w.writeLeft x.value.totalSize with hroom | hroom
  · refine iff_of_false (fun h => ?_) fun h => absurd h.1 (by omega)
    obtain ⟨b, hb⟩ := exists_shows (e ++ [])
    obtain ⟨v, b', -, -, hb', htaken⟩ := h [] b hb
    rw [hb.readLeft_eq, hb'.readLeft_eq, List.append_nil, List.length_nil] at htaken
    have hlt := hcut hroom
    omega
  · rw [hfull hroom, restoredFrom_encoding_iff hpeeks hkeys hany]
    exact (and_iff_right hroom).symm

/-- A test for the end marker that only peeks. -/
def peekObjectEof : Stream Bool := do
  return objectEofBytes <+: (← get).content

theorem peeks_peekObjectEof : Peeks peekObjectEof := fun c =>
  Via.get_bind (fun _ hb => by rw [hb.2]) (restores_pure _ c)

/-- A reader of the value `null`. -/
def readNull : Stream Amf0Any := do
  amf0ReadNull
  return .null

theorem readBackBy_readNull : ReadBackBy readNull .null := fun rest =>
  (restores_amf0ReadMarker rtmpAmf0Null rest).bind (restores_pure _ rest)

/-- The object `{"a": null}`, written after three bytes that were there. -/
theorem container_restored_iff_object :
    (object [(text "a", .null)]).RestoredFrom peekObjectEof readNull
        [0x03, 0x00, 0x01, 0x61, 0x05, 0x00, 0x00, 0x09]
      ↔ (object [(text "a", .null)]).value.totalSize
            ≤ (⟨[0x07, 0x07, 0x07, 0, 0, 0, 0, 0, 0, 0, 0, 0], 3, 0, 12⟩ : Buffer).writeLeft
          ∧ (object [(text "a", .null)]).Delimited := by
  refine container_restored_iff peekObjectEof readNull (object [(text "a", .null)])
    ⟨[0x07, 0x07, 0x07, 0, 0, 0, 0, 0, 0, 0, 0, 0], 3, 0, 12⟩
    ⟨[0x07, 0x07, 0x07, 0x03, 0x00, 0x01, 0x61, 0x05, 0x00, 0x00, 0x09, 0], 11, 0, 12⟩
    _ peeks_peekObjectEof ?_ ?_ ?_ ?_ ?_
  · exact ⟨by decide, by simp [text]⟩
  · simpa [values] using readBackBy_readNull
  · constructor <;> decide
  · decide +kernel
  · decide +kernel

/-- **The array `{"a": null}` with the `_count` 1**, the number of its entries: its end marker is
left behind, in front of whatever follows. -/
theorem container_not_restored :
    (ecmaArray [(text "a", .null)] 1).value.write
        ⟨[0x07, 0x07, 0x07, 0x07, 0, 0, 0, 0, 0, 0, 0, 0, 0, 0, 0, 0, 0], 4, 0, 17⟩
      = .ok (.ok ⟨⟩, ⟨[0x07, 0x07, 0x07, 0x07, 0x08, 0x00, 0x00, 0x00, 0x01, 0x00, 0x01, 0x61, 0x05,
          0x00, 0x00, 0x09, 0], 16, 0, 17⟩)
    ∧ (¬ (ecmaArray [(text "a", .null)] 1).RestoredFrom peekObjectEof readNull
        [0x08, 0x00, 0x00, 0x00, 0x01, 0x00, 0x01, 0x61, 0x05, 0x00, 0x00, 0x09])
    ∧ ∀ tail b, Shows b
          ([0x08, 0x00, 0x00, 0x00, 0x01, 0x00, 0x01, 0x61, 0x05, 0x00, 0x00, 0x09] ++ tail) →
        ∃ b', (ecmaArray [(text "a", .null)] 1).read peekObjectEof readNull b
            = .ok (.ok (.ecmaArray [(text "a", .null)] 1), b')
          ∧ Shows b' ([0x00, 0x00, 0x09] ++ tail) := by
  have henc : (ecmaArray [(text "a", .null)] 1).value.encoding
      = [0x08, 0x00, 0x00, 0x00, 0x01, 0x00, 0x01, 0x61, 0x05, 0x00, 0x00, 0x09] := by
    decide +kernel
  have hkeys : (ecmaArray [(text "a", .null)] 1).KeysFit := ⟨by decide, by simp [text]⟩
  have hany : ∀ v ∈ (ecmaArray [(text "a", .null)] 1).values, ReadBackBy readNull v := by
    simpa [values] using readBackBy_readNull
  rw [← henc]
  refine ⟨by decide +kernel, ?_, fun tail b hb => ?_⟩
  · rw [restoredFrom_encoding_iff peeks_peekObjectEof hkeys hany]
    exact fun h : (1 : ℤ) < 1 => lt_irrefl _ h
  · exact read_ecmaArray_left peeks_peekObjectEof hkeys hany (le_refl (1 : ℤ)) hb

end Container

end SmartStreaming
