import SmartStreaming.Rtmp.Amf.Codec
import SmartStreaming.Rtmp.Amf.Table
import Mathlib.Data.List.TakeWhile

/-!
# Rtmp/Amf/Copy — what `copy()` keeps of a value

A string is copied up to its first NUL, a table property by property.  No copy is larger than its
original, and one of the same size has nothing cut (`totalSize_copy`): the copy is then the value
itself (`copy_eq_self`).
-/

namespace SmartStreaming

namespace Amf0Any

mutual

/-- No string value has a NUL in it. -/
def NulFree : Amf0Any → Prop
  | string value => 0 ∉ value
  | boolean _ => True
  | number _ => True
  | date _ _ => True
  | null => True
  | undefined => True
  | objectEof => True
  | object properties => PropertiesNulFree properties
  | ecmaArray properties _ => PropertiesNulFree properties
  | strictArray properties _ => ElementsNulFree properties

def PropertiesNulFree : List (Bytes × Amf0Any) → Prop
  | [] => True
  | (_, any) :: properties => NulFree any ∧ PropertiesNulFree properties

def ElementsNulFree : List Amf0Any → Prop
  | [] => True
  | any :: properties => NulFree any ∧ ElementsNulFree properties

end

mutual

/-- Each table in the value has distinct keys, as `set` keeps them. -/
def DistinctKeys : Amf0Any → Prop
  | string _ => True
  | boolean _ => True
  | number _ => True
  | date _ _ => True
  | null => True
  | undefined => True
  | objectEof => True
  | object properties => (properties.map Prod.fst).Nodup ∧ PropertiesDistinctKeys properties
  | ecmaArray properties _ => (properties.map Prod.fst).Nodup ∧ PropertiesDistinctKeys properties
  | strictArray properties _ => ElementsDistinctKeys properties

def PropertiesDistinctKeys : List (Bytes × Amf0Any) → Prop
  | [] => True
  | (_, any) :: properties => DistinctKeys any ∧ PropertiesDistinctKeys properties

def ElementsDistinctKeys : List Amf0Any → Prop
  | [] => True
  | any :: properties => DistinctKeys any ∧ ElementsDistinctKeys properties

end

/-! ## A value that is copied as it is -/

mutual

/-- **A value without a NUL in its strings is copied as it is.** -/
theorem copy_eq_self : ∀ v : Amf0Any, v.DistinctKeys → v.NulFree → v.copy = v
  | string value, _, h => by
    have hall : ∀ x ∈ value, decide (x ≠ 0) = true := fun x hx =>
      decide_eq_true (ne_of_mem_of_not_mem hx h)
    rw [copy, List.takeWhile_eq_self_iff.2 hall]
  | boolean _, _, _ => rfl
  | number _, _, _ => rfl
  | date _ _, _, _ => rfl
  | null, _, _ => rfl
  | undefined, _, _ => rfl
  | objectEof, _, _ => rfl
  | object properties, hd, h => by
    exact congrArg object <| (UnSortedHashtable.copy_of_nodup hd.1).trans
      (mapCopy_eq_self properties hd.2 h)
  | ecmaArray properties count, hd, h => by
    exact congrArg (ecmaArray · count) <| (UnSortedHashtable.copy_of_nodup hd.1).trans
      (mapCopy_eq_self properties hd.2 h)
  | strictArray properties count, hd, h => by
    rw [copy, copyElements_eq_self properties hd h]

theorem mapCopy_eq_self : ∀ properties : List (Bytes × Amf0Any),
    PropertiesDistinctKeys properties → PropertiesNulFree properties →
      (properties.map fun elem => (elem.1, elem.2.copy)) = properties
  | [], _, _ => rfl
  | (name, any) :: properties, hd, h => by
    rw [List.map_cons, copy_eq_self any hd.1 h.1, mapCopy_eq_self properties hd.2 h.2]

theorem copyElements_eq_self : ∀ properties : List Amf0Any,
    ElementsDistinctKeys properties → ElementsNulFree properties →
      copyElements properties = properties
  | [], _, _ => rfl
  | any :: properties, hd, h => by
    rw [copyElements, copy_eq_self any hd.1 h.1, copyElements_eq_self properties hd.2 h.2]

end

/-! ## The size of a copy -/

theorem propertiesSize_eraseP_lt {p : Bytes × Amf0Any → Bool} {properties : UnSortedHashtable}
    (h : ∃ elem ∈ properties, p elem = true) :
    propertiesSize (properties.eraseP p) < propertiesSize properties := by
  induction properties with
  | nil => simp at h
  | cons elem properties ih =>
    obtain ⟨name, value⟩ := elem
    have hvalue := totalSize_pos value
    by_cases hp : p (name, value) = true
    · rw [List.eraseP_cons_of_pos hp, propertiesSize, Amf0Size.utf8]
      omega
    · obtain ⟨elem, helem, hpe⟩ := h
      have hrest : elem ∈ properties := by
        refine (List.mem_cons.1 helem).resolve_left ?_
        rintro rfl
        exact hp hpe
      have := ih ⟨elem, hrest, hpe⟩
      rw [List.eraseP_cons_of_neg hp, propertiesSize, propertiesSize]
      omega

/-- A key that is there already makes a table grow by less. -/
theorem propertiesSize_set_lt {properties : UnSortedHashtable} {key : Bytes}
    (h : key ∈ properties.map Prod.fst) (value : Amf0Any) :
    propertiesSize (properties.set key (some value))
      < propertiesSize properties + Amf0Size.utf8 key + totalSize value := by
  obtain ⟨elem, helem, rfl⟩ := List.mem_map.1 h
  have hlt := propertiesSize_eraseP_lt (p := fun e => e.1 = elem.1) ⟨elem, helem, by simp⟩
  rw [UnSortedHashtable.set, propertiesSize_append]
  simp only [Option.map_some, Option.toList_some, propertiesSize]
  omega

mutual

/-- **A copy is no larger than the value**, and as large only where nothing was cut. -/
theorem totalSize_copy : ∀ v : Amf0Any, v.copy.totalSize ≤ v.totalSize
    ∧ (v.copy.totalSize = v.totalSize → v.DistinctKeys ∧ v.NulFree)
  | string value => by
    have hle := (List.takeWhile_sublist (l := value) fun x => decide (x ≠ 0)).length_le
    simp only [copy, totalSize, Amf0Size.str, Amf0Size.utf8]
    refine ⟨by omega, fun h => ⟨trivial, fun h₀ => ?_⟩⟩
    have heq := (List.takeWhile_sublist (l := value) fun x => decide (x ≠ 0)).eq_of_length
      (by omega)
    exact of_decide_eq_true (List.takeWhile_eq_self_iff.1 heq 0 h₀) rfl
  | boolean _ => ⟨le_refl _, fun _ => ⟨trivial, trivial⟩⟩
  | number _ => ⟨le_refl _, fun _ => ⟨trivial, trivial⟩⟩
  | date _ _ => ⟨le_refl _, fun _ => ⟨trivial, trivial⟩⟩
  | null => ⟨le_refl _, fun _ => ⟨trivial, trivial⟩⟩
  | undefined => ⟨le_refl _, fun _ => ⟨trivial, trivial⟩⟩
  | objectEof => ⟨le_refl _, fun _ => ⟨trivial, trivial⟩⟩
  | object properties => by
    have h := propertiesSize_copy properties []
    simp only [copy, totalSize, propertiesSize] at h ⊢
    refine ⟨by omega, fun heq => ?_⟩
    obtain ⟨_, hnodup, hd, hfree⟩ := h.2 (by omega)
    exact ⟨⟨hnodup, hd⟩, hfree⟩
  | ecmaArray properties count => by
    have h := propertiesSize_copy properties []
    simp only [copy, totalSize, propertiesSize] at h ⊢
    refine ⟨by omega, fun heq => ?_⟩
    obtain ⟨_, hnodup, hd, hfree⟩ := h.2 (by omega)
    exact ⟨⟨hnodup, hd⟩, hfree⟩
  | strictArray properties count => by
    have h := elementsSize_copy properties
    simp only [copy, totalSize]
    exact ⟨by omega, fun heq => h.2 (by omega)⟩

theorem propertiesSize_copy : ∀ (src : List (Bytes × Amf0Any)) (properties : UnSortedHashtable),
    propertiesSize (copyProperties properties src) ≤ propertiesSize properties + propertiesSize src
    ∧ (propertiesSize (copyProperties properties src)
          = propertiesSize properties + propertiesSize src →
        (∀ name ∈ src.map Prod.fst, name ∉ properties.map Prod.fst)
          ∧ (src.map Prod.fst).Nodup ∧ PropertiesDistinctKeys src ∧ PropertiesNulFree src)
  | [], properties => by
    simp only [copyProperties, propertiesSize, List.map_nil]
    exact ⟨by omega, fun _ => ⟨fun _ h => absurd h List.not_mem_nil, List.nodup_nil, trivial,
      trivial⟩⟩
  | (name, any) :: src, properties => by
    have hany := totalSize_copy any
    have hset := propertiesSize_set_le properties name any.copy
    have hsrc := propertiesSize_copy src (properties.set name (some any.copy))
    simp only [copyProperties, propertiesSize]
    refine ⟨by omega, fun heq => ?_⟩
    have hname : name ∉ properties.map Prod.fst := fun hmem => by
      have := propertiesSize_set_lt hmem any.copy
      omega
    obtain ⟨hout, hnodup, hd, hfree⟩ := hsrc.2 (by omega)
    obtain ⟨hdany, hfreeany⟩ := hany.2 (by omega)
    rw [UnSortedHashtable.set_of_notMem hname, List.map_append] at hout
    refine ⟨?_, ?_, ⟨hdany, hd⟩, ⟨hfreeany, hfree⟩⟩
    · rintro name' hname'
      rcases List.mem_cons.1 hname' with rfl | hname'
      · exact hname
      · exact fun hmem => hout name' hname' (List.mem_append_left _ hmem)
    · refine List.nodup_cons.2 ⟨fun hmem => hout name hmem ?_, hnodup⟩
      exact List.mem_append_right _ (List.mem_singleton_self _)

theorem elementsSize_copy : ∀ properties : List Amf0Any,
    elementsSize (copyElements properties) ≤ elementsSize properties
    ∧ (elementsSize (copyElements properties) = elementsSize properties →
      ElementsDistinctKeys properties ∧ ElementsNulFree properties)
  | [] => ⟨le_refl _, fun _ => ⟨trivial, trivial⟩⟩
  | any :: properties => by
    have hany := totalSize_copy any
    have hrest := elementsSize_copy properties
    simp only [copyElements, elementsSize]
    refine ⟨by omega, fun heq => ?_⟩
    obtain ⟨hdany, hfreeany⟩ := hany.2 (by omega)
    obtain ⟨hd, hfree⟩ := hrest.2 (by omega)
    exact ⟨⟨hdany, hd⟩, ⟨hfreeany, hfree⟩⟩

end

/-- **A copy has the size and the encoding of the value** exactly where no string in it has a
NUL. -/
theorem copy_same_iff (v : Amf0Any) :
    (v.copy.totalSize = v.totalSize ∧ v.copy.write = v.write) ↔ v.DistinctKeys ∧ v.NulFree := by
  constructor
  · exact fun h => (totalSize_copy v).2 h.1
  · rintro ⟨hd, h⟩
    rw [copy_eq_self v hd h]
    exact ⟨rfl, rfl⟩

/-- **A string with a NUL**, as it is read from the wire, is cut by its copy. -/
theorem copy_same_string :
    amf0ReadAny
        ⟨[0x07, 0x07, 0x07, 0x02, 0x02, 0x00, 0x03, 0x61, 0x00, 0x62, 0x00], 10, 0, 11⟩
      = .ok (.ok (string [0x61, 0x00, 0x62]),
          ⟨[0x07, 0x07, 0x07, 0x02, 0x02, 0x00, 0x03, 0x61, 0x00, 0x62, 0x00], 10, 10, 11⟩)
    ∧ ¬ ((string [0x61, 0x00, 0x62]).copy.totalSize = (string [0x61, 0x00, 0x62]).totalSize
      ∧ (string [0x61, 0x00, 0x62]).copy.write = (string [0x61, 0x00, 0x62]).write) := by
  refine ⟨by rfl, fun h => absurd h.1 (by decide)⟩

end Amf0Any

end SmartStreaming
