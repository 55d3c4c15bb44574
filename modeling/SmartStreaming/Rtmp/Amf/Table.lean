import SmartStreaming.Machinery.Journal
import SmartStreaming.Rtmp.Amf.Value

/-!
# Rtmp/Amf/Table — `UnSortedHashtable` is an ordered map

A property that is set again goes to the end of the vector, so the properties stand in the order of
their last `set`: whatever is done to a table, it is the one its journal leaves (`replayed_run`).
-/

namespace SmartStreaming

open Machinery

namespace UnSortedHashtable

def clear (_ : UnSortedHashtable) : UnSortedHashtable := []

/-- `remove(name)`, which goes on behind the property it erases. -/
def remove (properties : UnSortedHashtable) (name : Bytes) : UnSortedHashtable :=
  properties.filter fun elem => elem.1 ≠ name

/-- `key_at(index)`; nothing where it asserts. -/
def keyAt (properties : UnSortedHashtable) (index : ℕ) : Option Bytes :=
  properties[index]?.map Prod.fst

/-- `copy(src)`. -/
def copy (properties src : UnSortedHashtable) : UnSortedHashtable :=
  Amf0Any.copyProperties properties src

/-! ## Runs of operations -/

/-- The operations that change a table; the source of a copy is another table. -/
inductive Op
  | set (key : Bytes) (value : Option Amf0Any)
  | remove (name : Bytes)
  | clear
  | copy (src : UnSortedHashtable)

namespace Op

def apply (properties : UnSortedHashtable) : Op → UnSortedHashtable
  | set key value => properties.set key value
  | remove name => properties.remove name
  | clear => properties.clear
  | copy src => properties.copy src

/-- What an operation does to the keys, one after the other. -/
def acts : Op → List (Act Bytes Amf0Any)
  | set key (some value) => [.put key value]
  | set key none => [.drop key]
  | remove name => [.drop name]
  | clear => [.clear]
  | copy src => src.map fun elem => .put elem.1 elem.2.copy

end Op

variable {journal : List (Act Bytes Amf0Any)} {properties : UnSortedHashtable}

theorem replayed_set (h : Act.Replayed journal properties) (key : Bytes) (value : Amf0Any) :
    Act.Replayed (journal ++ [.put key value]) (properties.set key (some value)) := by
  rw [set, Act.eraseP_eq_filter key h.nodup]
  exact h.put key value

theorem replayed_set_none (h : Act.Replayed journal properties) (key : Bytes) :
    Act.Replayed (journal ++ [.drop key]) (properties.set key none) := by
  rw [set, Act.eraseP_eq_filter key h.nodup, Option.map_none, Option.toList_none, List.append_nil]
  exact h.drop key

/-- A copy sets one property after the other. -/
theorem replayed_copy (h : Act.Replayed journal properties) (src : UnSortedHashtable) :
    Act.Replayed (journal ++ (Op.copy src).acts) (properties.copy src) := by
  induction src generalizing journal properties with
  | nil => rwa [Op.acts, List.map_nil, List.append_nil]
  | cons elem src ih =>
    have hset := ih (replayed_set h elem.1 elem.2.copy)
    rwa [Op.acts, List.append_assoc, List.singleton_append] at hset

/-- **An operation** leaves what its journal says. -/
theorem replayed_apply (h : Act.Replayed journal properties) (op : Op) :
    Act.Replayed (journal ++ op.acts) (op.apply properties) := by
  cases op with
  | set key value =>
    cases value with
    | some value => exact replayed_set h key value
    | none => exact replayed_set_none h key
  | remove name => exact h.drop name
  | clear => exact h.clear
  | copy src => exact replayed_copy h src

/-- **A run of operations** on a new table, by induction on the run. -/
theorem replayed_run (ops : List Op) :
    Act.Replayed (ops.flatMap Op.acts) (ops.foldl Op.apply []) := by
  induction ops using List.reverseRecOn with
  | nil => exact Act.replayed_nil
  | append_singleton ops op ih =>
    rw [List.flatMap_append, List.foldl_append, List.flatMap_singleton]
    exact replayed_apply ih op

theorem nodup_remove (h : (properties.map Prod.fst).Nodup) (name : Bytes) :
    ((properties.remove name).map Prod.fst).Nodup :=
  Act.nodup_filter name h

/-- With distinct keys a name is removed as a `set` without a value removes it. -/
theorem remove_eq_set_none (h : (properties.map Prod.fst).Nodup) (name : Bytes) :
    properties.remove name = properties.set name none := by
  rw [remove, set, Act.eraseP_eq_filter name h, Option.map_none, Option.toList_none,
    List.append_nil]

/-- A key that is set into distinct keys leaves them distinct. -/
theorem nodup_set (h : (properties.map Prod.fst).Nodup) (key : Bytes) (value : Option Amf0Any) :
    ((properties.set key value).map Prod.fst).Nodup := by
  cases value with
  | none =>
    rw [← remove_eq_set_none h]
    exact nodup_remove h key
  | some value =>
    rw [set, Act.eraseP_eq_filter key h]
    exact Act.nodup_put key value h

/-- A key that is not there is set at the end. -/
theorem set_of_notMem {key : Bytes} (h : key ∉ properties.map Prod.fst) (value : Amf0Any) :
    properties.set key (some value) = properties ++ [(key, value)] := by
  have hne : ∀ elem ∈ properties, ¬ decide (elem.1 = key) = true := fun elem helem hkey =>
    h (List.mem_map.2 ⟨elem, helem, of_decide_eq_true hkey⟩)
  rw [set, List.eraseP_of_forall_not hne]
  rfl

theorem count_set_of_mem {key : Bytes} (h : key ∈ properties.map Prod.fst) (value : Amf0Any) :
    (properties.set key (some value)).count = properties.count := by
  obtain ⟨elem, helem, rfl⟩ := List.mem_map.1 h
  have hlen := List.length_eraseP_of_mem (p := fun e => e.1 = elem.1) helem (by simp)
  have hpos := List.length_pos_of_mem helem
  rw [count, count, set, List.length_append, hlen]
  simp only [Option.map_some, Option.toList_some, List.length_singleton]
  omega

theorem count_remove_of_mem (h : (properties.map Prod.fst).Nodup) {name : Bytes}
    (hname : name ∈ properties.map Prod.fst) :
    (properties.remove name).count + 1 = properties.count := by
  obtain ⟨elem, helem, rfl⟩ := List.mem_map.1 hname
  have hlen := List.length_eraseP_of_mem (p := fun e => e.1 = elem.1) helem (by simp)
  have hpos := List.length_pos_of_mem helem
  rw [count, count, remove, ← Act.eraseP_eq_filter elem.1 h, hlen]
  omega

theorem remove_of_notMem {name : Bytes} (h : name ∉ properties.map Prod.fst) :
    properties.remove name = properties :=
  List.filter_eq_self.2 fun elem helem =>
    decide_eq_true fun hname => h (List.mem_map.2 ⟨elem, helem, hname⟩)

/-- Into a table without its keys a table is copied as it is, each value by its copy. -/
theorem copy_eq_append {src : UnSortedHashtable} (h : ((properties ++ src).map Prod.fst).Nodup) :
    properties.copy src = properties ++ src.map fun elem => (elem.1, elem.2.copy) := by
  induction src generalizing properties with
  | nil =>
    rw [List.map_nil, List.append_nil]
    rfl
  | cons elem src ih =>
    have hkey : elem.1 ∉ properties.map Prod.fst := by
      rw [List.map_append, List.nodup_append] at h
      exact fun hmem => h.2.2 elem.1 hmem elem.1 List.mem_cons_self rfl
    have hnodup : (((properties ++ [(elem.1, elem.2.copy)]) ++ src).map Prod.fst).Nodup := by
      rwa [List.append_assoc, List.singleton_append, List.map_append, List.map_cons,
        ← List.map_cons (f := Prod.fst) (a := elem), ← List.map_append]
    calc properties.copy (elem :: src)
        = copy (properties.set elem.1 (some elem.2.copy)) src := rfl
      _ = (properties ++ [(elem.1, elem.2.copy)]) ++ src.map fun elem => (elem.1, elem.2.copy) := by
        rw [set_of_notMem hkey, ih hnodup]
      _ = properties ++ (elem :: src).map fun elem => (elem.1, elem.2.copy) := by
        rw [List.append_assoc, List.singleton_append, List.map_cons]

/-- **A copy keeps the properties in order**, each value by its copy. -/
theorem copy_of_nodup (h : (properties.map Prod.fst).Nodup) :
    copy [] properties = properties.map fun elem => (elem.1, elem.2.copy) :=
  copy_eq_append h

theorem keyAt_eq_some_iff {i : ℕ} {name : Bytes} :
    properties.keyAt i = some name ↔ ∃ value, properties[i]? = some (name, value) := by
  rw [keyAt, Option.map_eq_some_iff, Prod.exists]
  constructor
  · rintro ⟨_, value, h, rfl⟩
    exact ⟨value, h⟩
  · rintro ⟨value, h⟩
    exact ⟨name, value, h, rfl⟩

/-- **A table after any run of operations**: its keys are distinct, a property is the last one set
under its name that nothing has taken away since, the keys stand in the order of their last `set`,
and a copy into an empty table keeps them so. -/
theorem table_after_run (ops : List Op) :
    ((ops.foldl Op.apply []).map Prod.fst).Nodup
    ∧ (∀ name value, getProperty (ops.foldl Op.apply []) name = some value
        ↔ ∃ n, Act.LastPut (ops.flatMap Op.acts) n (name, value))
    ∧ (∀ name, (∃ i, keyAt (ops.foldl Op.apply []) i = some name)
        ↔ ∃ n value, Act.LastPut (ops.flatMap Op.acts) n (name, value))
    ∧ (∀ i j name name', i < j → keyAt (ops.foldl Op.apply []) i = some name →
        keyAt (ops.foldl Op.apply []) j = some name' →
        ∃ n m value value', Act.LastPut (ops.flatMap Op.acts) n (name, value)
          ∧ Act.LastPut (ops.flatMap Op.acts) m (name', value') ∧ n < m)
    ∧ copy [] (ops.foldl Op.apply [])
      = (ops.foldl Op.apply []).map fun elem => (elem.1, elem.2.copy) := by
  have h := replayed_run ops
  refine ⟨h.nodup, fun name value => ?_, fun name => ?_, fun i j name name' hij hi hj => ?_, ?_⟩
  · rw [getProperty, Act.find?_eq_some_iff_mem h.nodup, h.mem_iff]
  · simp only [keyAt_eq_some_iff]
    constructor
    · rintro ⟨i, value, hi⟩
      obtain ⟨n, hn⟩ := (h.mem_iff _).1 (List.mem_of_getElem? hi)
      exact ⟨n, value, hn⟩
    · rintro ⟨n, value, hn⟩
      obtain ⟨i, hi⟩ := List.mem_iff_getElem?.1 ((h.mem_iff _).2 ⟨n, hn⟩)
      exact ⟨i, value, hi⟩
  · obtain ⟨value, hi⟩ := keyAt_eq_some_iff.1 hi
    obtain ⟨value', hj⟩ := keyAt_eq_some_iff.1 hj
    obtain ⟨hilt, hi⟩ := List.getElem?_eq_some_iff.1 hi
    obtain ⟨hjlt, hj⟩ := List.getElem?_eq_some_iff.1 hj
    obtain ⟨n, m, hn, hm, hlt⟩ := List.pairwise_iff_getElem.1 h.ordered i j hilt hjlt hij
    exact ⟨n, m, value, value', hi ▸ hn, hj ▸ hm, hlt⟩
  · exact copy_eq_append h.nodup

end UnSortedHashtable

end SmartStreaming
