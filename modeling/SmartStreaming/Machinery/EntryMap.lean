import Mathlib.Data.List.Nodup
import Mathlib.Data.List.Sort
import Mathlib.Data.List.TakeWhile

/-!
# Machinery/EntryMap — a loop over a map that its body may change

A map is the list of its entries, in the order in which an iterator meets them, with distinct keys;
`find_eq_some` and `mem_insert` say what is found in it and what is put there.  An iterator that
stands at an entry is known by its key; it can be moved on as long as the map has the entry.
`loop_of_keeps` runs a loop whose body leaves the map alone, `loop_of_erased` one whose body erases
the entry that the iterator stands at.
-/

namespace Machinery

/-- A map, as its iterators see it. -/
structure EntryMap (κ α : Type*) where
  entries : List (κ × α)
  nodup : (entries.map Prod.fst).Nodup

/-- What ends a loop over a map too early. -/
inductive LoopFault
  /-- The iterator is moved on from an entry that has been erased. -/
  | erased
  | outOfFuel
  deriving DecidableEq

namespace EntryMap

variable {κ α σ : Type*} [DecidableEq κ]

/-- `erase(k)`. -/
def erase (m : EntryMap κ α) (k : κ) : EntryMap κ α where
  entries := m.entries.filter fun e => e.1 ≠ k
  nodup := m.nodup.sublist (List.filter_sublist.map Prod.fst)

/-- `find(k)`. -/
def find (m : EntryMap κ α) (k : κ) : Option α :=
  (m.entries.find? fun e => e.1 = k).map Prod.snd

/-- `insert(make_pair(k, a))` into a map whose keys are ordered by `r`; a key that is there keeps
what it has. -/
def insert (r : κ → κ → Prop) [DecidableRel r] (m : EntryMap κ α) (k : κ) (a : α) :
    EntryMap κ α where
  entries :=
    if k ∈ m.entries.map Prod.fst then m.entries
    else m.entries.orderedInsert (fun x y => r x.1 y.1) (k, a)
  nodup := by
    split
    · exact m.nodup
    · rename_i hk
      rw [((List.perm_orderedInsert _ (k, a) m.entries).map Prod.fst).nodup_iff, List.map_cons,
        List.nodup_cons]
      exact ⟨hk, m.nodup⟩

/-- `++it`, where `it` stands at the entry with the key `k`: the entry behind it, or the end. -/
def advance (m : EntryMap κ α) (k : κ) : Except LoopFault (Option (κ × α)) :=
  match m.entries.dropWhile fun e => e.1 ≠ k with
  | [] => .error .erased
  | _ :: behind => .ok behind.head?

/-- `for (auto iter : map) { body }`, from the entry on at which the iterator stands; `view` is the
map in the state that the body works on. -/
def loop (view : σ → EntryMap κ α) (body : κ × α → σ → σ) :
    ℕ → Option (κ × α) → σ → Except LoopFault σ
  | _, none, s => .ok s
  | 0, some _, _ => .error .outOfFuel
  | fuel + 1, some e, s =>
    match (view (body e s)).advance e.1 with
    | .error fault => .error fault
    | .ok next => loop view body fuel next (body e s)

variable {m : EntryMap κ α} {e : κ × α} {before behind : List (κ × α)}

theorem notMem_erase (m : EntryMap κ α) (k : κ) : k ∉ (m.erase k).entries.map Prod.fst := by
  rw [List.mem_map]
  rintro ⟨e, he, rfl⟩
  rw [erase, List.mem_filter] at he
  exact absurd rfl (of_decide_eq_true he.2)

theorem mem_of_mem_erase {k : κ} (h : e ∈ (m.erase k).entries) : e ∈ m.entries :=
  List.mem_of_mem_filter h

omit [DecidableEq κ] in
/-- Two entries with one key are one entry. -/
theorem eq_of_mem_of_mem {k : κ} {a b : α} (ha : (k, a) ∈ m.entries) (hb : (k, b) ∈ m.entries) :
    a = b := by
  have := List.inj_on_of_nodup_map m.nodup ha hb rfl
  exact congrArg Prod.snd this

theorem find_eq_some {k : κ} {a : α} : m.find k = some a ↔ (k, a) ∈ m.entries := by
  rw [find, Option.map_eq_some_iff]
  constructor
  · rintro ⟨⟨k', a'⟩, hfind, rfl⟩
    have hkey := List.find?_some hfind
    obtain rfl : k' = k := of_decide_eq_true hkey
    exact List.mem_of_find?_eq_some hfind
  · intro h
    obtain ⟨x, hx⟩ := Option.isSome_iff_exists.1 (List.find?_isSome
      (p := fun e : κ × α => decide (e.1 = k)).2 ⟨(k, a), h, decide_eq_true rfl⟩)
    obtain ⟨k', a'⟩ := x
    have hkey := List.find?_some hx
    obtain rfl : k' = k := of_decide_eq_true hkey
    exact ⟨_, hx, eq_of_mem_of_mem (List.mem_of_find?_eq_some hx) h⟩

theorem find_eq_none {k : κ} : m.find k = none ↔ k ∉ m.entries.map Prod.fst := by
  rw [Option.eq_none_iff_forall_ne_some, List.mem_map]
  constructor
  · rintro h ⟨⟨_, a⟩, he, rfl⟩
    exact h a (find_eq_some.2 he)
  · rintro h a ha
    exact h ⟨(k, a), find_eq_some.1 ha, rfl⟩

/-- **What is in the map after an insertion** of a new key. -/
theorem mem_insert {r : κ → κ → Prop} [DecidableRel r] {k : κ} {a : α}
    (hk : k ∉ m.entries.map Prod.fst) :
    e ∈ (m.insert r k a).entries ↔ e = (k, a) ∨ e ∈ m.entries := by
  rw [insert]
  simp only [if_neg hk, List.mem_orderedInsert]

/-- Behind an entry of the map comes the next one. -/
theorem advance_of_append (h : m.entries = before ++ e :: behind) :
    m.advance e.1 = .ok behind.head? := by
  have hbefore : ∀ x ∈ before, decide (x.1 ≠ e.1) = true := by
    have hnodup := m.nodup
    rw [h, List.map_append, List.map_cons, List.nodup_append] at hnodup
    intro x hx
    exact decide_eq_true (hnodup.2.2 x.1 (List.mem_map_of_mem hx) e.1 List.mem_cons_self)
  have hdrop : (before ++ e :: behind).dropWhile (fun x => decide (x.1 ≠ e.1)) = e :: behind := by
    rw [List.dropWhile_append_of_pos hbefore]
    exact List.dropWhile_cons_of_neg (by simp)
  rw [advance, h, hdrop]

theorem advance_of_notMem {k : κ} (h : k ∉ m.entries.map Prod.fst) :
    m.advance k = .error .erased := by
  have hdrop : m.entries.dropWhile (fun x => decide (x.1 ≠ k)) = [] := by
    rw [List.dropWhile_eq_nil_iff]
    intro x hx
    exact decide_eq_true fun hk => h (hk ▸ List.mem_map_of_mem hx)
  rw [advance, hdrop]

section Loop

variable {view : σ → EntryMap κ α} {body : κ × α → σ → σ} {I : σ → Prop} {s : σ}
  {todo : List (κ × α)}

/-- **A body that leaves the map alone** is run for each of its entries; `I` is what it keeps. -/
theorem loop_of_keeps (hI : ∀ s, I s → view s = m) (hm : m.entries = before ++ todo)
    (hkeeps : ∀ e ∈ todo, ∀ s, I s → I (body e s)) (hs : I s) {fuel : ℕ}
    (hfuel : todo.length ≤ fuel) :
    loop view body fuel todo.head? s = .ok (todo.foldl (fun s e => body e s) s) := by
  induction todo generalizing before s fuel with
  | nil =>
    rw [List.head?_nil, loop]
    rfl
  | cons e todo ih =>
    obtain ⟨fuel, rfl⟩ : ∃ k, fuel = k + 1 := ⟨fuel - 1, by rw [List.length_cons] at hfuel; omega⟩
    have hbody := hkeeps e List.mem_cons_self s hs
    rw [List.head?_cons, loop, hI _ hbody, advance_of_append hm, List.foldl_cons]
    have hm' : m.entries = (before ++ [e]) ++ todo := by
      rw [hm, List.append_assoc, List.singleton_append]
    exact ih hm'
      (fun x hx => hkeeps x (List.mem_cons_of_mem _ hx)) hbody
      (by rw [List.length_cons] at hfuel; omega)

/-- **A body that erases the entry it is run for** ends the loop: the iterator cannot be moved
on. -/
theorem loop_of_erased (hI : ∀ s, I s → view s = m)
    (hm : m.entries = before ++ (todo ++ e :: behind))
    (hkeeps : ∀ e ∈ todo, ∀ s, I s → I (body e s))
    (herase : ∀ s, I s → e.1 ∉ (view (body e s)).entries.map Prod.fst) (hs : I s) {fuel : ℕ}
    (hfuel : todo.length < fuel) :
    loop view body fuel (todo ++ e :: behind).head? s = .error .erased := by
  induction todo generalizing before s fuel with
  | nil =>
    obtain ⟨fuel, rfl⟩ : ∃ k, fuel = k + 1 := ⟨fuel - 1, by omega⟩
    rw [List.nil_append, List.head?_cons, loop, advance_of_notMem (herase s hs)]
  | cons x todo ih =>
    obtain ⟨fuel, rfl⟩ : ∃ k, fuel = k + 1 := ⟨fuel - 1, by omega⟩
    have hbody := hkeeps x List.mem_cons_self s hs
    rw [List.cons_append] at hm
    rw [List.cons_append, List.head?_cons, loop, hI _ hbody, advance_of_append hm]
    have hm' : m.entries = (before ++ [x]) ++ (todo ++ e :: behind) := by
      rw [hm, List.append_assoc, List.singleton_append]
    exact ih hm'
      (fun y hy => hkeeps y (List.mem_cons_of_mem _ hy)) hbody
      (by rw [List.length_cons] at hfuel; omega)

end Loop

end EntryMap

end Machinery
