import Mathlib.Data.List.Nodup

/-!
# Machinery/Journal — an ordered map and the journal of what was done to it

An ordered map is the list of its entries; putting an entry moves its key to the end.  A journal
lists what is done to a map.  `LastPut journal n e` reads off the journal alone that its `n`-th act
puts `e` and that nothing later touches the key; `Replayed` says that these are the entries of the
map, in this order.
-/

namespace Machinery

/-- What is done to an ordered map. -/
inductive Act (κ α : Type*)
  | put (key : κ) (value : α)
  | drop (key : κ)
  | clear

namespace Act

variable {κ α : Type*}

/-- The act puts the key or takes it away. -/
def Touches (k : κ) : Act κ α → Prop
  | put key _ => key = k
  | drop key => key = k
  | clear => True

/-- The `n`-th act puts the entry, and no later one touches its key. -/
def LastPut (journal : List (Act κ α)) (n : ℕ) (e : κ × α) : Prop :=
  journal[n]? = some (put e.1 e.2) ∧ ∀ m act, n < m → journal[m]? = some act → ¬ act.Touches e.1

/-- **The entries are those that the journal leaves**, each key once, in the order of the puts. -/
structure Replayed (journal : List (Act κ α)) (entries : List (κ × α)) : Prop where
  nodup : (entries.map Prod.fst).Nodup
  mem_iff : ∀ e, e ∈ entries ↔ ∃ n, LastPut journal n e
  ordered : entries.Pairwise fun e e' =>
    ∃ n m, LastPut journal n e ∧ LastPut journal m e' ∧ n < m

variable {journal : List (Act κ α)} {act : Act κ α} {entries : List (κ × α)} {n : ℕ} {e : κ × α}

theorem LastPut.lt (h : LastPut journal n e) : n < journal.length :=
  (List.getElem?_eq_some_iff.1 h.1).1

/-- **One more act**: an earlier put lasts unless the key is touched, a new put is the last one. -/
theorem lastPut_concat : LastPut (journal ++ [act]) n e
    ↔ (LastPut journal n e ∧ ¬ act.Touches e.1) ∨ (n = journal.length ∧ act = put e.1 e.2) := by
  have hlen : (journal ++ [act]).length = journal.length + 1 := by simp
  have hlast : (journal ++ [act])[journal.length]? = some act := List.getElem?_concat_length
  have hbefore : ∀ m, m < journal.length → (journal ++ [act])[m]? = journal[m]? := fun m hm =>
    List.getElem?_append_left hm
  constructor
  · intro h
    rcases Nat.lt_or_ge n journal.length with hn | hn
    · refine Or.inl ⟨⟨hbefore n hn ▸ h.1, fun m a hm ha => ?_⟩, h.2 _ act hn hlast⟩
      have hlt := (List.getElem?_eq_some_iff.1 ha).1
      exact h.2 m a hm (hbefore m hlt ▸ ha)
    · have hle := h.lt
      obtain rfl : n = journal.length := by omega
      exact Or.inr ⟨rfl, Option.some_inj.1 (hlast.symm.trans h.1)⟩
  · rintro (⟨h, hact⟩ | ⟨rfl, rfl⟩)
    · refine ⟨(hbefore n h.lt).trans h.1, fun m a hm ha => ?_⟩
      have hlt := (List.getElem?_eq_some_iff.1 ha).1
      rcases Nat.lt_or_ge m journal.length with hm' | hm'
      · exact h.2 m a hm (hbefore m hm' ▸ ha)
      · obtain rfl : m = journal.length := by omega
        exact Option.some_inj.1 (hlast.symm.trans ha) ▸ hact
    · refine ⟨hlast, fun m a hm ha => ?_⟩
      have hlt := (List.getElem?_eq_some_iff.1 ha).1
      omega

/-- An act that puts nothing leaves the puts whose keys it does not touch. -/
theorem lastPut_concat_of_not_put (hact : ∀ k v, act ≠ put k v) :
    LastPut (journal ++ [act]) n e ↔ LastPut journal n e ∧ ¬ act.Touches e.1 := by
  rw [lastPut_concat]
  exact or_iff_left fun h => hact _ _ h.2

/-- The entries whose keys an act does not touch, under the journal with the act. -/
theorem Replayed.ordered_concat {kept : List (κ × α)} (h : Replayed journal entries)
    (hsub : kept.Sublist entries) (hact : ∀ e ∈ kept, ¬ act.Touches e.1) :
    kept.Pairwise fun e e' =>
      ∃ n m, LastPut (journal ++ [act]) n e ∧ LastPut (journal ++ [act]) m e' ∧ n < m := by
  refine (h.ordered.sublist hsub).imp_of_mem ?_
  rintro e e' he he' ⟨n, m, hn, hm, hlt⟩
  exact ⟨n, m, lastPut_concat.2 (Or.inl ⟨hn, hact e he⟩),
    lastPut_concat.2 (Or.inl ⟨hm, hact e' he'⟩), hlt⟩

theorem replayed_nil : Replayed ([] : List (Act κ α)) [] where
  nodup := List.nodup_nil
  mem_iff _ := by simp [LastPut]
  ordered := List.Pairwise.nil

theorem Replayed.clear (_ : Replayed journal entries) : Replayed (journal ++ [clear]) [] where
  nodup := List.nodup_nil
  mem_iff e := by
    have hput : ∀ k v, Act.clear ≠ (Act.put k v : Act κ α) := by simp
    simp only [lastPut_concat_of_not_put hput, Touches, not_true_eq_false, and_false, exists_false,
      List.not_mem_nil]
  ordered := List.Pairwise.nil

variable [DecidableEq κ]

theorem nodup_filter (k : κ) (h : (entries.map Prod.fst).Nodup) :
    ((entries.filter fun e => e.1 ≠ k).map Prod.fst).Nodup :=
  h.sublist (List.filter_sublist.map Prod.fst)

theorem mem_filter_ne {k : κ} : e ∈ entries.filter (fun e => e.1 ≠ k) ↔ e ∈ entries ∧ k ≠ e.1 := by
  rw [List.mem_filter, decide_eq_true_iff, ne_comm]

theorem nodup_put (k : κ) (v : α) (h : (entries.map Prod.fst).Nodup) :
    ((entries.filter (fun e => e.1 ≠ k) ++ [(k, v)]).map Prod.fst).Nodup := by
  rw [List.map_append, List.nodup_append]
  refine ⟨nodup_filter k h, List.nodup_singleton _, ?_⟩
  intro k' hk' b hb
  obtain rfl := List.mem_singleton.1 hb
  obtain ⟨e, he, rfl⟩ := List.mem_map.1 hk'
  exact (mem_filter_ne.1 he).2.symm

/-- **Dropping a key** takes its entry out. -/
theorem Replayed.drop (h : Replayed journal entries) (k : κ) :
    Replayed (journal ++ [drop k]) (entries.filter fun e => e.1 ≠ k) where
  nodup := nodup_filter k h.nodup
  mem_iff e := by
    have hput : ∀ k' v, Act.drop k ≠ (Act.put k' v : Act κ α) := by simp
    simp only [mem_filter_ne, h.mem_iff, lastPut_concat_of_not_put hput, exists_and_right, Touches,
      ne_eq]
  ordered := h.ordered_concat List.filter_sublist fun _ he => (mem_filter_ne.1 he).2

/-- **Putting an entry** takes the old one of its key out and comes last. -/
theorem Replayed.put (h : Replayed journal entries) (k : κ) (v : α) :
    Replayed (journal ++ [put k v]) (entries.filter (fun e => e.1 ≠ k) ++ [(k, v)]) where
  nodup := nodup_put k v h.nodup
  mem_iff e := by
    rw [List.mem_append, mem_filter_ne, h.mem_iff, List.mem_singleton]
    constructor
    · rintro (⟨⟨n, hn⟩, hk⟩ | rfl)
      · exact ⟨n, lastPut_concat.2 (Or.inl ⟨hn, hk⟩)⟩
      · exact ⟨_, lastPut_concat.2 (Or.inr ⟨rfl, rfl⟩)⟩
    · rintro ⟨n, hn⟩
      rcases lastPut_concat.1 hn with ⟨hn, hk⟩ | ⟨_, heq⟩
      · exact Or.inl ⟨⟨n, hn⟩, hk⟩
      · obtain ⟨rfl, rfl⟩ := Act.put.inj heq
        exact Or.inr rfl
  ordered := by
    have hkept : ∀ e ∈ entries.filter (fun e => e.1 ≠ k), ¬ (Act.put k v).Touches e.1 :=
      fun _ he => (mem_filter_ne.1 he).2
    refine List.pairwise_append.2 ⟨h.ordered_concat List.filter_sublist hkept,
      List.pairwise_singleton _ _, ?_⟩
    intro e he e' he'
    obtain rfl := List.mem_singleton.1 he'
    obtain ⟨n, hn⟩ := (h.mem_iff e).1 (mem_filter_ne.1 he).1
    exact ⟨n, journal.length, lastPut_concat.2 (Or.inl ⟨hn, hkept e he⟩),
      lastPut_concat.2 (Or.inr ⟨rfl, rfl⟩), hn.lt⟩

/-- With distinct keys, the first entry of a key is the only one. -/
theorem eraseP_eq_filter (k : κ) (h : (entries.map Prod.fst).Nodup) :
    entries.eraseP (fun e => e.1 = k) = entries.filter fun e => e.1 ≠ k := by
  induction entries with
  | nil => rfl
  | cons e entries ih =>
    rw [List.map_cons, List.nodup_cons] at h
    by_cases hk : e.1 = k
    · have hrest : ∀ x ∈ entries, decide (x.1 ≠ k) = true := fun x hx =>
        decide_eq_true fun hx' => h.1 (by rw [hk, ← hx']; exact List.mem_map_of_mem hx)
      rw [List.eraseP_cons_of_pos (by simpa using hk), List.filter_cons_of_neg (by simpa using hk),
        List.filter_eq_self.2 hrest]
    · rw [List.eraseP_cons_of_neg (by simpa using hk), List.filter_cons_of_pos (by simpa using hk),
        ih h.2]

/-- With distinct keys, looking a key up finds the entry that there is. -/
theorem find?_eq_some_iff_mem (h : (entries.map Prod.fst).Nodup) {k : κ} {v : α} :
    (entries.find? fun e => e.1 = k).map Prod.snd = some v ↔ (k, v) ∈ entries := by
  induction entries with
  | nil => simp
  | cons e entries ih =>
    obtain ⟨k', v'⟩ := e
    rw [List.map_cons, List.nodup_cons] at h
    rw [List.find?_cons, List.mem_cons, Prod.mk.injEq]
    by_cases hk : k' = k
    · subst hk
      have hout : (k', v) ∉ entries := fun hv => h.1 (List.mem_map.2 ⟨_, hv, rfl⟩)
      simp only [decide_true, Option.map_some, Option.some_inj, true_and, hout, or_false, eq_comm]
    · simp only [hk, decide_false, ih h.2, Ne.symm hk, false_and, false_or]

end Act

end Machinery
