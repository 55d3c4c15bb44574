import SmartStreaming.Cache.Channel
import SmartStreaming.Machinery.EntryMap

/-!
# Cache/Pool — `ChannelPool` of `tmss_channel.cpp`

Every five seconds the pool is swept: a channel that stopped more than a minute ago is marked as
killed and taken out of the map that the sweep goes over.  `sweep_iff`: the sweep does what it is
for exactly when it finds no such channel.
-/

namespace SmartStreaming

open Machinery

/-- `check_expire()` at the time `now`.  The time is unsigned, and so is the difference. -/
def Channel.CheckExpire (now : BitVec 64) (c : Channel) : Prop :=
  c.channelExitTime > 0
    ∧ (now - BitVec.ofInt 64 c.channelExitTime).toNat > 60 * 1000 * 1000

instance (now : BitVec 64) (c : Channel) : Decidable (c.CheckExpire now) :=
  inferInstanceAs (Decidable (_ ∧ _))

/-- `class ChannelPool`, with the channels it points to and the key that each of them was created
with.  A channel is filed under its own key. -/
structure ChannelPool where
  pool : EntryMap Bytes Ref
  channel : Ref → Channel
  getKey : Ref → Bytes
  keyed : ∀ e ∈ pool.entries, getKey e.2 = e.1

namespace ChannelPool

/-- `channel->set_status(status)`. -/
def setStatus (channel : Ref) (status : EStatusChannel) (p : ChannelPool) : ChannelPool :=
  { p with channel := Function.update p.channel channel ((p.channel channel).setStatus status) }

def remove (channel : Ref) (p : ChannelPool) : ChannelPool where
  pool := p.pool.erase (p.getKey channel)
  channel := p.channel
  getKey := p.getKey
  keyed e he := p.keyed e (List.mem_of_mem_filter he)

/-- The body of the loop of `cycle`, for one entry of the map. -/
def visit (now : BitVec 64) (iter : Bytes × Ref) (p : ChannelPool) : ChannelPool :=
  if (p.channel iter.2).CheckExpire now then (p.setStatus iter.2 .kill).remove iter.2 else p

/-- One sweep of `cycle` at the time `now`; a turn of the loop leaves no more entries than it has
found. -/
def sweep (now : BitVec 64) (p : ChannelPool) : Except LoopFault ChannelPool :=
  EntryMap.loop pool (visit now) p.pool.entries.length p.pool.entries.head? p

/-! ## What a sweep is for -/

/-- **The expired channels are killed and gone**, and the others are as they were. -/
structure Swept (now : BitVec 64) (p p' : ChannelPool) : Prop where
  entries : p'.pool.entries = p.pool.entries.filter fun e => ¬ (p.channel e.2).CheckExpire now
  killed : ∀ e ∈ p.pool.entries, (p.channel e.2).CheckExpire now →
    (p'.channel e.2).status = .kill
  kept : ∀ e ∈ p.pool.entries, ¬ (p.channel e.2).CheckExpire now → p'.channel e.2 = p.channel e.2

variable {now : BitVec 64} {p : ChannelPool} {e : Bytes × Ref}

theorem visit_of_not_expired (h : ¬ (p.channel e.2).CheckExpire now) : visit now e p = p :=
  if_neg h

/-- An expired channel is taken out under its own key, which is that of the entry. -/
theorem notMem_visit (he : e ∈ p.pool.entries) (h : (p.channel e.2).CheckExpire now) :
    e.1 ∉ (visit now e p).pool.entries.map Prod.fst := by
  rw [visit, if_pos h, ← p.keyed e he]
  exact EntryMap.notMem_erase p.pool (p.getKey e.2)

/-- Where nothing has expired, nothing is done. -/
theorem sweep_of_not_expired (h : ∀ e ∈ p.pool.entries, ¬ (p.channel e.2).CheckExpire now) :
    sweep now p = .ok p := by
  have hkeeps : ∀ e ∈ p.pool.entries, ∀ q, q = p → visit now e q = p := by
    rintro e he q rfl
    exact visit_of_not_expired (h e he)
  have hfold : ∀ todo : List (Bytes × Ref), (∀ e ∈ todo, e ∈ p.pool.entries) →
      todo.foldl (fun q e => visit now e q) p = p := by
    intro todo htodo
    induction todo with
    | nil => rfl
    | cons e todo ih =>
      rw [List.foldl_cons, hkeeps e (htodo e List.mem_cons_self) p rfl]
      exact ih fun x hx => htodo x (List.mem_cons_of_mem _ hx)
  rw [sweep, EntryMap.loop_of_keeps (I := (· = p)) (fun q hq => congrArg pool hq)
    (List.nil_append _).symm hkeeps rfl (le_refl _), hfold _ fun _ => id]

/-- **The first expired channel ends the sweep**: the iterator stands at the entry that is
erased. -/
theorem sweep_of_expired (he : e ∈ p.pool.entries) (h : (p.channel e.2).CheckExpire now) :
    sweep now p = .error .erased := by
  obtain ⟨x, hx⟩ := Option.isSome_iff_exists.1 (List.find?_isSome
    (p := fun e => decide ((p.channel e.2).CheckExpire now)).2 ⟨e, he, decide_eq_true h⟩)
  obtain ⟨hexpired, todo, behind, hsplit, hbefore⟩ := List.find?_eq_some_iff_append.1 hx
  have hfresh : ∀ y ∈ todo, ∀ q, q = p → visit now y q = p := by
    rintro y hy q rfl
    exact visit_of_not_expired (by simpa using hbefore y hy)
  have hgone : ∀ q, q = p → x.1 ∉ (visit now x q).pool.entries.map Prod.fst := by
    rintro q rfl
    exact notMem_visit (List.mem_of_find?_eq_some hx) (of_decide_eq_true hexpired)
  rw [sweep, hsplit]
  refine EntryMap.loop_of_erased (I := (· = p)) (fun q hq => congrArg pool hq)
    (hsplit.trans (List.nil_append _).symm) hfresh hgone rfl ?_
  rw [List.length_append, List.length_cons]
  omega

/-- **`cycle`** sweeps the pool as it should exactly when no channel of it has expired. -/
theorem sweep_iff (now : BitVec 64) (p : ChannelPool) :
    (∃ p', sweep now p = .ok p' ∧ Swept now p p') ↔
      ∀ e ∈ p.pool.entries, ¬ (p.channel e.2).CheckExpire now := by
  constructor
  · rintro ⟨p', hsweep, -⟩ e he hexpired
    rw [sweep_of_expired he hexpired] at hsweep
    cases hsweep
  · intro h
    refine ⟨p, sweep_of_not_expired h, ?_, ?_, fun _ _ _ => rfl⟩
    · rw [List.filter_eq_self.2]
      exact fun e he => decide_eq_true (h e he)
    · exact fun e he hexpired => absurd hexpired (h e he)

/-- A pool of two channels, of which the second one stopped two minutes before the time `now`. -/
def twoChannels (now : ℤ) : ChannelPool where
  pool := ⟨[(text "a", 0), (text "b", 1)], by decide⟩
  channel ref := if ref = 1 then { channelExitTime := now - 120000000 } else {}
  getKey ref := if ref = 1 then text "b" else text "a"
  keyed := by decide

/-- **A pool with an expired channel is not swept.** -/
theorem expired_not_swept :
    ¬ ∃ p', sweep 200000000 (twoChannels 200000000) = .ok p'
      ∧ Swept 200000000 (twoChannels 200000000) p' := by
  rintro ⟨p', hsweep, -⟩
  rw [sweep_of_expired (e := (text "b", 1)) (by decide) (by decide)] at hsweep
  cases hsweep

end ChannelPool

end SmartStreaming
