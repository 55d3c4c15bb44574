import SmartStreaming.Rtmp.Amf.Arrays
import SmartStreaming.Rtmp.Amf.Encoding

/-!
# Rtmp/Amf/Counts — the count field and the entries behind it

`write` puts `_count` in front of the entries.  The mutators an `Amf0EcmaArray` inherits from
`Amf0Object` do not know of it, `Amf0StrictArray::clear` forgets it, and `read` takes it from the
bytes before it has seen an entry.  Each operation has the condition under which the two still
agree (`Op.KeepsCount`), and a run of operations that meet theirs keeps them so (`count_of_run`).
They agree exactly where the four bytes that `write` emits behind the marker are the number of
entries behind them (`countWritten_iff`).
-/

namespace SmartStreaming

open Machinery Comp Buffer Method

/-- The count field that `write` puts in front of the entries is their number. -/
def Amf0Any.CountMatches : Amf0Any → Prop
  | .ecmaArray properties count => count.toInt = UnSortedHashtable.count properties
  | .strictArray properties count => count.toInt = properties.length
  | _ => True

namespace Amf0Any

/-- The bytes of each entry of an array. -/
def entries : Amf0Any → List Bytes
  | ecmaArray properties _ =>
    properties.map fun p => Buffer.encoding (amf0Utf8Moves p.1) ++ p.2.encoding
  | strictArray properties _ => properties.map encoding
  | _ => []

/-- **What an array has put into a buffer**: a marker, four bytes that say how many entries follow,
and these entries. -/
def CountWritten (v : Amf0Any) (w w' : Buffer) : Prop :=
  ∃ marker field tail, field.length = 4
    ∧ w'.content = w.content ++ marker :: (field ++ (v.entries.flatten ++ tail))
    ∧ (BitVec.ofNat 32 (beNat field)).toInt = v.entries.length

theorem flatten_entries_ecmaArray (properties : UnSortedHashtable) (count : BitVec 32) :
    (ecmaArray properties count).entries.flatten = propertiesEncoding properties := by
  rw [entries]
  induction properties with
  | nil => rfl
  | cons p properties ih =>
    obtain ⟨name, any⟩ := p
    rw [List.map_cons, List.flatten_cons, ih, propertiesEncoding_cons, encoding_amf0Utf8Moves,
      List.append_assoc, List.append_assoc]

theorem flatten_entries_strictArray (properties : List Amf0Any) (count : BitVec 32) :
    (strictArray properties count).entries.flatten = elementsEncoding properties := by
  rw [entries]
  induction properties with
  | nil => rfl
  | cons any properties ih => rw [List.map_cons, List.flatten_cons, ih, elementsEncoding_cons]

theorem ofNat_beNat_beBytes (count : BitVec 32) :
    BitVec.ofNat 32 (beNat (beBytes 4 count.toNat)) = count := by
  rw [beNat_beBytes, show (256 : ℕ) ^ 4 = 2 ^ 32 by decide, Nat.mod_eq_of_lt count.isLt,
    BitVec.ofNat_toNat, BitVec.setWidth_eq]

/-- **The count that `write` emits** is the number of entries behind it exactly where the count of
the array is. -/
theorem countWritten_iff {v : Amf0Any} {marker : Byte} {count : BitVec 32} {tail : Bytes}
    (hencoding : v.encoding = marker :: (beBytes 4 count.toNat ++ (v.entries.flatten ++ tail)))
    {w w' : Buffer} (hw : w.Valid) (hroom : v.totalSize ≤ w.writeLeft)
    (hrun : v.write w = .ok (.ok ⟨⟩, w')) :
    v.CountWritten w w' ↔ count.toInt = v.entries.length := by
  rw [← length_encoding] at hroom
  rw [write_eq_emit] at hrun
  have hcontent : w'.content = w.content ++ v.encoding :=
    ((emit_of_room hw v.moves hroom).elim_ok hrun).content_eq
  rw [hencoding] at hcontent
  constructor
  · rintro ⟨marker', field, tail', hfield, hcontent', hcount⟩
    -- the four bytes behind the marker are those of the count
    have hbytes := List.append_cancel_left (hcontent.symm.trans hcontent')
    obtain ⟨rfl, -⟩ :=
      List.append_inj (List.cons.inj hbytes).2 (by rw [length_beBytes, hfield])
    rwa [ofNat_beNat_beBytes] at hcount
  · intro hcount
    refine ⟨marker, beBytes 4 count.toNat, tail, length_beBytes .., hcontent, ?_⟩
    rwa [ofNat_beNat_beBytes]

theorem countWritten_ecmaArray_iff {properties : UnSortedHashtable} {count : BitVec 32}
    {w w' : Buffer} (hw : w.Valid)
    (hroom : (ecmaArray properties count).totalSize ≤ w.writeLeft)
    (hrun : (ecmaArray properties count).write w = .ok (.ok ⟨⟩, w')) :
    (ecmaArray properties count).CountWritten w w'
      ↔ (ecmaArray properties count).CountMatches := by
  have hencoding := encoding_ecmaArray properties count
  rw [← flatten_entries_ecmaArray properties count] at hencoding
  rw [countWritten_iff hencoding hw hroom hrun, entries, List.length_map]
  rfl

theorem countWritten_strictArray_iff {properties : List Amf0Any} {count : BitVec 32}
    {w w' : Buffer} (hw : w.Valid)
    (hroom : (strictArray properties count).totalSize ≤ w.writeLeft)
    (hrun : (strictArray properties count).write w = .ok (.ok ⟨⟩, w')) :
    (strictArray properties count).CountWritten w w'
      ↔ (strictArray properties count).CountMatches := by
  have hencoding := encoding_strictArray properties count
  rw [← flatten_entries_strictArray properties count,
    ← List.append_nil (strictArray properties count).entries.flatten] at hencoding
  rw [countWritten_iff hencoding hw hroom hrun, entries, List.length_map]
  rfl

end Amf0Any

/-- The marker and the count that the `read` of an array begins with. -/
def amf0ReadArrayHeader (marker : Byte) : Stream (BitVec 32) := do
  amf0ReadMarker marker
  requireRead 4 errorRtmpAmf0Decode
  read4bytes

namespace Method

variable {τ α β : Type}

theorem stream_bind (f : Stream α) (g : α → Stream β) :
    (stream (f >>= g) : Method τ β) = stream f >>= fun a => stream (g a) := by
  funext s
  rcases hrun : f s.1 with e | ⟨c | a, b'⟩
  · rw [run_bind_fault (f := stream f) (run_zoom_fault hrun)]
    exact run_zoom_fault (run_bind_fault hrun g)
  · rw [run_bind_error (f := stream f) (run_zoom_ok hrun)]
    exact run_zoom_ok (run_bind_error hrun)
  · rw [run_bind_ok (f := stream f) (a := a) (run_zoom_ok hrun)]
    unfold stream zoom
    rw [run_bind_ok hrun]

theorem run_stream_ok {f : Stream α} {b b' : Buffer} {a : α} (h : f b = .ok (.ok a, b'))
    (this : τ) : (stream f : Method τ α) (b, this) = .ok (.ok a, (b', this)) :=
  run_zoom_ok h

theorem run_update (g : τ → τ) (b : Buffer) (this : τ) :
    update g (b, this) = .ok (.ok ⟨⟩, (b, g this)) := rfl

/-- What follows a call on the stream may speak of its run. -/
theorem holds_stream_of_runs {E : ℤ → Buffer × τ → Prop} {Q : α → Buffer × τ → Prop}
    {f : Stream α} {b : Buffer} {this : τ}
    (hE : ∀ c b', f b = .ok (.error c, b') → E c (b', this))
    (hQ : ∀ a b', f b = .ok (.ok a, b') → Q a (b', this)) :
    Holds (fun _ => True) E Q (stream f) (b, this) := by
  rw [stream, holds_zoom]
  exact holds_of_runs hE hQ

theorem keeps_stream {P : τ → Prop} (f : Stream α) :
    Keeps (fun s : Buffer × τ => P s.2) (stream f) :=
  Keeps.zoom (P := fun _ => True) (fun _ _ => holds_true f _) (fun _ _ => trivial) fun _ _ h _ => h

theorem keeps_update {P : τ → Prop} {g : τ → τ} (hg : ∀ this, P this → P (g this)) :
    Keeps (fun s : Buffer × τ => P s.2) (update g) :=
  Keeps.get_bind fun s hs => keeps_put (hg s.2 hs)

/-- **The count that an array announces**, and a loop that reads as many entries: where the loop
brings about `P` exactly if the entries follow, `read` does exactly if they follow a header. -/
theorem holds_header_bind {marker : Byte} {set : BitVec 32 → τ → τ}
    {loop : BitVec 32 → Method τ PUnit} (P : τ → Prop) {Follows : BitVec 32 → Buffer → Prop}
    {b : Buffer} {this : τ} (hP : P this)
    (hloop : ∀ count b', Holds (fun _ => True) (fun _ s => P s.2 ↔ Follows count b')
      (fun _ s => P s.2 ↔ Follows count b') (loop count) (b', set count this)) :
    Holds (fun _ => True)
      (fun _ s => P s.2
        ↔ ∀ count b', amf0ReadArrayHeader marker b = .ok (.ok count, b') → Follows count b')
      (fun _ s => P s.2
        ↔ ∀ count b', amf0ReadArrayHeader marker b = .ok (.ok count, b') → Follows count b')
      (stream (amf0ReadArrayHeader marker) >>= fun count => update (set count) >>= fun _ =>
        loop count) (b, this) := by
  rw [holds_bind]
  refine holds_stream_of_runs (fun c b₁ hheader => ?_) fun count b₁ hheader => ?_
  · refine iff_of_true hP fun count b' hrun => ?_
    exact absurd (hheader.symm.trans hrun) (by simp)
  · have hfollow : (∀ count b', amf0ReadArrayHeader marker b = .ok (.ok count, b') →
        Follows count b') ↔ Follows count b₁ := by
      refine ⟨fun h => h count b₁ hheader, fun h count' b' hrun => ?_⟩
      obtain ⟨rfl, rfl⟩ : count = count' ∧ b₁ = b' := by simpa using hheader.symm.trans hrun
      exact h
    rw [hfollow]
    exact hloop count b₁

end Method

namespace Amf0EcmaArray

/-- The operations on an array; `read` is given the buffer it reads from. -/
inductive Op
  | set (key : Bytes) (value : Option Amf0Any)
  | remove (name : Bytes)
  | clear
  | copy
  | read (b : Buffer)

/-- The properties that the loop of `read` comes to bring the table to `count` of them. -/
inductive Follow (any : Stream Amf0Any) (count : ℤ) : UnSortedHashtable → Buffer → Prop
  | done {ps : UnSortedHashtable} {b : Buffer} (h : ps.count = count) : Follow any count ps b
  | next {ps : UnSortedHashtable} {name : Bytes} {value : Amf0Any} {b b₁ b₂ b₃ : Buffer}
      (hlt : ps.count < count) (hread : ¬ b.readEmpty)
      (heof : amf0IsObjectEof b = .ok (.ok false, b₁))
      (hname : amf0ReadUtf8 [] b₁ = .ok (.ok name, b₂)) (hvalue : any b₂ = .ok (.ok value, b₃))
      (h : Follow any count (ps.set name (some value)) b₃) : Follow any count ps b

namespace Op

/-- What an operation can leave; a read leaves something where it fails, too. -/
def Leaves (arr arr' : Amf0EcmaArray) : Op → Prop
  | set key value => arr' = arr.set key value
  | remove name => arr' = arr.remove name
  | clear => arr' = arr.clear
  | copy => arr' = arr.copy
  | read b => ∃ r b', readFrom (b, arr) = .ok (r, (b', arr'))

/-- An operation that leaves the number of properties alone, or a read whose bytes hold as many
properties as they announce, or do not get as far as announcing any. -/
def KeepsCount (arr : Amf0EcmaArray) : Op → Prop
  | set key (some _) => key ∈ arr.properties.map Prod.fst
  | set key none => key ∉ arr.properties.map Prod.fst
  | remove name => name ∉ arr.properties.map Prod.fst
  | clear => arr.properties = []
  | copy => True
  | read b => ∀ count b', amf0ReadArrayHeader rtmpAmf0EcmaArray b = .ok (.ok count, b') →
      Follow (Amf0Any.readAny (b.readLeft.toNat + 1)) count.toInt arr.properties b'

end Op

variable {any : Stream Amf0Any} {arr arr' : Amf0EcmaArray}

/-! ### What may follow where the array has too few properties -/

section Few

variable {count : ℤ} {ps : UnSortedHashtable} {b b₁ b₂ b₃ : Buffer} {c : ℤ}

theorem Follow.next_of_lt (h : Follow any count ps b) (hlt : ps.count < count) :
    ∃ b₁ name b₂ value b₃, amf0IsObjectEof b = .ok (.ok false, b₁)
      ∧ amf0ReadUtf8 [] b₁ = .ok (.ok name, b₂) ∧ any b₂ = .ok (.ok value, b₃)
      ∧ Follow any count (ps.set name (some value)) b₃ := by
  cases h with
  | done h => exact absurd hlt (by omega)
  | next _ _ heof hname hvalue h => exact ⟨_, _, _, _, _, heof, hname, hvalue, h⟩

/-- Not an end marker, and no failure to look for one. -/
theorem not_follow_of_eof (hlt : ps.count < count) {r : Except ℤ Bool}
    (heof : amf0IsObjectEof b = .ok (r, b₁)) (hr : r ≠ .ok false) : ¬ Follow any count ps b := by
  intro h
  obtain ⟨_, _, _, _, _, heof', _⟩ := h.next_of_lt hlt
  have hsame := Except.ok.inj (heof.symm.trans heof')
  exact hr (congrArg Prod.fst hsame)

theorem not_follow_of_name (hlt : ps.count < count)
    (heof : amf0IsObjectEof b = .ok (.ok false, b₁))
    (hname : amf0ReadUtf8 [] b₁ = .ok (.error c, b₂)) : ¬ Follow any count ps b := by
  intro h
  obtain ⟨_, _, _, _, _, heof', hname', _⟩ := h.next_of_lt hlt
  obtain rfl : b₁ = _ := by simpa using heof.symm.trans heof'
  exact absurd (hname.symm.trans hname') (by simp)

theorem not_follow_of_value (hlt : ps.count < count)
    (heof : amf0IsObjectEof b = .ok (.ok false, b₁)) {name : Bytes}
    (hname : amf0ReadUtf8 [] b₁ = .ok (.ok name, b₂)) (hvalue : any b₂ = .ok (.error c, b₃)) :
    ¬ Follow any count ps b := by
  intro h
  obtain ⟨_, _, _, _, _, heof', hname', hvalue', _⟩ := h.next_of_lt hlt
  obtain rfl : b₁ = _ := by simpa using heof.symm.trans heof'
  obtain ⟨rfl, rfl⟩ : name = _ ∧ b₂ = _ := by simpa using hname.symm.trans hname'
  exact absurd (hvalue.symm.trans hvalue') (by simp)

/-- Behind a property it is the others that follow. -/
theorem follow_next_iff (hlt : ps.count < count) (hread : ¬ b.readEmpty)
    (heof : amf0IsObjectEof b = .ok (.ok false, b₁)) {name : Bytes}
    (hname : amf0ReadUtf8 [] b₁ = .ok (.ok name, b₂)) {value : Amf0Any}
    (hvalue : any b₂ = .ok (.ok value, b₃)) :
    Follow any count ps b ↔ Follow any count (ps.set name (some value)) b₃ := by
  refine ⟨fun h => ?_, Follow.next hlt hread heof hname hvalue⟩
  obtain ⟨_, _, _, _, _, heof', hname', hvalue', h⟩ := h.next_of_lt hlt
  obtain rfl : b₁ = _ := by simpa using heof.symm.trans heof'
  obtain ⟨rfl, rfl⟩ : name = _ ∧ b₂ = _ := by simpa using hname.symm.trans hname'
  obtain ⟨rfl, rfl⟩ : value = _ ∧ b₃ = _ := by simpa using hvalue.symm.trans hvalue'
  exact h

end Few

/-- The loop of `read`, however it ends: the count agrees where the properties follow. -/
theorem holds_readProperties (count : BitVec 32) (fuel : ℕ) (b : Buffer) (arr : Amf0EcmaArray)
    (hcount : arr.count = count) :
    Holds (fun _ => True)
      (fun _ s => s.2.value.CountMatches ↔ Follow any count.toInt arr.properties b)
      (fun _ s => s.2.value.CountMatches ↔ Follow any count.toInt arr.properties b)
      (readProperties any count.toInt fuel) (b, arr) := by
  induction fuel generalizing b arr with
  | zero => trivial
  | succ fuel ih =>
    rw [readProperties, holds_bind, holds_get]
    by_cases hmore : ¬ b.readEmpty ∧ arr.properties.count < count.toInt
    · -- the array has too few properties, so where the loop ends here nothing may have followed
      obtain ⟨hread, hlt⟩ := hmore
      have hfew : ¬ arr.value.CountMatches := fun h => by
        have heq : count.toInt = arr.properties.count := hcount ▸ h
        omega
      rw [if_pos ⟨hread, hlt⟩, holds_bind]
      refine holds_stream_of_runs (fun c b₁ heof => ?_) fun eof b₁ heof => ?_
      · exact iff_of_false hfew (not_follow_of_eof hlt heof (by simp))
      cases eof with
      | true =>
        have hnone : arr.value.CountMatches ↔ Follow any count.toInt arr.properties b :=
          iff_of_false hfew (not_follow_of_eof hlt heof (by simp))
        exact holds_stream_of_runs (fun _ _ _ => hnone) fun _ _ _ => hnone
      | false =>
        rw [if_neg Bool.false_ne_true, holds_bind]
        refine holds_stream_of_runs (fun c b₂ hname => ?_) fun name b₂ hname => ?_
        · exact iff_of_false hfew (not_follow_of_name hlt heof hname)
        rw [holds_bind]
        refine holds_stream_of_runs (fun c b₃ hvalue => ?_) fun value b₃ hvalue => ?_
        · exact iff_of_false hfew (not_follow_of_value hlt heof hname hvalue)
        rw [follow_next_iff hlt hread heof hname hvalue]
        exact ih b₃ (arr.set name (some value)) hcount
    · rw [if_neg hmore, holds_pure]
      subst hcount
      refine ⟨fun h => Follow.done h.symm, fun h => ?_⟩
      cases h with
      | done h => exact h.symm
      | next hlt hread _ _ _ _ => exact absurd ⟨hread, hlt⟩ hmore

/-- `read` begins with the header and goes on with the loop. -/
theorem read_eq_header_bind (any : Stream Amf0Any) (fuel : ℕ) : read any fuel
    = stream (amf0ReadArrayHeader rtmpAmf0EcmaArray) >>= fun count =>
      update (fun arr => { arr with count }) >>= fun _ =>
        readProperties any count.toInt fuel := by
  simp only [amf0ReadArrayHeader, stream_bind, bind_assoc]
  rfl

/-- What `read` leaves agrees, however it ends, where the properties follow that it announces. -/
theorem holds_readFrom (hcount : arr.value.CountMatches) (b : Buffer) :
    Holds (fun _ => True)
      (fun _ s => s.2.value.CountMatches ↔ (Op.read b).KeepsCount arr)
      (fun _ s => s.2.value.CountMatches ↔ (Op.read b).KeepsCount arr) readFrom (b, arr) := by
  rw [readFrom, holds_bind, holds_get, read_eq_header_bind]
  refine holds_header_bind (fun arr : Amf0EcmaArray => arr.value.CountMatches) hcount
    fun count b₁ => ?_
  exact holds_readProperties count _ b₁ { arr with count } rfl

/-- The keys of an array are distinct, whatever is read into it. -/
def NodupKeys (arr : Amf0EcmaArray) : Prop := (arr.properties.map Prod.fst).Nodup

/-- What an operation needs of the array, and what a run of them keeps. -/
structure Counted (arr : Amf0EcmaArray) : Prop where
  nodup : arr.NodupKeys
  matches_count : arr.value.CountMatches

theorem nodup_readProperties (count : ℤ) (fuel : ℕ) :
    Keeps (fun s => NodupKeys s.2) (readProperties any count fuel) := by
  induction fuel with
  | zero => exact keeps_stop _
  | succ fuel ih =>
    refine Keeps.get_bind fun s _ => Keeps.ite ?_ (keeps_pure _)
    refine (keeps_stream _).bind fun eof => ?_
    refine Keeps.ite (keeps_stream _) ((keeps_stream _).bind fun name => ?_)
    refine (keeps_stream _).bind fun value => (keeps_update fun arr h => ?_).bind fun _ => ih
    exact UnSortedHashtable.nodup_set h name (some value)

theorem nodup_readFrom : Keeps (fun s => NodupKeys s.2) readFrom := by
  refine Keeps.get_bind fun s _ => ?_
  refine (keeps_stream (P := NodupKeys) _).bind fun _ => (keeps_stream _).bind fun _ => ?_
  refine (keeps_stream _).bind fun count => (keeps_update fun _ h => ?_).bind fun _ =>
    nodup_readProperties _ _
  exact h

/-- **One operation**: the count agrees after it exactly where its condition holds. -/
theorem countMatches_step_iff (h : arr.Counted) {op : Op} (hstep : op.Leaves arr arr') :
    arr'.value.CountMatches ↔ op.KeepsCount arr := by
  obtain ⟨hnodup, hcount⟩ := h
  have hmatches : ∀ {ps : UnSortedHashtable},
      (Amf0EcmaArray.mk ps arr.count).value.CountMatches ↔ ps.count = arr.properties.count :=
    fun {ps} => ⟨fun h => h.symm.trans hcount, fun h => hcount.trans h.symm⟩
  have hdrop : ∀ name, (arr.properties.remove name).count = arr.properties.count
      ↔ name ∉ arr.properties.map Prod.fst := by
    refine fun name => ⟨fun h hmem => ?_, fun h => by rw [UnSortedHashtable.remove_of_notMem h]⟩
    have := UnSortedHashtable.count_remove_of_mem hnodup hmem
    omega
  cases op with
  | set key value =>
    subst hstep
    cases value with
    | none =>
      exact hmatches.trans (UnSortedHashtable.remove_eq_set_none hnodup key ▸ hdrop key)
    | some value =>
      refine hmatches.trans ⟨fun h => ?_, fun h => UnSortedHashtable.count_set_of_mem h value⟩
      by_contra hmem
      rw [UnSortedHashtable.set_of_notMem hmem] at h
      simp [UnSortedHashtable.count] at h
  | remove name =>
    subst hstep
    exact hmatches.trans (hdrop name)
  | clear =>
    subst hstep
    refine hmatches.trans ⟨fun h => ?_, fun h => ?_⟩
    · exact List.length_eq_zero_iff.1 (Int.ofNat_inj.1 h.symm)
    · rw [show arr.properties = [] from h]
      rfl
  | copy =>
    subst hstep
    refine iff_of_true (hmatches.2 ?_) trivial
    rw [UnSortedHashtable.copy_of_nodup hnodup, UnSortedHashtable.count, List.length_map]
    rfl
  | read b =>
    obtain ⟨r, b', hrun⟩ := hstep
    exact (holds_readFrom hcount b).elim_state
      (P := fun s => s.2.value.CountMatches ↔ (Op.read b).KeepsCount arr) hrun

theorem counted_step (h : arr.Counted) {op : Op} (hkeeps : op.KeepsCount arr)
    (hstep : op.Leaves arr arr') : arr'.Counted where
  matches_count := (countMatches_step_iff h hstep).2 hkeeps
  nodup := by
    cases op with
    | set key value =>
      subst hstep
      exact UnSortedHashtable.nodup_set h.nodup key value
    | remove name =>
      subst hstep
      exact UnSortedHashtable.nodup_remove h.nodup name
    | clear =>
      subst hstep
      exact List.nodup_nil
    | copy =>
      subst hstep
      rw [NodupKeys, copy, UnSortedHashtable.copy_of_nodup h.nodup, List.map_map]
      exact h.nodup
    | read b =>
      obtain ⟨r, b', hrun⟩ := hstep
      exact (nodup_readFrom (b, arr) h.nodup).elim_state (P := fun s => NodupKeys s.2) hrun

/-- The arrays that runs of operations reach whose steps all meet their condition. -/
inductive Reached : Amf0EcmaArray → Prop
  | new : Reached new
  | step {arr arr' : Amf0EcmaArray} (h : Reached arr) (op : Op) (hkeeps : op.KeepsCount arr)
      (hstep : op.Leaves arr arr') : Reached arr'

theorem Reached.counted (h : Reached arr) : arr.Counted := by
  induction h with
  | new => exact ⟨List.nodup_nil, rfl⟩
  | step _ op hkeeps hstep ih => exact counted_step ih hkeeps hstep

end Amf0EcmaArray

namespace Amf0StrictArray

inductive Op
  | append (any : Amf0Any)
  | clear
  | copy
  | read (b : Buffer)

/-- From the `i`-th round of the loop of `read` on, which stops at the first element that is not
there or cannot be read, the elements bring the array from `held` of them to `count`. -/
inductive Follow (any : Stream Amf0Any) (count : ℤ) : ℤ → ℤ → Buffer → Prop
  | done {i held : ℤ} {b : Buffer} (h : held = count)
      (hstop : (i < count → b.readEmpty) ∨ ∃ c b', any b = .ok (.error c, b')) :
      Follow any count i held b
  | next {i held : ℤ} {elem : Amf0Any} {b b' : Buffer} (hlt : i < count) (hread : ¬ b.readEmpty)
      (helem : any b = .ok (.ok elem, b')) (h : Follow any count (i + 1) (held + 1) b') :
      Follow any count i held b

namespace Op

def Leaves (arr arr' : Amf0StrictArray) : Op → Prop
  | append any => arr' = arr.append any
  | clear => arr' = arr.clear
  | copy => arr' = arr.copy
  | read b => ∃ r b', readFrom (b, arr) = .ok (r, (b', arr'))

def KeepsCount (arr : Amf0StrictArray) : Op → Prop
  | append _ => arr.properties.length + 1 < 2 ^ 31
  | clear => arr.properties = []
  | copy => True
  | read b => ∀ count b', amf0ReadArrayHeader rtmpAmf0StrictArray b = .ok (.ok count, b') →
      Follow (Amf0Any.readAny (b.readLeft.toNat + 1)) count.toInt 0 arr.properties.length b'

end Op

variable {any : Stream Amf0Any} {arr arr' : Amf0StrictArray}

/-- The loop of `read`, however it ends: the count agrees where the elements follow. -/
theorem holds_readElements (count : BitVec 32) (fuel : ℕ) (i : ℤ) (b : Buffer)
    (arr : Amf0StrictArray) (hcount : arr.count = count) :
    Holds (fun _ => True)
      (fun _ s => s.2.value.CountMatches ↔ Follow any count.toInt i arr.properties.length b)
      (fun _ s => s.2.value.CountMatches ↔ Follow any count.toInt i arr.properties.length b)
      (readElements any count.toInt fuel i) (b, arr) := by
  induction fuel generalizing i b arr with
  | zero => trivial
  | succ fuel ih =>
    have hheld : arr.value.CountMatches ↔ (arr.properties.length : ℤ) = count.toInt :=
      hcount ▸ eq_comm
    rw [readElements, holds_bind, holds_get]
    by_cases hmore : i < count.toInt ∧ ¬ b.readEmpty
    · rw [if_pos hmore, holds_bind]
      refine holds_stream_of_runs (fun c b' herr => ?_) fun elem b' helem => ?_
      · refine hheld.trans ⟨fun h => Follow.done h (Or.inr ⟨c, b', herr⟩), fun h => ?_⟩
        cases h with
        | done h _ => exact h
        | next _ _ helem _ => exact absurd (herr.symm.trans helem) (by simp)
      · have hrest : Follow any count.toInt i arr.properties.length b
            ↔ Follow any count.toInt (i + 1) ((arr.properties ++ [elem]).length : ℕ) b' := by
          rw [List.length_append, List.length_singleton, Nat.cast_succ]
          refine ⟨fun h => ?_, Follow.next hmore.1 hmore.2 helem⟩
          cases h with
          | done _ hstop =>
            rcases hstop with hstop | ⟨c, b'', herr⟩
            · exact absurd (hstop hmore.1) hmore.2
            · exact absurd (helem.symm.trans herr) (by simp)
          | next _ _ helem' h =>
            obtain ⟨rfl, rfl⟩ : elem = _ ∧ b' = _ := by simpa using helem.symm.trans helem'
            exact h
        rw [hrest]
        exact ih (i + 1) b' { arr with properties := arr.properties ++ [elem] } hcount
    · rw [if_neg hmore, holds_pure]
      refine hheld.trans ⟨fun h => Follow.done h (Or.inl fun hlt => ?_), fun h => ?_⟩
      · by_contra hread
        exact hmore ⟨hlt, hread⟩
      · cases h with
        | done h _ => exact h
        | next hlt hread _ _ => exact absurd ⟨hlt, hread⟩ hmore

theorem read_eq_header_bind (any : Stream Amf0Any) (fuel : ℕ) : read any fuel
    = stream (amf0ReadArrayHeader rtmpAmf0StrictArray) >>= fun count =>
      update (fun arr => { arr with count }) >>= fun _ =>
        readElements any count.toInt fuel 0 := by
  simp only [amf0ReadArrayHeader, stream_bind, bind_assoc]
  rfl

/-- What `read` leaves agrees, however it ends, where the elements follow that it announces. -/
theorem holds_readFrom (hcount : arr.value.CountMatches) (b : Buffer) :
    Holds (fun _ => True)
      (fun _ s => s.2.value.CountMatches ↔ (Op.read b).KeepsCount arr)
      (fun _ s => s.2.value.CountMatches ↔ (Op.read b).KeepsCount arr) readFrom (b, arr) := by
  rw [readFrom, holds_bind, holds_get, read_eq_header_bind]
  refine holds_header_bind (fun arr : Amf0StrictArray => arr.value.CountMatches) hcount
    fun count b₁ => ?_
  exact holds_readElements count _ 0 b₁ { arr with count } rfl

/-- **One operation**: the count agrees after it exactly where its condition holds. -/
theorem countMatches_step_iff (hcount : arr.value.CountMatches) {op : Op}
    (hstep : op.Leaves arr arr') : arr'.value.CountMatches ↔ op.KeepsCount arr := by
  change arr.count.toInt = arr.properties.length at hcount
  cases op with
  | append any =>
    subst hstep
    change (BitVec.ofNat 32 (arr.properties.length + 1)).toInt
      = ((arr.properties ++ [any]).length : ℕ) ↔ arr.properties.length + 1 < 2 ^ 31
    have hlt := BitVec.toInt_lt (x := arr.count)
    rw [List.length_append, List.length_singleton, BitVec.toInt_ofNat', Int.bmod_def]
    omega
  | clear =>
    subst hstep
    change arr.count.toInt = ((0 : ℕ) : ℤ) ↔ arr.properties = []
    rw [hcount, Int.ofNat_inj, List.length_eq_zero_iff]
  | copy =>
    subst hstep
    refine iff_of_true (hcount.trans ?_) trivial
    rw [copy, length_copyElements]
  | read b =>
    obtain ⟨r, b', hrun⟩ := hstep
    exact (holds_readFrom hcount b).elim_state
      (P := fun s => s.2.value.CountMatches ↔ (Op.read b).KeepsCount arr) hrun

/-- The arrays that runs of operations reach whose steps all meet their condition. -/
inductive Reached : Amf0StrictArray → Prop
  | new : Reached new
  | step {arr arr' : Amf0StrictArray} (h : Reached arr) (op : Op) (hkeeps : op.KeepsCount arr)
      (hstep : op.Leaves arr arr') : Reached arr'

theorem Reached.countMatches (h : Reached arr) : arr.value.CountMatches := by
  induction h with
  | new => rfl
  | step _ op hkeeps hstep ih => exact (countMatches_step_iff ih hstep).2 hkeeps

end Amf0StrictArray

/-! ## Runs -/

/-- The arrays of the two classes that such runs reach. -/
inductive Amf0Any.CountKept : Amf0Any → Prop
  | ecmaArray {arr : Amf0EcmaArray} (h : arr.Reached) : CountKept arr.value
  | strictArray {arr : Amf0StrictArray} (h : arr.Reached) : CountKept arr.value

/-- **Operations that meet their conditions keep the count field**, over every run, and `write`
emits it in front of as many entries. -/
theorem count_of_run {v : Amf0Any} (h : v.CountKept) : v.CountMatches
    ∧ ∀ {w w' : Buffer}, w.Valid → v.totalSize ≤ w.writeLeft → v.write w = .ok (.ok ⟨⟩, w') →
      v.CountWritten w w' := by
  cases h with
  | ecmaArray h =>
    have hcount := h.counted.matches_count
    exact ⟨hcount, fun hw hroom hrun => (Amf0Any.countWritten_ecmaArray_iff hw hroom hrun).2 hcount⟩
  | strictArray h =>
    have hcount := h.countMatches
    refine ⟨hcount, fun hw hroom hrun => ?_⟩
    exact (Amf0Any.countWritten_strictArray_iff hw hroom hrun).2 hcount

section Read

/-- An array of one property `a`, with what the reader looks at twice. -/
def oneProperty : Bytes := [0x08, 0, 0, 0, 1, 0, 0, 0, 0, 1, 0x61, 0x05, 0x05, 0, 0, 0]

/-- The buffer of it when it is read up to `rpos`. -/
def readUpTo (rpos : ℤ) : Buffer := ⟨oneProperty, 13, rpos, 16⟩

theorem valid_oneProperty : (readUpTo 11).Valid := by constructor <;> decide

theorem header_oneProperty : amf0ReadArrayHeader rtmpAmf0EcmaArray (readUpTo 0)
    = .ok (.ok 1, readUpTo 5) := by decide +kernel

theorem eof_oneProperty : amf0IsObjectEof (readUpTo 5) = .ok (.ok false, readUpTo 8) := by
  decide +kernel

theorem name_oneProperty : amf0ReadUtf8 [] (readUpTo 8) = .ok (.ok [0x61], readUpTo 11) := by
  decide +kernel

/-- The marker of a value is not given back, and is found twice. -/
theorem discovery_oneProperty : Amf0Any.discovery (readUpTo 11) = .ok (.ok .null, readUpTo 12) := by
  have heof : amf0IsObjectEof (readUpTo 11) = .ok (.ok false, readUpTo 11) := by decide +kernel
  have hmarker : read1byte (readUpTo 11) = .ok (.ok rtmpAmf0Null, readUpTo 12) := by decide +kernel
  have hback : seekRead (-1) (readUpTo 12) = .ok (.ok errorBufferRead, readUpTo 12) := by
    decide +kernel
  rw [Amf0Any.discovery, run_bind_ok heof, if_neg Bool.false_ne_true,
    run_bind_ok (requireRead_eq valid_oneProperty errorRtmpAmf0Decode (by decide)),
    run_bind_ok hmarker, run_bind_ok hback]
  rfl

theorem value_oneProperty : Amf0Any.readAny 14 (readUpTo 11) = .ok (.ok .null, readUpTo 13) := by
  have hnull : amf0ReadNull (readUpTo 12) = .ok (.ok ⟨⟩, readUpTo 13) := by decide +kernel
  rw [Amf0Any.readAny, run_bind_ok discovery_oneProperty, Amf0Any.read, run_bind_ok hnull]
  rfl

theorem keepsCount_oneProperty : (Amf0EcmaArray.Op.read (readUpTo 0)).KeepsCount .new := by
  intro count b' hheader
  obtain ⟨rfl, rfl⟩ : 1 = count ∧ readUpTo 5 = b' := by
    simpa using header_oneProperty.symm.trans hheader
  exact .next (by decide) (by decide) eof_oneProperty name_oneProperty value_oneProperty
    (.done rfl)

theorem leaves_oneProperty :
    (Amf0EcmaArray.Op.read (readUpTo 0)).Leaves .new ⟨[([0x61], .null)], 1⟩ := by
  have hend : Amf0EcmaArray.readProperties (Amf0Any.readAny 14) 1 13
      (readUpTo 13, ⟨[([0x61], .null)], 1⟩)
      = .ok (.ok ⟨⟩, (readUpTo 13, ⟨[([0x61], .null)], 1⟩)) := by
    rw [Amf0EcmaArray.readProperties, run_get_bind, if_neg (by decide)]
    rfl
  have hloop : Amf0EcmaArray.readProperties (Amf0Any.readAny 14) 1 14 (readUpTo 5, ⟨[], 1⟩)
      = .ok (.ok ⟨⟩, (readUpTo 13, ⟨[([0x61], .null)], 1⟩)) := by
    rw [Amf0EcmaArray.readProperties, run_get_bind, if_pos (by decide),
      run_bind_ok (run_stream_ok eof_oneProperty _), if_neg Bool.false_ne_true,
      run_bind_ok (run_stream_ok name_oneProperty _),
      run_bind_ok (run_stream_ok value_oneProperty _), run_bind_ok (run_update ..)]
    exact hend
  refine ⟨.ok ⟨⟩, readUpTo 13, ?_⟩
  rw [Amf0EcmaArray.readFrom, run_get_bind, Amf0EcmaArray.read_eq_header_bind,
    run_bind_ok (run_stream_ok header_oneProperty _), run_bind_ok (run_update ..)]
  exact hloop

/-- A property is read, set to another value and copied; the count and the property are written. -/
theorem count_of_run_read :
    (Amf0Any.ecmaArray [([0x61], .boolean true)] 1).CountWritten
      ⟨[0x07, 0x07, 0x07, 0, 0, 0, 0, 0, 0, 0, 0, 0, 0, 0, 0, 0, 0, 0], 3, 0, 18⟩
      ⟨[0x07, 0x07, 0x07, 0x08, 0, 0, 0, 1, 0, 1, 0x61, 0x01, 0x01, 0, 0, 0x09, 0, 0],
        16, 0, 18⟩ := by
  have hread : Amf0EcmaArray.Reached ⟨[([0x61], .null)], 1⟩ :=
    .step .new (.read (readUpTo 0)) keepsCount_oneProperty leaves_oneProperty
  have hset : Amf0EcmaArray.Reached ⟨[([0x61], .boolean true)], 1⟩ :=
    .step hread (.set [0x61] (some (.boolean true))) (List.mem_singleton.2 rfl) rfl
  have hcopy : Amf0EcmaArray.Reached ⟨[([0x61], .boolean true)], 1⟩ :=
    .step hset .copy trivial rfl
  exact (count_of_run (.ecmaArray hcopy)).2 (by constructor <;> decide) (by decide)
    (by decide +kernel)

end Read

/-- **A property set into a new array is not counted**, an element of a cleared one still is. -/
theorem count_lost :
    ((Amf0EcmaArray.Op.set [0x61] (some .null)).Leaves .new ⟨[([0x61], .null)], 0⟩
      ∧ ¬ (Amf0EcmaArray.mk [([0x61], .null)] 0).value.CountMatches
      ∧ (Amf0EcmaArray.mk [([0x61], .null)] 0).value.write
          ⟨[0x07, 0x07, 0x07, 0, 0, 0, 0, 0, 0, 0, 0, 0, 0, 0, 0, 0], 3, 0, 16⟩
        = .ok (.ok ⟨⟩, ⟨[0x07, 0x07, 0x07, 0x08, 0x00, 0x00, 0x00, 0x00, 0x00, 0x01, 0x61, 0x05,
            0x00, 0x00, 0x09, 0], 15, 0, 16⟩))
    ∧ (Amf0StrictArray.Op.append .null).Leaves .new ⟨[.null], 1⟩
    ∧ Amf0StrictArray.Op.clear.Leaves ⟨[.null], 1⟩ ⟨[], 1⟩
    ∧ ¬ (Amf0StrictArray.mk [] 1).value.CountMatches := by
  refine ⟨⟨?_, ?_, ?_⟩, ?_, ?_, ?_⟩
  · rfl
  · exact show ¬ (0 : BitVec 32).toInt = 1 by decide
  · decide +kernel
  · rfl
  · rfl
  · exact show ¬ (1 : BitVec 32).toInt = 0 by decide

end SmartStreaming
