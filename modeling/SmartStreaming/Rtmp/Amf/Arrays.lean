import SmartStreaming.Rtmp.Amf.Codec
import SmartStreaming.Rtmp.Amf.Table

/-!
# Rtmp/Amf/Arrays — the two array types and what changes them

`read` fills the array it is called on and may fail half-way, so here it is a call on the buffer
and the array together.  Where it returns, the array is the value that the reader of
`Rtmp/Amf/Codec` returns (`matches_readFrom`).
-/

namespace SmartStreaming

open Machinery Comp Buffer

/-- A member function of a value that works on a `Buffer*`. -/
abbrev Method (τ : Type) := Comp Fault (Buffer × τ) ℤ

namespace Method

variable {τ α β : Type}

/-- A call on the stream. -/
def stream (f : Stream α) : Method τ α := zoom Prod.fst (fun b s => (b, s.2)) f

/-- An assignment to `*this`. -/
def update (g : τ → τ) : Method τ PUnit := do
  let s ← get
  put (s.1, g s.2)

/-- The member function ends as the call that returns a new value does, and where it returns, this
is the value it leaves. -/
def Matches (value : τ → β) (f : Stream β) (g : Method τ PUnit) (b : Buffer) (this : τ) : Prop :=
  match f b with
  | .error e => g (b, this) = .error e
  | .ok (.error c, b') => ∃ this', g (b, this) = .ok (.error c, (b', this'))
  | .ok (.ok v, b') => ∃ this', g (b, this) = .ok (.ok ⟨⟩, (b', this')) ∧ value this' = v

variable {value : τ → β} {b : Buffer} {this : τ}

theorem Matches.pure {v : β} (h : value this = v) :
    Matches value (pure v) (pure ⟨⟩) b this :=
  ⟨this, rfl, h⟩

/-- Both make the same call on the stream. -/
theorem Matches.stream_bind {h : Stream α} {f : α → Stream β} {g : α → Method τ PUnit}
    (hfg : ∀ a b', h b = .ok (.ok a, b') → Matches value (f a) (g a) b' this) :
    Matches value (h >>= f) (stream h >>= g) b this := by
  unfold Matches
  rcases hrun : h b with e | ⟨c | a, b'⟩
  · rw [run_bind_fault hrun]
    exact run_bind_fault (run_zoom_fault hrun) g
  · rw [run_bind_error hrun]
    exact ⟨this, run_bind_error (run_zoom_ok hrun)⟩
  · have hstream : stream h (b, this) = .ok (.ok a, (b', this)) := run_zoom_ok hrun
    rw [run_bind_ok hrun, run_bind_ok hstream]
    exact hfg a b' hrun

/-- The last call on the stream, of which only the state matters. -/
theorem Matches.stream_seq {h : Stream PUnit} {v : β} (hv : value this = v) :
    Matches value (h >>= fun _ => Pure.pure v) (stream h) b this := by
  have hid : (stream h : Method τ PUnit) = stream h >>= Pure.pure := (bind_pure _).symm
  rw [hid]
  exact Matches.stream_bind fun _ _ _ => Matches.pure hv

/-- An assignment between two calls. -/
theorem Matches.update_bind {f : Stream β} {g : PUnit → Method τ PUnit} {k : τ → τ}
    (h : Matches value f (g ⟨⟩) b (k this)) : Matches value f (update k >>= g) b this := h

/-- A test of the buffer and the value, which is the same test for both. -/
theorem Matches.get_bind {f : Buffer → Stream β} {g : Buffer × τ → Method τ PUnit}
    (h : Matches value (f b) (g (b, this)) b this) :
    Matches value (get >>= f) (get >>= g) b this := h

end Method

open Method

/-! ## `Amf0EcmaArray` -/

/-- `class Amf0EcmaArray`. -/
structure Amf0EcmaArray where
  properties : UnSortedHashtable
  count : BitVec 32

namespace Amf0EcmaArray

def new : Amf0EcmaArray := ⟨[], 0⟩

/-- The array as a value. -/
def value (arr : Amf0EcmaArray) : Amf0Any := .ecmaArray arr.properties arr.count

/-- The `set(key, value)` of `Amf0Object`. -/
def set (arr : Amf0EcmaArray) (key : Bytes) (value : Option Amf0Any) : Amf0EcmaArray :=
  { arr with properties := arr.properties.set key value }

/-- The `remove(name)` of `Amf0Object`. -/
def remove (arr : Amf0EcmaArray) (name : Bytes) : Amf0EcmaArray :=
  { arr with properties := arr.properties.remove name }

/-- The `clear()` of `Amf0Object`. -/
def clear (arr : Amf0EcmaArray) : Amf0EcmaArray := { arr with properties := arr.properties.clear }

def copy (arr : Amf0EcmaArray) : Amf0EcmaArray :=
  ⟨UnSortedHashtable.copy [] arr.properties, arr.count⟩

/-- The loop of `Amf0EcmaArray::read`. -/
def readProperties (any : Stream Amf0Any) (count : ℤ) : ℕ → Method Amf0EcmaArray PUnit
  | 0 => stop .outOfFuel
  | fuel + 1 => do
    let s ← get
    if ¬ s.1.readEmpty ∧ s.2.properties.count < count then
      if ← stream amf0IsObjectEof then
        stream amf0ReadObjectEof
      else
        let propertyName ← stream (amf0ReadUtf8 [])
        let propertyValue ← stream any
        update fun arr => arr.set propertyName (some propertyValue)
        readProperties any count fuel
    else
      return ⟨⟩

/-- `Amf0EcmaArray::read`, with `any` for a nested `amf0_read_any`. -/
def read (any : Stream Amf0Any) (fuel : ℕ) : Method Amf0EcmaArray PUnit := do
  stream (amf0ReadMarker rtmpAmf0EcmaArray)
  stream (requireRead 4 errorRtmpAmf0Decode)
  let count ← stream read4bytes
  update fun arr => { arr with count }
  readProperties any count.toInt fuel

/-- `arr->read(stream)`. -/
def readFrom : Method Amf0EcmaArray PUnit := do
  let fuel := (← get).1.readLeft.toNat + 1
  read (Amf0Any.readAny fuel) fuel

theorem copy_value (arr : Amf0EcmaArray) : arr.copy.value = arr.value.copy := rfl

variable {any : Stream Amf0Any}

theorem matches_readProperties (count : BitVec 32) (fuel : ℕ) (b : Buffer) (arr : Amf0EcmaArray)
    (hcount : arr.count = count) :
    Matches value (do
      let properties ← Amf0Any.readProperties any (fun ps => ps.count < count.toInt) fuel
        arr.properties
      return .ecmaArray properties count) (readProperties any count.toInt fuel) b arr := by
  induction fuel generalizing b arr with
  | zero => rfl
  | succ fuel ih =>
    rw [Amf0Any.readProperties, readProperties, bind_assoc]
    refine Matches.get_bind ?_
    by_cases hmore : ¬ b.readEmpty ∧ arr.properties.count < count.toInt
    · rw [if_pos ⟨hmore.1, decide_eq_true hmore.2⟩, if_pos hmore, bind_assoc]
      refine Matches.stream_bind fun eof b₁ _ => ?_
      cases eof with
      | true =>
        rw [if_pos rfl, if_pos rfl, bind_assoc]
        exact Matches.stream_seq (hcount ▸ rfl)
      | false =>
        rw [if_neg Bool.false_ne_true, if_neg Bool.false_ne_true, bind_assoc]
        refine Matches.stream_bind fun name b₂ _ => ?_
        rw [bind_assoc]
        refine Matches.stream_bind fun any b₃ _ => Matches.update_bind ?_
        exact ih b₃ (arr.set name (some any)) hcount
    · rw [if_neg fun h => hmore ⟨h.1, of_decide_eq_true h.2⟩, if_neg hmore]
      exact Matches.pure (hcount ▸ rfl)

/-- **`Amf0EcmaArray::read` returns and fails as the reader of a new value.** -/
theorem matches_read (fuel : ℕ) (b : Buffer) (arr : Amf0EcmaArray) :
    Matches value (Amf0Any.readEcmaArray any fuel arr.properties) (read any fuel) b arr := by
  refine Matches.stream_bind fun _ b₁ _ => Matches.stream_bind fun _ b₂ _ => ?_
  refine Matches.stream_bind fun count b₃ _ => ?_
  exact matches_readProperties count fuel b₃ { arr with count } rfl

theorem matches_readFrom (b : Buffer) (arr : Amf0EcmaArray) :
    Matches value arr.value.readFrom readFrom b arr :=
  Matches.get_bind (matches_read _ b arr)

end Amf0EcmaArray

/-! ## `Amf0StrictArray` -/

/-- `class Amf0StrictArray`. -/
structure Amf0StrictArray where
  properties : List Amf0Any
  count : BitVec 32

namespace Amf0StrictArray

def new : Amf0StrictArray := ⟨[], 0⟩

/-- The array as a value. -/
def value (arr : Amf0StrictArray) : Amf0Any := .strictArray arr.properties arr.count

/-- `append(any)`: the count is the size of the vector, cut to 32 bits. -/
def append (arr : Amf0StrictArray) (any : Amf0Any) : Amf0StrictArray where
  properties := arr.properties ++ [any]
  count := BitVec.ofNat 32 (arr.properties.length + 1)

def clear (arr : Amf0StrictArray) : Amf0StrictArray := { arr with properties := [] }

def copy (arr : Amf0StrictArray) : Amf0StrictArray :=
  ⟨Amf0Any.copyElements arr.properties, arr.count⟩

/-- The loop of `Amf0StrictArray::read` from its `i`-th round on. -/
def readElements (any : Stream Amf0Any) (count : ℤ) : ℕ → ℤ → Method Amf0StrictArray PUnit
  | 0, _ => stop .outOfFuel
  | fuel + 1, i => do
    let s ← get
    if i < count ∧ ¬ s.1.readEmpty then
      let elem ← stream any
      update fun arr => { arr with properties := arr.properties ++ [elem] }
      readElements any count fuel (i + 1)
    else
      return ⟨⟩

/-- `Amf0StrictArray::read`, with `any` for a nested `amf0_read_any`. -/
def read (any : Stream Amf0Any) (fuel : ℕ) : Method Amf0StrictArray PUnit := do
  stream (amf0ReadMarker rtmpAmf0StrictArray)
  stream (requireRead 4 errorRtmpAmf0Decode)
  let count ← stream read4bytes
  update fun arr => { arr with count }
  readElements any count.toInt fuel 0

/-- `arr->read(stream)`. -/
def readFrom : Method Amf0StrictArray PUnit := do
  let fuel := (← get).1.readLeft.toNat + 1
  read (Amf0Any.readAny fuel) fuel

theorem length_copyElements (properties : List Amf0Any) :
    (Amf0Any.copyElements properties).length = properties.length := by
  induction properties with
  | nil => rfl
  | cons any properties ih =>
    rw [Amf0Any.copyElements, List.length_cons, ih, List.length_cons]

theorem copy_value (arr : Amf0StrictArray) : arr.copy.value = arr.value.copy := rfl

variable {any : Stream Amf0Any}

theorem matches_readElements (count : BitVec 32) (fuel : ℕ) (i : ℤ) (b : Buffer)
    (arr : Amf0StrictArray) (hcount : arr.count = count) :
    Matches value (do
      let properties ← Amf0Any.readElements any count.toInt fuel i arr.properties
      return .strictArray properties count) (readElements any count.toInt fuel i) b arr := by
  induction fuel generalizing i b arr with
  | zero => rfl
  | succ fuel ih =>
    rw [Amf0Any.readElements, readElements, bind_assoc]
    refine Matches.get_bind ?_
    by_cases hmore : i < count.toInt ∧ ¬ b.readEmpty
    · rw [if_pos hmore, if_pos hmore, bind_assoc]
      refine Matches.stream_bind fun elem b₁ _ => Matches.update_bind ?_
      exact ih (i + 1) b₁ { arr with properties := arr.properties ++ [elem] } hcount
    · rw [if_neg hmore, if_neg hmore]
      exact Matches.pure (hcount ▸ rfl)

/-- **`Amf0StrictArray::read` returns and fails as the reader of a new value.** -/
theorem matches_read (fuel : ℕ) (b : Buffer) (arr : Amf0StrictArray) :
    Matches value (Amf0Any.readStrictArray any fuel arr.properties) (read any fuel) b arr := by
  refine Matches.stream_bind fun _ b₁ _ => Matches.stream_bind fun _ b₂ _ => ?_
  refine Matches.stream_bind fun count b₃ _ => ?_
  exact matches_readElements count fuel 0 b₃ { arr with count } rfl

theorem matches_readFrom (b : Buffer) (arr : Amf0StrictArray) :
    Matches value arr.value.readFrom readFrom b arr :=
  Matches.get_bind (matches_read _ b arr)

end Amf0StrictArray

end SmartStreaming
