import Mathlib.Data.List.Rotate
import Mathlib.Tactic.Common

/-!
# Machinery/Ring — the contents of a ring of memory cells

`ring mem cap start len` is what a ring buffer holds: the `len` cells from `start` on, in the first
`cap` cells of `mem`, going round at the end.  A stretch of the ring is one block of the memory or
two (`ring_eq_take_drop`, `ring_eq_wrap`); dropping moves the start (`drop_ring`), writing past the
end appends (`ring_append`, `ring_congr`).
-/

namespace Machinery

variable {α : Type*}

/-- One subtraction is enough below twice the capacity. -/
theorem mod_of_lt_two_mul {a cap : ℕ} (h : a < 2 * cap) :
    a % cap = if a < cap then a else a - cap := by
  split
  · exact Nat.mod_eq_of_lt ‹_›
  · rw [Nat.mod_eq_sub_mod (by omega), Nat.mod_eq_of_lt (by omega)]

/-- The `len` cells from `start` on, in the first `cap` cells of `mem` taken as a ring. -/
def ring (mem : List α) (cap start len : ℕ) : List α := ((mem.take cap).rotate start).take len

/-- `mem` with the cells from `off` on overwritten by `bs`. -/
def splice (mem : List α) (off : ℕ) (bs : List α) : List α :=
  mem.take off ++ bs ++ mem.drop (off + bs.length)

section Ring

variable {mem mem' : List α} {cap start len : ℕ}

theorem length_ring (hcap : cap ≤ mem.length) (hlen : len ≤ cap) :
    (ring mem cap start len).length = len := by
  simp [ring]; omega

@[simp] theorem ring_zero : ring mem cap start 0 = [] := rfl

/-- **The `i`-th cell of a stretch of the ring.** -/
theorem getElem?_ring (hcap : cap ≤ mem.length) (hlen : len ≤ cap) {i : ℕ} (hi : i < len) :
    (ring mem cap start len)[i]? = mem[(start + i) % cap]? := by
  have hc : (mem.take cap).length = cap := by simp; omega
  have hmod : (i + start) % cap < cap := Nat.mod_lt _ (by omega)
  rw [ring, List.getElem?_take_of_lt hi, List.getElem?_rotate (by rw [hc]; omega), hc,
    List.getElem?_take_of_lt hmod, Nat.add_comm]

/-- Two rings that agree cell by cell along a stretch hold the same there. -/
theorem ring_congr {start' : ℕ} (hcap : cap ≤ mem.length) (hcap' : cap ≤ mem'.length)
    (hlen : len ≤ cap)
    (h : ∀ i < len, mem'[(start' + i) % cap]? = mem[(start + i) % cap]?) :
    ring mem' cap start' len = ring mem cap start len := by
  refine List.ext_getElem? fun i => ?_
  by_cases hi : i < len
  · rw [getElem?_ring hcap' hlen hi, getElem?_ring hcap hlen hi, h i hi]
  · rw [List.getElem?_eq_none (by rw [length_ring hcap' hlen]; omega),
      List.getElem?_eq_none (by rw [length_ring hcap hlen]; omega)]

theorem take_ring (n : ℕ) : (ring mem cap start len).take n = ring mem cap start (min n len) := by
  rw [ring, ring, List.take_take]

/-- Dropping from the front moves the start. -/
theorem drop_ring (hcap : cap ≤ mem.length) (hlen : len ≤ cap) {n : ℕ} (hn : n ≤ len) :
    (ring mem cap start len).drop n = ring mem cap ((start + n) % cap) (len - n) := by
  refine List.ext_getElem? fun i => ?_
  rw [List.getElem?_drop]
  by_cases hi : i < len - n
  · rw [getElem?_ring hcap hlen (by omega), getElem?_ring hcap (by omega) hi, Nat.mod_add_mod,
      Nat.add_assoc]
  · rw [List.getElem?_eq_none (by rw [length_ring hcap hlen]; omega),
      List.getElem?_eq_none (by rw [length_ring hcap (by omega)]; omega)]

/-- **A longer stretch is a shorter one and what follows it.** -/
theorem ring_append (hcap : cap ≤ mem.length) {m n : ℕ} (hlen : m + n ≤ cap) :
    ring mem cap start (m + n) = ring mem cap start m ++ ring mem cap ((start + m) % cap) n := by
  have htake : (ring mem cap start (m + n)).take m = ring mem cap start m := by
    rw [take_ring, Nat.min_eq_left (by omega)]
  have hdrop : (ring mem cap start (m + n)).drop m = ring mem cap ((start + m) % cap) n := by
    rw [drop_ring hcap hlen (by omega), Nat.add_sub_cancel_left]
  rw [← htake, ← hdrop, List.take_append_drop]

/-- A stretch that does not reach the end of the ring is one block of the memory. -/
theorem ring_eq_take_drop (hcap : cap ≤ mem.length) (h : start + len ≤ cap) :
    ring mem cap start len = (mem.drop start).take len := by
  refine List.ext_getElem? fun i => ?_
  by_cases hi : i < len
  · rw [getElem?_ring hcap (by omega) hi, Nat.mod_eq_of_lt (by omega),
      List.getElem?_take_of_lt hi, List.getElem?_drop]
  · rw [List.getElem?_eq_none (by rw [length_ring hcap (by omega)]; omega),
      List.getElem?_eq_none (by simp; omega)]

/-- A stretch that goes round is the block up to the end and a block at the beginning. -/
theorem ring_eq_wrap (hcap : cap ≤ mem.length) (hlen : len ≤ cap) (hstart : start < cap)
    (h : cap ≤ start + len) :
    ring mem cap start len
      = (mem.drop start).take (cap - start) ++ mem.take (start + len - cap) := by
  have hsplit : len = (cap - start) + (start + len - cap) := by omega
  have hzero : (start + (cap - start)) % cap = 0 := by
    rw [show start + (cap - start) = cap by omega, Nat.mod_self]
  rw [hsplit, ring_append hcap (by omega), ring_eq_take_drop hcap (by omega), hzero,
    ring_eq_take_drop hcap (by omega), List.drop_zero]
  congr 2
  omega

/-- **Appending to a ring**: the cells held so far are kept and the following ones hold `bs`. -/
theorem ring_append_of_write {bs : List α} (hcap : cap ≤ mem.length) (hcap' : cap ≤ mem'.length)
    (hlen : len + bs.length ≤ cap)
    (hkeep : ∀ i < len, mem'[(start + i) % cap]? = mem[(start + i) % cap]?)
    (hnew : ring mem' cap ((start + len) % cap) bs.length = bs) :
    ring mem' cap start (len + bs.length) = ring mem cap start len ++ bs := by
  rw [ring_append hcap' hlen, hnew, ring_congr hcap hcap' (by omega) hkeep]

end Ring

/-! ## Overwriting a block -/

section Splice

variable {mem bs : List α} {off : ℕ}

@[simp] theorem length_splice (h : off + bs.length ≤ mem.length) :
    (splice mem off bs).length = mem.length := by
  simp [splice]; omega

/-- Outside the block nothing changes. -/
theorem getElem?_splice_of_not_mem {i : ℕ} (h : off + bs.length ≤ mem.length)
    (hi : i < off ∨ off + bs.length ≤ i) : (splice mem off bs)[i]? = mem[i]? := by
  have hoff : (mem.take off).length = off := by simp; omega
  rcases hi with hi | hi
  · rw [splice, List.append_assoc, List.getElem?_append_left (by omega),
      List.getElem?_take_of_lt hi]
  · rw [splice, List.getElem?_append_right (by simp; omega), List.getElem?_drop]
    congr 1
    simp
    omega

/-- The block itself holds the new cells. -/
theorem take_drop_splice (h : off + bs.length ≤ mem.length) :
    ((splice mem off bs).drop off).take bs.length = bs := by
  have hoff : (mem.take off).length = off := by simp; omega
  rw [splice, List.append_assoc, List.drop_left' hoff, List.take_left]

/-- Writing up to the end of the block and going on at its beginning. -/
theorem ring_splice_wrap {head tail : List α} {cap start : ℕ} (hcap : cap ≤ mem.length)
    (hstart : start < cap) (hhead : start + head.length = cap) (htail : tail.length ≤ start) :
    ring (splice (splice mem start head) 0 tail) cap start (head ++ tail).length
      = head ++ tail := by
  have h₁ : start + head.length ≤ mem.length := by omega
  have h₂ : 0 + tail.length ≤ (splice mem start head).length := by rw [length_splice h₁]; omega
  have hround : start + (head ++ tail).length - cap = tail.length := by
    rw [List.length_append]; omega
  have hlen : cap - start = head.length := by omega
  have hfront : (splice (splice mem start head) 0 tail).take tail.length = tail := by
    have := take_drop_splice h₂
    rwa [List.drop_zero] at this
  have hback : ((splice (splice mem start head) 0 tail).drop start).take head.length = head := by
    refine List.ext_getElem? fun i => ?_
    by_cases hi : i < head.length
    · have h := congrArg (fun l => l[i]?) (take_drop_splice h₁)
      simp only [List.getElem?_take_of_lt hi, List.getElem?_drop] at h ⊢
      rw [getElem?_splice_of_not_mem h₂ (Or.inr (by omega)), h]
    · rw [List.getElem?_eq_none (by rw [List.length_take]; omega),
        List.getElem?_eq_none (by omega)]
  rw [ring_eq_wrap (by rw [length_splice h₂, length_splice h₁]; exact hcap)
    (by rw [List.length_append]; omega) hstart (by rw [List.length_append]; omega), hround, hlen,
    hback, hfront]

end Splice

end Machinery
