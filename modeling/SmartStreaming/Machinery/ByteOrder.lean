import Mathlib.Tactic.Common
import Mathlib.Tactic.Ring

/-!
# Machinery/ByteOrder — numbers as strings of bytes

`leNat` reads a little-endian string of bytes, `leBytes n` writes the low `n` bytes of a number.
Reading undoes writing as far as the bytes reach (`leNat_leBytes`); the big-endian order is the
reversal.
-/

namespace Machinery

/-- The number a little-endian string of bytes stands for. -/
def leNat : List (BitVec 8) → ℕ
  | [] => 0
  | x :: xs => x.toNat + 256 * leNat xs

/-- The low `n` bytes of `x`, least significant first. -/
def leBytes : ℕ → ℕ → List (BitVec 8)
  | 0, _ => []
  | n + 1, x => BitVec.ofNat 8 x :: leBytes n (x / 256)

/-- The low `n` bytes of `x`, most significant first. -/
def beBytes (n x : ℕ) : List (BitVec 8) := (leBytes n x).reverse

/-- The number a big-endian string of bytes stands for. -/
def beNat (bs : List (BitVec 8)) : ℕ := leNat bs.reverse

@[simp] theorem length_leBytes (n x : ℕ) : (leBytes n x).length = n := by
  induction n generalizing x with
  | zero => rfl
  | succ n ih => simp [leBytes, ih]

@[simp] theorem length_beBytes (n x : ℕ) : (beBytes n x).length = n := by simp [beBytes]

theorem leNat_lt (bs : List (BitVec 8)) : leNat bs < 256 ^ bs.length := by
  induction bs with
  | nil => simp [leNat]
  | cons x xs ih =>
    have := x.isLt
    rw [leNat, List.length_cons, pow_succ]
    omega

/-- **Reading back what was written**: only the low `n` bytes survive. -/
theorem leNat_leBytes (n x : ℕ) : leNat (leBytes n x) = x % 256 ^ n := by
  induction n generalizing x with
  | zero => simp [leBytes, leNat, Nat.mod_one]
  | succ n ih =>
    rw [leBytes, leNat, ih, pow_succ', Nat.mod_mul, BitVec.toNat_ofNat]

theorem beNat_beBytes (n x : ℕ) : beNat (beBytes n x) = x % 256 ^ n := by
  rw [beNat, beBytes, List.reverse_reverse, leNat_leBytes]

end Machinery
