import SmartStreaming.Base.Defs

/-!
# Base/Double — `double` by its bits

The program only moves and compares doubles, so one is its IEEE 754 bit pattern.  Without the sign
the patterns are ordered as the numbers are, the infinities included; the NaNs lie above them and
compare with nothing.
-/

namespace SmartStreaming

/-- A `double`. -/
abbrev Double := BitVec 64

namespace Double

/-- The pattern without the sign. -/
def magnitude (x : Double) : ℕ := x.toNat % 2 ^ 63

def isNaN (x : Double) : Bool := x.magnitude > 0x7FF0000000000000

/-- An integer in the order of the numbers, the same for both zeros. -/
def key (x : Double) : ℤ := if x.msb then -(x.magnitude : ℤ) else x.magnitude

/-- `x < y`. -/
def lt (x y : Double) : Bool := ¬ x.isNaN ∧ ¬ y.isNaN ∧ x.key < y.key

/-- `x == y`. -/
def eq (x y : Double) : Bool := ¬ x.isNaN ∧ ¬ y.isNaN ∧ x.key = y.key

def zero : Double := 0
def one : Double := 0x3FF0000000000000
def two : Double := 0x4000000000000000
def minusOne : Double := 0xBFF0000000000000
def minusTwo : Double := 0xC000000000000000

end Double

end SmartStreaming
