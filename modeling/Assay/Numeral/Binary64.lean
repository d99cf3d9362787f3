/-!
# Double-precision numbers

A number is held as its 64-bit pattern: sign, eleven bits of exponent, 52 bits of
significand.  Every finite magnitude is a whole multiple of `2 ^ -1074`, which
makes rounding a matter of natural numbers: with the unit `2 ^ (shift - 1074)` for
the smallest `shift` at which 53 bits suffice, a quotient rounded to `count` units
has the pattern `shift * 2 ^ 52 + count`, and carries and subnormal numbers need no
case of their own.
-/

namespace Assay

structure Binary64 where
  bits : UInt64
  deriving DecidableEq, Repr

namespace Binary64

/-- The nearest whole number to a quotient; halfway cases go to the even one. -/
def roundToEven (numerator denominator : Nat) : Nat :=
  let quotient := numerator / denominator
  let remainder := numerator % denominator
  if 2 * remainder < denominator then quotient
  else if denominator < 2 * remainder then quotient + 1
  else quotient + quotient % 2

def infinityPattern : Nat := 2047 <<< 52

/-- The pattern of the double nearest to a non-negative quotient. -/
def magnitudePattern (numerator denominator : Nat) : Nat :=
  let scaled := numerator <<< 1074
  let shift := Nat.log2 (scaled / denominator) - 52
  min ((shift <<< 52) + roundToEven scaled (denominator <<< shift)) infinityPattern

def ofPattern (negative : Bool) (pattern : Nat) : Binary64 :=
  ⟨((if negative then 1 <<< 63 else 0) + pattern).toUInt64⟩

def zero (negative : Bool) : Binary64 := ofPattern negative 0

def infinity (negative : Bool) : Binary64 := ofPattern negative infinityPattern

def notANumber : Binary64 := ⟨0x7FF8000000000000⟩

def isNaN (x : Binary64) : Bool := infinityPattern < x.bits.toNat % (1 <<< 63)

def ofQuotient (negative : Bool) (numerator denominator : Nat) : Binary64 :=
  ofPattern negative (magnitudePattern numerator denominator)

end Binary64

end Assay
