/-!
# Decimal digits

Numerals are written with the ten ASCII digits.  `value` reads a run of digits
and `value?` accepts nothing but a run of at least one.
-/

namespace Assay.Numeral

def isDigit (c : Char) : Bool := '0' ≤ c && c ≤ '9'

def digitValue (c : Char) : Nat := c.toNat - '0'.toNat

def value (digits : List Char) : Nat :=
  digits.foldl (fun total digit => 10 * total + digitValue digit) 0

def value? (text : List Char) : Option Nat :=
  if text ≠ [] ∧ text.all isDigit then some (value text) else none

/-- Splits off a sign; `true` is the sign of a negative numeral. -/
def splitSign : List Char → Bool × List Char
  | '+' :: rest => (false, rest)
  | '-' :: rest => (true, rest)
  | text => (false, text)

def signed (negative : Bool) (magnitude : Nat) : Int :=
  if negative then -(magnitude : Int) else magnitude

theorem isDigit_iff {c : Char} : isDigit c ↔ 48 ≤ c.toNat ∧ c.toNat ≤ 57 := by
  simp only [isDigit, Bool.and_eq_true, decide_eq_true_eq, Char.le_def, UInt32.le_iff_toNat_le]
  exact Iff.rfl

end Assay.Numeral
