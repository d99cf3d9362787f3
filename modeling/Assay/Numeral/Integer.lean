import Assay.Numeral.Digits

/-!
# Integer numerals

An integer numeral is a run of digits with an optional sign whose value fits a
signed 64-bit word.
-/

namespace Assay.Numeral

/-- The value of an integer numeral; `none` for any other text and for a value
outside the 64-bit range. -/
def integer? (text : String) : Option Int64 := do
  let (negative, digits) := splitSign text.toList
  let number := signed negative (← value? digits)
  if Int64.minValue.toInt ≤ number ∧ number ≤ Int64.maxValue.toInt then
    some (Int64.ofInt number)
  else none

end Assay.Numeral
