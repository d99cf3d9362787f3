import Assay.Numeral.Binary64
import Assay.Numeral.Digits

/-!
# Decimal numerals

A decimal numeral has digits with at most one point among or beside them, then
perhaps a power of ten; a sign may precede it, and `inf`, `infinity` and `nan` name
the values without digits.  Its value is the double nearest to the exact decimal.
-/

namespace Assay.Numeral

/-- The parts of a decimal numeral without its sign: the digits on either side of
the point and the power of ten. -/
structure Decimal where
  whole : List Char
  fraction : List Char
  exponent : Int
  deriving DecidableEq, Repr

def exponent? : List Char → Option Int
  | [] => some 0
  | mark :: text =>
      if mark = 'e' ∨ mark = 'E' then
        let (negative, digits) := splitSign text
        (value? digits).map (signed negative)
      else none

def Decimal.ofText? (text : List Char) : Option Decimal :=
  let whole := text.takeWhile isDigit
  let (fraction, rest) :=
    match text.dropWhile isDigit with
    | '.' :: after => (after.takeWhile isDigit, after.dropWhile isDigit)
    | rest => ([], rest)
  if whole = [] ∧ fraction = [] then none
  else (exponent? rest).map fun exponent => ⟨whole, fraction, exponent⟩

/-- The double nearest to a decimal.  A magnitude of `10 ^ 400` or more, and one
below `10 ^ -400`, lies far outside the range and is settled without computing the
power of ten. -/
def Decimal.toBinary64 (negative : Bool) (decimal : Decimal) : Binary64 :=
  let digits := decimal.whole ++ decimal.fraction
  let significand := value digits
  let scale : Int := decimal.exponent - decimal.fraction.length
  if significand = 0 ∨ digits.length + scale < -400 then .zero negative
  else if 400 < scale then .infinity negative
  else if scale < 0 then .ofQuotient negative significand (Nat.pow 10 (-scale).toNat)
  else .ofQuotient negative (significand * Nat.pow 10 scale.toNat) 1

def namedValue? (negative : Bool) (text : List Char) : Option Binary64 :=
  match String.ofList (text.map Char.toLower) with
  | "inf" | "infinity" => some (.infinity negative)
  | "nan" => some .notANumber
  | _ => none

/-- The value of a decimal numeral; `none` for any other text. -/
def decimal? (text : String) : Option Binary64 :=
  let (negative, body) := splitSign text.toList
  match namedValue? negative body with
  | some named => some named
  | none => (Decimal.ofText? body).map (Decimal.toBinary64 negative)

end Assay.Numeral
