/-!
# Terminal conventions

When colour is wanted, and how a duration is written.
-/

namespace Assay.Command

def settingIsOn (value : String) : Bool := value ≠ "0"

/-- Whether to write in colour: forced, forbidden, or else on a terminal that is not
set against it. -/
def wantsColor (terminal : Bool) (allowed? forbidden? forced? : Option String) : Bool :=
  if forced?.any settingIsOn then true
  else if forbidden?.isSome then false
  else terminal && allowed?.all settingIsOn

/-- The digits after the point of a quantity in units of `10 ^ places`, without zeros at
the end. -/
def fractionDigits (places quantity : Nat) : List Char :=
  let digits := Nat.toDigits 10 (quantity % Nat.pow 10 places)
  let padded := List.replicate (places - digits.length) '0' ++ digits
  (padded.reverse.dropWhile (· = '0')).reverse

def scaledQuantity (places quantity : Nat) (unit : String) : String :=
  let whole := toString (quantity / Nat.pow 10 places)
  match fractionDigits places quantity with
  | [] => whole ++ unit
  | digits => whole ++ "." ++ String.ofList digits ++ unit

def durationText (nanoseconds : Nat) : String :=
  if 1_000_000_000 ≤ nanoseconds then scaledQuantity 9 nanoseconds "s"
  else if 1_000_000 ≤ nanoseconds then scaledQuantity 6 nanoseconds "ms"
  else if 1_000 ≤ nanoseconds then scaledQuantity 3 nanoseconds "µs"
  else toString nanoseconds ++ "ns"

end Assay.Command
