/-!
# Types

There are four types of values, with no promotion between them.  An expression may
also yield no value at all; its type is then absent, which is `none` among the
optional types.  An absent type is not numeric, and equals only itself.
-/

namespace Assay

inductive Ty where
  | int
  | float
  | bool
  | list
  deriving DecidableEq, Repr

namespace Ty

def keyword : Ty → String
  | int => "int"
  | float => "float"
  | bool => "bool"
  | list => "list"

def ofKeyword? : String → Option Ty
  | "int" => some int
  | "float" => some float
  | "bool" => some bool
  | "list" => some list
  | _ => none

theorem ofKeyword?_keyword (ty : Ty) : ofKeyword? ty.keyword = some ty := by
  cases ty <;> rfl

theorem ofKeyword?_eq_some {word : String} {ty : Ty} :
    ofKeyword? word = some ty ↔ word = ty.keyword := by
  constructor
  · intro h
    unfold ofKeyword? at h
    split at h <;> cases h <;> rfl
  · rintro rfl
    exact ofKeyword?_keyword ty

def isNumeric : Ty → Bool
  | int | float => true
  | bool | list => false

end Ty

def numericType (ty? : Option Ty) : Bool := ty?.any Ty.isNumeric

def sameType (left right : Option Ty) : Bool := left = right

end Assay
