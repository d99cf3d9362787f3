import Assay.Numeral.Binary64
import Assay.Token

/-!
# Program trees

Expressions, statements and blocks, each node with the span it was read from.
Operators of one precedence form a chain: a node of its family holds all operands
side by side, with the operators that stand between them.  A comparison chain
shares one operator.  Trees may also be built by hand, so operand lists can have
any length and `value` can be empty; what a source yields is narrower.
-/

namespace Assay

structure Identifier where
  name : String
  span : Span
  deriving DecidableEq, Repr

/-! ## Operators -/

inductive UnaryOperator where
  | not
  | neg
  deriving DecidableEq, Repr

inductive Family where
  | logical
  | additive
  | multiplicative
  deriving DecidableEq, Repr

inductive Operator : Family → Type where
  | and : Operator .logical
  | or : Operator .logical
  | add : Operator .additive
  | sub : Operator .additive
  | mul : Operator .multiplicative
  | div : Operator .multiplicative
  | mod : Operator .multiplicative
  deriving DecidableEq, Repr

inductive Comparator where
  | less
  | lessEquals
  | greater
  | greaterEquals
  | equals
  | notEquals
  deriving DecidableEq, Repr

namespace Family

def name : Family → String
  | logical => "Logical"
  | additive => "Additive"
  | multiplicative => "Multiplicative"

def operator? : (family : Family) → TokenKind → Option (Operator family)
  | logical, .and => some .and
  | logical, .or => some .or
  | additive, .plus => some .add
  | additive, .dash => some .sub
  | multiplicative, .star => some .mul
  | multiplicative, .slash => some .div
  | multiplicative, .percent => some .mod
  | _, _ => none

end Family

namespace Comparator

def ofKind? : TokenKind → Option Comparator
  | .less => some less
  | .lessEquals => some lessEquals
  | .greater => some greater
  | .greaterEquals => some greaterEquals
  | .equals => some equals
  | .notEquals => some notEquals
  | _ => none

/-- Ordering comparators compare numbers; the other two compare any two values of
one type. -/
def isOrdering : Comparator → Bool
  | less | lessEquals | greater | greaterEquals => true
  | equals | notEquals => false

end Comparator

/-! ## Expressions -/

/-- Expressions.  A bare `identifier` is a name as such; it is read as a variable
only inside `value`. -/
inductive Expr where
  | integer (value : Int64) (span : Span)
  | float (value : Binary64) (span : Span)
  | bool (value : Bool) (span : Span)
  | identifier (name : Identifier)
  | hole (span : Span)
  | value (inner : Expr) (span : Span)
  | list (elements : List Expr) (span : Span)
  | unary (operator : UnaryOperator) (operand : Expr) (span : Span)
  | chain (family : Family) (operands : List Expr) (operators : List (Operator family))
      (span : Span)
  | comparison (operator : Comparator) (operands : List Expr) (span : Span)
  | ternary (operands : List Expr) (span : Span)
  deriving Repr

namespace Expr

def span : Expr → Span
  | integer _ span => span
  | float _ span => span
  | bool _ span => span
  | identifier name => name.span
  | hole span => span
  | value _ span => span
  | list _ span => span
  | unary _ _ span => span
  | chain _ _ _ span => span
  | comparison _ _ span => span
  | ternary _ span => span

def read (name : Identifier) : Expr := .value (.identifier name) name.span

end Expr

/-! ## Statements -/

structure Condition where
  expr? : Option Expr
  span : Span
  deriving Repr

mutual

inductive Stmt where
  | declare (identifier : Identifier) (typeName : String) (value? : Option Expr) (span : Span)
  | assign (identifier : Identifier) (value : Expr) (span : Span)
  | branch (condition : Condition) (thenBody : Block) (elseBody? : Option Block) (span : Span)
  | loop (condition : Condition) (body : Block) (span : Span)
  | doLoop (body : Block) (condition : Condition) (span : Span)

inductive Block where
  | mk (body : List Stmt) (span : Span)

end

namespace Stmt

def span : Stmt → Span
  | declare _ _ _ span => span
  | assign _ _ span => span
  | branch _ _ _ span => span
  | loop _ _ span => span
  | doLoop _ _ span => span

end Stmt

namespace Block

def body : Block → List Stmt
  | mk body _ => body

def span : Block → Span
  | mk _ span => span

end Block

end Assay
