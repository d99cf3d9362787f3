import Assay.Numeral.Decimal
import Assay.Numeral.Integer
import Assay.Parsing.Cursor
import Assay.Parsing.Dialect

/-!
# Parsing expressions

Operator precedence parsing over a dialect.  An expression opens in the form that
its first token selects and is continued as long as the next token binds tighter
than the context.  The forms do not know how their parts are read: they are given
the parser for subexpressions, in any monad that parsing steps lift to, and
`expression` ties the knot by counting down the levels of nesting that are left.
Loops are bounded by the tokens ahead.
-/

namespace Assay

namespace Parse

def nestingLimit : Nat := 128

def tooDeep {α : Type} : Parse α := unexpectedHere "nesting is too deep"

def spanOver (first : Expr) (others : List Expr) : Span :=
  ⟨first.span.start, (others.getLastD first).span.stop⟩

/-! ## Opening forms -/

def number {α : Type} (read? : String → Option α) (build : α → Span → Expr) : Parse Expr :=
  fun cursor =>
    match read? cursor.current.text with
    | some value => .ok (build value cursor.current.span) cursor.next
    | none => reject .numberParse cursor

def atom : Parse Expr := do
  match ← kind with
  | .integer => number Numeral.integer? .integer
  | .float => number Numeral.decimal? .float
  | .trueWord => return .bool true (← advance).span
  | .falseWord => return .bool false (← advance).span
  | .identifier =>
      let token ← advance
      return .read ⟨token.text, token.span⟩
  | _ => unexpected

/-! Forms that have parts can be read by any actions that include the parsing steps. -/

section

variable {m : Type → Type} [Monad m] [MonadLiftT Parse m]

def unary (subexpression : Power → m Expr) : m Expr := do
  let sign ← advance
  let operand ← subexpression .unary
  let operator := if sign.kind = .not then .not else .neg
  return .unary operator operand ⟨sign.span.start, operand.span.stop⟩

def group (subexpression : Power → m Expr) : m Expr := do
  let _ ← advance
  let inner ← subexpression .lowest
  let _ ← expect .closeParen
  return inner

/-- The elements up to the closing bracket.  A comma may follow the last one. -/
def elements (element : m Expr) : List Token → m (List Expr)
  | [] => stalled
  | _ :: rounds => do
      if (← kind) = .closeBracket then return []
      let first ← element
      match ← kind with
      | .comma =>
          let _ ← advance
          return first :: (← elements element rounds)
      | .closeBracket => return [first]
      | _ => unexpectedHere "expected `,` or `]` in list literal"

def list (subexpression : Power → m Expr) : m Expr := do
  let opening ← advance
  let elements ← elements (subexpression .lowest) (← remaining)
  let _ ← expect .closeBracket
  return .list elements ⟨opening.span.start, ← previousEnd⟩

def opening (subexpression : Power → m Expr) : OpeningForm → m Expr
  | .atom => atom
  | .unary => unary subexpression
  | .group => group subexpression
  | .list => list subexpression

/-! ## Continuation forms -/

def links (operand : m Expr) (family : Family) :
    List Token → m (List (Operator family) × List Expr)
  | [] => stalled
  | _ :: rounds => do
      match family.operator? (← kind) with
      | none => return ([], [])
      | some operator =>
          let _ ← advance
          let first ← operand
          let (operators, operands) ← links operand family rounds
          return (operator :: operators, first :: operands)

def chain (subexpression : Power → m Expr) (family : Family) (power : Power) (left : Expr) :
    m Expr := do
  let (operators, operands) ← links (subexpression power) family (← remaining)
  return .chain family (left :: operands) operators (spanOver left operands)

def comparands (operand : m Expr) (sign : TokenKind) : List Token → m (List Expr)
  | [] => stalled
  | _ :: rounds => do
      if (← kind) = sign then
        let _ ← advance
        let first ← operand
        return first :: (← comparands operand sign rounds)
      else
        return []

/-- Another comparator ends the chain; it may start a new one whose first operand is
this one. -/
def comparison (subexpression : Power → m Expr) (power : Power) (left : Expr) : m Expr := do
  let sign ← kind
  match Comparator.ofKind? sign with
  | none => unexpectedHere "expected a comparison operator"
  | some comparator =>
      let operands ← comparands (subexpression power) sign (← remaining)
      return .comparison comparator (left :: operands) (spanOver left operands)

def ternary (subexpression : Power → m Expr) (condition : Expr) : m Expr := do
  let _ ← advance
  let whenTrue ← subexpression .lowest
  let _ ← expectHere .colon "expected `:` in ternary expression"
  let whenFalse ← subexpression .lowest
  return .ternary [condition, whenTrue, whenFalse] ⟨condition.span.start, whenFalse.span.stop⟩

def continuation (subexpression : Power → m Expr) (power : Power) (left : Expr) :
    ContinuationForm → m Expr
  | .ternary => ternary subexpression left
  | .chain family => chain subexpression family power left
  | .comparison => comparison subexpression power left

/-! ## Expressions -/

/-- Continues an expression while the next token binds tighter than `power`. -/
def continued (dialect : Dialect) (subexpression : Power → m Expr) (power : Power) :
    List Token → Expr → m Expr
  | [], _ => stalled
  | _ :: rounds, left => do
      let next ← kind
      if power < dialect.power next then
        match dialect.continuation? next with
        | none => unexpected
        | some form =>
            continued dialect subexpression power rounds
              (← continuation subexpression (dialect.power next) left form)
      else
        return left

def expressionWith (dialect : Dialect) (subexpression : Power → m Expr) (power : Power) :
    m Expr := do
  match dialect.opening? (← kind) with
  | none => unexpected
  | some form =>
      let left ← opening subexpression form
      continued dialect subexpression power (← remaining) left

end

def expression (dialect : Dialect) : Nat → Power → Parse Expr
  | 0, _ => tooDeep
  | levels + 1, power => expressionWith dialect (expression dialect levels) power

end Parse

end Assay
