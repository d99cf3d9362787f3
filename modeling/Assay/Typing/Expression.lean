import Assay.Tree
import Assay.Typing.Metrics
import Assay.Typing.Scope

/-!
# Types of expressions

`Expr.infer` finds the type of an expression in a scope, from left to right, and
counts what it passes on the way; the counts stand also when it fails.  Operands
that belong together are checked one after the other, each against the one before
it, under a rule that says which pairs agree.
-/

namespace Assay

/-- Inference in a fixed scope: a type or a diagnostic, and the counts so far. -/
abbrev Infer := EStateM Diagnostic Metrics

namespace Infer

def count (update : Metrics → Metrics) : Infer Unit := modify update

def ofExcept {α : Type} (answer : Except Diagnostic α) : Infer α :=
  match answer with
  | .ok value => pure value
  | .error diagnostic => throw diagnostic

def invalidExpression {α : Type} (expr : Expr) : Infer α :=
  throw ⟨.invalidExpressionType, expr.span.start⟩

def malformed {α : Type} (node : String) (children : Nat) (span : Span) : Infer α :=
  throw ⟨.malformedNode node children, span.start⟩

end Infer

/-- What is asked of the operands of one node. -/
inductive Agreement where
  | arithmetic
  | logical
  | ordered
  | alike
  deriving DecidableEq, Repr

namespace Agreement

/-- Whether an operand of a type may follow the operand before it; the first operand
follows none. -/
def admits : Agreement → Option (Option Ty) → Option Ty → Bool
  | arithmetic, previous, ty? => numericType ty? && previous.all (sameType · ty?)
  | logical, _, ty? => sameType ty? (some .bool)
  | ordered, previous, ty? => previous.all fun left => numericType left && numericType ty?
  | alike, previous, ty? => previous.all (sameType · ty?)

def ofComparator (operator : Comparator) : Agreement :=
  if operator.isOrdering then ordered else alike

end Agreement

mutual

/-- The type of an expression; `none` when it yields no value. -/
def Expr.infer (scope : Scope) : Expr → Infer (Option Ty)
  | .integer _ _ => pure (some .int)
  | .float _ _ => pure (some .float)
  | .bool _ _ => pure (some .bool)
  | .identifier _ => pure none
  | .hole _ => pure none
  | .value (.identifier name) _ =>
      some <$> Infer.ofExcept (scope.lookup name.name name.span.start)
  | .value inner _ => inner.infer scope
  | .list elements _ => do
      let _ ← Expr.inferOperands scope .alike none elements
      return some .list
  | .unary .not operand _ => do
      Infer.count (·.countOperators 1)
      let ty? ← operand.infer scope
      if sameType ty? (some .bool) then return some .bool
      else Infer.invalidExpression operand
  | .unary .neg operand _ => do
      Infer.count (·.countOperators 1)
      let ty? ← operand.infer scope
      if numericType ty? then return ty?
      else Infer.invalidExpression operand
  | .chain .logical operands _ span =>
      match operands with
      | [] => Infer.malformed Family.logical.name 0 span
      | operands => do
          Infer.count (·.countOperators (operands.length - 1))
          let _ ← Expr.inferOperands scope .logical none operands
          return some .bool
  | .chain family operands _ span =>
      match operands with
      | [] => Infer.malformed family.name 0 span
      | [single] => single.infer scope
      | operands => do
          Infer.count (·.countOperators (operands.length - 1))
          Expr.inferOperands scope .arithmetic none operands
  | .comparison operator operands span =>
      match operands with
      | [] => Infer.malformed "Comparison" 0 span
      | [single] => single.infer scope
      | operands => do
          Infer.count (·.countOperators (operands.length - 1))
          let _ ← Expr.inferOperands scope (.ofComparator operator) none operands
          return some .bool
  | .ternary operands span =>
      match operands with
      | [single] => single.infer scope
      | [condition, whenTrue, whenFalse] => do
          Infer.count (·.countConditional)
          let steering ← condition.infer scope
          if sameType steering (some .bool) then
            let left ← whenTrue.infer scope
            let right ← whenFalse.infer scope
            if sameType left right then return left
            else Infer.invalidExpression whenFalse
          else throw ⟨.invalidCondition, condition.span.start⟩
      | operands => Infer.malformed "Ternary" operands.length span

def Expr.inferOperands (scope : Scope) (rule : Agreement) (previous : Option (Option Ty)) :
    List Expr → Infer (Option Ty)
  | [] => pure previous.join
  | operand :: operands => do
      let ty? ← operand.infer scope
      if rule.admits previous ty? then Expr.inferOperands scope rule (some ty?) operands
      else Infer.invalidExpression operand

end

end Assay
