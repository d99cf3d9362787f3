/-!
# Usage metrics

What a program uses, counted while it is checked: variables declared, loops,
conditionals (branches and ternaries) and operators.
-/

namespace Assay

structure Metrics where
  declarations : Nat
  loops : Nat
  conditionals : Nat
  operators : Nat
  deriving DecidableEq, Repr

namespace Metrics

def zero : Metrics := ⟨0, 0, 0, 0⟩

def countDeclaration (metrics : Metrics) : Metrics :=
  { metrics with declarations := metrics.declarations + 1 }

def countLoop (metrics : Metrics) : Metrics := { metrics with loops := metrics.loops + 1 }

def countConditional (metrics : Metrics) : Metrics :=
  { metrics with conditionals := metrics.conditionals + 1 }

def countOperators (metrics : Metrics) (count : Nat) : Metrics :=
  { metrics with operators := metrics.operators + count }

def display (metrics : Metrics) : String :=
  "\x7bVAR:" ++ toString metrics.declarations ++ ", WHILE:" ++ toString metrics.loops ++
    ", IF:" ++ toString metrics.conditionals ++ ", OP:" ++ toString metrics.operators ++ "\x7d"

end Metrics

end Assay
