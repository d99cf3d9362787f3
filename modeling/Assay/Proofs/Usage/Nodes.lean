import Mathlib.Algebra.GroupWithZero.Nat
import Assay.Proofs.Tree.Shape
import Assay.Proofs.Usage.Tree

/-!
# Counting the nodes of a tree

The nodes of a tree can be listed, statements and expressions apart, and counted one by
one.  The usage of a tree is that count, so a check that succeeds has moved every counter by
the number of nodes it stands for, and a check that fails by no more.
-/

namespace Assay

/-! ## What a single node counts for -/

def Stmt.isDeclaration : Stmt → Bool
  | .declare _ _ _ _ => true
  | _ => false

def Stmt.isLoop : Stmt → Bool
  | .loop _ _ _ | .doLoop _ _ _ => true
  | _ => false

def Stmt.isBranch : Stmt → Bool
  | .branch _ _ _ _ => true
  | _ => false

/-- A ternary with another number of operands is no conditional. -/
def Expr.isConditional : Expr → Bool
  | .ternary operands _ => operands.length = 3
  | _ => false

/-- The operators in front of the operands of a node or between them. -/
def Expr.operatorCount : Expr → Nat
  | .unary _ _ _ => 1
  | .chain _ operands _ _ | .comparison _ operands _ => operands.length - 1
  | _ => 0

/-! ## Listing nodes -/

mutual

def Stmt.statements : Stmt → List Stmt
  | stmt@(.declare _ _ _ _) | stmt@(.assign _ _ _) => [stmt]
  | stmt@(.branch _ thenBody none _) => stmt :: thenBody.statements
  | stmt@(.branch _ thenBody (some elseBody) _) =>
      stmt :: (thenBody.statements ++ elseBody.statements)
  | stmt@(.loop _ body _) | stmt@(.doLoop body _ _) => stmt :: body.statements

def Block.statements : Block → List Stmt
  | .mk body _ => Stmt.statementsAll body

def Stmt.statementsAll : List Stmt → List Stmt
  | [] => []
  | stmt :: stmts => stmt.statements ++ Stmt.statementsAll stmts

end

def tally (stmts : List Stmt) (exprs : List Expr) : Metrics where
  declarations := stmts.countP Stmt.isDeclaration
  loops := stmts.countP Stmt.isLoop
  conditionals := stmts.countP Stmt.isBranch + exprs.countP Expr.isConditional
  operators := (exprs.map Expr.operatorCount).sum

private theorem tally_append (stmts stmts' : List Stmt) (exprs exprs' : List Expr) :
    tally (stmts ++ stmts') (exprs ++ exprs') = tally stmts exprs + tally stmts' exprs' := by
  simp [tally, Metrics.add_def]
  omega

private theorem tally_expr_cons (expr : Expr) (exprs : List Expr) :
    tally [] (expr :: exprs) = tally [] [expr] + tally [] exprs :=
  tally_append [] [] [expr] exprs

private theorem tally_value (inner : Expr) (span : Span) (exprs : List Expr) :
    tally [] (.value inner span :: exprs) = tally [] exprs := by
  rw [tally_expr_cons]
  exact zero_add _

private theorem tally_stmt_cons (stmt : Stmt) (stmts : List Stmt) (exprs : List Expr) :
    tally (stmt :: stmts) exprs = tally [stmt] [] + tally stmts exprs :=
  tally_append [stmt] stmts [] exprs

/-! ## Usage is the count of all nodes -/

mutual

private theorem Expr.usage_eq_tally (expr : Expr) : expr.usage = tally [] expr.parts := by
  match expr with
  | .integer _ _ | .float _ _ | .bool _ _ | .identifier _ | .hole _ => rfl
  | .value inner _ =>
      have hinner := inner.usage_eq_tally
      cases inner with
      | identifier => rfl
      | _ =>
          rw [Expr.usage, hinner]
          exact (tally_value _ _ _).symm
  | .list elements _ =>
      rw [Expr.usage, Expr.usageAll_eq_tally, Expr.parts, tally_expr_cons]
      exact (zero_add _).symm
  | .unary _ operand _ =>
      rw [Expr.usage, operand.usage_eq_tally, Expr.parts, tally_expr_cons]
      rfl
  | .chain _ operands _ _ | .comparison _ operands _ =>
      rw [Expr.usage, Expr.usageAll_eq_tally, Expr.parts, tally_expr_cons]
      simp [tally, Expr.isConditional, Expr.operatorCount, Metrics.ofOperators,
        Metrics.countOperators, Metrics.zero]
  | .ternary operands _ =>
      rw [Expr.usage, Expr.usageAll_eq_tally, Expr.parts, tally_expr_cons]
      by_cases hlength : operands.length = 3 <;>
        simp [tally, Expr.isConditional, Expr.operatorCount, Metrics.conditional,
          Metrics.countConditional, Metrics.zero, Metrics.zero_def, hlength]

theorem Expr.usageAll_eq_tally (exprs : List Expr) :
    Expr.usageAll exprs = tally [] (Expr.partsAll exprs) := by
  match exprs with
  | [] => rfl
  | expr :: exprs =>
      rw [Expr.usageAll, Expr.partsAll, expr.usage_eq_tally, Expr.usageAll_eq_tally exprs]
      exact (tally_append [] [] _ _).symm

end

private theorem Condition.usage_eq_tally (condition : Condition) :
    condition.usage = tally [] condition.parts := by
  rcases condition with ⟨expr?, span⟩
  cases expr? with
  | none => rfl
  | some expr => exact expr.usage_eq_tally

mutual

theorem Stmt.usage_eq_tally (stmt : Stmt) :
    stmt.usage = tally stmt.statements stmt.parts := by
  match stmt with
  | .declare _ _ none _ => rfl
  | .declare _ _ (some tree) _ =>
      rw [Stmt.usage, tree.usage_eq_tally, Stmt.statements, tally_stmt_cons]
      rfl
  | .assign _ tree _ =>
      rw [Stmt.usage, tree.usage_eq_tally, Stmt.statements, tally_stmt_cons]
      exact (zero_add _).symm
  | .branch condition thenBody none _ =>
      rw [Stmt.usage, condition.usage_eq_tally, thenBody.usage_eq_tally, add_assoc,
        ← tally_append, Stmt.statements, tally_stmt_cons]
      rfl
  | .branch condition thenBody (some elseBody) _ =>
      rw [Stmt.usage, condition.usage_eq_tally, thenBody.usage_eq_tally, elseBody.usage_eq_tally,
        add_assoc, add_assoc, ← tally_append, ← tally_append, Stmt.statements, tally_stmt_cons]
      rfl
  | .loop condition body _ =>
      rw [Stmt.usage, condition.usage_eq_tally, body.usage_eq_tally, add_assoc, ← tally_append,
        Stmt.statements, tally_stmt_cons]
      rfl
  | .doLoop body condition _ =>
      rw [Stmt.usage, condition.usage_eq_tally, body.usage_eq_tally, add_assoc, ← tally_append,
        Stmt.statements, tally_stmt_cons, List.append_nil]
      rfl

private theorem Block.usage_eq_tally (block : Block) :
    block.usage = tally block.statements block.parts := by
  match block with
  | .mk body _ => exact Stmt.usageAll_eq_tally body

theorem Stmt.usageAll_eq_tally (stmts : List Stmt) :
    Stmt.usageAll stmts = tally (Stmt.statementsAll stmts) (Stmt.partsAll stmts) := by
  match stmts with
  | [] => rfl
  | stmt :: stmts =>
      rw [Stmt.usageAll, stmt.usage_eq_tally, Stmt.usageAll_eq_tally stmts, ← tally_append]
      rfl

end

/-! ## Counters -/

namespace Metrics

instance : LE Metrics where
  le left right := left.declarations ≤ right.declarations ∧ left.loops ≤ right.loops ∧
    left.conditionals ≤ right.conditionals ∧ left.operators ≤ right.operators

private theorem le_def (left right : Metrics) :
    left ≤ right ↔ left.declarations ≤ right.declarations ∧ left.loops ≤ right.loops ∧
      left.conditionals ≤ right.conditionals ∧ left.operators ≤ right.operators := Iff.rfl

end Metrics

end Assay
