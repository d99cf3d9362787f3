import Assay.Tree

/-!
# Trees without their spans

`eraseSpans` puts the null span in the place of every span in a tree.  Trees that agree
afterwards are the same program, wherever each of them was read.
-/

namespace Assay

def Identifier.eraseSpan (name : Identifier) : Identifier := ⟨name.name, .null⟩

mutual

def Expr.eraseSpans : Expr → Expr
  | .integer number _ => .integer number .null
  | .float number _ => .float number .null
  | .bool truth _ => .bool truth .null
  | .identifier name => .identifier name.eraseSpan
  | .hole _ => .hole .null
  | .value inner _ => .value inner.eraseSpans .null
  | .list elements _ => .list (Expr.eraseAll elements) .null
  | .unary operator operand _ => .unary operator operand.eraseSpans .null
  | .chain family operands operators _ =>
      .chain family (Expr.eraseAll operands) operators .null
  | .comparison operator operands _ => .comparison operator (Expr.eraseAll operands) .null
  | .ternary operands _ => .ternary (Expr.eraseAll operands) .null

def Expr.eraseAll : List Expr → List Expr
  | [] => []
  | expr :: exprs => expr.eraseSpans :: Expr.eraseAll exprs

end

@[simp] theorem Expr.eraseAll_eq_map (exprs : List Expr) :
    Expr.eraseAll exprs = exprs.map Expr.eraseSpans := by
  induction exprs with
  | nil => rfl
  | cons expr exprs ih => rw [eraseAll, ih, List.map_cons]

def Condition.eraseSpans (condition : Condition) : Condition :=
  ⟨condition.expr?.map Expr.eraseSpans, .null⟩

mutual

def Stmt.eraseSpans : Stmt → Stmt
  | .declare name typeName value? _ =>
      .declare name.eraseSpan typeName (value?.map Expr.eraseSpans) .null
  | .assign name value _ => .assign name.eraseSpan value.eraseSpans .null
  | .branch condition thenBody none _ =>
      .branch condition.eraseSpans thenBody.eraseSpans none .null
  | .branch condition thenBody (some elseBody) _ =>
      .branch condition.eraseSpans thenBody.eraseSpans (some elseBody.eraseSpans) .null
  | .loop condition body _ => .loop condition.eraseSpans body.eraseSpans .null
  | .doLoop body condition _ => .doLoop body.eraseSpans condition.eraseSpans .null

def Block.eraseSpans : Block → Block
  | .mk body _ => .mk (Stmt.eraseAll body) .null

def Stmt.eraseAll : List Stmt → List Stmt
  | [] => []
  | stmt :: stmts => stmt.eraseSpans :: Stmt.eraseAll stmts

end

@[simp] theorem Stmt.eraseAll_eq_map (stmts : List Stmt) :
    Stmt.eraseAll stmts = stmts.map Stmt.eraseSpans := by
  induction stmts with
  | nil => rfl
  | cons stmt stmts ih => rw [eraseAll, ih, List.map_cons]

theorem Stmt.eraseSpans_branch (condition : Condition) (thenBody : Block)
    (elseBody? : Option Block) (span : Span) :
    (Stmt.branch condition thenBody elseBody? span).eraseSpans =
      .branch condition.eraseSpans thenBody.eraseSpans (elseBody?.map Block.eraseSpans) .null := by
  cases elseBody? <;> rfl

end Assay
