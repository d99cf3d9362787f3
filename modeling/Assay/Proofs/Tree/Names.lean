import Assay.Diagnostic
import Assay.Tree

/-!
# Names in trees

`names` lists the variables that a tree reads, assigns or declares, at any depth; a bare
identifier is none of these.  `rename` puts another name in the place of each, and leaves
the names of types and all spans alone.
-/

namespace Assay

/-! ## The variables of a tree -/

mutual

def Expr.names : Expr → List String
  | .integer _ _ | .float _ _ | .bool _ _ | .identifier _ | .hole _ => []
  | .value (.identifier name) _ => [name.name]
  | .value inner _ => inner.names
  | .list elements _ => Expr.namesAll elements
  | .unary _ operand _ => operand.names
  | .chain _ operands _ _ | .comparison _ operands _ | .ternary operands _ =>
      Expr.namesAll operands

def Expr.namesAll : List Expr → List String
  | [] => []
  | expr :: exprs => expr.names ++ Expr.namesAll exprs

end

def Condition.names (condition : Condition) : List String :=
  match condition.expr? with
  | none => []
  | some expr => expr.names

mutual

def Stmt.names : Stmt → List String
  | .declare name _ none _ => [name.name]
  | .declare name _ (some value) _ => name.name :: value.names
  | .assign name value _ => name.name :: value.names
  | .branch condition thenBody none _ => condition.names ++ thenBody.names
  | .branch condition thenBody (some elseBody) _ =>
      condition.names ++ (thenBody.names ++ elseBody.names)
  | .loop condition body _ => condition.names ++ body.names
  | .doLoop body condition _ => body.names ++ condition.names

def Block.names : Block → List String
  | .mk body _ => Stmt.namesAll body

def Stmt.namesAll : List Stmt → List String
  | [] => []
  | stmt :: stmts => stmt.names ++ Stmt.namesAll stmts

end

/-! ## Renaming -/

def Identifier.rename (newName : String → String) (name : Identifier) : Identifier :=
  ⟨newName name.name, name.span⟩

mutual

def Expr.rename (newName : String → String) : Expr → Expr
  | .integer number span => .integer number span
  | .float number span => .float number span
  | .bool truth span => .bool truth span
  | .identifier name => .identifier (name.rename newName)
  | .hole span => .hole span
  | .value inner span => .value (inner.rename newName) span
  | .list elements span => .list (Expr.renameAll newName elements) span
  | .unary operator operand span => .unary operator (operand.rename newName) span
  | .chain family operands operators span =>
      .chain family (Expr.renameAll newName operands) operators span
  | .comparison operator operands span =>
      .comparison operator (Expr.renameAll newName operands) span
  | .ternary operands span => .ternary (Expr.renameAll newName operands) span

def Expr.renameAll (newName : String → String) : List Expr → List Expr
  | [] => []
  | expr :: exprs => expr.rename newName :: Expr.renameAll newName exprs

end

def Condition.rename (newName : String → String) (condition : Condition) : Condition :=
  ⟨condition.expr?.map (Expr.rename newName), condition.span⟩

mutual

def Stmt.rename (newName : String → String) : Stmt → Stmt
  | .declare name typeName value? span =>
      .declare (name.rename newName) typeName (value?.map (Expr.rename newName)) span
  | .assign name value span => .assign (name.rename newName) (value.rename newName) span
  | .branch condition thenBody none span =>
      .branch (condition.rename newName) (thenBody.rename newName) none span
  | .branch condition thenBody (some elseBody) span =>
      .branch (condition.rename newName) (thenBody.rename newName)
        (some (elseBody.rename newName)) span
  | .loop condition body span => .loop (condition.rename newName) (body.rename newName) span
  | .doLoop body condition span =>
      .doLoop (body.rename newName) (condition.rename newName) span

def Block.rename (newName : String → String) : Block → Block
  | .mk body span => .mk (Stmt.renameAll newName body) span

def Stmt.renameAll (newName : String → String) : List Stmt → List Stmt
  | [] => []
  | stmt :: stmts => stmt.rename newName :: Stmt.renameAll newName stmts

end

/-- Of all causes, three name a variable. -/
def Cause.rename (newName : String → String) : Cause → Cause
  | multipleDeclaration name => multipleDeclaration (newName name)
  | undeclaredVariable name => undeclaredVariable (newName name)
  | assignmentTypeMismatch name => assignmentTypeMismatch (newName name)
  | cause => cause

def Diagnostic.rename (newName : String → String) (diagnostic : Diagnostic) : Diagnostic :=
  ⟨diagnostic.cause.rename newName, diagnostic.position⟩

@[simp] theorem Expr.span_rename (newName : String → String) (expr : Expr) :
    (expr.rename newName).span = expr.span := by
  cases expr <;> rfl

@[simp] theorem Expr.length_renameAll (newName : String → String) (exprs : List Expr) :
    (Expr.renameAll newName exprs).length = exprs.length := by
  induction exprs with
  | nil => rfl
  | cons expr exprs ih => simp [Expr.renameAll, ih]

/-! ## The renaming that changes nothing -/

mutual

theorem Expr.rename_id (expr : Expr) : expr.rename id = expr := by
  match expr with
  | .integer _ _ | .float _ _ | .bool _ _ | .identifier _ | .hole _ => rfl
  | .value inner _ => simp [Expr.rename, inner.rename_id]
  | .unary _ operand _ => simp [Expr.rename, operand.rename_id]
  | .list operands _ | .chain _ operands _ _ | .comparison _ operands _ | .ternary operands _ =>
      simp [Expr.rename, Expr.renameAll_id operands]

theorem Expr.renameAll_id (exprs : List Expr) : Expr.renameAll id exprs = exprs := by
  match exprs with
  | [] => rfl
  | expr :: exprs => simp [Expr.renameAll, expr.rename_id, Expr.renameAll_id exprs]

end

private theorem Condition.rename_id (condition : Condition) : condition.rename id = condition := by
  rcases condition with ⟨expr?, span⟩
  cases expr? with
  | none => rfl
  | some expr => simp [Condition.rename, expr.rename_id]

mutual

theorem Stmt.rename_id (stmt : Stmt) : stmt.rename id = stmt := by
  match stmt with
  | .declare _ _ none _ => rfl
  | .declare _ _ (some tree) _ => simp [Stmt.rename, Identifier.rename, tree.rename_id]
  | .assign _ tree _ => simp [Stmt.rename, Identifier.rename, tree.rename_id]
  | .branch condition thenBody none _ =>
      simp [Stmt.rename, condition.rename_id, thenBody.rename_id]
  | .branch condition thenBody (some elseBody) _ =>
      simp [Stmt.rename, condition.rename_id, thenBody.rename_id, elseBody.rename_id]
  | .loop condition body _ | .doLoop body condition _ =>
      simp [Stmt.rename, condition.rename_id, body.rename_id]

theorem Block.rename_id (block : Block) : block.rename id = block := by
  match block with
  | .mk body _ => simp [Block.rename, Stmt.renameAll_id body]

theorem Stmt.renameAll_id (stmts : List Stmt) : Stmt.renameAll id stmts = stmts := by
  match stmts with
  | [] => rfl
  | stmt :: stmts => simp [Stmt.renameAll, stmt.rename_id, Stmt.renameAll_id stmts]

end

private theorem Cause.rename_id (cause : Cause) : cause.rename id = cause := by
  cases cause <;> rfl

theorem Diagnostic.rename_id (diagnostic : Diagnostic) : diagnostic.rename id = diagnostic := by
  simp [Diagnostic.rename, Cause.rename_id]

end Assay
