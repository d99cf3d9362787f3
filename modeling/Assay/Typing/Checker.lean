import Assay.Typing.Expression

/-!
# Checking statements

A checker walks down a program with the scope of the innermost block at hand, the
scopes around it on a stack, and the counts so far.  A block is checked in a scope of
its own, which is left again whether or not the check succeeds; every other effect
of a step that fails stays.
-/

namespace Assay

structure Checker where
  scope : Scope
  /-- The scopes around the current one, innermost first. -/
  enclosing : List Scope
  metrics : Metrics
  deriving DecidableEq, Repr

namespace Checker

def new : Checker := ⟨.empty, [], .zero⟩

def depth (checker : Checker) : Nat := checker.enclosing.length

def enter (checker : Checker) : Checker :=
  { checker with enclosing := checker.scope :: checker.enclosing }

/-- Leaves a block and with it every binding made inside; at the top there is none to
leave. -/
def leave (checker : Checker) : Checker :=
  match checker.enclosing with
  | [] => checker
  | outer :: others => { checker with scope := outer, enclosing := others }

@[simp] theorem leave_enter (checker : Checker) : checker.enter.leave = checker := rfl

@[simp] theorem depth_enter (checker : Checker) : checker.enter.depth = checker.depth + 1 := rfl

end Checker

abbrev Check := EStateM Diagnostic Checker

namespace Check

def count (update : Metrics → Metrics) : Check Unit :=
  modify fun checker => { checker with metrics := update checker.metrics }

def infer (expr : Expr) : Check (Option Ty) := fun checker =>
  match expr.infer checker.scope checker.metrics with
  | .ok ty? metrics => .ok ty? { checker with metrics }
  | .error diagnostic metrics => .error diagnostic { checker with metrics }

def inScope {α : Type} (question : Scope → Except Diagnostic α) : Check α := fun checker =>
  match question checker.scope with
  | .ok value => .ok value checker
  | .error diagnostic => .error diagnostic checker

def requireUnbound (name : Identifier) : Check Unit :=
  inScope fun scope =>
    match scope.get? name.name with
    | none => .ok ()
    | some _ => .error ⟨.multipleDeclaration name.name, name.span.start⟩

def bindName (name : String) (ty : Ty) (position : Position) : Check Unit := fun checker =>
  match checker.scope.declare name ty position with
  | .ok scope => .ok () { checker with scope }
  | .error diagnostic => .error diagnostic checker

def declaredType (keyword : String) (position : Position) : Check Ty :=
  match Ty.ofKeyword? keyword with
  | some ty => pure ty
  | none => throw ⟨.unknownType keyword, position⟩

def inBlock {α : Type} (step : Check α) : Check α := fun checker =>
  match step checker.enter with
  | .ok value inner => .ok value inner.leave
  | .error diagnostic inner => .error diagnostic inner.leave

def variableType (name : Identifier) : Check Ty :=
  inScope (·.lookup name.name name.span.start)

/-- A condition has to be a truth value.  Without an expression there is nothing to
check. -/
def condition (condition : Condition) : Check Unit :=
  match condition.expr? with
  | none => pure ()
  | some expr => do
      let ty? ← infer expr
      if sameType ty? (some .bool) then pure ()
      else throw ⟨.invalidCondition, expr.span.start⟩

def initialValue (name : String) (declared : Ty) (value : Expr) : Check Unit := do
  let ty? ← infer value
  if sameType (some declared) ty? then pure ()
  else throw ⟨.assignmentTypeMismatch name, value.span.start⟩

/-- Binds the variable and counts it, then checks its value.  A second declaration of
the name is reported before an unknown type. -/
def declare (name : Identifier) (typeName : String) (value? : Option Expr) (span : Span) :
    Check Unit := do
  requireUnbound name
  let declared ← declaredType typeName span.start
  bindName name.name declared name.span.start
  count (·.countDeclaration)
  match value? with
  | none => pure ()
  | some value => initialValue name.name declared value

/-- The variable has to exist before its value is looked at. -/
def assign (name : Identifier) (value : Expr) : Check Unit := do
  let _ ← variableType name
  let ty? ← infer value
  inScope (·.assign name.name ty? value.span.start)

end Check

mutual

def Stmt.check : Stmt → Check Unit
  | .declare name typeName value? span => Check.declare name typeName value? span
  | .assign name value _ => Check.assign name value
  | .branch condition thenBody elseBody? _ => do
      Check.count (·.countConditional)
      Check.condition condition
      thenBody.check
      match elseBody? with
      | none => pure ()
      | some elseBody => elseBody.check
  | .loop condition body _ => do
      Check.count (·.countLoop)
      Check.condition condition
      body.check
  | .doLoop body condition _ => do
      Check.count (·.countLoop)
      body.check
      Check.condition condition

def Block.check : Block → Check Unit
  | .mk body _ => Check.inBlock (Stmt.checkAll body)

def Stmt.checkAll : List Stmt → Check Unit
  | [] => pure ()
  | stmt :: stmts => do
      stmt.check
      Stmt.checkAll stmts

end

/-- The metrics of a program, if all of it is well typed.  Its statements are checked at
the top level, outside of any block. -/
def Block.metrics (program : Block) : Except Diagnostic Metrics :=
  match Stmt.checkAll program.body .new with
  | .ok _ checker => .ok checker.metrics
  | .error diagnostic _ => .error diagnostic

/-! ## Runs of a checker -/

namespace Checker

inductive Action where
  | enter
  | leave
  | declare (name : String) (ty : Ty) (position : Position)
  | expression (expr : Expr)
  | condition (condition : Condition)
  | statements (stmts : List Stmt)
  | block (block : Block)

inductive Answer where
  | done
  | type (ty? : Option Ty)
  deriving DecidableEq, Repr

def Action.step : Action → Check Answer
  | .enter => do
      modify Checker.enter
      return .done
  | .leave => do
      modify Checker.leave
      return .done
  | .declare name ty position => do
      Check.bindName name ty position
      return .done
  | .expression expr => do
      return .type (← Check.infer expr)
  | .condition tree => do
      Check.condition tree
      return .done
  | .statements stmts => do
      Stmt.checkAll stmts
      return .done
  | .block tree => do
      tree.check
      return .done

/-- Takes a step.  A diagnostic does not stop the checker; what the step did before it
stays. -/
def perform (checker : Checker) (action : Action) : Except Diagnostic Answer × Checker :=
  match action.step checker with
  | .ok answer checker => (.ok answer, checker)
  | .error diagnostic checker => (.error diagnostic, checker)

end Checker

end Assay
