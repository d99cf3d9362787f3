import Assay.Parsing.Expression

/-!
# Parsing statements

A statement takes the form that its first token selects.  The forms are given the
parsers for the expressions and blocks inside them, in any monad that parsing steps lift
to; `block` counts down the levels of nesting that are left, which it shares with the
expressions.
-/

namespace Assay

namespace Parse

def identifier (message : String) : Parse Identifier := do
  let token ← expectHere .identifier message
  return ⟨token.text, token.span⟩

section

variable {m : Type → Type} [Monad m] [MonadLiftT Parse m]

def condition (expression : m Expr) : m Condition := do
  let opening ← expect .openParen
  let expr ← expression
  let _ ← expect .closeParen
  return ⟨some expr, ⟨opening.span.start, ← previousEnd⟩⟩

def initialValue (expression : m Expr) : m (Option Expr) := do
  if (← kind) = .assignment then
    let _ ← advance
    return some (← expression)
  else
    return none

def declare (expression : m Expr) : m Stmt := do
  let word ← advance
  let name ← identifier "expected identifier during variable declaration"
  let _ ← expect .colon
  let typeName ← expectHere .identifier "expected a type name after `:`"
  let value? ← initialValue expression
  let _ ← expect .semicolon
  return .declare name typeName.text value? ⟨word.span.start, ← previousEnd⟩

def assign (expression : m Expr) : m Stmt := do
  let name ← identifier "expected identifier"
  let _ ← expectHere .assignment "expected `=` after identifier"
  let value ← expression
  let _ ← expect .semicolon
  return .assign name value ⟨name.span.start, ← previousEnd⟩

def elseBody (block : m Block) : m (Option Block) := do
  if (← kind) = .elseWord then
    let _ ← advance
    return some (← block)
  else
    return none

def branch (expression : m Expr) (block : m Block) : m Stmt := do
  let word ← advance
  let condition ← condition expression
  let thenBody ← block
  let elseBody? ← elseBody block
  return .branch condition thenBody elseBody? ⟨word.span.start, ← previousEnd⟩

def loop (expression : m Expr) (block : m Block) : m Stmt := do
  let word ← advance
  let condition ← condition expression
  let body ← block
  return .loop condition body ⟨word.span.start, ← previousEnd⟩

def doLoop (expression : m Expr) (block : m Block) : m Stmt := do
  let word ← advance
  let body ← block
  let _ ← expectHere .whileWord "expected `while` after do block"
  let condition ← condition expression
  let _ ← expect .semicolon
  return .doLoop body condition ⟨word.span.start, ← previousEnd⟩

def statementForm (expression : m Expr) (block : m Block) : StatementForm → m Stmt
  | .declare => declare expression
  | .assign => assign expression
  | .branch => branch expression block
  | .loop => loop expression block
  | .doLoop => doLoop expression block

def statementWith (dialect : Dialect) (expression : m Expr) (block : m Block) : m Stmt := do
  match dialect.statement? (← kind) with
  | none => unexpectedHere "expected a statement"
  | some form => statementForm expression block form

def statementsUntil (ends : List TokenKind) (statement : m Stmt) : List Token → m (List Stmt)
  | [] => stalled
  | _ :: rounds => do
      if (← kind) ∈ ends then return []
      let first ← statement
      return first :: (← statementsUntil ends statement rounds)

def blockWith (body : m (List Stmt)) : m Block := do
  let opening ← expect .openCurly
  let stmts ← body
  let _ ← expect .closeCurly
  return ⟨stmts, ⟨opening.span.start, ← previousEnd⟩⟩

end

def block (dialect : Dialect) : Nat → Parse Block
  | 0 => blockWith tooDeep
  | levels + 1 => blockWith do
      let rounds ← remaining
      let statement :=
        statementWith dialect (expression dialect levels .lowest) (block dialect levels)
      statementsUntil [.closeCurly, .endOfInput] statement rounds

def statement (dialect : Dialect) (levels : Nat) : Parse Stmt :=
  statementWith dialect (expression dialect levels .lowest) (block dialect levels)

def program (dialect : Dialect) (file : String) : Parse Block := do
  let body ← statementsUntil [.endOfInput] (statement dialect nestingLimit) (← remaining)
  return ⟨body, ⟨⟨0, file⟩, (← get).position⟩⟩

end Parse

def parse (tokens : List Token) (file : String) : Except Diagnostic Block :=
  match Parse.program .standard file (.ofTokens file tokens) with
  | .ok program _ => .ok program
  | .error diagnostic _ => .error diagnostic

end Assay
