import Assay.Parsing.Statement

/-!
# Parsing sessions

A session is a parser with all that it keeps from one step to the next: a dialect, a cursor,
and the number of levels of nesting that are open.  Steps are the parsing steps, which move the
cursor, and the entering and leaving of levels.  The readers of a session look up their forms in
its dialect, and those of expressions and blocks enter a level and leave it when they are done.
A step that fails leaves the session where it stopped, so that others can follow.
-/

namespace Assay

structure Session where
  dialect : Dialect
  cursor : Cursor
  depth : Nat

namespace Session

def start (dialect : Dialect) (file : String) (tokens : List Token) : Session :=
  ⟨dialect, .ofTokens file tokens, 0⟩

def levels (session : Session) : Nat := Parse.nestingLimit - session.depth

def power (session : Session) : Power := session.dialect.power session.cursor.kind

abbrev Step := EStateM Diagnostic Session

def lift {α : Type} (step : Parse α) : Step α := fun session =>
  match step session.cursor with
  | .ok value cursor => .ok value { session with cursor }
  | .error diagnostic cursor => .error diagnostic { session with cursor }

instance : MonadLift Parse Step := ⟨lift⟩

def getDialect : Step Dialect := fun session => .ok session.dialect session

/-! ## Levels -/

def enter : Step Unit := fun session =>
  if session.depth < Parse.nestingLimit then
    .ok () { session with depth := session.depth + 1 }
  else
    lift Parse.tooDeep session

def leave : Step Unit := fun session => .ok () { session with depth := session.depth - 1 }

/-- Takes a step one level deeper.  The level is left whether or not the step succeeds. -/
def deeper {α : Type} (step : Step α) : Step α := do
  enter
  try step finally leave

/-! ## Expressions and blocks -/

/-- An expression stands one level deeper than what it is part of, so calls that are more than
the levels left are never used up. -/
def expression : Nat → Power → Step Expr
  | 0, _ => Parse.stalled
  | calls + 1, power => deeper do
      Parse.expressionWith (← getDialect) (expression calls) power

def statementOf (expression : Step Expr) (block : Step Block) : Step Stmt := do
  Parse.statementWith (← getDialect) expression block

def block : Nat → Step Block
  | 0 => Parse.stalled
  | calls + 1 => Parse.blockWith <| deeper do
      let rounds ← Parse.remaining
      let statement := statementOf (expression calls .lowest) (block calls)
      Parse.statementsUntil [.closeCurly, .endOfInput] statement rounds

/-! ## Actions -/

/-- What a session can be asked to read.  The last three are read in a given form, whatever
the current token. -/
inductive Fragment where
  | token
  | expected (kind : TokenKind)
  | expectedHere (kind : TokenKind) (message : String)
  | expectedOr (kind : TokenKind) (diagnostic : Diagnostic)
  | expression (power : Power)
  | statement
  | block
  | condition
  | opening (form : OpeningForm)
  | continuation (form : ContinuationForm) (power : Power) (left : Expr)
  | statementForm (form : StatementForm)

inductive Answer where
  | done
  | token (token : Token)
  | expr (expr : Expr)
  | stmt (stmt : Stmt)
  | block (block : Block)
  | condition (condition : Condition)

/-- Calls enough for all levels, and for the one that finds none left. -/
def calls : Nat := Parse.nestingLimit + 1

def Fragment.read : Fragment → Step Answer
  | .token => .token <$> lift Parse.advance
  | .expected kind => .token <$> lift (Parse.expect kind)
  | .expectedHere kind message => .token <$> lift (Parse.expectHere kind message)
  | .expectedOr kind diagnostic => .token <$> lift (Parse.expectOr kind (throw diagnostic))
  | .expression power => .expr <$> Session.expression calls power
  | .statement => .stmt <$> statementOf (Session.expression calls .lowest) (Session.block calls)
  | .block => .block <$> Session.block calls
  | .condition => .condition <$> Parse.condition (Session.expression calls .lowest)
  | .opening form => .expr <$> Parse.opening (Session.expression calls) form
  | .continuation form power left =>
      .expr <$> Parse.continuation (Session.expression calls) power left form
  | .statementForm form =>
      .stmt <$> Parse.statementForm (Session.expression calls .lowest) (Session.block calls) form

inductive Action where
  | read (fragment : Fragment)
  | enter
  | leave
  | setOpening (kind : TokenKind) (form : OpeningForm)
  | setContinuation (kind : TokenKind) (power : Power) (form : ContinuationForm)
  | setStatement (kind : TokenKind) (form : StatementForm)

def setDialect (change : Dialect → Dialect) : Step Unit :=
  modify fun session => { session with dialect := change session.dialect }

def Action.step : Action → Step Answer
  | .read fragment => fragment.read
  | .enter => (fun _ => .done) <$> Session.enter
  | .leave => (fun _ => .done) <$> Session.leave
  | .setOpening kind form => (fun _ => .done) <$> setDialect (·.setOpening kind form)
  | .setContinuation kind power form =>
      (fun _ => .done) <$> setDialect (·.setContinuation kind power form)
  | .setStatement kind form => (fun _ => .done) <$> setDialect (·.setStatement kind form)

/-- Takes a step.  A diagnostic does not stop the session. -/
def perform (session : Session) (action : Action) : Except Diagnostic Answer × Session :=
  match action.step session with
  | .ok answer session => (.ok answer, session)
  | .error diagnostic session => (.error diagnostic, session)

def run (session : Session) (actions : List Action) : Session :=
  actions.foldl (fun session action => (session.perform action).2) session

end Session

end Assay
