import Assay.Diagnostic
import Assay.Proofs.Tree.Erasure

/-!
# Layouts of one text

Sources that differ only in blanks and comments have streams that agree in kind and text,
token by token, while the spans differ.  Two such streams are layouts of one text.  What
comes of them is alike: trees of one shape whose spans start at tokens with the same index,
and diagnostics of one cause that point at tokens with the same index.
-/

namespace Assay

def Token.spelling (token : Token) : TokenKind × String := (token.kind, token.text)

/-- Two streams that agree in kinds and texts and end in a closing token. -/
structure Layouts where
  left : List Token
  right : List Token
  same : left.map Token.spelling = right.map Token.spelling
  closing : ∃ others last, left = others ++ [last] ∧ last.kind = .endOfInput

namespace Layouts

variable {layouts : Layouts} {index : Nat} {token twin : Token}

structure At (layouts : Layouts) (index : Nat) (token twin : Token) : Prop where
  left : layouts.left[index]? = some token
  right : layouts.right[index]? = some twin

def Begins (layouts : Layouts) (position twin : Position) : Prop :=
  ∃ index first second, layouts.At index first second ∧ position = first.span.start ∧
    twin = second.span.start

theorem length_eq (layouts : Layouts) : layouts.left.length = layouts.right.length := by
  simpa using congrArg List.length layouts.same

theorem At.spelling_eq (h : layouts.At index token twin) : token.spelling = twin.spelling := by
  have hsame := congrArg (·[index]?) layouts.same
  simpa [h.left, h.right] using hsame

theorem At.kind_eq (h : layouts.At index token twin) : token.kind = twin.kind :=
  congrArg Prod.fst h.spelling_eq

theorem At.text_eq (h : layouts.At index token twin) : token.text = twin.text :=
  congrArg Prod.snd h.spelling_eq

theorem At.begins (h : layouts.At index token twin) :
    layouts.Begins token.span.start twin.span.start :=
  ⟨index, token, twin, h, rfl, rfl⟩

private theorem exists_at (h : layouts.left[index]? = some token) :
    ∃ twin, layouts.At index token twin := by
  obtain ⟨hlength, -⟩ := List.getElem?_eq_some_iff.mp h
  rw [layouts.length_eq] at hlength
  exact ⟨layouts.right[index], h, List.getElem?_eq_getElem hlength⟩

end Layouts

/-! ## Diagnostics -/

def Cause.Fits (tokens : List Token) (index : Nat) (token : Token) : Cause → Prop
  | unrecognisedToken _ => False
  | unexpectedToken text | unexpectedTokenDetailed text _ | numberParse text | stalled text =>
      token.text = text
  | undeclaredVariable name | multipleDeclaration name =>
      token.kind = .identifier ∧ token.text = name
  -- The type is named three tokens after the word that opens the declaration.
  | unknownType name =>
      token.kind = .declareWord ∧
        ∃ typeName, tokens[index + 3]? = some typeName ∧ typeName.text = name
  | assignmentTypeMismatch _ | invalidCondition | invalidExpressionType | malformedNode _ _ => True

/-- A diagnostic is placed where the token with the given index starts, and its cause fits
that token. -/
def Diagnostic.PointsAt (tokens : List Token) (index : Nat) (diagnostic : Diagnostic) : Prop :=
  ∃ token, tokens[index]? = some token ∧ diagnostic.position = token.span.start ∧
    diagnostic.cause.Fits tokens index token

/-- Diagnostics of one cause, at tokens with the same index. -/
inductive Diagnostic.Alike (layouts : Layouts) : Diagnostic → Diagnostic → Prop where
  | mk {index : Nat} {token twin : Token} {cause : Cause} (hat : layouts.At index token twin)
      (hfits : cause.Fits layouts.left index token) :
      Alike layouts ⟨cause, token.span.start⟩ ⟨cause, twin.span.start⟩

theorem Cause.Fits.right {layouts : Layouts} {index : Nat} {token twin : Token} {cause : Cause}
    (hat : layouts.At index token twin) (h : cause.Fits layouts.left index token) :
    cause.Fits layouts.right index twin := by
  cases cause with
  | unrecognisedToken => exact h.elim
  | unexpectedToken | unexpectedTokenDetailed | numberParse | stalled =>
      exact hat.text_eq.symm.trans h
  | undeclaredVariable | multipleDeclaration =>
      exact ⟨hat.kind_eq.symm.trans h.1, hat.text_eq.symm.trans h.2⟩
  | unknownType =>
      rcases h with ⟨hkind, typeName, htypeName, rfl⟩
      rcases Layouts.exists_at htypeName with ⟨other, hother⟩
      exact ⟨hat.kind_eq.symm.trans hkind, other, hother.right, hother.text_eq.symm⟩
  | assignmentTypeMismatch | invalidCondition | invalidExpressionType | malformedNode =>
      trivial

theorem Diagnostic.Alike.pointsAt {layouts : Layouts} {diagnostic other : Diagnostic}
    (h : diagnostic.Alike layouts other) :
    diagnostic.cause = other.cause ∧
      ∃ index, diagnostic.PointsAt layouts.left index ∧ other.PointsAt layouts.right index := by
  cases h with
  | mk hat hfits =>
      exact ⟨rfl, _, ⟨_, hat.left, rfl, hfits⟩, ⟨_, hat.right, rfl, hfits.right hat⟩⟩

theorem Diagnostic.Alike.of_begins {layouts : Layouts} {position twin : Position} {cause : Cause}
    (hbegins : layouts.Begins position twin)
    (hfits : ∀ index token, cause.Fits layouts.left index token) :
    Alike layouts ⟨cause, position⟩ ⟨cause, twin⟩ := by
  rcases hbegins with ⟨index, token, other, hat, rfl, rfl⟩
  exact .mk hat (hfits index token)

/-! ## Expressions -/

inductive Identifier.Alike (layouts : Layouts) : Identifier → Identifier → Prop where
  | mk {index : Nat} {token twin : Token} (hat : layouts.At index token twin)
      (hkind : token.kind = .identifier) :
      Alike layouts ⟨token.text, token.span⟩ ⟨twin.text, twin.span⟩

mutual

inductive Expr.Alike (layouts : Layouts) : Expr → Expr → Prop where
  | integer {number : Int64} {span twin : Span} (hstart : layouts.Begins span.start twin.start) :
      Expr.Alike layouts (.integer number span) (.integer number twin)
  | float {number : Binary64} {span twin : Span} (hstart : layouts.Begins span.start twin.start) :
      Expr.Alike layouts (.float number span) (.float number twin)
  | bool {truth : Bool} {span twin : Span} (hstart : layouts.Begins span.start twin.start) :
      Expr.Alike layouts (.bool truth span) (.bool truth twin)
  | read {name other : Identifier} (hname : name.Alike layouts other) :
      Expr.Alike layouts (.read name) (.read other)
  | list {elements others : List Expr} {span twin : Span}
      (hstart : layouts.Begins span.start twin.start)
      (helements : Expr.AlikeAll layouts elements others) :
      Expr.Alike layouts (.list elements span) (.list others twin)
  | unary {operator : UnaryOperator} {operand other : Expr} {span twin : Span}
      (hstart : layouts.Begins span.start twin.start)
      (hoperand : Expr.Alike layouts operand other) :
      Expr.Alike layouts (.unary operator operand span) (.unary operator other twin)
  | chain {family : Family} {operands others : List Expr} {operators : List (Operator family)}
      {span twin : Span} (hstart : layouts.Begins span.start twin.start)
      (hoperands : Expr.AlikeAll layouts operands others) :
      Expr.Alike layouts (.chain family operands operators span)
        (.chain family others operators twin)
  | comparison {operator : Comparator} {operands others : List Expr} {span twin : Span}
      (hstart : layouts.Begins span.start twin.start)
      (hoperands : Expr.AlikeAll layouts operands others) :
      Expr.Alike layouts (.comparison operator operands span) (.comparison operator others twin)
  | ternary {operands others : List Expr} {span twin : Span}
      (hstart : layouts.Begins span.start twin.start)
      (hoperands : Expr.AlikeAll layouts operands others) :
      Expr.Alike layouts (.ternary operands span) (.ternary others twin)

inductive Expr.AlikeAll (layouts : Layouts) : List Expr → List Expr → Prop where
  | nil : Expr.AlikeAll layouts [] []
  | cons {expr other : Expr} {exprs others : List Expr} (hexpr : Expr.Alike layouts expr other)
      (hexprs : Expr.AlikeAll layouts exprs others) :
      Expr.AlikeAll layouts (expr :: exprs) (other :: others)

end

section

variable {layouts : Layouts}

theorem Identifier.Alike.name_eq {name other : Identifier} (h : name.Alike layouts other) :
    name.name = other.name := by
  cases h with
  | mk hat _ => exact hat.text_eq

theorem Identifier.Alike.begins {name other : Identifier} (h : name.Alike layouts other) :
    layouts.Begins name.span.start other.span.start := by
  cases h with
  | mk hat _ => exact hat.begins

theorem Identifier.Alike.eraseSpan_eq {name other : Identifier} (h : name.Alike layouts other) :
    name.eraseSpan = other.eraseSpan := by
  rw [eraseSpan, eraseSpan, h.name_eq]

theorem Identifier.Alike.diagnostic {name other : Identifier} (h : name.Alike layouts other)
    {cause : String → Cause}
    (hcause : ∀ tokens index token, token.kind = .identifier →
      (cause token.text).Fits tokens index token) :
    Diagnostic.Alike layouts ⟨cause name.name, name.span.start⟩
      ⟨cause other.name, other.span.start⟩ := by
  rw [← h.name_eq]
  cases h with
  | mk hat hkind => exact .mk hat (hcause _ _ _ hkind)

theorem Expr.Alike.begins {expr other : Expr} (h : expr.Alike layouts other) :
    layouts.Begins expr.span.start other.span.start := by
  cases h with
  | read hname => exact hname.begins
  | integer hstart | float hstart | bool hstart => exact hstart
  | list hstart | unary hstart | chain hstart | comparison hstart | ternary hstart => exact hstart

theorem Expr.AlikeAll.length_eq {exprs others : List Expr}
    (h : Expr.AlikeAll layouts exprs others) :
    exprs.length = others.length := by
  cases h with
  | nil => rfl
  | cons _ hexprs => rw [List.length_cons, List.length_cons, hexprs.length_eq]

mutual

theorem Expr.Alike.eraseSpans_eq {expr other : Expr} (h : expr.Alike layouts other) :
    expr.eraseSpans = other.eraseSpans := by
  cases h with
  | integer | float | bool => rfl
  | read hname => simp [Expr.read, Expr.eraseSpans, hname.eraseSpan_eq]
  | list _ helements => rw [Expr.eraseSpans, Expr.eraseSpans, helements.eraseAll_eq]
  | unary _ hoperand => rw [Expr.eraseSpans, Expr.eraseSpans, hoperand.eraseSpans_eq]
  | chain _ hoperands | comparison _ hoperands | ternary _ hoperands =>
      rw [Expr.eraseSpans, Expr.eraseSpans, hoperands.eraseAll_eq]

theorem Expr.AlikeAll.eraseAll_eq {exprs others : List Expr}
    (h : Expr.AlikeAll layouts exprs others) : Expr.eraseAll exprs = Expr.eraseAll others := by
  cases h with
  | nil => rfl
  | cons hexpr hexprs =>
      rw [Expr.eraseAll, Expr.eraseAll, hexpr.eraseSpans_eq, hexprs.eraseAll_eq]

end

end

/-! ## Statements -/

inductive Condition.Alike (layouts : Layouts) : Condition → Condition → Prop where
  | mk {expr other : Expr} {span twin : Span} (hexpr : expr.Alike layouts other) :
      Alike layouts ⟨some expr, span⟩ ⟨some other, twin⟩

mutual

inductive Stmt.Alike (layouts : Layouts) : Stmt → Stmt → Prop where
  | declare {index : Nat} {word word' typeName typeName' : Token} {name other : Identifier}
      {value? other? : Option Expr} {stop stop' : Position}
      (hword : layouts.At index word word') (hkind : word.kind = .declareWord)
      (htypeName : layouts.At (index + 3) typeName typeName')
      (hname : name.Alike layouts other)
      (hvalue : Option.Rel (Expr.Alike layouts) value? other?) :
      Stmt.Alike layouts (.declare name typeName.text value? ⟨word.span.start, stop⟩)
        (.declare other typeName'.text other? ⟨word'.span.start, stop'⟩)
  | assign {name other : Identifier} {value value' : Expr} {span twin : Span}
      (hname : name.Alike layouts other) (hvalue : value.Alike layouts value') :
      Stmt.Alike layouts (.assign name value span) (.assign other value' twin)
  | branch {condition condition' : Condition} {thenBody thenBody' : Block} {span twin : Span}
      (hcondition : condition.Alike layouts condition')
      (hthenBody : Block.Alike layouts thenBody thenBody') :
      Stmt.Alike layouts (.branch condition thenBody none span)
        (.branch condition' thenBody' none twin)
  | branchElse {condition condition' : Condition} {thenBody thenBody' elseBody elseBody' : Block}
      {span twin : Span} (hcondition : condition.Alike layouts condition')
      (hthenBody : Block.Alike layouts thenBody thenBody')
      (helseBody : Block.Alike layouts elseBody elseBody') :
      Stmt.Alike layouts (.branch condition thenBody (some elseBody) span)
        (.branch condition' thenBody' (some elseBody') twin)
  | loop {condition condition' : Condition} {body body' : Block} {span twin : Span}
      (hcondition : condition.Alike layouts condition')
      (hbody : Block.Alike layouts body body') :
      Stmt.Alike layouts (.loop condition body span) (.loop condition' body' twin)
  | doLoop {body body' : Block} {condition condition' : Condition} {span twin : Span}
      (hbody : Block.Alike layouts body body')
      (hcondition : condition.Alike layouts condition') :
      Stmt.Alike layouts (.doLoop body condition span) (.doLoop body' condition' twin)

inductive Block.Alike (layouts : Layouts) : Block → Block → Prop where
  | mk {body body' : List Stmt} {span twin : Span} (hbody : Stmt.AlikeAll layouts body body') :
      Block.Alike layouts ⟨body, span⟩ ⟨body', twin⟩

inductive Stmt.AlikeAll (layouts : Layouts) : List Stmt → List Stmt → Prop where
  | nil : Stmt.AlikeAll layouts [] []
  | cons {stmt other : Stmt} {stmts others : List Stmt} (hstmt : Stmt.Alike layouts stmt other)
      (hstmts : Stmt.AlikeAll layouts stmts others) :
      Stmt.AlikeAll layouts (stmt :: stmts) (other :: others)

end

section

variable {layouts : Layouts}

theorem Condition.Alike.eraseSpans_eq {condition other : Condition}
    (h : condition.Alike layouts other) : condition.eraseSpans = other.eraseSpans := by
  cases h with
  | mk hexpr => simp [Condition.eraseSpans, hexpr.eraseSpans_eq]

mutual

theorem Stmt.Alike.eraseSpans_eq {stmt other : Stmt} (h : stmt.Alike layouts other) :
    stmt.eraseSpans = other.eraseSpans := by
  cases h with
  | declare _ _ htypeName hname hvalue =>
      rw [Stmt.eraseSpans, Stmt.eraseSpans, hname.eraseSpan_eq, htypeName.text_eq]
      cases hvalue with
      | none => rfl
      | some hvalue => rw [Option.map_some, Option.map_some, hvalue.eraseSpans_eq]
  | assign hname hvalue =>
      rw [Stmt.eraseSpans, Stmt.eraseSpans, hname.eraseSpan_eq, hvalue.eraseSpans_eq]
  | branch hcondition hthenBody =>
      rw [Stmt.eraseSpans, Stmt.eraseSpans, hcondition.eraseSpans_eq, hthenBody.eraseSpans_eq]
  | branchElse hcondition hthenBody helseBody =>
      rw [Stmt.eraseSpans, Stmt.eraseSpans, hcondition.eraseSpans_eq, hthenBody.eraseSpans_eq,
        helseBody.eraseSpans_eq]
  | loop hcondition hbody | doLoop hbody hcondition =>
      rw [Stmt.eraseSpans, Stmt.eraseSpans, hcondition.eraseSpans_eq, hbody.eraseSpans_eq]

theorem Block.Alike.eraseSpans_eq {block other : Block} (h : block.Alike layouts other) :
    block.eraseSpans = other.eraseSpans := by
  cases h with
  | mk hbody => rw [Block.eraseSpans, Block.eraseSpans, hbody.eraseAll_eq]

theorem Stmt.AlikeAll.eraseAll_eq {stmts others : List Stmt}
    (h : Stmt.AlikeAll layouts stmts others) : Stmt.eraseAll stmts = Stmt.eraseAll others := by
  cases h with
  | nil => rfl
  | cons hstmt hstmts =>
      rw [Stmt.eraseAll, Stmt.eraseAll, hstmt.eraseSpans_eq, hstmts.eraseAll_eq]

end

end

end Assay
