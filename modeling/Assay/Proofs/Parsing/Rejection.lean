import Assay.Parsing.Statement
import Assay.Proofs.Effect

/-!
# How parsing fails

A step never changes the stream it reads and never moves back, and a step that fails rejects
the token it has come to stand on: the diagnostic has that token's text and position.
-/

namespace Assay

structure Cursor.Onward (start stop : Cursor) : Prop where
  tokens : stop.tokens = start.tokens
  passed : start.passed.length ≤ stop.passed.length

namespace Cursor.Onward

theorem refl (cursor : Cursor) : cursor.Onward cursor := ⟨rfl, Nat.le_refl _⟩

theorem trans {start middle stop : Cursor} (hfirst : start.Onward middle)
    (hsecond : middle.Onward stop) : start.Onward stop :=
  ⟨hsecond.tokens.trans hfirst.tokens, Nat.le_trans hfirst.passed hsecond.passed⟩

theorem next (cursor : Cursor) : cursor.Onward cursor.next := by
  refine ⟨tokens_next cursor, ?_⟩
  unfold Cursor.next
  split
  · exact Nat.le_refl _
  · exact Nat.le_succ _

end Cursor.Onward

/-- A diagnostic that rejects the current token of a cursor. -/
inductive Rejection (cursor : Cursor) : Diagnostic → Prop where
  | unexpected : Rejection cursor ⟨.unexpectedToken cursor.current.text, cursor.position⟩
  | unexpectedHere (message : String) :
      Rejection cursor ⟨.unexpectedTokenDetailed cursor.current.text message, cursor.position⟩
  | number : Rejection cursor ⟨.numberParse cursor.current.text, cursor.position⟩
  | stalled : Rejection cursor ⟨.stalled cursor.current.text, cursor.position⟩

namespace Parse

/-- However a step ends, it moves onward; and if it fails, it rejects the current token. -/
def Orderly {α : Type} (step : Parse α) : Prop :=
  ∀ start, Ensures step start (fun _ stop => start.Onward stop)
    fun diagnostic stop => start.Onward stop ∧ Rejection stop diagnostic

namespace Orderly

variable {α β : Type}

theorem pure (result : α) : Orderly (Pure.pure result) := .refl

theorem bind {step : Parse α} {following : α → Parse β} (hstep : Orderly step)
    (hfollowing : ∀ first, Orderly (following first)) : Orderly (step >>= following) := by
  intro start
  refine .bind ((hstep start).mono ?_ fun _ _ h => h)
  intro first middle hmiddle
  refine (hfollowing first middle).mono ?_ ?_
  · intro _ stop hstop
    exact hmiddle.trans hstop
  · rintro diagnostic stop ⟨hstop, hrejection⟩
    exact ⟨hmiddle.trans hstop, hrejection⟩

theorem unexpected : Orderly (unexpected : Parse α) := fun _ => ⟨.refl _, .unexpected⟩

theorem unexpectedHere (message : String) : Orderly (unexpectedHere message : Parse α) :=
  fun _ => ⟨.refl _, .unexpectedHere message⟩

theorem stalled : Orderly (stalled : Parse α) := fun _ => ⟨.refl _, .stalled⟩

theorem kind : Orderly kind := .refl

theorem previousEnd : Orderly previousEnd := .refl

theorem remaining : Orderly remaining := .refl

theorem advance : Orderly advance := .next

theorem expectOr (kind : TokenKind) {otherwise : Parse Token} (h : Orderly otherwise) :
    Orderly (expectOr kind otherwise) := by
  intro start
  by_cases hkind : start.kind = kind
  · exact .of_eq (if_pos hkind) (advance start)
  · exact .of_eq (if_neg hkind) (h start)

theorem expect (kind : TokenKind) : Orderly (expect kind) := .expectOr kind .unexpected

theorem expectHere (kind : TokenKind) (message : String) : Orderly (expectHere kind message) :=
  .expectOr kind (.unexpectedHere message)

end Orderly

/-! ## Expressions -/

theorem number_orderly {α : Type} (read? : String → Option α) (build : α → Span → Expr) :
    Orderly (number read? build) := by
  intro start
  unfold Ensures number
  cases read? start.current.text with
  | some value => exact .next start
  | none => exact ⟨.refl start, .number⟩

private theorem atom_orderly : Orderly atom := by
  refine .bind .kind fun kind => ?_
  split
  · exact number_orderly _ _
  · exact number_orderly _ _
  · exact .bind .advance fun _ => .pure _
  · exact .bind .advance fun _ => .pure _
  · exact .bind .advance fun _ => .pure _
  · exact .unexpected

section

variable {subexpression : Power → Parse Expr} (hsub : ∀ power, Orderly (subexpression power))

include hsub

theorem elements_orderly (rounds : List Token) :
    Orderly (elements (subexpression .lowest) rounds) := by
  induction rounds with
  | nil => exact .stalled
  | cons round rounds ih =>
      refine .bind .kind fun kind => ?_
      split
      · exact .pure _
      refine .bind (hsub .lowest) fun first => .bind .kind fun next => ?_
      split
      · exact .bind .advance fun _ => .bind ih fun _ => .pure _
      · exact .pure _
      · exact .unexpectedHere _

theorem opening_orderly (form : OpeningForm) : Orderly (opening subexpression form) := by
  cases form with
  | atom => exact atom_orderly
  | unary => exact .bind .advance fun _ => .bind (hsub .unary) fun _ => .pure _
  | group =>
      exact .bind .advance fun _ => .bind (hsub .lowest) fun _ => .bind (.expect _) fun _ =>
        .pure _
  | list =>
      exact .bind .advance fun _ => .bind .remaining fun rounds =>
        .bind (elements_orderly hsub rounds) fun _ => .bind (.expect _) fun _ =>
          .bind .previousEnd fun _ => .pure _

theorem links_orderly (family : Family) (power : Power) (rounds : List Token) :
    Orderly (links (subexpression power) family rounds) := by
  induction rounds with
  | nil => exact .stalled
  | cons round rounds ih =>
      refine .bind .kind fun kind => ?_
      split
      · exact .pure _
      · exact .bind .advance fun _ => .bind (hsub power) fun _ => .bind ih fun _ => .pure _

theorem comparands_orderly (sign : TokenKind) (power : Power) (rounds : List Token) :
    Orderly (comparands (subexpression power) sign rounds) := by
  induction rounds with
  | nil => exact .stalled
  | cons round rounds ih =>
      refine .bind .kind fun kind => ?_
      split
      · exact .bind .advance fun _ => .bind (hsub power) fun _ => .bind ih fun _ => .pure _
      · exact .pure _

theorem continuation_orderly (power : Power) (left : Expr) (form : ContinuationForm) :
    Orderly (continuation subexpression power left form) := by
  cases form with
  | ternary =>
      exact .bind .advance fun _ => .bind (hsub .lowest) fun _ => .bind (.expectHere _ _) fun _ =>
        .bind (hsub .lowest) fun _ => .pure _
  | chain family =>
      exact .bind .remaining fun rounds => .bind (links_orderly hsub family power rounds) fun _ =>
        .pure _
  | comparison =>
      refine .bind .kind fun sign => ?_
      split
      · exact .unexpectedHere _
      · exact .bind .remaining fun rounds =>
          .bind (comparands_orderly hsub sign power rounds) fun _ => .pure _

theorem continued_orderly (dialect : Dialect) (power : Power) (rounds : List Token)
    (left : Expr) : Orderly (continued dialect subexpression power rounds left) := by
  induction rounds generalizing left with
  | nil => exact .stalled
  | cons round rounds ih =>
      refine .bind .kind fun kind => ?_
      split
      · split
        · exact .unexpected
        · exact .bind (continuation_orderly hsub _ left _) ih
      · exact .pure _

end

theorem expression_orderly (dialect : Dialect) (levels : Nat) (power : Power) :
    Orderly (expression dialect levels power) := by
  induction levels generalizing power with
  | zero => exact .unexpectedHere _
  | succ levels ih =>
      refine .bind .kind fun kind => ?_
      split
      · exact .unexpected
      · exact .bind (opening_orderly ih _) fun left => .bind .remaining fun rounds =>
          continued_orderly ih dialect power rounds left

/-! ## Statements -/

section

variable {expr : Parse Expr} {body : Parse Block} (hexpr : Orderly expr) (hbody : Orderly body)

private theorem identifier_orderly (message : String) : Orderly (identifier message) :=
  .bind (.expectHere _ _) fun _ => .pure _

include hexpr

theorem condition_orderly : Orderly (condition expr) :=
  .bind (.expect _) fun _ => .bind hexpr fun _ => .bind (.expect _) fun _ =>
    .bind .previousEnd fun _ => .pure _

private theorem initialValue_orderly : Orderly (initialValue expr) := by
  refine .bind .kind fun kind => ?_
  split
  · exact .bind .advance fun _ => .bind hexpr fun _ => .pure _
  · exact .pure _

include hbody

omit hexpr in
private theorem elseBody_orderly : Orderly (elseBody body) := by
  refine .bind .kind fun kind => ?_
  split
  · exact .bind .advance fun _ => .bind hbody fun _ => .pure _
  · exact .pure _

theorem statementForm_orderly (form : StatementForm) :
    Orderly (statementForm expr body form) := by
  cases form with
  | declare =>
      exact .bind .advance fun _ => .bind (identifier_orderly _) fun _ => .bind (.expect _) fun _ =>
        .bind (.expectHere _ _) fun _ => .bind (initialValue_orderly hexpr) fun _ =>
          .bind (.expect _) fun _ => .bind .previousEnd fun _ => .pure _
  | assign =>
      exact .bind (identifier_orderly _) fun _ => .bind (.expectHere _ _) fun _ =>
        .bind hexpr fun _ => .bind (.expect _) fun _ => .bind .previousEnd fun _ => .pure _
  | branch =>
      exact .bind .advance fun _ => .bind (condition_orderly hexpr) fun _ => .bind hbody fun _ =>
        .bind (elseBody_orderly hbody) fun _ => .bind .previousEnd fun _ => .pure _
  | loop =>
      exact .bind .advance fun _ => .bind (condition_orderly hexpr) fun _ => .bind hbody fun _ =>
        .bind .previousEnd fun _ => .pure _
  | doLoop =>
      exact .bind .advance fun _ => .bind hbody fun _ => .bind (.expectHere _ _) fun _ =>
        .bind (condition_orderly hexpr) fun _ => .bind (.expect _) fun _ =>
          .bind .previousEnd fun _ => .pure _

theorem statementWith_orderly (dialect : Dialect) :
    Orderly (statementWith dialect expr body) := by
  refine .bind .kind fun kind => ?_
  split
  · exact .unexpectedHere _
  · exact statementForm_orderly hexpr hbody _

end

theorem statementsUntil_orderly (ends : List TokenKind) {statement : Parse Stmt}
    (hstatement : Orderly statement) (rounds : List Token) :
    Orderly (statementsUntil ends statement rounds) := by
  induction rounds with
  | nil => exact .stalled
  | cons round rounds ih =>
      refine .bind .kind fun kind => ?_
      split
      · exact .pure _
      · exact .bind hstatement fun _ => .bind ih fun _ => .pure _

private theorem blockWith_orderly {body : Parse (List Stmt)} (hbody : Orderly body) :
    Orderly (blockWith body) :=
  .bind (.expect _) fun _ => .bind hbody fun _ => .bind (.expect _) fun _ =>
    .bind .previousEnd fun _ => .pure _

theorem block_orderly (dialect : Dialect) (levels : Nat) : Orderly (block dialect levels) := by
  induction levels with
  | zero => exact blockWith_orderly (.unexpectedHere _)
  | succ levels ih =>
      have hstatement :=
        statementWith_orderly (expression_orderly dialect levels .lowest) ih dialect
      exact blockWith_orderly (.bind .remaining fun rounds =>
        statementsUntil_orderly _ hstatement rounds)

theorem program_orderly (dialect : Dialect) (file : String) : Orderly (program dialect file) := by
  have hstatement := statementWith_orderly (expression_orderly dialect nestingLimit .lowest)
    (block_orderly dialect nestingLimit) dialect
  refine .bind .remaining fun rounds =>
    .bind (statementsUntil_orderly _ hstatement rounds) fun body => ?_
  intro start
  exact .refl start

end Parse

/-- A stream that does not parse is rejected at one of its tokens. -/
theorem parse_error {tokens : List Token} {file : String} {diagnostic : Diagnostic}
    (h : parse tokens file = .error diagnostic) :
    ∃ cursor : Cursor, (Cursor.ofTokens file tokens).Onward cursor ∧
      Rejection cursor diagnostic := by
  have horderly := Parse.program_orderly .standard file (.ofTokens file tokens)
  unfold parse at h
  split at h
  · cases h
  · next stop hstop =>
      cases h
      exact ⟨stop, horderly.of_error hstop⟩

end Assay
