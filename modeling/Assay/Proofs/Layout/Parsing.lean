import Mathlib.Data.List.Forall2
import Assay.Proofs.Layout.Alike
import Assay.Proofs.Parsing.Steps

/-!
# Parsing two layouts side by side

Cursors on two layouts of one text are abreast when they have passed equally many tokens.
A parsing step that is taken on both of them leaves them abreast and yields alike values, or
fails on both with alike diagnostics.  A loop is bounded by the tokens that are left, and
these are equally many on both sides.
-/

namespace Assay

namespace Layouts

/-- Cursors on the tokens with a given index. -/
structure Abreast (layouts : Layouts) (index : Nat) (cursor twin : Cursor) : Prop where
  left : cursor.tokens = layouts.left
  right : twin.tokens = layouts.right
  leftIndex : cursor.passed.length = index
  rightIndex : twin.passed.length = index

namespace Abreast

variable {layouts : Layouts} {index : Nat} {cursor twin : Cursor}

theorem current (h : layouts.Abreast index cursor twin) :
    layouts.At index cursor.current twin.current where
  left := by simp [← h.left, ← h.leftIndex, Cursor.tokens]
  right := by simp [← h.right, ← h.rightIndex, Cursor.tokens]

theorem ahead_length (h : layouts.Abreast index cursor twin) :
    cursor.ahead.length = twin.ahead.length := by
  have hlength := layouts.length_eq
  rw [← h.left, ← h.right] at hlength
  simp only [Cursor.tokens, List.length_append, List.length_reverse, List.length_cons,
    h.leftIndex, h.rightIndex] at hlength
  omega

theorem kind_of_ahead_nil (h : layouts.Abreast index cursor twin) (hahead : cursor.ahead = []) :
    cursor.kind = .endOfInput := by
  rcases layouts.closing with ⟨others, last, hlast, hkind⟩
  rw [← h.left, Cursor.tokens, hahead] at hlast
  have hcurrent : [cursor.current] = [last] := (List.append_inj' hlast rfl).2
  rw [Cursor.kind, (List.cons.inj hcurrent).1, hkind]

theorem next (h : layouts.Abreast index cursor twin) :
    ∃ following, layouts.Abreast following cursor.next twin.next ∧
      (cursor.kind ≠ .endOfInput → following = index + 1) := by
  have hlength := h.ahead_length
  have hend := h.kind_of_ahead_nil
  have hleft := (Cursor.tokens_next cursor).trans h.left
  have hright := (Cursor.tokens_next twin).trans h.right
  cases hahead : cursor.ahead with
  | nil =>
      have htwin : twin.ahead = [] := by simpa [hahead] using hlength.symm
      refine ⟨index, ⟨hleft, hright, ?_, ?_⟩, fun hkind => absurd (hend hahead) hkind⟩
      · simpa [Cursor.next, hahead] using h.leftIndex
      · simpa [Cursor.next, htwin] using h.rightIndex
  | cons token tokens =>
      cases htwin : twin.ahead with
      | nil => simp [hahead, htwin] at hlength
      | cons other others =>
          refine ⟨index + 1, ⟨hleft, hright, ?_, ?_⟩, fun _ => rfl⟩
          · simp [Cursor.next, hahead, h.leftIndex]
          · simp [Cursor.next, htwin, h.rightIndex]

end Abreast

/-- Taken on cursors at the given index, two steps end alike: at one index and with values
that are related there, or with alike diagnostics. -/
def InStep {α : Type} (layouts : Layouts) (index : Nat) (step other : Parse α)
    (related : α → α → Prop) : Prop :=
  ∀ cursor twin, layouts.Abreast index cursor twin →
    Together step other cursor twin
      (fun value stop value' stop' =>
        ∃ following, layouts.Abreast following stop stop' ∧ related value value')
      (Diagnostic.Alike layouts)

namespace InStep

variable {layouts : Layouts} {index : Nat} {α β : Type} {related : α → α → Prop}
variable {goal : β → β → Prop}

theorem pure {value value' : α} (h : related value value') :
    layouts.InStep index (Pure.pure value) (Pure.pure value') related :=
  fun _ _ habreast => .pure ⟨index, habreast, h⟩

theorem bind {step other : Parse α} {following following' : α → Parse β}
    (hstep : layouts.InStep index step other related)
    (hfollowing : ∀ next value value', related value value' →
      layouts.InStep next (following value) (following' value') goal) :
    layouts.InStep index (step >>= following) (other >>= following') goal := by
  intro cursor twin habreast
  refine .bind ((hstep cursor twin habreast).mono ?_)
  rintro value stop value' stop' ⟨next, hnext, hvalue⟩
  exact hfollowing next value value' hvalue stop stop' hnext

def Textual (cause : String → Cause) : Prop :=
  ∀ tokens index token, (cause token.text).Fits tokens index token

theorem textual_unexpectedToken : Textual .unexpectedToken := fun _ _ _ => rfl

theorem textual_unexpectedTokenDetailed (message : String) :
    Textual (.unexpectedTokenDetailed · message) := fun _ _ _ => rfl

theorem reject {cause : String → Cause} (hcause : Textual cause) :
    layouts.InStep index (Parse.reject cause) (Parse.reject cause) related := by
  intro cursor twin habreast
  have hat := habreast.current
  change Diagnostic.Alike layouts ⟨cause cursor.current.text, cursor.current.span.start⟩
    ⟨cause twin.current.text, twin.current.span.start⟩
  rw [← hat.text_eq]
  exact .mk hat (hcause _ _ _)

theorem unexpected : layouts.InStep index Parse.unexpected Parse.unexpected related :=
  reject textual_unexpectedToken

theorem unexpectedHere {message : String} :
    layouts.InStep index (Parse.unexpectedHere message) (Parse.unexpectedHere message) related :=
  reject (textual_unexpectedTokenDetailed message)

theorem stalled : layouts.InStep index Parse.stalled Parse.stalled related :=
  reject fun _ _ _ => rfl

theorem kind_bind {following following' : TokenKind → Parse β}
    (h : ∀ token twin, layouts.At index token twin →
      layouts.InStep index (following token.kind) (following' token.kind) goal) :
    layouts.InStep index (Parse.kind >>= following) (Parse.kind >>= following') goal := by
  intro cursor twin habreast
  have hat := habreast.current
  have hfollowing := h cursor.current twin.current hat cursor twin habreast
  have hkind : cursor.current.kind = twin.kind := hat.kind_eq
  unfold Together at hfollowing ⊢
  rw [Parse.kind_bind_apply, Parse.kind_bind_apply, ← hkind]
  exact hfollowing

theorem advance_bind {following following' : Token → Parse β}
    (h : ∀ next token twin, layouts.At index token twin →
      (token.kind ≠ .endOfInput → next = index + 1) →
      layouts.InStep next (following token) (following' twin) goal) :
    layouts.InStep index (Parse.advance >>= following) (Parse.advance >>= following') goal := by
  intro cursor twin habreast
  rcases habreast.next with ⟨next, hnext, hindex⟩
  exact h next cursor.current twin.current habreast.current hindex cursor.next twin.next hnext

theorem previousEnd_bind {following following' : Position → Parse β}
    (h : ∀ stop stop', layouts.InStep index (following stop) (following' stop') goal) :
    layouts.InStep index (Parse.previousEnd >>= following) (Parse.previousEnd >>= following')
      goal :=
  fun cursor twin habreast => h cursor.previousEnd twin.previousEnd cursor twin habreast

abbrev Rounds : List Token → List Token → Prop := List.Forall₂ fun _ _ => True

theorem remaining_bind {following following' : List Token → Parse β}
    (h : ∀ rounds rounds', Rounds rounds rounds' →
      layouts.InStep index (following rounds) (following' rounds') goal) :
    layouts.InStep index (Parse.remaining >>= following) (Parse.remaining >>= following') goal := by
  intro cursor twin habreast
  have hrounds : Rounds cursor.rest twin.rest :=
    List.forall₂_iff_zip.mpr ⟨by simp [Cursor.rest, habreast.ahead_length], fun _ => trivial⟩
  exact h cursor.rest twin.rest hrounds cursor twin habreast

theorem expectOr_bind {kind : TokenKind} (hkind : kind ≠ .endOfInput) {cause : String → Cause}
    (hcause : Textual cause) {following following' : Token → Parse β}
    (h : ∀ token twin, layouts.At index token twin → token.kind = kind →
      layouts.InStep (index + 1) (following token) (following' twin) goal) :
    layouts.InStep index (Parse.expectOr kind (Parse.reject cause) >>= following)
      (Parse.expectOr kind (Parse.reject cause) >>= following') goal := by
  intro cursor twin habreast
  have hat := habreast.current
  refine .bind ?_
  unfold Together Parse.expectOr
  by_cases hcurrent : cursor.kind = kind
  · have htwin : twin.kind = kind := hat.kind_eq.symm.trans hcurrent
    rcases habreast.next with ⟨next, hnext, hindex⟩
    cases hindex (hcurrent ▸ hkind)
    rw [if_pos hcurrent, if_pos htwin]
    exact h cursor.current twin.current hat hcurrent cursor.next twin.next hnext
  · have htwin : twin.kind ≠ kind := fun htwin => hcurrent (hat.kind_eq.trans htwin)
    have hreject : layouts.InStep index (Parse.reject cause) (Parse.reject cause)
        fun (_ _ : Token) => True := reject hcause
    rw [if_neg hcurrent, if_neg htwin]
    exact hreject cursor twin habreast

theorem expect_bind {kind : TokenKind} (hkind : kind ≠ .endOfInput)
    {following following' : Token → Parse β}
    (h : ∀ token twin, layouts.At index token twin → token.kind = kind →
      layouts.InStep (index + 1) (following token) (following' twin) goal) :
    layouts.InStep index (Parse.expect kind >>= following) (Parse.expect kind >>= following')
      goal :=
  expectOr_bind hkind textual_unexpectedToken h

theorem expectHere_bind {kind : TokenKind} (hkind : kind ≠ .endOfInput) {message : String}
    {following following' : Token → Parse β}
    (h : ∀ token twin, layouts.At index token twin → token.kind = kind →
      layouts.InStep (index + 1) (following token) (following' twin) goal) :
    layouts.InStep index (Parse.expectHere kind message >>= following)
      (Parse.expectHere kind message >>= following') goal :=
  expectOr_bind hkind (textual_unexpectedTokenDetailed message) h

end InStep

end Layouts

namespace Parse

open Layouts

variable {layouts : Layouts} {index : Nat}

/-! ## Expressions -/

private theorem number_inStep {α : Type} (read? : String → Option α) {build : α → Span → Expr}
    (hbuild : ∀ value (span twin : Span), layouts.Begins span.start twin.start →
      (build value span).Alike layouts (build value twin)) :
    layouts.InStep index (number read? build) (number read? build) (Expr.Alike layouts) := by
  intro cursor twin habreast
  have hat := habreast.current
  unfold Together number
  rw [← hat.text_eq]
  cases read? cursor.current.text with
  | some value =>
      rcases habreast.next with ⟨next, hnext, -⟩
      exact ⟨next, hnext, hbuild value _ _ hat.begins⟩
  | none =>
      have hreject : layouts.InStep index (reject .numberParse) (reject .numberParse)
          fun (_ _ : Expr) => True := .reject fun _ _ _ => rfl
      exact hreject cursor twin habreast

private theorem atom_inStep : layouts.InStep index atom atom (Expr.Alike layouts) := by
  refine .kind_bind fun token twin hat => ?_
  split
  · exact number_inStep _ fun _ _ _ => .integer
  · exact number_inStep _ fun _ _ _ => .float
  · exact .advance_bind fun _ _ _ hat _ => .pure (.bool hat.begins)
  · exact .advance_bind fun _ _ _ hat _ => .pure (.bool hat.begins)
  · next hkind =>
      refine .advance_bind fun _ _ _ hat' _ => .pure (.read (.mk hat' ?_))
      cases hat.left.symm.trans hat'.left
      exact hkind
  · exact .unexpected

section

variable {subexpression : Power → Parse Expr}
variable (hsub : ∀ index power, layouts.InStep index (subexpression power) (subexpression power)
  (Expr.Alike layouts))

include hsub

private theorem elements_inStep {rounds rounds' : List Token}
    (hrounds : InStep.Rounds rounds rounds') :
    layouts.InStep index (elements (subexpression .lowest) rounds)
      (elements (subexpression .lowest) rounds') (Expr.AlikeAll layouts) := by
  induction hrounds generalizing index with
  | nil => exact .stalled
  | cons _ _ ih =>
      refine .kind_bind fun _ _ _ => ?_
      split
      · exact .pure .nil
      refine .bind (hsub index .lowest) fun next first first' hfirst =>
        .kind_bind fun _ _ _ => ?_
      split
      · exact .advance_bind fun _ _ _ _ _ => .bind ih fun _ _ _ hothers =>
          .pure (.cons hfirst hothers)
      · exact .pure (.cons hfirst .nil)
      · exact .unexpectedHere

private theorem opening_inStep (form : OpeningForm) :
    layouts.InStep index (opening subexpression form) (opening subexpression form)
      (Expr.Alike layouts) := by
  cases form with
  | atom => exact atom_inStep
  | unary =>
      refine .advance_bind fun next sign sign' hsign _ =>
        .bind (hsub next .unary) fun _ operand operand' hoperand => ?_
      rw [← hsign.kind_eq]
      exact .pure (.unary hsign.begins hoperand)
  | group =>
      refine .advance_bind fun next _ _ _ _ => .bind (hsub next .lowest) fun _ _ _ hinner => ?_
      exact .expect_bind (by decide) fun _ _ _ _ => .pure hinner
  | list =>
      refine .advance_bind fun next opening opening' hopening _ =>
        .remaining_bind fun rounds rounds' hrounds =>
          .bind (elements_inStep hsub hrounds) fun _ _ _ helements => ?_
      exact .expect_bind (by decide) fun _ _ _ _ => .previousEnd_bind fun _ _ =>
        .pure (.list hopening.begins helements)

private theorem links_inStep (family : Family) (power : Power) {rounds rounds' : List Token}
    (hrounds : InStep.Rounds rounds rounds') :
    layouts.InStep index (links (subexpression power) family rounds)
      (links (subexpression power) family rounds')
      fun links links' => links.1 = links'.1 ∧ Expr.AlikeAll layouts links.2 links'.2 := by
  induction hrounds generalizing index with
  | nil => exact .stalled
  | cons _ _ ih =>
      refine .kind_bind fun _ _ _ => ?_
      split
      · exact .pure ⟨rfl, .nil⟩
      · refine .advance_bind fun next _ _ _ _ => .bind (hsub next power) fun _ _ _ hfirst =>
          .bind ih ?_
        rintro _ ⟨operators, operands⟩ ⟨_, operands'⟩ ⟨rfl, hoperands⟩
        exact .pure ⟨rfl, .cons hfirst hoperands⟩

private theorem comparands_inStep (sign : TokenKind) (power : Power) {rounds rounds' : List Token}
    (hrounds : InStep.Rounds rounds rounds') :
    layouts.InStep index (comparands (subexpression power) sign rounds)
      (comparands (subexpression power) sign rounds') (Expr.AlikeAll layouts) := by
  induction hrounds generalizing index with
  | nil => exact .stalled
  | cons _ _ ih =>
      refine .kind_bind fun _ _ _ => ?_
      split
      · exact .advance_bind fun next _ _ _ _ => .bind (hsub next power) fun _ _ _ hfirst =>
          .bind ih fun _ _ _ hothers => .pure (.cons hfirst hothers)
      · exact .pure .nil

private theorem continuation_inStep (power : Power) {left left' : Expr}
    (hleft : left.Alike layouts left') (form : ContinuationForm) :
    layouts.InStep index (continuation subexpression power left form)
      (continuation subexpression power left' form) (Expr.Alike layouts) := by
  cases form with
  | ternary =>
      refine .advance_bind fun next _ _ _ _ => .bind (hsub next .lowest) fun _ _ _ hwhenTrue => ?_
      refine .expectHere_bind (by decide) fun _ _ _ _ => .bind (hsub _ .lowest) ?_
      intro _ _ _ hwhenFalse
      exact .pure (.ternary hleft.begins (.cons hleft (.cons hwhenTrue (.cons hwhenFalse .nil))))
  | chain family =>
      refine .remaining_bind fun rounds rounds' hrounds =>
        .bind (links_inStep hsub family power hrounds) ?_
      rintro _ ⟨operators, operands⟩ ⟨_, operands'⟩ ⟨rfl, hoperands⟩
      exact .pure (.chain hleft.begins (.cons hleft hoperands))
  | comparison =>
      refine .kind_bind fun _ _ _ => ?_
      split
      · exact .unexpectedHere
      · exact .remaining_bind fun rounds rounds' hrounds =>
          .bind (comparands_inStep hsub _ power hrounds) fun _ _ _ hoperands =>
            .pure (.comparison hleft.begins (.cons hleft hoperands))

private theorem continued_inStep (dialect : Dialect) (power : Power) {rounds rounds' : List Token}
    (hrounds : InStep.Rounds rounds rounds') {left left' : Expr}
    (hleft : left.Alike layouts left') :
    layouts.InStep index (continued dialect subexpression power rounds left)
      (continued dialect subexpression power rounds' left') (Expr.Alike layouts) := by
  induction hrounds generalizing index left left' with
  | nil => exact .stalled
  | cons _ _ ih =>
      refine .kind_bind fun _ _ _ => ?_
      split
      · split
        · exact .unexpected
        · exact .bind (continuation_inStep hsub _ hleft _) fun _ _ _ hcontinued => ih hcontinued
      · exact .pure hleft

end

private theorem expression_inStep (dialect : Dialect) (levels : Nat) (power : Power) :
    layouts.InStep index (expression dialect levels power) (expression dialect levels power)
      (Expr.Alike layouts) := by
  induction levels generalizing index power with
  | zero => exact .unexpectedHere
  | succ levels ih =>
      have hsub : ∀ index power, layouts.InStep index (expression dialect levels power)
          (expression dialect levels power) (Expr.Alike layouts) := fun _ _ => ih _
      refine .kind_bind fun _ _ _ => ?_
      split
      · exact .unexpected
      · exact .bind (opening_inStep hsub _) fun _ _ _ hleft =>
          .remaining_bind fun _ _ hrounds => continued_inStep hsub dialect power hrounds hleft

/-! ## Statements -/

private theorem identifier_bind_inStep {β : Type} {message : String}
    {following following' : Identifier → Parse β} {goal : β → β → Prop}
    (h : ∀ name name', name.Alike layouts name' →
      layouts.InStep (index + 1) (following name) (following' name') goal) :
    layouts.InStep index (identifier message >>= following) (identifier message >>= following')
      goal := by
  unfold identifier
  simp only [bind_assoc, pure_bind]
  exact .expectHere_bind (by decide) fun _ _ hat hkind => h _ _ (.mk hat hkind)

section

variable {expr : Parse Expr} {body : Parse Block}
variable (hexpr : ∀ index, layouts.InStep index expr expr (Expr.Alike layouts))
variable (hbody : ∀ index, layouts.InStep index body body (Block.Alike layouts))

include hexpr

private theorem condition_inStep :
    layouts.InStep index (condition expr) (condition expr) (Condition.Alike layouts) :=
  .expect_bind (by decide) fun _ _ _ _ => .bind (hexpr _) fun _ _ _ htree =>
    .expect_bind (by decide) fun _ _ _ _ => .previousEnd_bind fun _ _ => .pure (.mk htree)

private theorem initialValue_inStep :
    layouts.InStep index (initialValue expr) (initialValue expr)
      (Option.Rel (Expr.Alike layouts)) := by
  refine .kind_bind fun _ _ _ => ?_
  split
  · exact .advance_bind fun next _ _ _ _ => .bind (hexpr next) fun _ _ _ hvalue =>
      .pure (.some hvalue)
  · exact .pure .none

private theorem declare_inStep
    (hword : ∀ token twin, layouts.At index token twin → token.kind = .declareWord) :
    layouts.InStep index (declare expr) (declare expr) (Stmt.Alike layouts) := by
  refine .advance_bind fun next word word' hat hnext => ?_
  have hkind := hword word word' hat
  cases hnext (by simp [hkind])
  refine identifier_bind_inStep fun name name' hname => ?_
  refine .expect_bind (by decide) fun _ _ _ _ => ?_
  refine .expectHere_bind (by decide) fun typeName typeName' htypeName _ => ?_
  refine .bind (initialValue_inStep hexpr) fun _ _ _ hvalue => ?_
  exact .expect_bind (by decide) fun _ _ _ _ => .previousEnd_bind fun _ _ =>
    .pure (.declare hat hkind htypeName hname hvalue)

private theorem assign_inStep :
    layouts.InStep index (assign expr) (assign expr) (Stmt.Alike layouts) := by
  refine identifier_bind_inStep fun name name' hname => ?_
  refine .expectHere_bind (by decide) fun _ _ _ _ => .bind (hexpr _) fun _ _ _ hvalue => ?_
  exact .expect_bind (by decide) fun _ _ _ _ => .previousEnd_bind fun _ _ =>
    .pure (.assign hname hvalue)

include hbody

omit hexpr in
private theorem elseBody_inStep :
    layouts.InStep index (elseBody body) (elseBody body) (Option.Rel (Block.Alike layouts)) := by
  refine .kind_bind fun _ _ _ => ?_
  split
  · exact .advance_bind fun next _ _ _ _ => .bind (hbody next) fun _ _ _ helseBody =>
      .pure (.some helseBody)
  · exact .pure .none

private theorem branch_inStep :
    layouts.InStep index (branch expr body) (branch expr body) (Stmt.Alike layouts) := by
  refine .advance_bind fun next _ _ _ _ => .bind (condition_inStep hexpr) ?_
  intro _ condition condition' hcondition
  refine .bind (hbody _) fun _ _ _ hthenBody => .bind (elseBody_inStep hbody) ?_
  intro _ elseBody? elseBody?' helseBody
  refine .previousEnd_bind fun _ _ => .pure ?_
  cases helseBody with
  | none => exact .branch hcondition hthenBody
  | some helseBody => exact .branchElse hcondition hthenBody helseBody

private theorem loop_inStep :
    layouts.InStep index (loop expr body) (loop expr body) (Stmt.Alike layouts) :=
  .advance_bind fun _ _ _ _ _ => .bind (condition_inStep hexpr) fun _ _ _ hcondition =>
    .bind (hbody _) fun _ _ _ hloop => .previousEnd_bind fun _ _ =>
      .pure (.loop hcondition hloop)

private theorem doLoop_inStep :
    layouts.InStep index (doLoop expr body) (doLoop expr body) (Stmt.Alike layouts) := by
  refine .advance_bind fun next _ _ _ _ => .bind (hbody next) fun _ _ _ hloop => ?_
  refine .expectHere_bind (by decide) fun _ _ _ _ => .bind (condition_inStep hexpr) ?_
  intro _ condition condition' hcondition
  exact .expect_bind (by decide) fun _ _ _ _ => .previousEnd_bind fun _ _ =>
    .pure (.doLoop hloop hcondition)

omit hexpr hbody in
private theorem declareWord_of_statement? {kind : TokenKind}
    (h : Dialect.standard.statement? kind = some .declare) : kind = .declareWord := by
  cases kind <;> first | rfl | cases h

private theorem statementWith_inStep :
    layouts.InStep index (statementWith .standard expr body) (statementWith .standard expr body)
      (Stmt.Alike layouts) := by
  refine .kind_bind fun token twin hat => ?_
  split
  · exact .unexpectedHere
  · next form hform =>
      cases form with
      | declare =>
          refine declare_inStep hexpr fun other twin' hother => ?_
          cases hat.left.symm.trans hother.left
          exact declareWord_of_statement? hform
      | assign => exact assign_inStep hexpr
      | branch => exact branch_inStep hexpr hbody
      | loop => exact loop_inStep hexpr hbody
      | doLoop => exact doLoop_inStep hexpr hbody

end

private theorem statementsUntil_inStep (ends : List TokenKind) {statement : Parse Stmt}
    (hstatement : ∀ index, layouts.InStep index statement statement (Stmt.Alike layouts))
    {rounds rounds' : List Token} (hrounds : InStep.Rounds rounds rounds') :
    layouts.InStep index (statementsUntil ends statement rounds)
      (statementsUntil ends statement rounds') (Stmt.AlikeAll layouts) := by
  induction hrounds generalizing index with
  | nil => exact .stalled
  | cons _ _ ih =>
      refine .kind_bind fun _ _ _ => ?_
      split
      · exact .pure .nil
      · exact .bind (hstatement index) fun _ _ _ hfirst => .bind ih fun _ _ _ hothers =>
          .pure (.cons hfirst hothers)

private theorem blockWith_inStep {body : Parse (List Stmt)}
    (hbody : layouts.InStep (index + 1) body body (Stmt.AlikeAll layouts)) :
    layouts.InStep index (blockWith body) (blockWith body) (Block.Alike layouts) :=
  .expect_bind (by decide) fun _ _ _ _ => .bind hbody fun _ _ _ hstmts =>
    .expect_bind (by decide) fun _ _ _ _ => .previousEnd_bind fun _ _ => .pure (.mk hstmts)

private theorem block_inStep (levels : Nat) :
    layouts.InStep index (block .standard levels) (block .standard levels)
      (Block.Alike layouts) := by
  induction levels generalizing index with
  | zero => exact blockWith_inStep .unexpectedHere
  | succ levels ih =>
      have hexpr : ∀ index, layouts.InStep index (expression .standard levels .lowest)
          (expression .standard levels .lowest) (Expr.Alike layouts) :=
        fun _ => expression_inStep .standard levels .lowest
      have hstatement := fun index => @statementWith_inStep layouts index _ _ hexpr fun _ => ih
      exact blockWith_inStep (.remaining_bind fun _ _ hrounds =>
        statementsUntil_inStep _ hstatement hrounds)

theorem program_inStep (file file' : String) :
    layouts.InStep index (program .standard file) (program .standard file')
      (Block.Alike layouts) := by
  have hstatement : ∀ index, layouts.InStep index (statement .standard nestingLimit)
      (statement .standard nestingLimit) (Stmt.Alike layouts) := fun _ =>
    statementWith_inStep (fun _ => expression_inStep .standard nestingLimit .lowest)
      fun _ => block_inStep nestingLimit
  refine .remaining_bind fun _ _ hrounds =>
    .bind (statementsUntil_inStep _ hstatement hrounds) fun next _ _ hbody => ?_
  intro cursor twin habreast
  exact ⟨next, habreast, .mk hbody⟩

end Parse

end Assay
