import Assay.Proofs.Effect
import Assay.Proofs.Layout.Alike
import Assay.Typing.Checker

/-!
# Checking alike trees

The checker takes no notice of spans, except to place a diagnostic.  So on alike trees it
finds the same types and counts, or fails with alike diagnostics.
-/

namespace Assay

namespace Layouts

def Agree {σ α : Type} (layouts : Layouts) (step other : EStateM Diagnostic σ α) : Prop :=
  ∀ start, Together step other start start
    (fun result stop result' stop' => result = result' ∧ stop = stop') (Diagnostic.Alike layouts)

namespace Agree

variable {layouts : Layouts} {σ α β : Type} {step other : EStateM Diagnostic σ α}

theorem pure (result : α) :
    layouts.Agree (Pure.pure result : EStateM Diagnostic σ α) (Pure.pure result) :=
  fun _ => .pure ⟨rfl, rfl⟩

theorem throw {diagnostic diagnostic' : Diagnostic} (h : diagnostic.Alike layouts diagnostic') :
    layouts.Agree (MonadExcept.throw diagnostic : EStateM Diagnostic σ α)
      (MonadExcept.throw diagnostic') :=
  fun _ => .throw h

theorem update (change : σ → σ) :
    layouts.Agree (modify change : EStateM Diagnostic σ Unit) (modify change) :=
  fun _ => ⟨rfl, rfl⟩

theorem bind {following following' : α → EStateM Diagnostic σ β} (hstep : layouts.Agree step other)
    (hfollowing : ∀ first, layouts.Agree (following first) (following' first)) :
    layouts.Agree (step >>= following) (other >>= following') := by
  intro start
  refine .bind ((hstep start).mono ?_)
  rintro first middle _ _ ⟨rfl, rfl⟩
  exact hfollowing first middle

theorem guard {condition : Prop} [Decidable condition] {diagnostic diagnostic' : Diagnostic}
    (h : layouts.Agree step other) (hdiagnostic : diagnostic.Alike layouts diagnostic') :
    layouts.Agree (if condition then step else MonadExcept.throw diagnostic)
      (if condition then other else MonadExcept.throw diagnostic') := by
  split
  · exact h
  · exact throw hdiagnostic

end Agree

end Layouts

open Layouts

variable {layouts : Layouts}

/-! ## Expressions -/

theorem Identifier.Alike.undeclared {name other : Identifier} (h : name.Alike layouts other) :
    Diagnostic.Alike layouts ⟨.undeclaredVariable name.name, name.span.start⟩
      ⟨.undeclaredVariable other.name, other.span.start⟩ :=
  h.diagnostic fun _ _ _ hkind => ⟨hkind, rfl⟩

theorem Identifier.Alike.multiplyDeclared {name other : Identifier} (h : name.Alike layouts other) :
    Diagnostic.Alike layouts ⟨.multipleDeclaration name.name, name.span.start⟩
      ⟨.multipleDeclaration other.name, other.span.start⟩ :=
  h.diagnostic fun _ _ _ hkind => ⟨hkind, rfl⟩

private theorem read_agree (scope : Scope) {name other : Identifier}
    (h : name.Alike layouts other) :
    layouts.Agree ((Expr.read name).infer scope) ((Expr.read other).infer scope) := by
  intro metrics
  simp only [Expr.read, Expr.infer, Scope.lookup, ← h.name_eq]
  cases scope.get? name.name with
  | some ty => exact ⟨rfl, rfl⟩
  | none => exact h.name_eq ▸ h.undeclared

private theorem countOperators_agree {count count' : Nat} (h : count = count') :
    layouts.Agree (Infer.count (·.countOperators (count - 1)))
      (Infer.count (·.countOperators (count' - 1))) := by
  cases h
  exact .update _

mutual

theorem Expr.Alike.infer_agree (scope : Scope) {expr other : Expr} (h : expr.Alike layouts other) :
    layouts.Agree (expr.infer scope) (other.infer scope) := by
  cases h with
  | integer | float | bool => exact .pure _
  | read hname => exact read_agree scope hname
  | list _ helements =>
      exact .bind (helements.inferOperands_agree scope _ _) fun _ => .pure _
  | @unary operator _ _ _ _ _ hoperand =>
      cases operator <;>
        exact .bind (.update _) fun _ => .bind (hoperand.infer_agree scope) fun _ =>
          .guard (.pure _) (.of_begins hoperand.begins fun _ _ => trivial)
  | @chain family _ _ _ _ _ hstart hoperands =>
      have hcount := hoperands.length_eq
      have hagree := fun rule => hoperands.inferOperands_agree scope rule none
      cases hoperands with
      | nil => cases family <;> exact .throw (.of_begins hstart fun _ _ => trivial)
      | cons hexpr hexprs =>
          cases family with
          | logical =>
              exact .bind (countOperators_agree hcount) fun _ => .bind (hagree _) fun _ => .pure _
          | additive | multiplicative =>
              cases hexprs with
              | nil => exact hexpr.infer_agree scope
              | cons _ _ => exact .bind (countOperators_agree hcount) fun _ => hagree _
  | comparison hstart hoperands =>
      have hcount := hoperands.length_eq
      have hagree := fun rule => hoperands.inferOperands_agree scope rule none
      cases hoperands with
      | nil => exact .throw (.of_begins hstart fun _ _ => trivial)
      | cons hexpr hexprs =>
          cases hexprs with
          | nil => exact hexpr.infer_agree scope
          | cons _ _ =>
              exact .bind (countOperators_agree hcount) fun _ => .bind (hagree _) fun _ => .pure _
  | ternary hstart hoperands =>
      match hoperands with
      | .nil => exact .throw (.of_begins hstart fun _ _ => trivial)
      | .cons hsingle .nil => exact hsingle.infer_agree scope
      | .cons _ (.cons _ .nil) => exact .throw (.of_begins hstart fun _ _ => trivial)
      | .cons hcondition (.cons hwhenTrue (.cons hwhenFalse .nil)) =>
          refine .bind (.update _) fun _ => .bind (hcondition.infer_agree scope) fun _ => ?_
          refine .guard ?_ (.of_begins hcondition.begins fun _ _ => trivial)
          exact .bind (hwhenTrue.infer_agree scope) fun _ =>
            .bind (hwhenFalse.infer_agree scope) fun _ =>
              .guard (.pure _) (.of_begins hwhenFalse.begins fun _ _ => trivial)
      | .cons _ (.cons _ (.cons _ (.cons _ hothers))) =>
          simp only [Expr.infer, List.length_cons, hothers.length_eq]
          exact .throw (.of_begins hstart fun _ _ => trivial)

theorem Expr.AlikeAll.inferOperands_agree (scope : Scope) (rule : Agreement)
    (previous : Option (Option Ty)) {exprs others : List Expr}
    (h : Expr.AlikeAll layouts exprs others) :
    layouts.Agree (Expr.inferOperands scope rule previous exprs)
      (Expr.inferOperands scope rule previous others) := by
  cases h with
  | nil => exact .pure _
  | cons hexpr hexprs =>
      exact .bind (hexpr.infer_agree scope) fun ty? =>
        .guard (hexprs.inferOperands_agree scope rule (some ty?))
          (.of_begins hexpr.begins fun _ _ => trivial)

end

/-! ## Statements -/

namespace Check

private theorem infer_together {expr other : Expr} (h : expr.Alike layouts other)
    (checker : Checker) :
    Together (infer expr) (infer other) checker checker
      (fun ty? stop ty?' stop' => ty? = ty?' ∧ stop = stop' ∧ stop.scope = checker.scope)
      (Diagnostic.Alike layouts) := by
  have hagree := h.infer_agree checker.scope checker.metrics
  unfold Together infer at *
  split at hagree
  · next hstep hother =>
      rw [hstep, hother]
      exact ⟨hagree.1, by rw [hagree.2], rfl⟩
  · next hstep hother =>
      rw [hstep, hother]
      exact hagree
  · exact hagree.elim

private theorem infer_agree {expr other : Expr} (h : expr.Alike layouts other) :
    layouts.Agree (infer expr) (infer other) :=
  fun checker => (infer_together h checker).mono fun _ _ _ _ ⟨htype, hstop, _⟩ => ⟨htype, hstop⟩

private theorem condition_agree {tree other : Condition} (h : tree.Alike layouts other) :
    layouts.Agree (condition tree) (condition other) := by
  cases h with
  | mk hexpr =>
      exact .bind (infer_agree hexpr) fun _ =>
        .guard (.pure _) (.of_begins hexpr.begins fun _ _ => trivial)

private theorem initialValue_agree (name : String) (declared : Ty) {value other : Expr}
    (h : value.Alike layouts other) :
    layouts.Agree (initialValue name declared value) (initialValue name declared other) :=
  .bind (infer_agree h) fun _ => .guard (.pure _) (.of_begins h.begins fun _ _ => trivial)

section

variable {α : Type} {question question' : Scope → Except Diagnostic α} {checker : Checker}
variable {success : α → Checker → α → Checker → Prop}

private theorem inScope_of_ok {answer answer' : α} (hquestion : question checker.scope = .ok answer)
    (hquestion' : question' checker.scope = .ok answer')
    (h : success answer checker answer' checker) :
    Together (inScope question) (inScope question') checker checker success
      (Diagnostic.Alike layouts) := by
  simpa only [Together, inScope, hquestion, hquestion'] using h

private theorem inScope_of_error {diagnostic diagnostic' : Diagnostic}
    (hquestion : question checker.scope = .error diagnostic)
    (hquestion' : question' checker.scope = .error diagnostic')
    (h : diagnostic.Alike layouts diagnostic') :
    Together (inScope question) (inScope question') checker checker success
      (Diagnostic.Alike layouts) := by
  simpa only [Together, inScope, hquestion, hquestion'] using h

end

private theorem requireUnbound_agree {name other : Identifier} (h : name.Alike layouts other) :
    layouts.Agree (requireUnbound name) (requireUnbound other) := by
  intro checker
  have hfault := h.multiplyDeclared
  unfold Together requireUnbound inScope
  simp only [← h.name_eq] at hfault ⊢
  cases checker.scope.get? name.name with
  | none => exact ⟨trivial, rfl⟩
  | some _ => exact hfault

private theorem bindName_agree (ty : Ty) {name other : Identifier} (h : name.Alike layouts other) :
    layouts.Agree (bindName name.name ty name.span.start)
      (bindName other.name ty other.span.start) := by
  intro checker
  have hfault := h.multiplyDeclared
  unfold Together bindName
  rw [← h.name_eq] at hfault ⊢
  cases hbound : checker.scope.get? name.name with
  | none =>
      rw [Scope.declare_of_none hbound, Scope.declare_of_none hbound]
      exact ⟨rfl, rfl⟩
  | some _ =>
      rw [Scope.declare_of_some hbound, Scope.declare_of_some hbound]
      exact hfault

private theorem declaredType_agree {index : Nat} {word word' typeName typeName' : Token}
    (hword : layouts.At index word word') (hkind : word.kind = .declareWord)
    (htypeName : layouts.At (index + 3) typeName typeName') :
    layouts.Agree (declaredType typeName.text word.span.start)
      (declaredType typeName'.text word'.span.start) := by
  unfold declaredType
  rw [← htypeName.text_eq]
  split
  · exact .pure _
  · exact .throw (.mk hword ⟨hkind, typeName, htypeName.left, rfl⟩)

private theorem assign_agree {name other : Identifier} (hname : name.Alike layouts other)
    {value value' : Expr} (hvalue : value.Alike layouts value') :
    layouts.Agree (assign name value) (assign other value') := by
  intro checker
  have hother := congrArg checker.scope.get? hname.name_eq
  refine .bind ?_
  cases hbound : checker.scope.get? name.name with
  | none =>
      exact inScope_of_error (Scope.lookup_of_none hbound _)
        (Scope.lookup_of_none (hother ▸ hbound) _) hname.undeclared
  | some declared =>
      refine inScope_of_ok (Scope.lookup_of_some hbound _)
        (Scope.lookup_of_some (hother ▸ hbound) _)
        (.bind ((infer_together hvalue checker).mono ?_))
      rintro ty? stop _ _ ⟨rfl, rfl, hscope⟩
      rw [← hname.name_eq]
      -- Inference leaves the scope alone, so the variable that was looked up is found again.
      have hassign (position : Position) : stop.scope.assign name.name ty? position =
          if sameType (some declared) ty? then .ok ()
          else .error ⟨.assignmentTypeMismatch name.name, position⟩ := by
        rw [Scope.assign, Scope.lookup_of_some (hscope ▸ hbound)]
        rfl
      have hmismatch : Diagnostic.Alike layouts
          ⟨.assignmentTypeMismatch name.name, value.span.start⟩
          ⟨.assignmentTypeMismatch name.name, value'.span.start⟩ :=
        .of_begins hvalue.begins fun _ _ => trivial
      by_cases hsame : sameType (some declared) ty?
      · exact inScope_of_ok (by rw [hassign, if_pos hsame]) (by rw [hassign, if_pos hsame])
          ⟨rfl, rfl⟩
      · exact inScope_of_error (by rw [hassign, if_neg hsame]) (by rw [hassign, if_neg hsame])
          hmismatch

private theorem inBlock_agree {step other : Check Unit} (h : layouts.Agree step other) :
    layouts.Agree (inBlock step) (inBlock other) := by
  intro checker
  have hagree := h checker.enter
  unfold Together inBlock at *
  split at hagree
  · next hstep hother =>
      rw [hstep, hother]
      exact ⟨rfl, by rw [hagree.2]⟩
  · next hstep hother =>
      rw [hstep, hother]
      exact hagree
  · exact hagree.elim

end Check

mutual

theorem Stmt.Alike.check_agree {stmt other : Stmt} (h : stmt.Alike layouts other) :
    layouts.Agree stmt.check other.check := by
  cases h with
  | declare hword hkind htypeName hname hvalue =>
      refine .bind (Check.requireUnbound_agree hname) fun _ =>
        .bind (Check.declaredType_agree hword hkind htypeName) fun declared =>
          .bind (Check.bindName_agree declared hname) fun _ => .bind (.update _) fun _ => ?_
      cases hvalue with
      | none => exact .pure _
      | some hvalue =>
          rw [← hname.name_eq]
          exact Check.initialValue_agree _ _ hvalue
  | assign hname hvalue => exact Check.assign_agree hname hvalue
  | branch hcondition hthenBody =>
      exact .bind (.update _) fun _ => .bind (Check.condition_agree hcondition) fun _ =>
        .bind hthenBody.check_agree fun _ => .pure _
  | branchElse hcondition hthenBody helseBody =>
      exact .bind (.update _) fun _ => .bind (Check.condition_agree hcondition) fun _ =>
        .bind hthenBody.check_agree fun _ => helseBody.check_agree
  | loop hcondition hbody =>
      exact .bind (.update _) fun _ => .bind (Check.condition_agree hcondition) fun _ =>
        hbody.check_agree
  | doLoop hbody hcondition =>
      exact .bind (.update _) fun _ => .bind hbody.check_agree fun _ =>
        Check.condition_agree hcondition

theorem Block.Alike.check_agree {block other : Block} (h : block.Alike layouts other) :
    layouts.Agree block.check other.check := by
  cases h with
  | mk hbody => exact Check.inBlock_agree hbody.checkAll_agree

theorem Stmt.AlikeAll.checkAll_agree {stmts others : List Stmt}
    (h : Stmt.AlikeAll layouts stmts others) :
    layouts.Agree (Stmt.checkAll stmts) (Stmt.checkAll others) := by
  cases h with
  | nil => exact .pure _
  | cons hstmt hstmts => exact .bind hstmt.check_agree fun _ => hstmts.checkAll_agree

end

end Assay
