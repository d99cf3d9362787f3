import Mathlib.Order.Defs.Unbundled
import Assay.Proofs.Effect
import Assay.Typing.Checker

/-!
# What checking leaves of the scopes

Checking changes the current scope only by the declarations of statements, and never the
scopes around it.  This holds of steps that fail as well: a block is left on both ways out
of it, and a declaration that fails later on stays.  Whether a declaration came to bind its
variable can be told from its fault, as no fault in an expression is one of a declaration.
-/

namespace Assay

namespace Scope

def Extends (inner outer : Scope) : Prop :=
  ∀ name ty, outer.get? name = some ty → inner.get? name = some ty

def Grown (before after : Scope) : Prop := after.Extends before

instance : Std.Refl Grown := ⟨fun _ _ _ h => h⟩

instance : IsTrans Scope Grown :=
  ⟨fun _ _ _ hfirst hsecond name ty h => hsecond name ty (hfirst name ty h)⟩

def Extended (name typeName : String) (before after : Scope) : Prop :=
  ∃ ty fresh, Ty.ofKeyword? typeName = some ty ∧ after = before.insert name ty fresh

def Declares (name typeName : String) (before after : Scope) : Prop :=
  after = before ∨ Extended name typeName before after

private theorem grown_insert (scope : Scope) (name : String) (ty : Ty)
    (fresh : scope.get? name = none) :
    Grown scope (scope.insert name ty fresh) := by
  intro other bound hbound
  have hother : other ≠ name := by
    rintro rfl
    simp [fresh] at hbound
  simp [get?_insert, hother, hbound]

theorem Declares.grown {name typeName : String} {before after : Scope}
    (h : Declares name typeName before after) : Grown before after := by
  rcases h with rfl | ⟨ty, fresh, -, rfl⟩
  · exact refl after
  · exact before.grown_insert name ty fresh

theorem Extended.ne {name typeName : String} {before after : Scope}
    (h : Extended name typeName before after) : after ≠ before := by
  rcases h with ⟨ty, fresh, -, rfl⟩
  intro hsame
  simpa using congrArg size hsame

end Scope

def Checker.declared (checker : Checker) (name : String) (ty : Ty)
    (fresh : checker.scope.get? name = none) : Checker :=
  { checker with
    scope := checker.scope.insert name ty fresh
    metrics := checker.metrics.countDeclaration }

def Stmt.Effect : Stmt → Scope → Scope → Prop
  | .declare name typeName _ _ => Scope.Declares name.name typeName
  | .assign _ _ _ | .branch _ _ _ _ | .loop _ _ _ | .doLoop _ _ _ => Eq

theorem Stmt.Effect.grown {stmt : Stmt} {before after : Scope} (h : stmt.Effect before after) :
    Scope.Grown before after := by
  cases stmt with
  | declare => exact Scope.Declares.grown h
  | assign | branch | loop | doLoop => exact Eq.subst h (refl before)

namespace Check

/-- However the step ends, the current scope is related to what it was, and the scopes around
it are what they were. -/
def Frames {α : Type} (relation : Scope → Scope → Prop) (step : Check α) : Prop :=
  ∀ start, Ensures step start
    (fun _ stop => relation start.scope stop.scope ∧ stop.enclosing = start.enclosing)
    fun _ stop => relation start.scope stop.scope ∧ stop.enclosing = start.enclosing

namespace Frames

variable {α β : Type} {relation : Scope → Scope → Prop}

theorem pure [Std.Refl relation] (result : α) : Frames relation (Pure.pure result) :=
  fun start => .pure ⟨refl start.scope, rfl⟩

theorem throw [Std.Refl relation] (fault : Diagnostic) :
    Frames relation (MonadExcept.throw fault : Check α) :=
  fun start => .throw ⟨refl start.scope, rfl⟩

theorem bind [IsTrans Scope relation] {step : Check α} {following : α → Check β}
    (hstep : Frames relation step) (hfollowing : ∀ first, Frames relation (following first)) :
    Frames relation (step >>= following) := by
  intro start
  refine .bind ((hstep start).mono ?_ fun _ _ h => h)
  rintro first middle ⟨hmiddle, henclosing⟩
  refine (hfollowing first middle).mono ?_ ?_ <;>
    exact fun _ stop ⟨hstop, hstopped⟩ =>
      ⟨IsTrans.trans _ _ _ hmiddle hstop, hstopped.trans henclosing⟩

theorem mono {relation' : Scope → Scope → Prop} {step : Check α} (h : Frames relation step)
    (himp : ∀ before after, relation before after → relation' before after) :
    Frames relation' step := by
  intro start
  refine (h start).mono ?_ ?_ <;>
    exact fun _ stop ⟨hscope, henclosing⟩ => ⟨himp _ _ hscope, henclosing⟩

theorem grown {step : Check α} (h : Frames Eq step) : Frames Scope.Grown step := by
  apply h.mono
  rintro before _ rfl
  exact refl before

end Frames

private theorem count_frames (update : Metrics → Metrics) : Frames Eq (count update) :=
  fun _ => ⟨rfl, rfl⟩

theorem infer_frames (expr : Expr) : Frames Eq (infer expr) := by
  intro start
  unfold Ensures infer
  cases expr.infer start.scope start.metrics <;> exact ⟨rfl, rfl⟩

private theorem inScope_frames {α : Type} (question : Scope → Except Diagnostic α) :
    Frames Eq (inScope question) := by
  intro start
  unfold Ensures inScope
  cases question start.scope <;> exact ⟨rfl, rfl⟩

theorem bindName_frames (name : String) (ty : Ty) (position : Position) :
    Frames Scope.Grown (bindName name ty position) := by
  intro start
  unfold Ensures bindName
  cases hname : start.scope.get? name with
  | none =>
      simp [Scope.declare_of_none hname, start.scope.grown_insert name ty hname]
  | some bound => simp [Scope.declare_of_some hname, refl start.scope]

theorem condition_frames (tree : Condition) : Frames Eq (condition tree) := by
  unfold condition
  split
  · exact .pure _
  · apply (infer_frames _).bind
    intro ty?
    split
    · exact .pure _
    · exact .throw _

private theorem initialValue_frames (name : String) (declared : Ty) (tree : Expr) :
    Frames Eq (initialValue name declared tree) := by
  apply (infer_frames tree).bind
  intro ty?
  split
  · exact .pure _
  · exact .throw _

private theorem assign_frames (name : Identifier) (tree : Expr) : Frames Eq (assign name tree) :=
  (inScope_frames _).bind fun _ => (infer_frames tree).bind fun _ => inScope_frames _

/-! ## Declarations -/

def givenValue (name : String) (declared : Ty) : Option Expr → Check Unit
  | none => pure ()
  | some value => initialValue name declared value

section

variable {start : Checker} {name : Identifier} {typeName : String}

private theorem declare_of_some {bound : Ty} (hbound : start.scope.get? name.name = some bound)
    (value? : Option Expr) (span : Span) :
    declare name typeName value? span start =
      .error ⟨.multipleDeclaration name.name, name.span.start⟩ start := by
  apply bind_of_error
  simp [requireUnbound, inScope, hbound]

private theorem requireUnbound_of_none (fresh : start.scope.get? name.name = none) :
    requireUnbound name start = .ok () start := by
  simp [requireUnbound, inScope, fresh]

private theorem declare_of_unknown (fresh : start.scope.get? name.name = none)
    (htype : Ty.ofKeyword? typeName = none) (value? : Option Expr) (span : Span) :
    declare name typeName value? span start =
      .error ⟨.unknownType typeName, span.start⟩ start := by
  rw [declare, bind_of_ok (requireUnbound_of_none fresh)]
  apply bind_of_error
  rw [declaredType, htype]
  rfl

private theorem declare_of_fresh {ty : Ty} (fresh : start.scope.get? name.name = none)
    (htype : Ty.ofKeyword? typeName = some ty) (value? : Option Expr) (span : Span) :
    declare name typeName value? span start =
      givenValue name.name ty value? (start.declared name.name ty fresh) := by
  have hdeclared : declaredType typeName span.start start = .ok ty start := by
    rw [declaredType, htype]
    rfl
  have hbind : bindName name.name ty name.span.start start =
      .ok () { start with scope := start.scope.insert name.name ty fresh } := by
    simp [bindName, Scope.declare_of_none fresh]
  rw [declare, bind_of_ok (requireUnbound_of_none fresh), bind_of_ok hdeclared, bind_of_ok hbind]
  rfl

end

end Check

def Cause.precedesBinding : Cause → Bool
  | multipleDeclaration _ | unknownType _ => true
  | _ => false

/-- The variable is bound, and its value is refused. -/
def Checker.RefusesValue (start : Checker) (name typeName : String) (value? : Option Expr)
    (diagnostic : Diagnostic) (stop : Checker) : Prop :=
  ∃ ty fresh value, Ty.ofKeyword? typeName = some ty ∧ value? = some value ∧
    Check.initialValue name ty value (start.declared name ty fresh) = .error diagnostic stop

theorem Checker.RefusesValue.extended {start stop : Checker} {name typeName : String}
    {value? : Option Expr} {diagnostic : Diagnostic}
    (h : start.RefusesValue name typeName value? diagnostic stop) :
    Scope.Extended name typeName start.scope stop.scope ∧ stop.enclosing = start.enclosing := by
  rcases h with ⟨ty, fresh, tree, htype, -, hfails⟩
  have hframes := (Check.initialValue_frames name ty tree _).of_error hfails
  exact ⟨⟨ty, fresh, htype, hframes.1.symm⟩, hframes.2⟩

namespace Check

/-- A declaration extends the scope and may still fail by its value, or it fails before and
changes nothing. -/
theorem declare_outcome (name : Identifier) (typeName : String) (value? : Option Expr)
    (span : Span) (start : Checker) :
    Ensures (declare name typeName value? span) start
      (fun _ stop => Scope.Extended name.name typeName start.scope stop.scope ∧
        stop.enclosing = start.enclosing)
      fun diagnostic stop =>
        diagnostic.cause.precedesBinding ∧ stop = start ∨
          start.RefusesValue name.name typeName value? diagnostic stop := by
  cases hbound : start.scope.get? name.name with
  | some bound => simp [Ensures, declare_of_some hbound, Cause.precedesBinding]
  | none =>
      cases htype : Ty.ofKeyword? typeName with
      | none => simp [Ensures, declare_of_unknown hbound htype, Cause.precedesBinding]
      | some ty =>
          -- From here on the variable is bound, and no way out takes it back.
          refine .of_eq (declare_of_fresh hbound htype value? span) ?_
          cases value? with
          | none => exact .pure ⟨⟨ty, hbound, htype, rfl⟩, rfl⟩
          | some tree =>
              refine (Ensures.of_run _ _).mono ?_ ?_
              · intro _ stop hrun
                have hframes := (initialValue_frames name.name ty tree _).of_ok hrun
                exact ⟨⟨ty, hbound, htype, hframes.1.symm⟩, hframes.2⟩
              · intro diagnostic stop hrun
                exact .inr ⟨ty, hbound, tree, htype, rfl, hrun⟩

private theorem declare_frames (name : Identifier) (typeName : String) (value? : Option Expr)
    (span : Span) :
    Frames (Scope.Declares name.name typeName) (declare name typeName value? span) := by
  intro start
  refine (declare_outcome name typeName value? span start).mono ?_ ?_
  · rintro _ stop ⟨hextended, henclosing⟩
    exact ⟨.inr hextended, henclosing⟩
  · rintro diagnostic stop (⟨-, rfl⟩ | hrefuses)
    · exact ⟨.inl rfl, rfl⟩
    · exact ⟨.inr hrefuses.extended.1, hrefuses.extended.2⟩

theorem inBlock_frames {α : Type} {step : Check α} (h : Frames Scope.Grown step) :
    Frames Eq (inBlock step) := by
  intro start
  have hinner := h start.enter
  have hleave (inner : Checker) (henclosing : inner.enclosing = start.enter.enclosing) :
      start.scope = inner.leave.scope ∧ inner.leave.enclosing = start.enclosing := by
    simp [Checker.leave, Checker.enter, henclosing]
  unfold Ensures inBlock
  cases hresult : step start.enter with
  | ok result inner => exact hleave inner (hinner.of_ok hresult).2
  | error fault inner => exact hleave inner (hinner.of_error hresult).2

end Check

open Check (Frames)

mutual

theorem Stmt.check_frames (stmt : Stmt) : Frames stmt.Effect stmt.check := by
  match stmt with
  | .declare name typeName value? span => exact Check.declare_frames name typeName value? span
  | .assign name tree _ => exact Check.assign_frames name tree
  | .branch condition thenBody none _ =>
      exact (Check.count_frames _).bind fun _ => (Check.condition_frames condition).bind fun _ =>
        thenBody.check_frames.bind fun _ => .pure _
  | .branch condition thenBody (some elseBody) _ =>
      exact (Check.count_frames _).bind fun _ => (Check.condition_frames condition).bind fun _ =>
        thenBody.check_frames.bind fun _ => elseBody.check_frames
  | .loop condition body _ =>
      exact (Check.count_frames _).bind fun _ => (Check.condition_frames condition).bind fun _ =>
        body.check_frames
  | .doLoop body condition _ =>
      exact (Check.count_frames _).bind fun _ => body.check_frames.bind fun _ =>
        Check.condition_frames condition

theorem Block.check_frames (block : Block) : Frames Eq block.check := by
  match block with
  | .mk body _ => exact Check.inBlock_frames (Stmt.checkAll_frames body)

theorem Stmt.checkAll_frames (stmts : List Stmt) : Frames Scope.Grown (Stmt.checkAll stmts) := by
  match stmts with
  | [] => exact .pure _
  | stmt :: stmts =>
      exact (stmt.check_frames.mono fun _ _ => Stmt.Effect.grown).bind fun _ =>
        Stmt.checkAll_frames stmts

end

/-! ## Faults in expressions -/

def FailsWith {σ α : Type} (kind : Cause → Bool) (step : EStateM Diagnostic σ α) : Prop :=
  ∀ start, Ensures step start (fun _ _ => True) fun diagnostic _ => kind diagnostic.cause

namespace FailsWith

variable {σ α β : Type} {kind : Cause → Bool} {step : EStateM Diagnostic σ α}

theorem pure (result : α) : FailsWith kind (Pure.pure result : EStateM Diagnostic σ α) :=
  fun _ => .pure trivial

theorem throw {diagnostic : Diagnostic} (h : kind diagnostic.cause) :
    FailsWith kind (MonadExcept.throw diagnostic : EStateM Diagnostic σ α) :=
  fun _ => .throw h

theorem update (change : σ → σ) :
    FailsWith kind (modify change : EStateM Diagnostic σ Unit) :=
  fun _ => trivial

theorem bind {following : α → EStateM Diagnostic σ β} (hstep : FailsWith kind step)
    (hfollowing : ∀ first, FailsWith kind (following first)) :
    FailsWith kind (step >>= following) := by
  intro start
  refine .bind ((hstep start).mono ?_ fun _ _ h => h)
  intro first middle _
  exact hfollowing first middle

theorem guard {condition : Prop} [Decidable condition] {diagnostic : Diagnostic}
    (hstep : FailsWith kind step) (hcause : kind diagnostic.cause) :
    FailsWith kind (if condition then step else MonadExcept.throw diagnostic) := by
  split
  · exact hstep
  · exact throw hcause

end FailsWith

def Cause.inExpression : Cause → Bool
  | undeclaredVariable _ | invalidCondition | invalidExpressionType | malformedNode _ _ => true
  | _ => false

private theorem Infer.lookup_fails (scope : Scope) (name : String) (position : Position) :
    FailsWith Cause.inExpression (Infer.ofExcept (scope.lookup name position)) := by
  unfold Scope.lookup
  split
  · exact .pure _
  · exact .throw rfl

mutual

private theorem Expr.infer_fails (scope : Scope) (expr : Expr) :
    FailsWith Cause.inExpression (expr.infer scope) := by
  match expr with
  | .integer _ _ | .float _ _ | .bool _ _ | .identifier _ | .hole _ => exact .pure _
  | .value inner _ =>
      have hinner := inner.infer_fails scope
      cases inner with
      | identifier name =>
          rw [Expr.infer, map_eq_pure_bind]
          exact (Infer.lookup_fails scope _ _).bind fun _ => .pure _
      | _ => exact hinner
  | .list elements _ =>
      exact (Expr.inferOperands_fails scope .alike none elements).bind fun _ => .pure _
  | .unary .not operand _ | .unary .neg operand _ =>
      exact (FailsWith.update _).bind fun _ => (operand.infer_fails scope).bind fun _ =>
        .guard (.pure _) rfl
  | .chain .logical [] _ _ | .chain .additive [] _ _ | .chain .multiplicative [] _ _
  | .comparison _ [] _ => exact .throw rfl
  | .chain .additive [single] _ _ | .chain .multiplicative [single] _ _
  | .comparison _ [single] _ | .ternary [single] _ => exact single.infer_fails scope
  | .chain .logical (first :: others) _ _ =>
      exact (FailsWith.update _).bind fun _ =>
        (Expr.inferOperands_fails scope _ none (first :: others)).bind fun _ => .pure _
  | .chain .additive (first :: second :: others) _ _
  | .chain .multiplicative (first :: second :: others) _ _ =>
      exact (FailsWith.update _).bind fun _ =>
        Expr.inferOperands_fails scope _ none (first :: second :: others)
  | .comparison _ (first :: second :: others) _ =>
      exact (FailsWith.update _).bind fun _ =>
        (Expr.inferOperands_fails scope _ none (first :: second :: others)).bind fun _ => .pure _
  | .ternary [condition, whenTrue, whenFalse] _ =>
      refine (FailsWith.update _).bind fun _ => (condition.infer_fails scope).bind fun _ => ?_
      refine .guard ?_ rfl
      exact (whenTrue.infer_fails scope).bind fun _ => (whenFalse.infer_fails scope).bind fun _ =>
        .guard (.pure _) rfl
  | .ternary [] _ | .ternary [_, _] _ | .ternary (_ :: _ :: _ :: _ :: _) _ => exact .throw rfl

theorem Expr.inferOperands_fails (scope : Scope) (rule : Agreement)
    (previous : Option (Option Ty)) (operands : List Expr) :
    FailsWith Cause.inExpression (Expr.inferOperands scope rule previous operands) := by
  match operands with
  | [] => exact .pure _
  | operand :: operands =>
      exact (operand.infer_fails scope).bind fun ty? =>
        .guard (Expr.inferOperands_fails scope rule (some ty?) operands) rfl

end

private theorem Cause.not_precedesBinding {cause : Cause} (h : cause.inExpression) :
    (!cause.precedesBinding) = true := by
  cases cause <;> simp_all [inExpression, precedesBinding]

private theorem Check.initialValue_fails (name : String) (declared : Ty) (tree : Expr) :
    FailsWith (fun cause => !cause.precedesBinding) (initialValue name declared tree) := by
  refine FailsWith.bind ?_ fun _ => .guard (.pure _) rfl
  intro checker
  have hinfer := tree.infer_fails checker.scope checker.metrics
  unfold Ensures infer
  cases hresult : tree.infer checker.scope checker.metrics with
  | ok ty? metrics => trivial
  | error diagnostic metrics => exact Cause.not_precedesBinding (hinfer.of_error hresult)

/-! ## The effect of a check -/

theorem Checker.RefusesValue.not_precedesBinding {start stop : Checker} {name typeName : String}
    {value? : Option Expr} {diagnostic : Diagnostic}
    (h : start.RefusesValue name typeName value? diagnostic stop) :
    ¬ diagnostic.cause.precedesBinding := by
  rcases h with ⟨ty, fresh, tree, -, -, hfails⟩
  simpa using (Check.initialValue_fails name ty tree _).of_error hfails

/-- Checking leaves the scopes as they are, however it ends, a declaration apart.  A declaration
extends the current scope by its own name, unless it fails before the name is bound. -/
theorem Checker.scopes_of_check :
    (∀ expr, Frames Eq (Check.infer expr)) ∧
    (∀ condition, Frames Eq (Check.condition condition)) ∧
    (∀ name tree, Frames Eq (Check.assign name tree)) ∧
    (∀ block : Block, Frames Eq block.check) ∧
    (∀ condition thenBody elseBody? span,
      Frames Eq (Stmt.branch condition thenBody elseBody? span).check) ∧
    (∀ condition body span, Frames Eq (Stmt.loop condition body span).check) ∧
    (∀ body condition span, Frames Eq (Stmt.doLoop body condition span).check) ∧
    ∀ name typeName value? span start,
      Ensures (Stmt.declare name typeName value? span).check start
        (fun _ stop => stop.enclosing = start.enclosing ∧
          stop.scope ≠ start.scope ∧ Scope.Extended name.name typeName start.scope stop.scope)
        fun diagnostic stop => stop.enclosing = start.enclosing ∧
          Scope.Declares name.name typeName start.scope stop.scope ∧
          (stop.scope = start.scope ↔ diagnostic.cause.precedesBinding) ∧
          (Scope.Extended name.name typeName start.scope stop.scope ↔
            start.RefusesValue name.name typeName value? diagnostic stop) := by
  refine ⟨Check.infer_frames, Check.condition_frames, Check.assign_frames, Block.check_frames,
    fun _ _ _ _ => Stmt.check_frames _, fun _ _ _ => Stmt.check_frames _,
    fun _ _ _ => Stmt.check_frames _, ?_⟩
  intro name typeName value? span start
  refine (Check.declare_outcome name typeName value? span start).mono ?_ ?_
  · rintro _ stop ⟨hextended, henclosing⟩
    exact ⟨henclosing, hextended.ne, hextended⟩
  · rintro diagnostic stop (⟨hcause, rfl⟩ | hrefuses)
    · have hsame : ¬ Scope.Extended name.name typeName stop.scope stop.scope :=
        fun hextended => hextended.ne rfl
      refine ⟨rfl, .inl rfl, iff_of_true rfl hcause, iff_of_false hsame ?_⟩
      intro hrefuses
      exact hsame hrefuses.extended.1
    · rcases hrefuses.extended with ⟨hextended, henclosing⟩
      exact ⟨henclosing, .inr hextended, iff_of_false hextended.ne hrefuses.not_precedesBinding,
        iff_of_true hextended hrefuses⟩

end Assay
