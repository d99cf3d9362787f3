import Mathlib.Algebra.BigOperators.Group.List.Basic
import Assay.Proofs.Effect
import Assay.Proofs.Tree.Erasure
import Assay.Typing.Checker

/-!
# What trees use

The usage of a tree counts its nodes: declarations, loops, conditionals and the operators
between or in front of operands.  Checking a tree counts its usage: all of it when the
check succeeds, and a part of it when the check fails on the way.
-/

namespace Assay

namespace Metrics

instance : Zero Metrics := ⟨zero⟩

instance : Add Metrics where
  add left right :=
    ⟨left.declarations + right.declarations, left.loops + right.loops,
      left.conditionals + right.conditionals, left.operators + right.operators⟩

theorem add_def (left right : Metrics) :
    left + right = ⟨left.declarations + right.declarations, left.loops + right.loops,
      left.conditionals + right.conditionals, left.operators + right.operators⟩ := rfl

theorem zero_def : (0 : Metrics) = ⟨0, 0, 0, 0⟩ := rfl

instance : AddCommMonoid Metrics where
  add_assoc left middle right := by simp only [add_def, Nat.add_assoc]
  zero_add metrics := by simp only [add_def, zero_def, Nat.zero_add]
  add_zero metrics := by simp only [add_def, zero_def, Nat.add_zero]
  add_comm left right := by simp only [add_def, Nat.add_comm]
  nsmul := nsmulRec

def declaration : Metrics := zero.countDeclaration

def loop : Metrics := zero.countLoop

def conditional : Metrics := zero.countConditional

def ofOperators (count : Nat) : Metrics := zero.countOperators count

@[simp] theorem ofOperators_zero : ofOperators 0 = 0 := rfl

theorem ofOperators_add (left right : Nat) :
    ofOperators (left + right) = ofOperators left + ofOperators right := by
  simp [ofOperators, countOperators, zero, add_def]

theorem countDeclaration_eq (metrics : Metrics) :
    metrics.countDeclaration = metrics + declaration := rfl

theorem countLoop_eq (metrics : Metrics) : metrics.countLoop = metrics + loop := rfl

theorem countConditional_eq (metrics : Metrics) :
    metrics.countConditional = metrics + conditional := rfl

theorem countOperators_eq (metrics : Metrics) (count : Nat) :
    metrics.countOperators count = metrics + ofOperators count := by
  simp [ofOperators, countOperators, zero, add_def]

end Metrics

/-! ## Usage -/

mutual

def Expr.usage : Expr → Metrics
  | .integer _ _ | .float _ _ | .bool _ _ | .identifier _ | .hole _ => 0
  | .value inner _ => inner.usage
  | .list elements _ => Expr.usageAll elements
  | .unary _ operand _ => .ofOperators 1 + operand.usage
  | .chain _ operands _ _ => .ofOperators (operands.length - 1) + Expr.usageAll operands
  | .comparison _ operands _ => .ofOperators (operands.length - 1) + Expr.usageAll operands
  | .ternary operands _ =>
      (if operands.length = 3 then .conditional else 0) + Expr.usageAll operands

def Expr.usageAll : List Expr → Metrics
  | [] => 0
  | expr :: exprs => expr.usage + Expr.usageAll exprs

end

def Condition.usage (condition : Condition) : Metrics :=
  match condition.expr? with
  | none => 0
  | some expr => expr.usage

mutual

def Stmt.usage : Stmt → Metrics
  | .declare _ _ none _ => .declaration
  | .declare _ _ (some value) _ => .declaration + value.usage
  | .assign _ value _ => value.usage
  | .branch condition thenBody none _ => .conditional + condition.usage + thenBody.usage
  | .branch condition thenBody (some elseBody) _ =>
      .conditional + condition.usage + thenBody.usage + elseBody.usage
  | .loop condition body _ => .loop + condition.usage + body.usage
  | .doLoop body condition _ => .loop + body.usage + condition.usage

def Block.usage : Block → Metrics
  | .mk body _ => Stmt.usageAll body

def Stmt.usageAll : List Stmt → Metrics
  | [] => 0
  | stmt :: stmts => stmt.usage + Stmt.usageAll stmts

end

/-! ## Counting steps -/

/-- A step that succeeds adds exactly the given metrics to those in its state; one that
fails adds a part of them. -/
def Counts {ε σ α : Type} (view : σ → Metrics) (step : EStateM ε σ α) (usage : Metrics) : Prop :=
  ∀ start, Ensures step start (fun _ stop => view stop = view start + usage)
    fun _ stop => ∃ part others, part + others = usage ∧ view stop = view start + part

namespace Counts

section

variable {ε σ α β : Type} {view : σ → Metrics} {step : EStateM ε σ α} {usage more : Metrics}
  {following : α → EStateM ε σ β}

theorem pure (result : α) : Counts view (Pure.pure result : EStateM ε σ α) 0 := by
  intro start
  exact .pure (add_zero _).symm

theorem throw (fault : ε) : Counts view (MonadExcept.throw fault : EStateM ε σ α) usage := by
  intro start
  exact .throw ⟨0, usage, zero_add _, (add_zero _).symm⟩

theorem bind (hstep : Counts view step usage)
    (hfollowing : ∀ first, Counts view (following first) more) :
    Counts view (step >>= following) (usage + more) := by
  intro start
  refine .bind ((hstep start).mono ?_ ?_)
  · intro first middle hmiddle
    refine (hfollowing first middle).mono ?_ ?_
    · intro _ stop hstop
      rw [hstop, hmiddle, add_assoc]
    · rintro _ stop ⟨part, others, rfl, hstop⟩
      exact ⟨usage + part, others, add_assoc _ _ _, by rw [hstop, hmiddle, add_assoc]⟩
  · rintro _ stop ⟨part, others, rfl, hstop⟩
    exact ⟨part, others + more, (add_assoc _ _ _).symm, hstop⟩

theorem bind_zero (hstep : Counts view step usage)
    (hfollowing : ∀ first, Counts view (following first) 0) :
    Counts view (step >>= following) usage := by
  simpa using hstep.bind hfollowing

theorem zero_bind (hstep : Counts view step 0)
    (hfollowing : ∀ first, Counts view (following first) more) :
    Counts view (step >>= following) more := by
  simpa using hstep.bind hfollowing

theorem map (hstep : Counts view step usage) (f : α → β) : Counts view (f <$> step) usage := by
  rw [map_eq_pure_bind]
  exact hstep.bind_zero fun _ => .pure _

end

end Counts

/-! ## Inference -/

namespace Infer

private theorem count_counts {update : Metrics → Metrics} {usage : Metrics}
    (h : ∀ metrics, update metrics = metrics + usage) : Counts id (count update) usage :=
  fun metrics => h metrics

private theorem count_operators (number : Nat) :
    Counts id (count (·.countOperators number)) (.ofOperators number) :=
  count_counts (Metrics.countOperators_eq · number)

private theorem ofExcept_counts {α : Type} (answer : Except Diagnostic α) :
    Counts id (ofExcept answer) 0 := by
  cases answer with
  | ok result => exact .pure result
  | error diagnostic => exact .throw diagnostic

end Infer

mutual

private theorem Expr.infer_counts (scope : Scope) (expr : Expr) :
    Counts id (expr.infer scope) expr.usage := by
  match expr with
  | .integer _ _ | .float _ _ | .bool _ _ | .identifier _ | .hole _ => exact .pure _
  | .value inner _ =>
      have hinner := inner.infer_counts scope
      cases inner with
      | identifier name => exact (Infer.ofExcept_counts _).map some
      | _ => exact hinner
  | .list elements _ =>
      exact (Expr.inferOperands_counts scope .alike none elements).bind_zero fun _ => .pure _
  | .unary .not operand _ | .unary .neg operand _ =>
      refine (Infer.count_operators 1).bind fun _ =>
        (operand.infer_counts scope).bind_zero fun ty? => ?_
      split
      · exact .pure _
      · exact .throw _
  | .chain .logical [] _ _ | .chain .additive [] _ _ | .chain .multiplicative [] _ _
  | .comparison _ [] _ => exact .throw _
  | .chain .additive [single] _ _ | .chain .multiplicative [single] _ _
  | .comparison _ [single] _ | .ternary [single] _ =>
      simpa [Expr.infer, Expr.usage, Expr.usageAll] using single.infer_counts scope
  | .chain .logical (first :: others) _ _ =>
      exact (Infer.count_operators _).bind fun _ =>
        (Expr.inferOperands_counts scope .logical none (first :: others)).bind_zero fun _ =>
          .pure _
  | .chain .additive (first :: second :: others) _ _
  | .chain .multiplicative (first :: second :: others) _ _ =>
      exact (Infer.count_operators _).bind fun _ =>
        Expr.inferOperands_counts scope .arithmetic none (first :: second :: others)
  | .comparison operator (first :: second :: others) _ =>
      exact (Infer.count_operators _).bind fun _ =>
        (Expr.inferOperands_counts scope (.ofComparator operator) none
          (first :: second :: others)).bind_zero fun _ => .pure _
  | .ternary [condition, whenTrue, whenFalse] span =>
      have hcondition := condition.infer_counts scope
      have hwhenTrue := whenTrue.infer_counts scope
      have hwhenFalse := whenFalse.infer_counts scope
      have hbranches : Counts id (do
          let left ← whenTrue.infer scope
          let right ← whenFalse.infer scope
          if sameType left right then return left else Infer.invalidExpression whenFalse)
          (whenTrue.usage + whenFalse.usage) := by
        refine hwhenTrue.bind fun left => hwhenFalse.bind_zero fun right => ?_
        split
        · exact .pure _
        · exact .throw _
      have husage : (Expr.ternary [condition, whenTrue, whenFalse] span).usage =
          .conditional + (condition.usage + (whenTrue.usage + whenFalse.usage)) := by
        simp [Expr.usage, Expr.usageAll]
      rw [husage]
      refine (Infer.count_counts Metrics.countConditional_eq).bind fun _ =>
        hcondition.bind fun steering => ?_
      split
      · exact hbranches
      · exact .throw _
  | .ternary [] _ | .ternary [_, _] _ | .ternary (_ :: _ :: _ :: _ :: _) _ => exact .throw _

theorem Expr.inferOperands_counts (scope : Scope) (rule : Agreement)
    (previous : Option (Option Ty)) (operands : List Expr) :
    Counts id (Expr.inferOperands scope rule previous operands) (Expr.usageAll operands) := by
  match operands with
  | [] => exact .pure _
  | operand :: operands =>
      refine (operand.infer_counts scope).bind fun ty? => ?_
      split
      · exact Expr.inferOperands_counts scope rule (some ty?) operands
      · exact .throw _

end

/-! ## Checking -/

@[simp] theorem Checker.metrics_leave (checker : Checker) :
    checker.leave.metrics = checker.metrics := by
  unfold Checker.leave
  split <;> rfl

namespace Check

private theorem count_counts {update : Metrics → Metrics} {usage : Metrics}
    (h : ∀ metrics, update metrics = metrics + usage) :
    Counts Checker.metrics (count update) usage :=
  fun checker => h checker.metrics

theorem infer_counts (expr : Expr) : Counts Checker.metrics (infer expr) expr.usage := by
  intro checker
  have hinfer := expr.infer_counts checker.scope checker.metrics
  unfold Ensures infer
  cases hresult : expr.infer checker.scope checker.metrics with
  | ok ty? metrics => exact hinfer.of_ok hresult
  | error diagnostic metrics => exact hinfer.of_error hresult

private theorem inScope_counts {α : Type} (question : Scope → Except Diagnostic α) :
    Counts Checker.metrics (inScope question) 0 := by
  intro checker
  unfold Ensures inScope
  cases question checker.scope with
  | ok answer => exact (add_zero _).symm
  | error diagnostic => exact ⟨0, 0, add_zero _, (add_zero _).symm⟩

private theorem bindName_counts (name : String) (ty : Ty) (position : Position) :
    Counts Checker.metrics (bindName name ty position) 0 := by
  intro checker
  unfold Ensures bindName
  cases checker.scope.declare name ty position with
  | ok scope => exact (add_zero _).symm
  | error diagnostic => exact ⟨0, 0, add_zero _, (add_zero _).symm⟩

private theorem declaredType_counts (keyword : String) (position : Position) :
    Counts Checker.metrics (declaredType keyword position) 0 := by
  unfold declaredType
  split
  · exact .pure _
  · exact .throw _

theorem condition_counts (tree : Condition) :
    Counts Checker.metrics (condition tree) tree.usage := by
  obtain ⟨expr?, span⟩ := tree
  cases expr? with
  | none => exact .pure _
  | some expr =>
      refine (infer_counts expr).bind_zero fun ty? => ?_
      split
      · exact .pure _
      · exact .throw _

private theorem initialValue_counts (name : String) (declared : Ty) (tree : Expr) :
    Counts Checker.metrics (initialValue name declared tree) tree.usage := by
  refine (infer_counts tree).bind_zero fun ty? => ?_
  split
  · exact .pure _
  · exact .throw _

private theorem declare_counts (name : Identifier) (typeName : String) (value? : Option Expr)
    (span : Span) :
    Counts Checker.metrics (declare name typeName value? span)
      (Stmt.declare name typeName value? span).usage := by
  refine (inScope_counts _).zero_bind fun _ => (declaredType_counts _ _).zero_bind fun declared =>
    (bindName_counts _ _ _).zero_bind fun _ => ?_
  cases value? with
  | none => exact (count_counts Metrics.countDeclaration_eq).bind_zero fun _ => .pure _
  | some tree =>
      exact (count_counts Metrics.countDeclaration_eq).bind fun _ =>
        initialValue_counts name.name declared tree

private theorem assign_counts (name : Identifier) (tree : Expr) :
    Counts Checker.metrics (assign name tree) tree.usage := by
  exact (inScope_counts _).zero_bind fun _ => (infer_counts tree).bind_zero fun ty? =>
    inScope_counts _

private theorem inBlock_counts {α : Type} {step : Check α} {usage : Metrics}
    (h : Counts Checker.metrics step usage) : Counts Checker.metrics (inBlock step) usage := by
  intro checker
  have hinner := h checker.enter
  unfold Ensures inBlock
  cases hresult : step checker.enter with
  | ok result inner => simpa [Checker.enter] using hinner.of_ok hresult
  | error diagnostic inner => simpa [Checker.enter] using hinner.of_error hresult

end Check

mutual

theorem Stmt.check_counts (stmt : Stmt) : Counts Checker.metrics stmt.check stmt.usage := by
  match stmt with
  | .declare name typeName value? span => exact Check.declare_counts name typeName value? span
  | .assign name tree _ => exact Check.assign_counts name tree
  | .branch condition thenBody none _ =>
      rw [Stmt.usage, add_assoc]
      exact (Check.count_counts Metrics.countConditional_eq).bind fun _ =>
        (Check.condition_counts condition).bind fun _ =>
          thenBody.check_counts.bind_zero fun _ => .pure _
  | .branch condition thenBody (some elseBody) _ =>
      rw [Stmt.usage, add_assoc, add_assoc]
      exact (Check.count_counts Metrics.countConditional_eq).bind fun _ =>
        (Check.condition_counts condition).bind fun _ =>
          thenBody.check_counts.bind fun _ => elseBody.check_counts
  | .loop condition body _ =>
      rw [Stmt.usage, add_assoc]
      exact (Check.count_counts Metrics.countLoop_eq).bind fun _ =>
        (Check.condition_counts condition).bind fun _ => body.check_counts
  | .doLoop body condition _ =>
      rw [Stmt.usage, add_assoc]
      exact (Check.count_counts Metrics.countLoop_eq).bind fun _ =>
        body.check_counts.bind fun _ => Check.condition_counts condition

theorem Block.check_counts (block : Block) :
    Counts Checker.metrics block.check block.usage := by
  match block with
  | .mk body _ => exact Check.inBlock_counts (Stmt.checkAll_counts body)

private theorem Stmt.checkAll_counts (stmts : List Stmt) :
    Counts Checker.metrics (Stmt.checkAll stmts) (Stmt.usageAll stmts) := by
  match stmts with
  | [] => exact .pure _
  | stmt :: stmts => exact stmt.check_counts.bind fun _ => Stmt.checkAll_counts stmts

end

theorem Block.metrics_eq_usage {program : Block} {metrics : Metrics}
    (h : program.metrics = .ok metrics) : metrics = program.usage := by
  obtain ⟨body, span⟩ := program
  unfold Block.metrics at h
  have hcounts := Stmt.checkAll_counts body .new
  split at h
  · next result checker hcheck =>
      cases h
      exact (hcounts.of_ok hcheck).trans (zero_add _)
  · cases h

/-! ## Spans -/

mutual

private theorem Expr.usage_eraseSpans (expr : Expr) : expr.eraseSpans.usage = expr.usage := by
  match expr with
  | .integer _ _ | .float _ _ | .bool _ _ | .identifier _ | .hole _ => rfl
  | .value inner _ => exact inner.usage_eraseSpans
  | .list elements _ => exact Expr.usageAll_eraseAll elements
  | .unary _ operand _ =>
      rw [Expr.eraseSpans, Expr.usage, Expr.usage, operand.usage_eraseSpans]
  | .chain _ operands _ _ | .comparison _ operands _ | .ternary operands _ =>
      rw [Expr.eraseSpans, Expr.usage, Expr.usage, Expr.usageAll_eraseAll, Expr.eraseAll_eq_map,
        List.length_map]

theorem Expr.usageAll_eraseAll (exprs : List Expr) :
    Expr.usageAll (Expr.eraseAll exprs) = Expr.usageAll exprs := by
  match exprs with
  | [] => rfl
  | expr :: exprs =>
      rw [Expr.eraseAll, Expr.usageAll, Expr.usageAll, expr.usage_eraseSpans,
        Expr.usageAll_eraseAll exprs]

end

private theorem Condition.usage_eraseSpans (condition : Condition) :
    condition.eraseSpans.usage = condition.usage := by
  obtain ⟨expr?, span⟩ := condition
  cases expr? with
  | none => rfl
  | some expr => exact expr.usage_eraseSpans

mutual

theorem Stmt.usage_eraseSpans (stmt : Stmt) : stmt.eraseSpans.usage = stmt.usage := by
  match stmt with
  | .declare _ _ none _ => rfl
  | .declare _ _ (some tree) _ =>
      simp only [Stmt.eraseSpans, Option.map_some, Stmt.usage, tree.usage_eraseSpans]
  | .assign _ tree _ => exact tree.usage_eraseSpans
  | .branch condition thenBody none _ =>
      simp only [Stmt.eraseSpans, Stmt.usage, condition.usage_eraseSpans,
        thenBody.usage_eraseSpans]
  | .branch condition thenBody (some elseBody) _ =>
      simp only [Stmt.eraseSpans, Stmt.usage, condition.usage_eraseSpans,
        thenBody.usage_eraseSpans, elseBody.usage_eraseSpans]
  | .loop condition body _ | .doLoop body condition _ =>
      simp only [Stmt.eraseSpans, Stmt.usage, condition.usage_eraseSpans, body.usage_eraseSpans]

theorem Block.usage_eraseSpans (block : Block) : block.eraseSpans.usage = block.usage := by
  match block with
  | .mk body _ => exact Stmt.usageAll_eraseAll body

theorem Stmt.usageAll_eraseAll (stmts : List Stmt) :
    Stmt.usageAll (Stmt.eraseAll stmts) = Stmt.usageAll stmts := by
  match stmts with
  | [] => rfl
  | stmt :: stmts =>
      rw [Stmt.eraseAll, Stmt.usageAll, Stmt.usageAll, stmt.usage_eraseSpans,
        Stmt.usageAll_eraseAll stmts]

end

end Assay
