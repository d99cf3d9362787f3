import Mathlib.Data.Set.Function
import Mathlib.Logic.Equiv.Basic
import Assay.Proofs.Tree.Names
import Assay.Proofs.Typing.Frame
import Assay.Proofs.Usage.Tree

/-!
# Checking a renamed tree

The checker uses names only to tell them apart.  Let a tree be renamed so that its variables
stay apart, and let two scopes bind them alike, each under its own names.  Then the tree in
the one scope and the renamed tree in the other are checked side by side: they end alike,
count the same, and the scopes bind the variables alike again.
-/

namespace Assay

def Metrics.Abreast (base base' metrics metrics' : Metrics) : Prop :=
  ∃ added, metrics = base + added ∧ metrics' = base' + added

theorem Metrics.abreast_self (base base' : Metrics) : Abreast base base' base base' :=
  ⟨0, by simp⟩

theorem Metrics.Abreast.add {base base' metrics metrics' : Metrics}
    (h : Abreast base base' metrics metrics') (more : Metrics) :
    Abreast base base' (metrics + more) (metrics' + more) := by
  rcases h with ⟨added, rfl, rfl⟩
  exact ⟨added + more, by simp [add_assoc]⟩

/-- New names for some variables, no two of which get the same one. -/
structure Renaming where
  newName : String → String
  names : Set String
  apart : Set.InjOn newName names

namespace Renaming

/-- Both scopes bind the variables alike, the second under the new names.  Nothing is said of
what else they bind. -/
def Scopes (naming : Renaming) (scope other : Scope) : Prop :=
  ∀ name ∈ naming.names, other.get? (naming.newName name) = scope.get? name

structure Checkers (naming : Renaming) (base base' : Metrics) (checker other : Checker) : Prop where
  scope : naming.Scopes checker.scope other.scope
  metrics : Metrics.Abreast base base' checker.metrics other.metrics

abbrev Infers {α : Type} (naming : Renaming) (base base' : Metrics) (step other : Infer α) : Prop :=
  Mirrors (Metrics.Abreast base base') (Diagnostic.rename naming.newName) step other

abbrev Checks {α : Type} (naming : Renaming) (base base' : Metrics) (step other : Check α) : Prop :=
  Mirrors (naming.Checkers base base') (Diagnostic.rename naming.newName) step other

section

variable {naming : Renaming} {scope other : Scope} {name : String}

theorem Scopes.insert (h : naming.Scopes scope other) (hname : name ∈ naming.names) (ty : Ty)
    (fresh : scope.get? name = none) (fresh' : other.get? (naming.newName name) = none) :
    naming.Scopes (scope.insert name ty fresh) (other.insert (naming.newName name) ty fresh') := by
  intro looked hlooked
  by_cases hsame : looked = name
  · simp [Scope.get?_insert, hsame]
  · -- Only here does it matter that no two variables get the same name.
    have hnew : naming.newName looked ≠ naming.newName name :=
      fun heq => hsame (naming.apart hlooked hname heq)
    simp [Scope.get?_insert, hsame, hnew, h looked hlooked]

theorem Scopes.lookup (h : naming.Scopes scope other) (hname : name ∈ naming.names)
    (position : Position) :
    other.lookup (naming.newName name) position =
      (scope.lookup name position).mapError (Diagnostic.rename naming.newName) := by
  rw [Scope.lookup, Scope.lookup, h name hname]
  cases scope.get? name <;> rfl

theorem Scopes.assign (h : naming.Scopes scope other) (hname : name ∈ naming.names)
    (ty? : Option Ty) (position : Position) :
    other.assign (naming.newName name) ty? position =
      (scope.assign name ty? position).mapError (Diagnostic.rename naming.newName) := by
  rw [Scope.assign, Scope.assign, h.lookup hname]
  cases scope.lookup name position with
  | error diagnostic => rfl
  | ok declared =>
      change (if sameType (some declared) ty? then _ else _) =
        Except.mapError _ (if sameType (some declared) ty? then _ else _)
      split <;> rfl

end

end Renaming

section

variable (naming : Renaming) {base base' : Metrics}

/-! ## Expressions -/

namespace Infer

private theorem count_mirrors {update : Metrics → Metrics} {usage : Metrics}
    (h : ∀ metrics, update metrics = metrics + usage) :
    naming.Infers base base' (count update) (count update) := by
  intro metrics metrics' habreast
  refine .ok ?_
  simpa only [h] using habreast.add usage

private theorem countOperators_mirrors {number number' : Nat} (h : number' = number) :
    naming.Infers base base' (count (·.countOperators (number - 1)))
      (count (·.countOperators (number' - 1))) := by
  subst h
  exact count_mirrors naming (Metrics.countOperators_eq · _)

private theorem invalidExpression_mirrors {α : Type} (expr : Expr) :
    naming.Infers base base' (invalidExpression expr : Infer α)
      (invalidExpression (expr.rename naming.newName)) :=
  .throw (by simp [Diagnostic.rename, Cause.rename])

private theorem lookup_mirrors {scope other : Scope} (hscopes : naming.Scopes scope other)
    {name : String} (hname : name ∈ naming.names) (position : Position) :
    naming.Infers base base' (ofExcept (scope.lookup name position))
      (ofExcept (other.lookup (naming.newName name) position)) := by
  rw [hscopes.lookup hname]
  cases scope.lookup name position with
  | ok ty => exact .pure ty
  | error diagnostic => exact .throw rfl

end Infer

mutual

theorem Expr.infer_mirrors {scope other : Scope} (hscopes : naming.Scopes scope other) (expr : Expr)
    (hnames : ∀ name ∈ expr.names, name ∈ naming.names) :
    naming.Infers base base' (expr.infer scope) ((expr.rename naming.newName).infer other) := by
  match expr with
  | .integer _ _ | .float _ _ | .bool _ _ | .identifier _ | .hole _ => exact .pure _
  | .value inner _ =>
      have hinner := inner.infer_mirrors hscopes
      cases inner with
      | identifier name =>
          have hname : name.name ∈ naming.names := hnames _ (by simp [Expr.names])
          exact (Infer.lookup_mirrors naming hscopes hname _).map some
      | _ => exact hinner hnames
  | .list elements _ =>
      exact (Expr.inferOperands_mirrors hscopes .alike none elements hnames).bind fun _ => .pure _
  | .unary .not operand _ | .unary .neg operand _ =>
      exact (Infer.count_mirrors naming (Metrics.countOperators_eq · 1)).bind fun _ =>
        (operand.infer_mirrors hscopes hnames).bind fun _ =>
          .ite (.pure _) (Infer.invalidExpression_mirrors naming operand)
  | .chain .logical [] _ _ | .chain .additive [] _ _ | .chain .multiplicative [] _ _
  | .comparison _ [] _ => exact .throw rfl
  | .chain .additive [single] _ _ | .chain .multiplicative [single] _ _
  | .comparison _ [single] _ | .ternary [single] _ =>
      exact single.infer_mirrors hscopes (by simpa [Expr.names, Expr.namesAll] using hnames)
  | .chain .logical (first :: others) _ _ =>
      have hoperands := Expr.inferOperands_mirrors hscopes .logical none (first :: others) hnames
      exact (Infer.countOperators_mirrors naming (Expr.length_renameAll _ _)).bind fun _ =>
        hoperands.bind fun _ => .pure _
  | .chain .additive (first :: second :: others) _ _
  | .chain .multiplicative (first :: second :: others) _ _ =>
      exact (Infer.countOperators_mirrors naming (Expr.length_renameAll _ _)).bind fun _ =>
        Expr.inferOperands_mirrors hscopes .arithmetic none (first :: second :: others) hnames
  | .comparison operator (first :: second :: others) _ =>
      have hoperands := Expr.inferOperands_mirrors hscopes (.ofComparator operator) none
        (first :: second :: others) hnames
      exact (Infer.countOperators_mirrors naming (Expr.length_renameAll _ _)).bind fun _ =>
        hoperands.bind fun _ => .pure _
  | .ternary [condition, whenTrue, whenFalse] _ =>
      simp only [Expr.names, Expr.namesAll, List.forall_mem_append, List.append_nil] at hnames
      rcases hnames with ⟨hcondition, hwhenTrue, hwhenFalse⟩
      refine (Infer.count_mirrors naming Metrics.countConditional_eq).bind fun _ =>
        (condition.infer_mirrors hscopes hcondition).bind fun _ => ?_
      refine .ite ?_ (.throw (by simp [Diagnostic.rename, Cause.rename]))
      exact (whenTrue.infer_mirrors hscopes hwhenTrue).bind fun _ =>
        (whenFalse.infer_mirrors hscopes hwhenFalse).bind fun _ =>
          .ite (.pure _) (Infer.invalidExpression_mirrors naming whenFalse)
  | .ternary [] _ | .ternary [_, _] _ | .ternary (_ :: _ :: _ :: _ :: _) _ =>
      exact .throw (by simp [Diagnostic.rename, Cause.rename])

theorem Expr.inferOperands_mirrors {scope other : Scope} (hscopes : naming.Scopes scope other)
    (rule : Agreement) (previous : Option (Option Ty)) (operands : List Expr)
    (hnames : ∀ name ∈ Expr.namesAll operands, name ∈ naming.names) :
    naming.Infers base base' (Expr.inferOperands scope rule previous operands)
      (Expr.inferOperands other rule previous (Expr.renameAll naming.newName operands)) := by
  match operands with
  | [] => exact .pure _
  | operand :: operands =>
      rcases List.forall_mem_append.mp hnames with ⟨hoperand, hoperands⟩
      exact (operand.infer_mirrors hscopes hoperand).bind fun ty? =>
        .ite (Expr.inferOperands_mirrors hscopes rule (some ty?) operands hoperands)
          (Infer.invalidExpression_mirrors naming operand)

end

/-! ## Statements -/

namespace Check

private theorem count_mirrors {update : Metrics → Metrics} {usage : Metrics}
    (h : ∀ metrics, update metrics = metrics + usage) :
    naming.Checks base base' (count update) (count update) := by
  intro checker other hcheckers
  refine .ok ⟨hcheckers.scope, ?_⟩
  simpa only [h] using hcheckers.metrics.add usage

private theorem infer_mirrors (expr : Expr) (hnames : ∀ name ∈ expr.names, name ∈ naming.names) :
    naming.Checks base base' (infer expr) (infer (expr.rename naming.newName)) := by
  intro checker other hcheckers
  have hends : Mirrored (Metrics.Abreast base base') (Diagnostic.rename naming.newName) _ _ :=
    expr.infer_mirrors naming hcheckers.scope hnames _ _ hcheckers.metrics
  unfold infer
  generalize expr.infer checker.scope checker.metrics = first at hends
  generalize (expr.rename naming.newName).infer other.scope other.metrics = second at hends
  cases hends with
  | ok h => exact .ok ⟨hcheckers.scope, h⟩
  | error h => exact .error ⟨hcheckers.scope, h⟩

private theorem inScope_mirrors {α : Type} {question question' : Scope → Except Diagnostic α}
    (h : ∀ scope other, naming.Scopes scope other →
      question' other = (question scope).mapError (Diagnostic.rename naming.newName)) :
    naming.Checks base base' (inScope question) (inScope question') := by
  intro checker other hcheckers
  unfold inScope
  rw [h checker.scope other.scope hcheckers.scope]
  cases question checker.scope with
  | ok answer => exact .ok hcheckers
  | error diagnostic => exact .error hcheckers

private theorem requireUnbound_mirrors {name : Identifier} (hname : name.name ∈ naming.names) :
    naming.Checks base base' (requireUnbound name)
      (requireUnbound (name.rename naming.newName)) := by
  refine inScope_mirrors naming fun scope other hscopes => ?_
  simp only [Identifier.rename, hscopes name.name hname]
  cases scope.get? name.name <;> rfl

private theorem declaredType_mirrors (keyword : String) (position : Position) :
    naming.Checks base base' (declaredType keyword position) (declaredType keyword position) := by
  unfold declaredType
  split
  · exact .pure _
  · exact .throw rfl

private theorem bindName_mirrors {name : String} (hname : name ∈ naming.names) (ty : Ty)
    (position : Position) :
    naming.Checks base base' (bindName name ty position)
      (bindName (naming.newName name) ty position) := by
  intro checker other hcheckers
  have hother := hcheckers.scope name hname
  unfold bindName
  cases hbound : checker.scope.get? name with
  | none =>
      rw [hbound] at hother
      simp only [Scope.declare_of_none hbound, Scope.declare_of_none hother]
      exact .ok ⟨hcheckers.scope.insert hname ty hbound hother, hcheckers.metrics⟩
  | some bound =>
      rw [hbound] at hother
      simp only [Scope.declare_of_some hbound, Scope.declare_of_some hother]
      exact .error hcheckers

private theorem condition_mirrors (tree : Condition)
    (hnames : ∀ name ∈ tree.names, name ∈ naming.names) :
    naming.Checks base base' (condition tree) (condition (tree.rename naming.newName)) := by
  rcases tree with ⟨expr?, span⟩
  cases expr? with
  | none => exact .pure _
  | some expr =>
      exact (infer_mirrors naming expr hnames).bind fun _ =>
        .ite (.pure _) (.throw (by simp [Diagnostic.rename, Cause.rename]))

private theorem initialValue_mirrors (name : String) (declared : Ty) (tree : Expr)
    (hnames : ∀ name ∈ tree.names, name ∈ naming.names) :
    naming.Checks base base' (initialValue name declared tree)
      (initialValue (naming.newName name) declared (tree.rename naming.newName)) :=
  (infer_mirrors naming tree hnames).bind fun _ =>
    .ite (.pure _) (.throw (by simp [Diagnostic.rename, Cause.rename]))

private theorem declare_mirrors (name : Identifier) (typeName : String) (value? : Option Expr)
    (span : Span)
    (hnames : ∀ other ∈ (Stmt.declare name typeName value? span).names, other ∈ naming.names) :
    naming.Checks base base' (declare name typeName value? span)
      (declare (name.rename naming.newName) typeName
        (value?.map (Expr.rename naming.newName)) span) := by
  have hname : name.name ∈ naming.names := by
    apply hnames
    cases value? <;> simp [Stmt.names]
  refine (requireUnbound_mirrors naming hname).bind fun _ =>
    (declaredType_mirrors naming typeName span.start).bind fun declared =>
      (bindName_mirrors naming hname declared name.span.start).bind fun _ =>
        (count_mirrors naming Metrics.countDeclaration_eq).bind fun _ => ?_
  cases value? with
  | none => exact .pure _
  | some tree =>
      exact initialValue_mirrors naming name.name declared tree (List.forall_mem_cons.mp hnames).2

private theorem assign_mirrors {name : Identifier} (hname : name.name ∈ naming.names) (tree : Expr)
    (hnames : ∀ name ∈ tree.names, name ∈ naming.names) :
    naming.Checks base base' (assign name tree)
      (assign (name.rename naming.newName) (tree.rename naming.newName)) := by
  refine (inScope_mirrors naming fun _ _ hscopes => hscopes.lookup hname _).bind fun _ =>
    (infer_mirrors naming tree hnames).bind fun ty? => inScope_mirrors naming ?_
  intro scope other hscopes
  rw [Expr.span_rename]
  exact hscopes.assign hname ty? _

private theorem inBlock_mirrors {α : Type} {step other : Check α}
    (h : naming.Checks base base' step other) (hstep : Frames Scope.Grown step)
    (hother : Frames Scope.Grown other) :
    naming.Checks base base' (inBlock step) (inBlock other) := by
  -- What a block binds is dropped on both sides, so the scopes correspond as they did before.
  intro checker checker' hcheckers
  have hends := h checker.enter checker'.enter ⟨hcheckers.scope, hcheckers.metrics⟩
  have hkeeps := inBlock_frames hstep checker
  have hkeeps' := inBlock_frames hother checker'
  unfold Ensures inBlock at hkeeps hkeeps'
  unfold inBlock
  generalize step checker.enter = first at hends hkeeps ⊢
  generalize other checker'.enter = second at hends hkeeps' ⊢
  cases hends with
  | ok hinner =>
      refine .ok ⟨?_, by simpa using hinner.metrics⟩
      rw [← hkeeps.1, ← hkeeps'.1]
      exact hcheckers.scope
  | error hinner =>
      refine .error ⟨?_, by simpa using hinner.metrics⟩
      rw [← hkeeps.1, ← hkeeps'.1]
      exact hcheckers.scope

end Check

mutual

theorem Stmt.check_mirrors (stmt : Stmt) (hnames : ∀ name ∈ stmt.names, name ∈ naming.names) :
    naming.Checks base base' stmt.check (stmt.rename naming.newName).check := by
  match stmt with
  | .declare name typeName value? span =>
      exact Check.declare_mirrors naming name typeName value? span hnames
  | .assign name tree _ =>
      rcases List.forall_mem_cons.mp hnames with ⟨hname, htree⟩
      exact Check.assign_mirrors naming hname tree htree
  | .branch condition thenBody none _ =>
      rcases List.forall_mem_append.mp hnames with ⟨hcondition, hthenBody⟩
      exact (Check.count_mirrors naming Metrics.countConditional_eq).bind fun _ =>
        (Check.condition_mirrors naming condition hcondition).bind fun _ =>
          (thenBody.check_mirrors hthenBody).bind fun _ => .pure _
  | .branch condition thenBody (some elseBody) _ =>
      rcases List.forall_mem_append.mp hnames with ⟨hcondition, hbodies⟩
      rcases List.forall_mem_append.mp hbodies with ⟨hthenBody, helseBody⟩
      exact (Check.count_mirrors naming Metrics.countConditional_eq).bind fun _ =>
        (Check.condition_mirrors naming condition hcondition).bind fun _ =>
          (thenBody.check_mirrors hthenBody).bind fun _ => elseBody.check_mirrors helseBody
  | .loop condition body _ =>
      rcases List.forall_mem_append.mp hnames with ⟨hcondition, hbody⟩
      exact (Check.count_mirrors naming Metrics.countLoop_eq).bind fun _ =>
        (Check.condition_mirrors naming condition hcondition).bind fun _ =>
          body.check_mirrors hbody
  | .doLoop body condition _ =>
      rcases List.forall_mem_append.mp hnames with ⟨hbody, hcondition⟩
      exact (Check.count_mirrors naming Metrics.countLoop_eq).bind fun _ =>
        (body.check_mirrors hbody).bind fun _ =>
          Check.condition_mirrors naming condition hcondition

theorem Block.check_mirrors (block : Block) (hnames : ∀ name ∈ block.names, name ∈ naming.names) :
    naming.Checks base base' block.check (block.rename naming.newName).check := by
  match block with
  | .mk body _ =>
      exact Check.inBlock_mirrors naming (Stmt.checkAll_mirrors body hnames)
        (Stmt.checkAll_frames _) (Stmt.checkAll_frames _)

private theorem Stmt.checkAll_mirrors (stmts : List Stmt)
    (hnames : ∀ name ∈ Stmt.namesAll stmts, name ∈ naming.names) :
    naming.Checks base base' (Stmt.checkAll stmts)
      (Stmt.checkAll (Stmt.renameAll naming.newName stmts)) := by
  match stmts with
  | [] => exact .pure _
  | stmt :: stmts =>
      rcases List.forall_mem_append.mp hnames with ⟨hstmt, hstmts⟩
      exact (stmt.check_mirrors hstmt).bind fun _ => Stmt.checkAll_mirrors stmts hstmts

end

end

/-! ## Programs -/

/-- A program whose variables are renamed, and kept apart, has the same metrics, or the same
fault at the same position with the new name of its variable. -/
theorem Block.metrics_rename {newName : String → String} (hapart : Function.Injective newName)
    (program : Block) :
    (program.rename newName).metrics =
      program.metrics.mapError (Diagnostic.rename newName) := by
  rcases program with ⟨body, span⟩
  let naming : Renaming := ⟨newName, Set.univ, hapart.injOn⟩
  have hnew : naming.Checkers 0 0 .new .new := ⟨fun _ _ => rfl, Metrics.abreast_self 0 0⟩
  have hends := Stmt.checkAll_mirrors naming body (fun _ _ => trivial) _ _ hnew
  simp only [Block.metrics, Block.rename, Block.body]
  generalize Stmt.checkAll (Stmt.renameAll newName body) .new = second at hends ⊢
  generalize Stmt.checkAll body .new = first at hends ⊢
  cases hends with
  | ok h =>
      -- Both counts started at zero, so what was added to them is all there is.
      rcases h.metrics with ⟨added, hmetrics, hmetrics'⟩
      simp [Except.mapError, hmetrics, hmetrics']
  | error h => rfl

/-- Two variables that change places are told apart as before. -/
theorem Block.metrics_rename_swap :
    let program : Block := .mk
      [.declare ⟨"x", .null⟩ "int" none .null,
        .loop ⟨some (.bool true .null), .null⟩
          (.mk [.declare ⟨"y", .null⟩ "int" (some (.read ⟨"x", .null⟩)) .null] .null) .null,
        .assign ⟨"x", .null⟩ (.read ⟨"y", .null⟩) .null] .null
    Function.Injective (Equiv.swap "x" "y") ∧
      program.metrics = .error ⟨.undeclaredVariable "y", .null⟩ ∧
      (program.rename (Equiv.swap "x" "y")).metrics =
        .error ⟨.undeclaredVariable "x", .null⟩ := by
  intro program
  have hswap : Function.Injective (Equiv.swap "x" "y") := (Equiv.swap "x" "y").injective
  have hprogram : program.metrics = .error ⟨.undeclaredVariable "y", .null⟩ := rfl
  refine ⟨hswap, hprogram, ?_⟩
  rw [Block.metrics_rename hswap, hprogram]
  simp [Except.mapError, Diagnostic.rename, Cause.rename]

end Assay
