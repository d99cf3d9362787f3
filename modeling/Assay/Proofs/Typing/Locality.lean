import Assay.Proofs.Typing.Renaming

/-!
# Checking is local

What comes of a tree in a checker depends on nothing but the types of the variables in the
tree.  Two checkers whose scopes agree on those come to the same result and count the same,
whatever else they bind, whatever scopes lie around theirs and whatever they have counted.
-/

namespace Assay

def Check.outcome {α : Type} (step : Check α) (checker : Checker) :
    Except Diagnostic α × Checker :=
  match step checker with
  | .ok result after => (.ok result, after)
  | .error diagnostic after => (.error diagnostic, after)

/-- Taken in either checker, the step has the same result and counts the same.  The scopes
agree on the given names afterwards, and bind all others as they did. -/
structure Check.Local {α : Type} (step : Check α) (names : List String) (left right : Checker) :
    Prop where
  result : (step.outcome left).1 = (step.outcome right).1
  counts : ∃ added, (step.outcome left).2.metrics = left.metrics + added ∧
    (step.outcome right).2.metrics = right.metrics + added
  agree : ∀ name ∈ names,
    (step.outcome left).2.scope.get? name = (step.outcome right).2.scope.get? name
  left_others : ∀ name ∉ names, (step.outcome left).2.scope.get? name = left.scope.get? name
  right_others : ∀ name ∉ names, (step.outcome right).2.scope.get? name = right.scope.get? name

def Renaming.same (names : List String) : Renaming where
  newName := id
  names := {name | name ∈ names}
  apart := Set.injOn_id _

theorem Stmt.Effect.get?_of_not_mem {stmt : Stmt} {before after : Scope}
    (h : stmt.Effect before after) {name : String} (hname : name ∉ stmt.names) :
    after.get? name = before.get? name := by
  cases stmt with
  | declare identifier typeName value? span =>
      have hother : name ≠ identifier.name := by
        rintro rfl
        cases value? <;> simp [Stmt.names] at hname
      rcases h with rfl | ⟨ty, fresh, -, rfl⟩
      · rfl
      · simp [Scope.get?_insert, hother]
  | assign | branch | loop | doLoop => rw [show before = after from h]

private theorem Check.frames_outcome {α : Type} {relation : Scope → Scope → Prop} {step : Check α}
    (h : Frames relation step) (checker : Checker) :
    relation checker.scope (step.outcome checker).2.scope := by
  unfold outcome
  cases hstep : step checker with
  | ok result after => exact ((h checker).of_ok hstep).1
  | error diagnostic after => exact ((h checker).of_error hstep).1

private theorem Check.local_of_mirrors {α : Type} {step : Check α} {names : List String}
    {left right : Checker} {relation : Scope → Scope → Prop} (hframes : Frames relation step)
    (hothers : ∀ before after, relation before after →
      ∀ name ∉ names, after.get? name = before.get? name)
    (hmirrors : (Renaming.same names).Checks left.metrics right.metrics step step)
    (hagree : ∀ name ∈ names, left.scope.get? name = right.scope.get? name) :
    step.Local names left right := by
  have hends := hmirrors left right
    ⟨fun name hname => (hagree name hname).symm, Metrics.abreast_self _ _⟩
  have hsame : (step.outcome left).1 = (step.outcome right).1 ∧
      (Renaming.same names).Checkers left.metrics right.metrics (step.outcome left).2
        (step.outcome right).2 := by
    unfold outcome
    generalize step left = first at hends ⊢
    generalize step right = second at hends ⊢
    cases hends with
    | ok h => exact ⟨rfl, h⟩
    | error h =>
        -- The second fault is the first one renamed, which is the first one itself.
        exact ⟨congrArg Except.error (Diagnostic.rename_id _).symm, h⟩
  rcases hsame with ⟨hresult, hcheckers⟩
  exact {
    result := hresult
    counts := hcheckers.metrics
    agree := fun name hname => (hcheckers.scope name hname).symm
    left_others := hothers _ _ (frames_outcome hframes left)
    right_others := hothers _ _ (frames_outcome hframes right) }

/-- Checkers that agree on the variables of a tree come to the same in checking it. -/
theorem Checker.check_local (left right : Checker) :
    (∀ stmt : Stmt, (∀ name ∈ stmt.names, left.scope.get? name = right.scope.get? name) →
      stmt.check.Local stmt.names left right) ∧
    ∀ block : Block, (∀ name ∈ block.names, left.scope.get? name = right.scope.get? name) →
      block.check.Local block.names left right := by
  constructor
  · intro stmt hagree
    have hmirrors : (Renaming.same stmt.names).Checks left.metrics right.metrics stmt.check
        (stmt.rename id).check := stmt.check_mirrors _ fun _ hname => hname
    rw [stmt.rename_id] at hmirrors
    exact Check.local_of_mirrors stmt.check_frames
      (fun _ _ heffect _ hname => heffect.get?_of_not_mem hname) hmirrors hagree
  · intro block hagree
    have hmirrors : (Renaming.same block.names).Checks left.metrics right.metrics block.check
        (block.rename id).check := block.check_mirrors _ fun _ hname => hname
    rw [block.rename_id] at hmirrors
    exact Check.local_of_mirrors block.check_frames
      (fun _ _ hscope _ _ => by rw [hscope]) hmirrors hagree

/-- A block that reads one variable and declares another fails in the same way in a checker that
has more bindings, and more scopes around them, and has counted already. -/
theorem Checker.check_local_block :
    let left : Checker := ⟨Scope.empty.insert "x" .int rfl, [], .zero⟩
    let right : Checker :=
      ⟨left.scope.insert "z" .bool rfl, [left.scope, .empty], ⟨2, 7, 1, 8⟩⟩
    let block : Block := .mk
      [.declare ⟨"y", .null⟩ "int" (some (.read ⟨"x", .null⟩)) .null,
        .assign ⟨"x", .null⟩ (.unary .not (.read ⟨"y", .null⟩) .null) .null] .null
    (∀ name ∈ block.names, left.scope.get? name = right.scope.get? name) ∧
      (block.check.outcome right).1 = .error ⟨.invalidExpressionType, .null⟩ ∧
      (∃ added, Metrics.mk 1 0 0 1 = .zero + added ∧
        (block.check.outcome right).2.metrics = ⟨2, 7, 1, 8⟩ + added) ∧
      (block.check.outcome right).2.scope.get? "z" = some .bool := by
  intro left right block
  have hagree : ∀ name ∈ block.names, left.scope.get? name = right.scope.get? name := by
    decide
  have hlocal := (Checker.check_local left right).2 block hagree
  exact ⟨hagree, hlocal.result.symm, hlocal.counts, hlocal.right_others "z" (by decide)⟩

end Assay
