import Mathlib.Data.List.Chain
import Assay.Proofs.Typing.Frame

/-!
# The stack of scopes

A checker can be driven by hand: blocks are entered and left, names are bound, and trees of
any shape are checked, whether or not they pass.  Through all of it the scopes on the stack
stay nested in one another, and leaving a block gives back the scope that was current when
the block was entered.
-/

namespace Assay.Checker

def run (checker : Checker) (actions : List Action) : Checker :=
  actions.foldl (fun checker action => (checker.perform action).2) checker

@[simp] theorem run_nil (checker : Checker) : checker.run [] = checker := rfl

@[simp] theorem run_cons (checker : Checker) (action : Action) (actions : List Action) :
    checker.run (action :: actions) = (checker.perform action).2.run actions := rfl

@[simp] theorem run_append (checker : Checker) (first second : List Action) :
    checker.run (first ++ second) = (checker.run first).run second := by
  simp [run]

/-! ## Single steps -/

def Action.Inside (action : Action) : Prop := action ≠ .enter ∧ action ≠ .leave

@[simp] theorem perform_enter (checker : Checker) :
    (checker.perform .enter).2 = checker.enter := rfl

@[simp] theorem perform_leave (checker : Checker) :
    (checker.perform .leave).2 = checker.leave := rfl

private theorem Action.step_frames {action : Action} (h : action.Inside) :
    Check.Frames Scope.Grown action.step := by
  cases action with
  | enter => exact absurd rfl h.1
  | leave => exact absurd rfl h.2
  | declare name ty position =>
      exact (Check.bindName_frames name ty position).bind fun _ => .pure _
  | expression expr => exact (Check.infer_frames expr).grown.bind fun _ => .pure _
  | condition tree => exact (Check.condition_frames tree).grown.bind fun _ => .pure _
  | statements stmts => exact (Stmt.checkAll_frames stmts).bind fun _ => .pure _
  | block tree => exact tree.check_frames.grown.bind fun _ => .pure _

private theorem perform_inside (checker : Checker) {action : Action} (h : action.Inside) :
    (checker.perform action).2.scope.Extends checker.scope ∧
      (checker.perform action).2.enclosing = checker.enclosing := by
  have hframes := Action.step_frames h checker
  unfold perform
  cases hstep : action.step checker with
  | ok answer after => exact hframes.of_ok hstep
  | error diagnostic after => exact hframes.of_error hstep

/-! ## Nesting -/

/-- Each scope contains all bindings of the scope around it. -/
def Nested (checker : Checker) : Prop :=
  (checker.scope :: checker.enclosing).IsChain Scope.Extends

private theorem nested_new : Nested new := List.isChain_singleton _

theorem Nested.enter {checker : Checker} (h : checker.Nested) : checker.enter.Nested :=
  List.isChain_cons_cons.mpr ⟨fun _ _ hty => hty, h⟩

theorem Nested.leave {checker : Checker} (h : checker.Nested) : checker.leave.Nested := by
  unfold Checker.leave
  split
  · exact h
  · next outer others henclosing =>
      rw [Nested, henclosing] at h
      exact (List.isChain_cons_cons.mp h).2

theorem Nested.inside {checker : Checker} (h : checker.Nested) {action : Action}
    (haction : action.Inside) : (checker.perform action).2.Nested := by
  rcases perform_inside checker haction with ⟨hscope, henclosing⟩
  rw [Nested, henclosing]
  rw [Nested] at h
  cases hstack : checker.enclosing with
  | nil => exact List.isChain_singleton _
  | cons outer others =>
      rw [hstack, List.isChain_cons_cons] at h
      refine List.isChain_cons_cons.mpr ⟨?_, h.2⟩
      intro name ty hty
      exact hscope name ty (h.1 name ty hty)

theorem Nested.perform {checker : Checker} (h : checker.Nested) (action : Action) :
    (checker.perform action).2.Nested := by
  by_cases henter : action = .enter
  · subst henter
    exact h.enter
  by_cases hleave : action = .leave
  · subst hleave
    exact h.leave
  · exact h.inside ⟨henter, hleave⟩

theorem Nested.run {checker : Checker} (h : checker.Nested) (actions : List Action) :
    (checker.run actions).Nested := by
  induction actions generalizing checker with
  | nil => exact h
  | cons action actions ih => exact ih (h.perform action)

/-! ## Blocks that are entered and left -/

/-- Every block that is entered is left, and no other. -/
inductive Balanced : List Action → Prop where
  | nil : Balanced []
  | inside {action : Action} {actions : List Action} (haction : action.Inside)
      (hactions : Balanced actions) : Balanced (action :: actions)
  | block {inner outer : List Action} (hinner : Balanced inner) (houter : Balanced outer) :
      Balanced (.enter :: (inner ++ .leave :: outer))

theorem Balanced.append {first second : List Action} (hfirst : Balanced first)
    (hsecond : Balanced second) : Balanced (first ++ second) := by
  induction hfirst with
  | nil => exact hsecond
  | inside haction _ ih => exact .inside haction ih
  | block hinner _ _ ih =>
      rw [List.cons_append, List.append_assoc, List.cons_append]
      exact .block hinner ih

private theorem leave_of_enclosing {checker inner : Checker}
    (h : inner.enclosing = checker.scope :: checker.enclosing) :
    inner.leave.scope = checker.scope ∧ inner.leave.enclosing = checker.enclosing := by
  simp [leave, h]

theorem Balanced.enclosing_run {actions : List Action} (h : Balanced actions)
    (checker : Checker) : (checker.run actions).enclosing = checker.enclosing := by
  induction h generalizing checker with
  | nil => rfl
  | inside haction _ ih =>
      rw [run_cons, ih]
      exact (perform_inside checker haction).2
  | block _ _ ihinner ihouter =>
      rw [run_cons, run_append, run_cons, ihouter, perform_enter, perform_leave]
      exact (leave_of_enclosing (ihinner checker.enter)).2

/-- Leaving a block restores what was current when it was entered. -/
theorem Balanced.leave_run {between : List Action} (h : Balanced between) (checker : Checker) :
    ((checker.enter.run between).leave).scope = checker.scope ∧
      ((checker.enter.run between).leave).enclosing = checker.enclosing :=
  leave_of_enclosing (h.enclosing_run checker.enter)

private theorem exists_balanced {actions : List Action} {depth : Nat}
    (h : (new.run actions).depth = depth + 1) :
    ∃ before between, actions = before ++ .enter :: between ∧ Balanced between ∧
      (new.run before).depth = depth := by
  induction hlength : actions.length using Nat.strong_induction_on generalizing actions depth with
  | _ length ih =>
      rcases List.eq_nil_or_concat actions with rfl | ⟨past, action, rfl⟩
      · simp [new, Checker.depth] at h
      rw [List.concat_eq_append] at h hlength ⊢
      rw [List.length_append, List.length_singleton] at hlength
      rw [run_append, run_cons, run_nil] at h
      by_cases henter : action = .enter
      · subst henter
        rw [perform_enter, depth_enter] at h
        exact ⟨past, [], rfl, .nil, by omega⟩
      by_cases hleave : action = .leave
      · subst hleave
        -- The block that is left here lies inside of another one.
        have hpast : (new.run past).depth = depth + 1 + 1 := by
          rw [perform_leave] at h
          cases hstack : (new.run past).enclosing <;> simp_all [Checker.depth, Checker.leave]
        rcases ih past.length (by omega) hpast rfl with ⟨before, inner, rfl, hinner, hbefore⟩
        rw [List.length_append, List.length_cons] at hlength
        rcases ih before.length (by omega) hbefore rfl with ⟨first, between, rfl, hbetween, hfirst⟩
        refine ⟨first, between ++ .enter :: (inner ++ .leave :: []), by simp, ?_, hfirst⟩
        exact hbetween.append (.block hinner .nil)
      · have hinside : action.Inside := ⟨henter, hleave⟩
        have hpast : (new.run past).depth = depth + 1 := by
          rw [← h, Checker.depth, Checker.depth, (perform_inside _ hinside).2]
        rcases ih past.length (by omega) hpast rfl with ⟨before, between, rfl, hbetween, hbefore⟩
        refine ⟨before, between ++ [action], by simp, ?_, hbefore⟩
        exact hbetween.append (.inside hinside .nil)

/-- After any steps the scopes are nested.  If a block is left now, the scopes are again what
they were when it was entered; and if there is none, nothing changes. -/
theorem scopes_of_run (actions : List Action) :
    (new.run actions).Nested ∧
      (∀ before between, actions = before ++ .enter :: between → Balanced between →
        (new.run (actions ++ [.leave])).scope = (new.run before).scope ∧
          (new.run (actions ++ [.leave])).enclosing = (new.run before).enclosing) ∧
      ((∀ before between, actions = before ++ .enter :: between → ¬ Balanced between) →
        (new.run actions).depth = 0 ∧ new.run (actions ++ [.leave]) = new.run actions) := by
  refine ⟨nested_new.run actions, ?_, ?_⟩
  · rintro before between rfl hbetween
    simpa using hbetween.leave_run (new.run before)
  · intro hunmatched
    have hdepth : (new.run actions).depth = 0 := by
      by_contra hne
      rcases Nat.exists_eq_succ_of_ne_zero hne with ⟨depth, hdepth⟩
      rcases exists_balanced hdepth with ⟨before, between, hactions, hbetween, -⟩
      exact hunmatched before between hactions hbetween
    refine ⟨hdepth, ?_⟩
    have hstack : (new.run actions).enclosing = [] := List.length_eq_zero_iff.mp hdepth
    simp [leave, hstack]

end Assay.Checker
