import Mathlib.Data.List.Forall2
import Assay.Proofs.Typing.Locality

/-!
# Operands without a type

An expression that yields no value has no type, and as an operand it is refused: it is no
number, no truth value, and no value of the type that another operand has.  Equality alone
compares types with each other and with nothing else; it accepts operands none of which has
one.
-/

namespace Assay

/-! ## Types that are found one after the other -/

namespace Agreement

def admitsEach (rule : Agreement) : Option (Option Ty) → List (Option Ty) → Bool
  | _, [] => true
  | previous, ty? :: types => rule.admits previous ty? && rule.admitsEach (some ty?) types

private theorem numericType_of_arithmetic {previous : Option (Option Ty)} {types : List (Option Ty)}
    (h : arithmetic.admitsEach previous types) : ∀ ty? ∈ types, numericType ty? := by
  induction types generalizing previous with
  | nil => simp
  | cons ty? types ih =>
      simp only [admitsEach, admits, Bool.and_eq_true] at h
      exact List.forall_mem_cons.mpr ⟨h.1.1, ih h.2⟩

private theorem eq_bool_of_logical {previous : Option (Option Ty)} {types : List (Option Ty)}
    (h : logical.admitsEach previous types) : ∀ ty? ∈ types, ty? = some .bool := by
  induction types generalizing previous with
  | nil => simp
  | cons ty? types ih =>
      simp only [admitsEach, admits, sameType, Bool.and_eq_true, decide_eq_true_eq] at h
      exact List.forall_mem_cons.mpr ⟨h.1, ih h.2⟩

private theorem numericType_of_ordered {first : Option Ty} {types : List (Option Ty)}
    (hne : types ≠ [])
    (h : ordered.admitsEach (some first) types) : ∀ ty? ∈ first :: types, numericType ty? := by
  induction types generalizing first with
  | nil => exact absurd rfl hne
  | cons second types ih =>
      simp only [admitsEach, admits, Option.all_some, Bool.and_eq_true] at h
      rcases h with ⟨⟨hfirst, hsecond⟩, htypes⟩
      refine List.forall_mem_cons.mpr ⟨hfirst, ?_⟩
      cases types with
      | nil => simpa using hsecond
      | cons third types => exact ih (List.cons_ne_nil _ _) htypes

private theorem admitsEach_alike {first : Option Ty} {types : List (Option Ty)} :
    alike.admitsEach (some first) types ↔ ∀ ty? ∈ types, ty? = first := by
  induction types generalizing first with
  | nil => simp [admitsEach]
  | cons second types ih =>
      simp only [admitsEach, admits, sameType, Option.all_some, Bool.and_eq_true,
        decide_eq_true_eq, ih, List.forall_mem_cons]
      constructor
      · rintro ⟨rfl, h⟩
        exact ⟨rfl, h⟩
      · rintro ⟨rfl, h⟩
        exact ⟨rfl, h⟩

private theorem admitsEach_of_none_mem {rule : Agreement} {types : List (Option Ty)}
    (hlength : 2 ≤ types.length) (hnone : none ∈ types) :
    rule.admitsEach none types ↔ rule = .alike ∧ ∀ ty? ∈ types, ty? = none := by
  match types, hlength with
  | first :: second :: types, _ =>
      cases rule with
      | arithmetic =>
          refine iff_of_false (fun h => ?_) nofun
          exact absurd (numericType_of_arithmetic h none hnone) (by decide)
      | logical =>
          refine iff_of_false (fun h => ?_) nofun
          exact absurd (eq_bool_of_logical h none hnone) (by decide)
      | ordered =>
          refine iff_of_false (fun h => ?_) nofun
          have hnumeric := numericType_of_ordered (List.cons_ne_nil second types) h
          exact absurd (hnumeric none hnone) (by decide)
      | alike =>
          change alike.admitsEach (some first) (second :: types) ↔ _
          rw [admitsEach_alike]
          constructor
          · intro h
            -- The operand without a type is the first one, or alike to it.
            have hfirst : first = none := by
              rcases List.mem_cons.mp hnone with hfirst | hother
              · exact hfirst.symm
              · exact (h none hother).symm
            subst hfirst
            exact ⟨rfl, List.forall_mem_cons.mpr ⟨rfl, h⟩⟩
          · rintro ⟨-, h⟩
            rcases List.forall_mem_cons.mp h with ⟨rfl, hothers⟩
            exact hothers

private theorem ofComparator_eq_alike {operator : Comparator} :
    ofComparator operator = .alike ↔ !operator.isOrdering := by
  cases operator <;> decide

end Agreement

/-! ## Inference of operands -/

/-- Inference finds this type, whatever has been counted before. -/
def Expr.Yields (scope : Scope) (expr : Expr) (ty? : Option Ty) : Prop :=
  ∀ metrics, ∃ after, expr.infer scope metrics = .ok ty? after

private theorem Expr.yields_of_infer {scope : Scope} {expr : Expr} {ty? : Option Ty}
    {metrics after : Metrics} (h : expr.infer scope metrics = .ok ty? after) :
    expr.Yields scope ty? := by
  intro others
  have hscopes : (Renaming.same expr.names).Scopes scope scope := fun _ _ => rfl
  have hends := expr.infer_mirrors (Renaming.same expr.names) hscopes (fun _ hname => hname)
    metrics others (Metrics.abreast_self metrics others)
  have hsame : expr.rename (Renaming.same expr.names).newName = expr := expr.rename_id
  rw [hsame, h] at hends
  generalize expr.infer scope others = result at hends ⊢
  cases hends with
  | ok => exact ⟨_, rfl⟩

private theorem Expr.inferOperands_of_yields {scope : Scope} {operands : List Expr}
    {types : List (Option Ty)} (h : List.Forall₂ (Expr.Yields scope) operands types)
    (rule : Agreement) (previous : Option (Option Ty)) (metrics : Metrics) :
    Ensures (Expr.inferOperands scope rule previous operands) metrics
      (fun _ _ => rule.admitsEach previous types)
      fun diagnostic _ => ¬ rule.admitsEach previous types ∧
        ∃ operand ∈ operands, diagnostic = ⟨.invalidExpressionType, operand.span.start⟩ := by
  induction h generalizing previous metrics with
  | nil => exact .pure rfl
  | @cons operand ty? operands types hoperand _ ih =>
      rcases hoperand metrics with ⟨after, hafter⟩
      refine .of_eq (bind_of_ok hafter) ?_
      by_cases hadmits : rule.admits previous ty?
      · simp only [hadmits, if_true]
        refine (ih (some ty?) after).mono ?_ ?_
        · intro _ _ hothers
          simp [Agreement.admitsEach, hadmits, hothers]
        · rintro diagnostic _ ⟨hothers, other, hother, hdiagnostic⟩
          exact ⟨by simp [Agreement.admitsEach, hothers], other, List.mem_cons_of_mem _ hother,
            hdiagnostic⟩
      · simp only [hadmits]
        exact .throw ⟨by simp [Agreement.admitsEach, hadmits], operand, List.mem_cons_self, rfl⟩

/-! ## Nodes with operands -/

/-- The node applies an operator to operands, of which a chain or a comparison has at least
two. -/
inductive Expr.Operation : Expr → List Expr → Prop where
  | unary {operator : UnaryOperator} {operand : Expr} {span : Span} :
      Operation (.unary operator operand span) [operand]
  | chain {family : Family} {operands : List Expr} {operators : List (Operator family)}
      {span : Span} (hlength : 2 ≤ operands.length) :
      Operation (.chain family operands operators span) operands
  | comparison {operator : Comparator} {operands : List Expr} {span : Span}
      (hlength : 2 ≤ operands.length) :
      Operation (.comparison operator operands span) operands

def Expr.isEquality : Expr → Bool
  | .comparison operator _ _ => !operator.isOrdering
  | _ => false

section

variable {scope : Scope} {node : Expr} {operands : List Expr} {types : List (Option Ty)}

private theorem Expr.inferOperands_of_none_mem
    (htypes : List.Forall₂ (Expr.Yields scope) operands types)
    (hlength : 2 ≤ operands.length) (hnone : none ∈ types) (rule : Agreement) (metrics : Metrics) :
    Ensures (Expr.inferOperands scope rule none operands) metrics
      (fun _ _ => rule = .alike ∧ ∀ ty? ∈ types, ty? = none)
      fun diagnostic _ => ¬ (rule = .alike ∧ ∀ ty? ∈ types, ty? = none) ∧
        ∃ operand ∈ operands, diagnostic = ⟨.invalidExpressionType, operand.span.start⟩ := by
  have hadmits : rule.admitsEach none types ↔ rule = .alike ∧ ∀ ty? ∈ types, ty? = none :=
    Agreement.admitsEach_of_none_mem (htypes.length_eq ▸ hlength) hnone
  simpa only [hadmits] using Expr.inferOperands_of_yields htypes rule none metrics

/-- An operator refuses an operand without a type, unless it asks for equality and there is no
type to be equal to. -/
theorem Expr.Operation.infer_of_none_mem (hnode : node.Operation operands)
    (htypes : List.Forall₂ (Expr.Yields scope) operands types) (hnone : none ∈ types)
    (metrics : Metrics) :
    Ensures (node.infer scope) metrics
      (fun ty? _ => ty? = some .bool ∧ node.isEquality ∧ ∀ ty? ∈ types, ty? = none)
      fun diagnostic _ => ¬ (node.isEquality ∧ ∀ ty? ∈ types, ty? = none) ∧
        ∃ operand ∈ operands, diagnostic = ⟨.invalidExpressionType, operand.span.start⟩ := by
  cases hnode with
  | @unary operator operand span =>
      rcases htypes with - | ⟨hoperand, ⟨⟩⟩
      cases List.mem_singleton.mp hnone
      rcases hoperand (metrics.countOperators 1) with ⟨after, hafter⟩
      have hinfer : (Expr.unary operator operand span).infer scope metrics =
          Infer.invalidExpression operand after := by
        cases operator <;> exact bind_of_ok hafter
      exact .of_eq hinfer (.throw ⟨by simp [Expr.isEquality], operand, List.mem_cons_self, rfl⟩)
  | @chain family operands operators span hlength =>
      match operands, hlength with
      | first :: second :: others, hlength =>
          have hfails (rule : Agreement) (hrule : rule ≠ .alike) (counted : Metrics) :
              Ensures (Expr.inferOperands scope rule none (first :: second :: others)) counted
                (fun _ _ => False) fun diagnostic _ => ∃ operand ∈ first :: second :: others,
                  diagnostic = ⟨.invalidExpressionType, operand.span.start⟩ :=
            (Expr.inferOperands_of_none_mem htypes hlength hnone rule counted).mono
              (fun _ _ haccepts => hrule haccepts.1) fun _ _ hrefuses => hrefuses.2
          cases family with
          | logical =>
              refine .bind (.bind ((hfails .logical (by decide) _).mono nofun ?_))
              exact fun _ _ hrefuses => ⟨by simp [Expr.isEquality], hrefuses⟩
          | additive | multiplicative =>
              refine .bind ((hfails .arithmetic (by decide) _).mono nofun ?_)
              exact fun _ _ hrefuses => ⟨by simp [Expr.isEquality], hrefuses⟩
  | @comparison operator operands span hlength =>
      match operands, hlength with
      | first :: second :: others, hlength =>
          have hrule : Agreement.ofComparator operator = .alike ↔
              (Expr.comparison operator (first :: second :: others) span).isEquality :=
            Agreement.ofComparator_eq_alike
          have hoperands := Expr.inferOperands_of_none_mem htypes hlength hnone
            (.ofComparator operator)
          simp only [hrule] at hoperands
          refine .bind (.bind ((hoperands _).mono ?_ fun _ _ hrefuses => hrefuses))
          exact fun _ _ haccepts => .pure ⟨rfl, haccepts⟩

end

namespace Checker

def Finds (checker : Checker) (expr : Expr) (ty? : Option Ty) : Prop :=
  ∃ after, Check.infer expr checker = .ok ty? after

theorem Finds.yields {checker : Checker} {expr : Expr} {ty? : Option Ty}
    (h : checker.Finds expr ty?) : expr.Yields checker.scope ty? := by
  rcases h with ⟨after, hinfer⟩
  unfold Check.infer at hinfer
  split at hinfer
  · next found metrics hfound =>
      cases hinfer
      exact Expr.yields_of_infer hfound
  · cases hinfer

/-- An operator fails on an operand that yields no value, at one of its operands.  The one
exception is an equality between operands that all yield none, which is accepted. -/
theorem infer_of_absent_operand (checker : Checker) {node : Expr} {operands : List Expr}
    (hnode : node.Operation operands) {types : List (Option Ty)}
    (htypes : List.Forall₂ checker.Finds operands types) (hnone : none ∈ types) :
    if node.isEquality ∧ ∀ ty? ∈ types, ty? = none then
      ∃ after, Check.infer node checker = .ok (some .bool) after
    else
      ∃ operand ∈ operands, ∃ after, Check.infer node checker =
        .error ⟨.invalidExpressionType, operand.span.start⟩ after := by
  have hyields : List.Forall₂ (Expr.Yields checker.scope) operands types :=
    htypes.imp fun _ _ => Finds.yields
  have hnode := hnode.infer_of_none_mem hyields hnone checker.metrics
  unfold Check.infer
  cases hinfer : node.infer checker.scope checker.metrics with
  | ok ty? metrics =>
      rcases hnode.of_ok hinfer with ⟨rfl, hequality⟩
      rw [if_pos hequality]
      exact ⟨_, rfl⟩
  | error diagnostic metrics =>
      rcases hnode.of_error hinfer with ⟨hother, operand, hoperand, rfl⟩
      rw [if_neg hother]
      exact ⟨operand, hoperand, _, rfl⟩

/-- Two operands that pass on that they yield nothing differ from a number, but not from each
other. -/
theorem infer_of_absent_operand_inequality :
    let hole : Expr := .ternary [.hole .null] .null
    let name : Expr := .chain .additive [.identifier ⟨"x", .null⟩] [] .null
    let number : Expr := .integer 1 ⟨⟨7, "demo"⟩, ⟨8, "demo"⟩⟩
    (Expr.comparison .notEquals [hole, name, number] .null).Operation [hole, name, number] ∧
      List.Forall₂ new.Finds [hole, name, number] [none, none, some .int] ∧
      (∃ operand ∈ [hole, name, number], ∃ after,
        Check.infer (.comparison .notEquals [hole, name, number] .null) new =
          .error ⟨.invalidExpressionType, operand.span.start⟩ after) ∧
      ∃ after, Check.infer (.comparison .notEquals [hole, name] .null) new =
        .ok (some .bool) after := by
  intro hole name number
  have hhole : new.Finds hole none := ⟨_, rfl⟩
  have hname : new.Finds name none := ⟨_, rfl⟩
  have hnumber : new.Finds number (some .int) := ⟨_, rfl⟩
  have hthree : (Expr.comparison .notEquals [hole, name, number] .null).Operation
      [hole, name, number] := .comparison (by decide)
  have htwo : (Expr.comparison .notEquals [hole, name] .null).Operation [hole, name] :=
    .comparison (by decide)
  have htypes := List.Forall₂.cons hhole (.cons hname (.cons hnumber .nil))
  exact ⟨hthree, htypes, infer_of_absent_operand new hthree htypes List.mem_cons_self,
    infer_of_absent_operand new htwo (.cons hhole (.cons hname .nil)) List.mem_cons_self⟩

/-- It is not the case that every operator fails on an operand that yields no value: two holes
are equal. -/
theorem not_infer_fails_of_absent_operand :
    ¬ ∀ (checker : Checker) (node : Expr) (operands : List Expr) (types : List (Option Ty)),
      node.Operation operands →
      List.Forall₂ checker.Finds operands types → none ∈ types →
      ∃ position after, Check.infer node checker =
        .error ⟨.invalidExpressionType, position⟩ after := by
  intro hfails
  have hhole : new.Finds (.hole .null) none := ⟨_, rfl⟩
  rcases hfails new (.comparison .equals [.hole .null, .hole .null] .null)
    [.hole .null, .hole .null] [none, none] (.comparison (by decide))
    (.cons hhole (.cons hhole .nil)) List.mem_cons_self with ⟨position, after, hinfer⟩
  cases hinfer

end Checker

end Assay
