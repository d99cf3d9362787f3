import Mathlib.Data.List.Forall2
import Assay.Proofs.Effect
import Assay.Proofs.Tree.Shape
import Assay.Proofs.Typing.Judgement
import Assay.Typing.Checker

/-!
# The checker decides the typing rules

On formed trees, a step of the checker succeeds exactly when the rules apply, with the one
outcome they allow, and fails for a semantic cause otherwise.  Decisions are put together
like the steps that make them.
-/

namespace Assay

/-! ## Decisions -/

/-- A step decides a judgement on what is seen of its state before, its result, and what is
seen after: it finds the one outcome that is judged right, and fails for a semantic cause
if there is none. -/
def Decides {σ κ α : Type} (view : σ → κ) (step : EStateM Diagnostic σ α)
    (judged : κ → α → κ → Prop) : Prop :=
  ∀ start, Ensures step start
    (fun result stop => ∀ other after,
      judged (view start) other after ↔ other = result ∧ after = view stop)
    fun diagnostic _ => diagnostic.cause.isSemantic ∧
      ∀ other after, ¬ judged (view start) other after

namespace Decides

variable {σ κ α β : Type} {view : σ → κ} {step : EStateM Diagnostic σ α}
  {following : α → EStateM Diagnostic σ β} {judged judged' : κ → α → κ → Prop}
  {further : α → κ → β → κ → Prop}

theorem congr (h : Decides view step judged)
    (hjudged : ∀ before result after, judged before result after ↔ judged' before result after) :
    Decides view step judged' := by
  intro start
  simpa only [hjudged] using h start

theorem pure (result : α) :
    Decides view (Pure.pure result) fun before other after => other = result ∧ after = before :=
  fun _ => .pure fun _ _ => Iff.rfl

theorem throw {diagnostic : Diagnostic} (h : diagnostic.cause.isSemantic) :
    Decides view (MonadExcept.throw diagnostic : EStateM Diagnostic σ α) fun _ _ _ => False :=
  fun _ => .throw ⟨h, fun _ _ => id⟩

theorem bind (hstep : Decides view step judged)
    (hfollowing : ∀ first, (∃ before middle, judged before first middle) →
      Decides view (following first) (further first)) :
    Decides view (step >>= following) fun before result after =>
      ∃ first middle, judged before first middle ∧ further first middle result after := by
  intro start
  refine .bind ((hstep start).mono ?_ ?_)
  · intro first middle hfirst
    have hjudged : judged (view start) first (view middle) := (hfirst _ _).mpr ⟨rfl, rfl⟩
    refine (hfollowing first ⟨_, _, hjudged⟩ middle).mono ?_ ?_
    · intro result stop hresult other after
      rw [← hresult]
      constructor
      · rintro ⟨first', middle', hfirst', hother⟩
        obtain ⟨rfl, rfl⟩ := (hfirst _ _).mp hfirst'
        exact hother
      · exact fun hother => ⟨first, view middle, hjudged, hother⟩
    · rintro diagnostic stop ⟨hsemantic, hnone⟩
      refine ⟨hsemantic, ?_⟩
      rintro other after ⟨first', middle', hfirst', hother⟩
      obtain ⟨rfl, rfl⟩ := (hfirst _ _).mp hfirst'
      exact hnone _ _ hother
  · rintro diagnostic stop ⟨hsemantic, hnone⟩
    refine ⟨hsemantic, ?_⟩
    rintro other after ⟨first, middle, hfirst, -⟩
    exact hnone _ _ hfirst

theorem guard {condition : Prop} [Decidable condition] {diagnostic : Diagnostic}
    (h : condition → Decides view step judged) (hsemantic : diagnostic.cause.isSemantic) :
    Decides view (if condition then step else MonadExcept.throw diagnostic)
      fun before result after => condition ∧ judged before result after := by
  by_cases hcondition : condition
  · simpa only [hcondition, if_true, true_and] using h hcondition
  · simpa only [hcondition, if_false, false_and] using throw hsemantic

end Decides

/-! ## Operands -/

namespace Agreement

def admitsAll (rule : Agreement) : Option Ty → List Ty → Prop
  | _, [] => True
  | previous, ty :: types => rule.admits (previous.map some) (some ty) ∧ rule.admitsAll ty types

private theorem admitsAll_alike {previous : Ty} {types : List Ty} :
    alike.admitsAll previous types ↔ ∀ ty ∈ types, ty = previous := by
  induction types generalizing previous with
  | nil => simp [admitsAll]
  | cons ty types ih =>
      simp only [admitsAll, ih, admits, sameType, Option.map_some, Option.all_some,
        Option.some.injEq, decide_eq_true_eq, List.forall_mem_cons]
      constructor
      · rintro ⟨rfl, h⟩
        exact ⟨rfl, h⟩
      · rintro ⟨rfl, h⟩
        exact ⟨rfl, h⟩

private theorem admitsAll_alike_none {types : List Ty} :
    alike.admitsAll none types ↔ ∃ ty, ∀ other ∈ types, other = ty := by
  cases types with
  | nil => exact ⟨fun _ => ⟨.int, nofun⟩, fun _ => trivial⟩
  | cons ty types =>
      simp only [admitsAll, admitsAll_alike, admits, Option.map_none, Option.all_none, true_and,
        List.forall_mem_cons]
      constructor
      · exact fun h => ⟨ty, rfl, h⟩
      · rintro ⟨_, rfl, h⟩
        exact h

private theorem admitsAll_arithmetic {previous : Option Ty} {types : List Ty} :
    arithmetic.admitsAll previous types ↔
      alike.admitsAll previous types ∧ ∀ ty ∈ types, ty.isNumeric := by
  induction types generalizing previous with
  | nil => simp [admitsAll]
  | cons ty types ih =>
      simp only [admitsAll, ih, admits, numericType, Option.any_some, Bool.and_eq_true,
        List.forall_mem_cons]
      tauto

private theorem admitsAll_logical {previous : Option Ty} {types : List Ty} :
    logical.admitsAll previous types ↔ ∀ ty ∈ types, ty = .bool := by
  induction types generalizing previous with
  | nil => simp [admitsAll]
  | cons ty types ih => simp [admitsAll, ih, admits, sameType]

private theorem admitsAll_ordered {previous : Ty} {types : List Ty} (h : types ≠ []) :
    ordered.admitsAll previous types ↔ ∀ ty ∈ previous :: types, ty.isNumeric := by
  induction types generalizing previous with
  | nil => exact absurd rfl h
  | cons ty types ih =>
      simp only [admitsAll, admits, numericType, Option.map_some, Option.all_some,
        Option.any_some, Bool.and_eq_true, List.forall_mem_cons]
      cases types with
      | nil => simp [admitsAll]
      | cons next types =>
          rw [ih (List.cons_ne_nil _ _)]
          simp only [List.forall_mem_cons]
          tauto

end Agreement

section

variable {context : Context} {operands : List Expr}

private theorem exists_types_iff (condition : Ty → Prop) :
    (∃ types, List.Forall₂ (HasType context) operands types ∧ ∀ ty ∈ types, condition ty) ↔
      ∀ operand ∈ operands, ∃ ty, HasType context operand ty ∧ condition ty := by
  induction operands with
  | nil => simp
  | cons operand operands ih =>
      rw [List.forall_mem_cons, ← ih]
      constructor
      · rintro ⟨_, htypes, hcondition⟩
        cases htypes with
        | cons hoperand hoperands =>
            obtain ⟨hfirst, hothers⟩ := List.forall_mem_cons.mp hcondition
            exact ⟨⟨_, hoperand, hfirst⟩, _, hoperands, hothers⟩
      · rintro ⟨⟨ty, hoperand, hfirst⟩, types, hoperands, hothers⟩
        exact ⟨ty :: types, .cons hoperand hoperands, List.forall_mem_cons.mpr ⟨hfirst, hothers⟩⟩

private theorem exists_uniform_iff (ty : Ty) :
    (∃ types, List.Forall₂ (HasType context) operands types ∧ ∀ other ∈ types, other = ty) ↔
      ∀ operand ∈ operands, HasType context operand ty := by
  simpa using exists_types_iff (· = ty)

def Agreeing (context : Context) (rule : Agreement) (previous : Option Ty)
    (operands : List Expr) (last? : Option Ty) : Prop :=
  ∃ types, List.Forall₂ (HasType context) operands types ∧ rule.admitsAll previous types ∧
    last? = types.getLast?.or previous

private theorem agreeing_alike :
    (∃ last?, Agreeing context .alike none operands last?) ↔
      ∃ ty, ∀ operand ∈ operands, HasType context operand ty := by
  simp only [Agreeing, Agreement.admitsAll_alike_none, ← exists_uniform_iff]
  constructor
  · rintro ⟨_, types, htypes, ⟨ty, hty⟩, -⟩
    exact ⟨ty, types, htypes, hty⟩
  · rintro ⟨ty, types, htypes, hty⟩
    exact ⟨_, types, htypes, ⟨ty, hty⟩, rfl⟩

private theorem agreeing_logical :
    (∃ last?, Agreeing context .logical none operands last?) ↔
      ∀ operand ∈ operands, HasType context operand .bool := by
  simp only [Agreeing, Agreement.admitsAll_logical, ← exists_uniform_iff]
  constructor
  · rintro ⟨_, types, htypes, hbool, -⟩
    exact ⟨types, htypes, hbool⟩
  · rintro ⟨types, htypes, hbool⟩
    exact ⟨_, types, htypes, hbool, rfl⟩

private theorem agreeing_ordered (h : 2 ≤ operands.length) :
    (∃ last?, Agreeing context .ordered none operands last?) ↔
      ∀ operand ∈ operands, HasNumericType context operand := by
  have hordered (types : List Ty) (htypes : List.Forall₂ (HasType context) operands types) :
      Agreement.ordered.admitsAll none types ↔ ∀ ty ∈ types, ty.isNumeric := by
    match types, htypes.length_eq ▸ h with
    | first :: second :: types, _ =>
        rw [← Agreement.admitsAll_ordered (List.cons_ne_nil _ _)]
        simp [Agreement.admitsAll, Agreement.admits]
  simp only [Agreeing, hasNumericType_iff, ← exists_types_iff]
  constructor
  · rintro ⟨_, types, htypes, hadmits, -⟩
    exact ⟨types, htypes, (hordered types htypes).mp hadmits⟩
  · rintro ⟨types, htypes, hall⟩
    exact ⟨_, types, htypes, (hordered types htypes).mpr hall, rfl⟩

private theorem agreeing_arithmetic (h : operands ≠ []) (last? : Option Ty) :
    Agreeing context .arithmetic none operands last? ↔
      ∃ ty, last? = some ty ∧ ty.isNumeric ∧ ∀ operand ∈ operands, HasType context operand ty := by
  have hlast (types : List Ty) (htypes : List.Forall₂ (HasType context) operands types) :
      ∃ last ∈ types, types.getLast? = some last := by
    have hne : types ≠ [] := by
      rintro rfl
      cases htypes
      exact h rfl
    exact ⟨types.getLast hne, List.getLast_mem hne, List.getLast?_eq_some_getLast hne⟩
  simp only [Agreeing, Agreement.admitsAll_arithmetic, Agreement.admitsAll_alike_none,
    ← exists_uniform_iff, Option.or_none]
  constructor
  · rintro ⟨types, htypes, ⟨⟨ty, hty⟩, hnumeric⟩, rfl⟩
    obtain ⟨last, hmem, hget⟩ := hlast types htypes
    refine ⟨last, hget, hnumeric last hmem, types, htypes, fun other hother => ?_⟩
    rw [hty other hother, hty last hmem]
  · rintro ⟨ty, rfl, hnumeric, types, htypes, hty⟩
    obtain ⟨last, hmem, hget⟩ := hlast types htypes
    refine ⟨types, htypes, ⟨⟨ty, hty⟩, fun other hother => ?_⟩, ?_⟩
    · rw [hty other hother]
      exact hnumeric
    · rw [hget, hty last hmem]

end

/-! ## Expressions -/

def Expr.Judged (context : Context) (expr : Expr) (ty? : Option Ty) : Prop :=
  ∃ ty, ty? = some ty ∧ HasType context expr ty

section

variable {context : Context}

private theorem literal_decides {expr : Expr} {found : Ty}
    (h : ∀ ty, HasType context expr ty ↔ ty = found) :
    Decides (fun _ => ()) (Pure.pure (some found) : Infer (Option Ty))
      fun _ ty? _ => expr.Judged context ty? := by
  refine (Decides.pure _).congr fun _ ty? _ => ?_
  simp [Expr.Judged, h]

private theorem count_decides (update : Metrics → Metrics) :
    Decides (fun _ => ()) (Infer.count update) fun _ _ _ => True :=
  fun _ => by
    change ∀ other after, True ↔ other = () ∧ after = ()
    simp

private theorem read_decides (scope : Scope) (name : Identifier) (span : Span) :
    Decides (fun _ => ()) (some <$> Infer.ofExcept (scope.lookup name.name name.span.start))
      fun _ ty? _ => (Expr.value (.identifier name) span).Judged scope.get? ty? := by
  have hread (ty : Ty) : HasType scope.get? (.value (.identifier name) span) ty ↔
      scope.get? name.name = some ty := by
    constructor
    · intro h
      cases h with
      | read hname => exact hname
    · exact .read
  cases hname : scope.get? name.name with
  | some ty =>
      rw [Scope.lookup_of_some hname]
      refine literal_decides fun other => ?_
      rw [hread, hname, Option.some.injEq, eq_comm]
  | none =>
      rw [Scope.lookup_of_none hname]
      refine Decides.congr (Decides.throw rfl) fun _ ty? _ => ?_
      simp [Expr.Judged, hread, hname]

end

private theorem agreeing_cons {context : Context} {rule : Agreement} {previous last? : Option Ty}
    {operand : Expr} {operands : List Expr} :
    Agreeing context rule previous (operand :: operands) last? ↔
      ∃ ty?, operand.Judged context ty? ∧ rule.admits (previous.map some) ty? ∧
        Agreeing context rule ty? operands last? := by
  have hlast (ty : Ty) (types : List Ty) :
      (ty :: types).getLast?.or previous = types.getLast?.or (some ty) := by
    rw [List.getLast?_cons]
    cases types.getLast? <;> rfl
  constructor
  · rintro ⟨_, htypes, hadmits, rfl⟩
    cases htypes with
    | @cons _ ty _ types hoperand hoperands =>
        exact ⟨some ty, ⟨ty, rfl, hoperand⟩, hadmits.1, types, hoperands, hadmits.2,
          hlast ty types⟩
  · rintro ⟨_, ⟨ty, rfl, hoperand⟩, hadmits, types, hoperands, hothers, rfl⟩
    exact ⟨ty :: types, .cons hoperand hoperands, ⟨hadmits, hothers⟩, (hlast ty types).symm⟩

mutual

private theorem Expr.infer_decides (scope : Scope) (expr : Expr) (hformed : expr.Formed) :
    Decides (fun _ => ()) (expr.infer scope) fun _ ty? _ => expr.Judged scope.get? ty? := by
  match expr with
  | .integer _ _ | .float _ _ | .bool _ _ =>
      refine literal_decides fun ty => ⟨fun h => ?_, fun h => ?_⟩
      · cases h
        rfl
      · subst h
        constructor
  | .identifier _ | .hole _ => exact hformed.elim
  | .value inner span =>
      cases inner with
      | identifier name => exact read_decides scope name span
      | _ => exact hformed.elim
  | .list elements span =>
      refine ((Expr.inferOperands_decides scope .alike none elements hformed).bind
        fun _ _ => .pure _).congr fun _ ty? _ => ?_
      simp [Expr.Judged, hasType_list_iff, agreeing_alike, and_comm]
  | .unary .not operand span =>
      refine ((count_decides _).bind fun _ _ => (operand.infer_decides scope hformed).bind
        fun _ _ => .guard (fun _ => .pure _) rfl).congr fun _ ty? _ => ?_
      simp [Expr.Judged, hasType_not_iff, sameType, and_comm]
  | .unary .neg operand span =>
      refine ((count_decides _).bind fun _ _ => (operand.infer_decides scope hformed).bind
        fun _ _ => .guard (fun _ => .pure _) rfl).congr fun _ ty? _ => ?_
      cases ty? <;> simp [Expr.Judged, hasType_neg_iff, numericType, and_comm]
  -- Nodes with other numbers of operands are not formed.
  | .chain _ [] _ _ | .chain _ [_] _ _ | .comparison _ [] _ | .comparison _ [_] _
  | .ternary [] _ | .ternary [_] _ | .ternary [_, _] _ | .ternary (_ :: _ :: _ :: _ :: _) _ =>
      exact absurd hformed.1 (by simp)
  | .chain .logical (first :: second :: others) operators span =>
      refine ((count_decides _).bind fun _ _ =>
        (Expr.inferOperands_decides scope .logical none (first :: second :: others)
          hformed.2).bind fun _ _ => .pure _).congr fun _ ty? _ => ?_
      simp [Expr.Judged, hasType_logical_iff, agreeing_logical, and_comm]
  | .chain .additive (first :: second :: others) operators span
  | .chain .multiplicative (first :: second :: others) operators span =>
      refine ((count_decides _).bind fun _ _ =>
        Expr.inferOperands_decides scope .arithmetic none (first :: second :: others)
          hformed.2).congr fun _ ty? _ => ?_
      simp [Expr.Judged, hasType_arithmetic_iff, agreeing_arithmetic]
  | .comparison operator (first :: second :: others) span =>
      refine ((count_decides _).bind fun _ _ =>
        (Expr.inferOperands_decides scope (.ofComparator operator) none
          (first :: second :: others) hformed.2).bind fun _ _ => .pure _).congr fun _ ty? _ => ?_
      by_cases hordering : operator.isOrdering
      · simp [Expr.Judged, Agreement.ofComparator, hordering, hasType_ordering_iff,
          agreeing_ordered, and_comm]
      · simp [Expr.Judged, Agreement.ofComparator, hordering, hasType_equality_iff,
          agreeing_alike, and_comm]
  | .ternary [condition, whenTrue, whenFalse] span =>
      refine ((count_decides _).bind fun _ _ =>
        (condition.infer_decides scope hformed.2.1).bind fun _ _ => .guard (fun _ =>
          (whenTrue.infer_decides scope hformed.2.2.1).bind fun _ _ =>
            (whenFalse.infer_decides scope hformed.2.2.2.1).bind fun _ _ =>
              .guard (fun _ => .pure _) rfl) rfl).congr fun _ ty? _ => ?_
      cases ty? <;> simp [Expr.Judged, hasType_ternary_iff, sameType]

theorem Expr.inferOperands_decides (scope : Scope) (rule : Agreement) (previous : Option Ty)
    (operands : List Expr) (hformed : Expr.AllFormed operands) :
    Decides (fun _ => ()) (Expr.inferOperands scope rule (previous.map some) operands)
      fun _ last? _ => Agreeing scope.get? rule previous operands last? := by
  match operands with
  | [] =>
      refine (Decides.pure _).congr fun _ last? _ => ?_
      cases previous <;> simp [Agreeing, Agreement.admitsAll]
  | operand :: operands =>
      have hfollowing (ty? : Option Ty) (hty : ∃ _ _ : Unit, operand.Judged scope.get? ty?) :
          Decides (fun _ => ()) (if rule.admits (previous.map some) ty? then
            Expr.inferOperands scope rule (some ty?) operands
            else Infer.invalidExpression operand)
            fun _ last? _ => rule.admits (previous.map some) ty? ∧
              Agreeing scope.get? rule ty? operands last? := by
        -- A type was found, so that the remaining operands follow one of a known type.
        obtain ⟨-, -, ty, rfl, -⟩ := hty
        exact .guard (fun _ => Expr.inferOperands_decides scope rule ty operands hformed.2) rfl
      refine ((operand.infer_decides scope hformed.1).bind hfollowing).congr fun _ last? _ => ?_
      simp [agreeing_cons]

end

/-! ## Steps of the checker -/

/-- What the rules see of a checker: its context, and the scopes it will return to. -/
def Checker.seen (checker : Checker) : Context × List Scope :=
  (checker.scope.get?, checker.enclosing)

private theorem Checker.seen_leave {checker inner : Checker}
    (h : inner.enclosing = checker.enter.enclosing) : inner.leave.seen = checker.seen := by
  obtain ⟨scope, enclosing, metrics⟩ := inner
  cases h
  rfl

namespace Check

private theorem count_decides (update : Metrics → Metrics) :
    Decides Checker.seen (count update) fun before _ after => after = before := by
  intro checker
  change ∀ other after, after = checker.seen ↔ other = () ∧ after = checker.seen
  simp

theorem infer_decides (expr : Expr) (hformed : expr.Formed) :
    Decides Checker.seen (infer expr) fun before ty? after =>
      expr.Judged before.1 ty? ∧ after = before := by
  intro checker
  have hinfer := Expr.infer_decides checker.scope expr hformed checker.metrics
  unfold Ensures infer
  cases hresult : expr.infer checker.scope checker.metrics with
  | ok ty? metrics =>
      intro other after
      have hjudged : expr.Judged checker.scope.get? other ↔ other = ty? := by
        simpa using hinfer.of_ok hresult other ()
      exact and_congr_left' hjudged
  | error diagnostic metrics =>
      obtain ⟨hsemantic, hnone⟩ := hinfer.of_error hresult
      exact ⟨hsemantic, fun other after hother => hnone other () hother.1⟩

private theorem inScope_decides {α : Type} {question : Scope → Except Diagnostic α}
    (answered : Context → α → Prop)
    (h : ∀ scope, match question scope with
      | .ok answer => ∀ other, answered scope.get? other ↔ other = answer
      | .error diagnostic =>
          diagnostic.cause.isSemantic ∧ ∀ other, ¬ answered scope.get? other) :
    Decides Checker.seen (inScope question) fun before answer after =>
      answered before.1 answer ∧ after = before := by
  intro checker
  have hquestion := h checker.scope
  unfold Ensures inScope
  cases hresult : question checker.scope with
  | ok answer =>
      simp only [hresult] at hquestion
      intro other after
      exact and_congr_left' (hquestion other)
  | error diagnostic =>
      simp only [hresult] at hquestion
      exact ⟨hquestion.1, fun other after hother => hquestion.2 other hother.1⟩

private theorem requireUnbound_decides (name : Identifier) :
    Decides Checker.seen (requireUnbound name) fun before _ after =>
      before.1 name.name = none ∧ after = before := by
  refine inScope_decides (fun context _ => context name.name = none) fun scope => ?_
  cases scope.get? name.name <;> simp [Cause.isSemantic]

private theorem variableType_decides (name : Identifier) :
    Decides Checker.seen (variableType name) fun before ty after =>
      before.1 name.name = some ty ∧ after = before := by
  refine inScope_decides (fun context ty => context name.name = some ty) fun scope => ?_
  cases hname : scope.get? name.name <;> simp [Scope.lookup, hname, Cause.isSemantic, eq_comm]

private theorem assignment_decides (name : String) (ty? : Option Ty) (position : Position) :
    Decides Checker.seen (inScope (·.assign name ty? position)) fun before _ after =>
      (∃ ty, ty? = some ty ∧ before.1 name = some ty) ∧ after = before := by
  refine inScope_decides (fun context _ => ∃ ty, ty? = some ty ∧ context name = some ty)
    fun scope => ?_
  cases hname : scope.get? name with
  | none => simp [Scope.assign, Scope.lookup, hname, Cause.isSemantic, bind, Except.bind]
  | some declared =>
      have hassign : scope.assign name ty? position =
          if sameType (some declared) ty? then .ok ()
          else .error ⟨.assignmentTypeMismatch name, position⟩ := by
        simp [Scope.assign, Scope.lookup, hname, bind, Except.bind]
      rw [hassign]
      by_cases hsame : ty? = some declared
      · simp [hsame, sameType]
      · have hother : ¬ some declared = ty? := fun h => hsame h.symm
        simp only [sameType, hother, decide_false, Bool.false_eq_true, if_false]
        refine ⟨rfl, ?_⟩
        rintro - ⟨ty, rfl, hty⟩
        exact hother hty

private theorem declaredType_decides (keyword : String) (position : Position) :
    Decides Checker.seen (declaredType keyword position) fun before ty after =>
      keyword = ty.keyword ∧ after = before := by
  unfold declaredType
  cases hkeyword : Ty.ofKeyword? keyword with
  | some ty =>
      refine (Decides.pure ty).congr fun before other after => ?_
      rw [← Ty.ofKeyword?_eq_some, hkeyword, Option.some.injEq, eq_comm (a := other)]
  | none =>
      refine Decides.congr (Decides.throw rfl) fun before other after => ?_
      simp [← Ty.ofKeyword?_eq_some, hkeyword]

private theorem bindName_decides (name : String) (ty : Ty) (position : Position) :
    Decides Checker.seen (bindName name ty position) fun before _ after =>
      before.1 name = none ∧ after = (before.1.bind name ty, before.2) := by
  intro checker
  unfold Ensures bindName
  cases hname : checker.scope.get? name with
  | none =>
      have hbound : (checker.scope.insert name ty hname).get? =
          Context.bind checker.scope.get? name ty :=
        funext fun other => Scope.get?_insert _ _ _ _ other
      simp [Scope.declare_of_none hname, Checker.seen, hname, hbound]
  | some bound =>
      simp [Scope.declare_of_some hname, Checker.seen, hname, Cause.isSemantic]

private theorem condition_decides (condition : Condition) (hformed : condition.Formed) :
    Decides Checker.seen (Check.condition condition) fun before _ after =>
      condition.Typed before.1 ∧ after = before := by
  obtain ⟨expr?, span⟩ := condition
  cases expr? with
  | none => exact hformed.elim
  | some expr =>
      refine ((infer_decides expr hformed).bind fun _ _ => .guard (fun _ => .pure _) rfl).congr
        fun before _ after => ?_
      have htyped : Condition.Typed before.1 ⟨some expr, span⟩ ↔ HasType before.1 expr .bool :=
        ⟨fun ⟨hexpr⟩ => hexpr, .mk⟩
      simp [Expr.Judged, sameType, htyped]

private theorem initialValue_decides (name : String) (declared : Ty) (tree : Expr)
    (hformed : tree.Formed) :
    Decides Checker.seen (initialValue name declared tree) fun before _ after =>
      HasType before.1 tree declared ∧ after = before := by
  refine ((infer_decides tree hformed).bind fun _ _ => .guard (fun _ => .pure _) rfl).congr
    fun before _ after => ?_
  simp [Expr.Judged, sameType]

private theorem declare_decides (name : Identifier) (typeName : String) (value? : Option Expr)
    (span : Span) (hformed : (Stmt.declare name typeName value? span).Formed) :
    Decides Checker.seen (declare name typeName value? span) fun before _ after =>
      Stmt.Typed before.1 (.declare name typeName value? span) after.1 ∧ after.2 = before.2 := by
  cases value? with
  | none =>
      refine ((requireUnbound_decides name).bind fun _ _ => (declaredType_decides _ _).bind
        fun declared _ => (bindName_decides _ _ _).bind fun _ _ => (count_decides _).bind
          fun _ _ => .pure _).congr fun before _ after => ⟨?_, ?_⟩
      · rintro ⟨-, _, ⟨hfresh, rfl⟩, ty, _, ⟨htype, rfl⟩, -, _, ⟨-, rfl⟩, -, _, rfl, -, rfl⟩
        exact ⟨.declare hfresh htype, rfl⟩
      · obtain ⟨context, enclosing⟩ := after
        rintro ⟨htyped, rfl⟩
        cases htyped with
        | declare hfresh htype =>
            exact ⟨(), _, ⟨hfresh, rfl⟩, _, _, ⟨htype, rfl⟩, (), _, ⟨hfresh, rfl⟩, (), _, rfl,
              rfl, rfl⟩
  | some tree =>
      refine ((requireUnbound_decides name).bind fun _ _ => (declaredType_decides _ _).bind
        fun declared _ => (bindName_decides _ _ _).bind fun _ _ => (count_decides _).bind
          fun _ _ => initialValue_decides name.name declared tree hformed).congr
        fun before _ after => ⟨?_, ?_⟩
      · rintro ⟨-, _, ⟨hfresh, rfl⟩, ty, _, ⟨htype, rfl⟩, -, _, ⟨-, rfl⟩, -, _, rfl, hvalue, rfl⟩
        exact ⟨.declareValue hfresh htype hvalue, rfl⟩
      · obtain ⟨context, enclosing⟩ := after
        rintro ⟨htyped, rfl⟩
        cases htyped with
        | declareValue hfresh htype hvalue =>
            exact ⟨(), _, ⟨hfresh, rfl⟩, _, _, ⟨htype, rfl⟩, (), _, ⟨hfresh, rfl⟩, (), _, rfl,
              hvalue, rfl⟩

private theorem assign_decides (name : Identifier) (tree : Expr) (span : Span)
    (hformed : tree.Formed) :
    Decides Checker.seen (assign name tree) fun before _ after =>
      Stmt.Typed before.1 (.assign name tree span) after.1 ∧ after.2 = before.2 := by
  refine ((variableType_decides name).bind fun _ _ => (infer_decides tree hformed).bind
    fun _ _ => assignment_decides _ _ _).congr fun before _ after => ⟨?_, ?_⟩
  · rintro ⟨-, _, ⟨-, rfl⟩, _, _, ⟨⟨ty, rfl, hvalue⟩, rfl⟩, ⟨_, ⟨rfl⟩, hname⟩, rfl⟩
    exact ⟨.assign hname hvalue, rfl⟩
  · obtain ⟨context, enclosing⟩ := after
    rintro ⟨htyped, rfl⟩
    cases htyped with
    | assign hname hvalue =>
        exact ⟨_, _, ⟨hname, rfl⟩, _, _, ⟨⟨_, rfl, hvalue⟩, rfl⟩, ⟨_, rfl, hname⟩, rfl⟩

/-- What a block binds is dropped with the scope it is checked in. -/
theorem inBlock_decides {body : List Stmt} {span : Span}
    (h : Decides Checker.seen (Stmt.checkAll body) fun before _ after =>
      Stmt.TypedAll before.1 body after.1 ∧ after.2 = before.2) :
    Decides Checker.seen (inBlock (Stmt.checkAll body)) fun before _ after =>
      Block.Typed before.1 (.mk body span) ∧ after = before := by
  intro checker
  have hbody := h checker.enter
  unfold Ensures inBlock
  cases hresult : Stmt.checkAll body checker.enter with
  | ok result inner =>
      obtain ⟨htyped, henclosing⟩ := (hbody.of_ok hresult result inner.seen).mpr ⟨rfl, rfl⟩
      have hleave : inner.leave.seen = checker.seen := Checker.seen_leave henclosing
      intro other after
      constructor
      · rintro ⟨-, rfl⟩
        exact ⟨rfl, hleave.symm⟩
      · rintro ⟨-, rfl⟩
        exact ⟨.mk htyped, hleave⟩
  | error diagnostic inner =>
      obtain ⟨hsemantic, hnone⟩ := hbody.of_error hresult
      refine ⟨hsemantic, ?_⟩
      rintro other after ⟨⟨htyped⟩, -⟩
      exact hnone other (_, checker.enter.enclosing) ⟨htyped, rfl⟩

end Check

mutual

theorem Stmt.check_decides (stmt : Stmt) (hformed : stmt.Formed) :
    Decides Checker.seen stmt.check fun before _ after =>
      stmt.Typed before.1 after.1 ∧ after.2 = before.2 := by
  match stmt with
  | .declare name typeName value? span =>
      exact Check.declare_decides name typeName value? span hformed
  | .assign name tree span => exact Check.assign_decides name tree span hformed
  | .branch condition thenBody none span =>
      refine ((Check.count_decides _).bind fun _ _ =>
        (Check.condition_decides condition hformed.1).bind fun _ _ =>
          (thenBody.check_decides hformed.2).bind fun _ _ => .pure _).congr
        fun before _ after => ⟨?_, ?_⟩
      · rintro ⟨-, _, rfl, -, _, ⟨hcondition, rfl⟩, -, _, ⟨hthenBody, rfl⟩, -, rfl⟩
        exact ⟨.branch hcondition hthenBody, rfl⟩
      · obtain ⟨context, enclosing⟩ := after
        rintro ⟨htyped, rfl⟩
        cases htyped with
        | branch hcondition hthenBody =>
            exact ⟨(), _, rfl, (), _, ⟨hcondition, rfl⟩, (), _, ⟨hthenBody, rfl⟩, rfl, rfl⟩
  | .branch condition thenBody (some elseBody) span =>
      refine ((Check.count_decides _).bind fun _ _ =>
        (Check.condition_decides condition hformed.1).bind fun _ _ =>
          (thenBody.check_decides hformed.2.1).bind fun _ _ =>
            elseBody.check_decides hformed.2.2).congr fun before _ after => ⟨?_, ?_⟩
      · rintro ⟨-, _, rfl, -, _, ⟨hcondition, rfl⟩, -, _, ⟨hthenBody, rfl⟩, helseBody, rfl⟩
        exact ⟨.branchElse hcondition hthenBody helseBody, rfl⟩
      · obtain ⟨context, enclosing⟩ := after
        rintro ⟨htyped, rfl⟩
        cases htyped with
        | branchElse hcondition hthenBody helseBody =>
            exact ⟨(), _, rfl, (), _, ⟨hcondition, rfl⟩, (), _, ⟨hthenBody, rfl⟩, helseBody, rfl⟩
  | .loop condition body span =>
      refine ((Check.count_decides _).bind fun _ _ =>
        (Check.condition_decides condition hformed.1).bind fun _ _ =>
          body.check_decides hformed.2).congr fun before _ after => ⟨?_, ?_⟩
      · rintro ⟨-, _, rfl, -, _, ⟨hcondition, rfl⟩, hbody, rfl⟩
        exact ⟨.loop hcondition hbody, rfl⟩
      · obtain ⟨context, enclosing⟩ := after
        rintro ⟨htyped, rfl⟩
        cases htyped with
        | loop hcondition hbody =>
            exact ⟨(), _, rfl, (), _, ⟨hcondition, rfl⟩, hbody, rfl⟩
  | .doLoop body condition span =>
      refine ((Check.count_decides _).bind fun _ _ => (body.check_decides hformed.1).bind
        fun _ _ => Check.condition_decides condition hformed.2).congr
        fun before _ after => ⟨?_, ?_⟩
      · rintro ⟨-, _, rfl, -, _, ⟨hbody, rfl⟩, hcondition, rfl⟩
        exact ⟨.doLoop hbody hcondition, rfl⟩
      · obtain ⟨context, enclosing⟩ := after
        rintro ⟨htyped, rfl⟩
        cases htyped with
        | doLoop hbody hcondition =>
            exact ⟨(), _, rfl, (), _, ⟨hbody, rfl⟩, hcondition, rfl⟩

theorem Block.check_decides (block : Block) (hformed : block.Formed) :
    Decides Checker.seen block.check fun before _ after =>
      block.Typed before.1 ∧ after = before := by
  match block with
  | .mk body span => exact Check.inBlock_decides (Stmt.checkAll_decides body hformed)

theorem Stmt.checkAll_decides (stmts : List Stmt) (hformed : Stmt.AllFormed stmts) :
    Decides Checker.seen (Stmt.checkAll stmts) fun before _ after =>
      Stmt.TypedAll before.1 stmts after.1 ∧ after.2 = before.2 := by
  match stmts with
  | [] =>
      refine (Decides.pure _).congr fun before _ after => ⟨?_, ?_⟩
      · rintro ⟨-, rfl⟩
        exact ⟨.nil, rfl⟩
      · obtain ⟨context, enclosing⟩ := after
        rintro ⟨htyped, rfl⟩
        cases htyped with
        | nil => exact ⟨rfl, rfl⟩
  | stmt :: stmts =>
      refine ((stmt.check_decides hformed.1).bind
        fun _ _ => Stmt.checkAll_decides stmts hformed.2).congr fun before _ after => ⟨?_, ?_⟩
      · rintro ⟨-, middle, ⟨hstmt, hmiddle⟩, hstmts, hafter⟩
        exact ⟨.cons hstmt hstmts, hafter.trans hmiddle⟩
      · rintro ⟨htyped, hafter⟩
        cases htyped with
        | cons hstmt hstmts => exact ⟨(), (_, before.2), ⟨hstmt, rfl⟩, hstmts, hafter⟩

end

/-- Checking formed statements succeeds exactly when the typing rules take the context of
the checker to some context.  It leaves the checker in that context, inside the same
blocks. -/
theorem checkAll_iff_typedAll {stmts : List Stmt} (hformed : Stmt.AllFormed stmts)
    (checker : Checker) (context : Context) :
    (∃ after, Stmt.checkAll stmts checker = .ok () after ∧ after.scope.get? = context ∧
        after.enclosing = checker.enclosing) ↔
      Stmt.TypedAll checker.scope.get? stmts context := by
  have hdecides := Stmt.checkAll_decides stmts hformed checker
  cases hresult : Stmt.checkAll stmts checker with
  | ok result after =>
      have hjudged := hdecides.of_ok hresult
      constructor
      · rintro ⟨_, ⟨rfl⟩, rfl, -⟩
        exact ((hjudged () after.seen).mpr ⟨rfl, rfl⟩).1
      · intro htyped
        obtain ⟨-, hseen⟩ := (hjudged () (context, checker.enclosing)).mp ⟨htyped, rfl⟩
        obtain ⟨hscope, henclosing⟩ := Prod.mk.inj hseen
        exact ⟨after, rfl, hscope.symm, henclosing.symm⟩
  | error diagnostic after =>
      obtain ⟨-, hnone⟩ := hdecides.of_error hresult
      constructor
      · rintro ⟨_, hother, -⟩
        cases hother
      · intro htyped
        exact absurd ⟨htyped, rfl⟩ (hnone () (context, checker.enclosing))

/-- What the body of a loop declares is not in the context that the loop leaves. -/
theorem checkAll_iff_typedAll_doLoop :
    let stmts : List Stmt :=
      [.declare ⟨"x", .null⟩ "int"
        (some (.chain .additive [.integer 1 .null, .integer 2 .null] [.add] .null)) .null,
      .doLoop (.mk [.declare ⟨"y", .null⟩ "bool" none .null] .null)
        ⟨some (.comparison .less [.read ⟨"x", .null⟩, .integer 3 .null] .null), .null⟩ .null]
    Stmt.AllFormed stmts ∧
      Stmt.TypedAll Checker.new.scope.get? stmts
        (Context.bind Checker.new.scope.get? "x" .int) := by
  intro stmts
  have hformed : Stmt.AllFormed stmts := by
    simp [stmts, Stmt.AllFormed, Stmt.Formed, Block.Formed, Condition.Formed, Expr.Formed,
      Expr.AllFormed, Expr.read]
  refine ⟨hformed, (checkAll_iff_typedAll hformed .new _).mp ⟨_, rfl, ?_, rfl⟩⟩
  exact funext fun other => Scope.get?_insert .empty "x" .int rfl other

end Assay
