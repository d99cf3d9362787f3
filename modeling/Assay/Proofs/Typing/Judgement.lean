import Assay.Tree
import Assay.Typing.Ty

/-!
# Typing rules

When an expression has a type, and when statements are well typed.  A context says which
names are bound and to what types; statements take one context to another, and what a
block binds ends with the block.
-/

namespace Assay

abbrev Context := String → Option Ty

def Context.bind (context : Context) (name : String) (ty : Ty) : Context :=
  fun other => if other = name then some ty else context other

/-! ## Expressions -/

mutual

inductive HasType (context : Context) : Expr → Ty → Prop where
  | integer {number : Int64} {span : Span} : HasType context (.integer number span) .int
  | float {number : Binary64} {span : Span} : HasType context (.float number span) .float
  | bool {truth : Bool} {span : Span} : HasType context (.bool truth span) .bool
  | read {name : Identifier} {span : Span} {ty : Ty} (hname : context name.name = some ty) :
      HasType context (.value (.identifier name) span) ty
  | list {elements : List Expr} {span : Span} {ty : Ty}
      (helements : ∀ element ∈ elements, HasType context element ty) :
      HasType context (.list elements span) .list
  | not {operand : Expr} {span : Span} (hoperand : HasType context operand .bool) :
      HasType context (.unary .not operand span) .bool
  | neg {operand : Expr} {span : Span} {ty : Ty} (hnumeric : ty = .int ∨ ty = .float)
      (hoperand : HasType context operand ty) : HasType context (.unary .neg operand span) ty
  | logical {operands : List Expr} {operators : List (Operator .logical)} {span : Span}
      (hoperands : ∀ operand ∈ operands, HasType context operand .bool) :
      HasType context (.chain .logical operands operators span) .bool
  | arithmetic {family : Family} {operands : List Expr} {operators : List (Operator family)}
      {span : Span} {ty : Ty} (hfamily : family = .additive ∨ family = .multiplicative)
      (hnumeric : ty = .int ∨ ty = .float)
      (hoperands : ∀ operand ∈ operands, HasType context operand ty) :
      HasType context (.chain family operands operators span) ty
  | ordering {operator : Comparator} {operands : List Expr} {span : Span}
      (hoperator : operator ∈ [.less, .lessEquals, .greater, .greaterEquals])
      (hoperands : ∀ operand ∈ operands, HasNumericType context operand) :
      HasType context (.comparison operator operands span) .bool
  | equality {operator : Comparator} {operands : List Expr} {span : Span} {ty : Ty}
      (hoperator : operator ∈ [.equals, .notEquals])
      (hoperands : ∀ operand ∈ operands, HasType context operand ty) :
      HasType context (.comparison operator operands span) .bool
  | ternary {condition whenTrue whenFalse : Expr} {span : Span} {ty : Ty}
      (hcondition : HasType context condition .bool)
      (hwhenTrue : HasType context whenTrue ty) (hwhenFalse : HasType context whenFalse ty) :
      HasType context (.ternary [condition, whenTrue, whenFalse] span) ty

/-- Integers and floats may stand side by side where only this is asked. -/
inductive HasNumericType (context : Context) : Expr → Prop where
  | int {expr : Expr} (hexpr : HasType context expr .int) : HasNumericType context expr
  | float {expr : Expr} (hexpr : HasType context expr .float) : HasNumericType context expr

end

private theorem Ty.isNumeric_iff {ty : Ty} : ty.isNumeric ↔ ty = .int ∨ ty = .float := by
  cases ty <;> decide

private theorem Comparator.isOrdering_iff {operator : Comparator} :
    operator.isOrdering ↔ operator ∈ [less, lessEquals, greater, greaterEquals] := by
  cases operator <;> decide

private theorem Comparator.not_isOrdering_iff {operator : Comparator} :
    ¬ operator.isOrdering ↔ operator ∈ [equals, notEquals] := by
  cases operator <;> decide

section

variable {context : Context} {span : Span} {ty : Ty}

theorem hasType_not_iff {operand : Expr} :
    HasType context (.unary .not operand span) ty ↔
      ty = .bool ∧ HasType context operand .bool := by
  constructor
  · intro h
    cases h with
    | not hoperand => exact ⟨rfl, hoperand⟩
  · rintro ⟨rfl, hoperand⟩
    exact .not hoperand

theorem hasType_neg_iff {operand : Expr} :
    HasType context (.unary .neg operand span) ty ↔
      ty.isNumeric ∧ HasType context operand ty := by
  constructor
  · intro h
    cases h with
    | neg hnumeric hoperand => exact ⟨Ty.isNumeric_iff.mpr hnumeric, hoperand⟩
  · rintro ⟨hnumeric, hoperand⟩
    exact .neg (Ty.isNumeric_iff.mp hnumeric) hoperand

theorem hasType_list_iff {elements : List Expr} :
    HasType context (.list elements span) ty ↔
      ty = .list ∧ ∃ other, ∀ element ∈ elements, HasType context element other := by
  constructor
  · intro h
    cases h with
    | list helements => exact ⟨rfl, _, helements⟩
  · rintro ⟨rfl, other, helements⟩
    exact .list helements

theorem hasType_logical_iff {operands : List Expr} {operators : List (Operator .logical)} :
    HasType context (.chain .logical operands operators span) ty ↔
      ty = .bool ∧ ∀ operand ∈ operands, HasType context operand .bool := by
  constructor
  · intro h
    cases h with
    | logical hoperands => exact ⟨rfl, hoperands⟩
    | arithmetic hfamily => simp at hfamily
  · rintro ⟨rfl, hoperands⟩
    exact .logical hoperands

theorem hasType_arithmetic_iff {family : Family} {operands : List Expr}
    {operators : List (Operator family)} (hfamily : family ≠ .logical) :
    HasType context (.chain family operands operators span) ty ↔
      ty.isNumeric ∧ ∀ operand ∈ operands, HasType context operand ty := by
  constructor
  · intro h
    cases h with
    | logical => exact absurd rfl hfamily
    | arithmetic _ hnumeric hoperands => exact ⟨Ty.isNumeric_iff.mpr hnumeric, hoperands⟩
  · rintro ⟨hnumeric, hoperands⟩
    have harithmetic : family = .additive ∨ family = .multiplicative := by
      cases family <;> simp_all
    exact .arithmetic harithmetic (Ty.isNumeric_iff.mp hnumeric) hoperands

theorem hasNumericType_iff {expr : Expr} :
    HasNumericType context expr ↔ ∃ ty, HasType context expr ty ∧ ty.isNumeric := by
  constructor
  · intro h
    cases h with
    | int hexpr => exact ⟨_, hexpr, rfl⟩
    | float hexpr => exact ⟨_, hexpr, rfl⟩
  · rintro ⟨ty, hexpr, hnumeric⟩
    rcases Ty.isNumeric_iff.mp hnumeric with rfl | rfl
    · exact .int hexpr
    · exact .float hexpr

theorem hasType_ordering_iff {operator : Comparator} {operands : List Expr}
    (hoperator : operator.isOrdering) :
    HasType context (.comparison operator operands span) ty ↔
      ty = .bool ∧ ∀ operand ∈ operands, HasNumericType context operand := by
  constructor
  · intro h
    cases h with
    | ordering _ hoperands => exact ⟨rfl, hoperands⟩
    | equality hother => exact absurd hoperator (Comparator.not_isOrdering_iff.mpr hother)
  · rintro ⟨rfl, hoperands⟩
    exact .ordering (Comparator.isOrdering_iff.mp hoperator) hoperands

theorem hasType_equality_iff {operator : Comparator} {operands : List Expr}
    (hoperator : ¬ operator.isOrdering) :
    HasType context (.comparison operator operands span) ty ↔
      ty = .bool ∧ ∃ other, ∀ operand ∈ operands, HasType context operand other := by
  constructor
  · intro h
    cases h with
    | ordering hother => exact absurd (Comparator.isOrdering_iff.mpr hother) hoperator
    | equality _ hoperands => exact ⟨rfl, _, hoperands⟩
  · rintro ⟨rfl, other, hoperands⟩
    exact .equality (Comparator.not_isOrdering_iff.mp hoperator) hoperands

theorem hasType_ternary_iff {condition whenTrue whenFalse : Expr} :
    HasType context (.ternary [condition, whenTrue, whenFalse] span) ty ↔
      HasType context condition .bool ∧ HasType context whenTrue ty ∧
        HasType context whenFalse ty := by
  constructor
  · intro h
    cases h with
    | ternary hcondition hwhenTrue hwhenFalse => exact ⟨hcondition, hwhenTrue, hwhenFalse⟩
  · rintro ⟨hcondition, hwhenTrue, hwhenFalse⟩
    exact .ternary hcondition hwhenTrue hwhenFalse

end

/-! ## Statements -/

inductive Condition.Typed (context : Context) : Condition → Prop where
  | mk {expr : Expr} {span : Span} (hexpr : HasType context expr .bool) :
      Condition.Typed context ⟨some expr, span⟩

mutual

inductive Stmt.Typed : Context → Stmt → Context → Prop where
  | declare {context : Context} {name : Identifier} {typeName : String} {span : Span} {ty : Ty}
      (hfresh : context name.name = none) (htype : typeName = ty.keyword) :
      Stmt.Typed context (.declare name typeName none span) (context.bind name.name ty)
  -- The variable is bound already where its value stands.
  | declareValue {context : Context} {name : Identifier} {typeName : String} {value : Expr}
      {span : Span} {ty : Ty} (hfresh : context name.name = none) (htype : typeName = ty.keyword)
      (hvalue : HasType (context.bind name.name ty) value ty) :
      Stmt.Typed context (.declare name typeName (some value) span) (context.bind name.name ty)
  | assign {context : Context} {name : Identifier} {value : Expr} {span : Span} {ty : Ty}
      (hname : context name.name = some ty) (hvalue : HasType context value ty) :
      Stmt.Typed context (.assign name value span) context
  | branch {context : Context} {condition : Condition} {thenBody : Block} {span : Span}
      (hcondition : condition.Typed context) (hthenBody : Block.Typed context thenBody) :
      Stmt.Typed context (.branch condition thenBody none span) context
  | branchElse {context : Context} {condition : Condition} {thenBody elseBody : Block}
      {span : Span} (hcondition : condition.Typed context)
      (hthenBody : Block.Typed context thenBody) (helseBody : Block.Typed context elseBody) :
      Stmt.Typed context (.branch condition thenBody (some elseBody) span) context
  | loop {context : Context} {condition : Condition} {body : Block} {span : Span}
      (hcondition : condition.Typed context) (hbody : Block.Typed context body) :
      Stmt.Typed context (.loop condition body span) context
  | doLoop {context : Context} {body : Block} {condition : Condition} {span : Span}
      (hbody : Block.Typed context body) (hcondition : condition.Typed context) :
      Stmt.Typed context (.doLoop body condition span) context

/-- A block is well typed from the context where it starts; what it binds is dropped. -/
inductive Block.Typed : Context → Block → Prop where
  | mk {context after : Context} {body : List Stmt} {span : Span}
      (hbody : Stmt.TypedAll context body after) : Block.Typed context (.mk body span)

inductive Stmt.TypedAll : Context → List Stmt → Context → Prop where
  | nil {context : Context} : Stmt.TypedAll context [] context
  | cons {context middle after : Context} {stmt : Stmt} {stmts : List Stmt}
      (hstmt : Stmt.Typed context stmt middle) (hstmts : Stmt.TypedAll middle stmts after) :
      Stmt.TypedAll context (stmt :: stmts) after

end

end Assay
