import Assay.Proofs.Tree.Shape

/-!
# The height of trees

The height of an expression is the number of nodes on the longest way down.  A comparison
whose first operand is a comparison by another operator *restarts* it: the two are read
from one line of operands, with no parentheses between them.  `depth` is the height of an
expression in which a comparison stands as high as the one it restarts, and a restart more
is at most a node more.
-/

namespace Assay

/-- Whether a comparison by an operator restarts its first operand: this is a comparison by
another operator. -/
def Expr.restartedBy (operator : Comparator) : Expr → Bool
  | .comparison other _ _ => other ≠ operator
  | _ => false

mutual

def Expr.height : Expr → Nat
  | .integer _ _ | .float _ _ | .bool _ _ | .identifier _ | .hole _ => 1
  | .value inner _ => inner.height + 1
  | .list elements _ => Expr.heightAll elements + 1
  | .unary _ operand _ => operand.height + 1
  | .chain _ operands _ _ => Expr.heightAll operands + 1
  | .comparison _ operands _ => Expr.heightAll operands + 1
  | .ternary operands _ => Expr.heightAll operands + 1

def Expr.heightAll : List Expr → Nat
  | [] => 0
  | expr :: exprs => max expr.height (Expr.heightAll exprs)

end

mutual

def Expr.depth : Expr → Nat
  | .integer _ _ | .float _ _ | .bool _ _ | .identifier _ | .hole _ => 1
  | .value inner _ => inner.depth + 1
  | .list elements _ => Expr.depthAll elements + 1
  | .unary _ operand _ => operand.depth + 1
  | .chain _ operands _ _ => Expr.depthAll operands + 1
  | .comparison operator operands _ =>
      match operands with
      | [] => 1
      | first :: others =>
          if first.restartedBy operator then max first.depth (Expr.depthAll others + 1)
          else max first.depth (Expr.depthAll others) + 1
  | .ternary operands _ => Expr.depthAll operands + 1

def Expr.depthAll : List Expr → Nat
  | [] => 0
  | expr :: exprs => max expr.depth (Expr.depthAll exprs)

end

theorem Expr.depthAll_append (exprs others : List Expr) :
    Expr.depthAll (exprs ++ others) = max (Expr.depthAll exprs) (Expr.depthAll others) := by
  induction exprs with
  | nil => simp [Expr.depthAll]
  | cons expr exprs ih => simp only [List.cons_append, Expr.depthAll, ih, Nat.max_assoc]

mutual

/-- The most restarts on a way down. -/
def Expr.restarts : Expr → Nat
  | .integer _ _ | .float _ _ | .bool _ _ | .identifier _ | .hole _ => 0
  | .value inner _ => inner.restarts
  | .list elements _ => Expr.restartsAll elements
  | .unary _ operand _ => operand.restarts
  | .chain _ operands _ _ => Expr.restartsAll operands
  | .comparison operator operands _ =>
      match operands with
      | [] => 0
      | first :: others =>
          max (first.restarts + if first.restartedBy operator then 1 else 0)
            (Expr.restartsAll others)
  | .ternary operands _ => Expr.restartsAll operands

def Expr.restartsAll : List Expr → Nat
  | [] => 0
  | expr :: exprs => max expr.restarts (Expr.restartsAll exprs)

end

mutual

theorem Expr.height_le (expr : Expr) : expr.height ≤ expr.depth + expr.restarts := by
  match expr with
  | .integer _ _ | .float _ _ | .bool _ _ | .identifier _ | .hole _ => exact Nat.le_refl 1
  | .value operand _ | .unary _ operand _ =>
      have := operand.height_le
      simp only [Expr.height, Expr.depth, Expr.restarts]
      omega
  | .list operands _ | .chain _ operands _ _ | .ternary operands _ =>
      have := Expr.heightAll_le operands
      simp only [Expr.height, Expr.depth, Expr.restarts]
      omega
  | .comparison _ [] _ => exact Nat.le_refl 1
  | .comparison operator (first :: others) _ =>
      have := first.height_le
      have := Expr.heightAll_le others
      simp only [Expr.height, Expr.heightAll, Expr.depth, Expr.restarts]
      split <;> omega

theorem Expr.heightAll_le (exprs : List Expr) :
    Expr.heightAll exprs ≤ Expr.depthAll exprs + Expr.restartsAll exprs := by
  match exprs with
  | [] => exact Nat.le_refl 0
  | expr :: exprs =>
      have := expr.height_le
      have := Expr.heightAll_le exprs
      simp only [Expr.heightAll, Expr.depthAll, Expr.restartsAll]
      omega

end

/-! ## Parts

Every expression in a tree is no deeper than the tree, and erasing spans changes neither
depth nor height. -/

theorem Expr.mem_parts_self (expr : Expr) : expr ∈ expr.parts := by
  cases expr with
  | value inner _ => cases inner <;> simp [Expr.parts]
  | _ => simp [Expr.parts]

private theorem Expr.mem_parts_value {inner part : Expr} {span : Span}
    (h : part ∈ (Expr.value inner span).parts) : part = .value inner span ∨ part ∈ inner.parts := by
  cases inner <;> simp_all [Expr.parts]

mutual

theorem Expr.depth_le_of_mem_parts {expr part : Expr} (h : part ∈ expr.parts) :
    part.depth ≤ expr.depth := by
  match expr with
  | .integer _ _ | .float _ _ | .bool _ _ | .identifier _ | .hole _ | .comparison _ [] _ =>
      cases List.mem_singleton.mp h
      exact Nat.le_refl _
  | .value _ _ =>
      obtain rfl | h := Expr.mem_parts_value h
      · exact Nat.le_refl _
      · exact Nat.le_succ_of_le (Expr.depth_le_of_mem_parts h)
  | .unary _ _ _ =>
      obtain rfl | h := List.mem_cons.mp h
      · exact Nat.le_refl _
      · exact Nat.le_succ_of_le (Expr.depth_le_of_mem_parts h)
  | .list _ _ | .chain _ _ _ _ | .ternary _ _ =>
      obtain rfl | h := List.mem_cons.mp h
      · exact Nat.le_refl _
      · exact Nat.le_succ_of_le (Expr.depth_le_of_mem_partsAll h)
  | .comparison operator (first :: others) _ =>
      obtain rfl | h := List.mem_cons.mp h
      · exact Nat.le_refl _
      simp only [Expr.depth]
      obtain h | h := List.mem_append.mp h
      · have := Expr.depth_le_of_mem_parts h
        split <;> omega
      · have := Expr.depth_le_of_mem_partsAll h
        split <;> omega

theorem Expr.depth_le_of_mem_partsAll {exprs : List Expr} {part : Expr}
    (h : part ∈ Expr.partsAll exprs) : part.depth ≤ Expr.depthAll exprs := by
  match exprs with
  | expr :: exprs =>
      simp only [Expr.depthAll]
      obtain h | h := List.mem_append.mp h
      · have := Expr.depth_le_of_mem_parts h
        omega
      · have := Expr.depth_le_of_mem_partsAll h
        omega

end

/-! ## Spans do not matter -/

theorem Expr.restartedBy_eraseSpans (operator : Comparator) (expr : Expr) :
    expr.eraseSpans.restartedBy operator = expr.restartedBy operator := by
  cases expr <;> rfl

mutual

theorem Expr.height_eraseSpans (expr : Expr) : expr.eraseSpans.height = expr.height := by
  match expr with
  | .integer _ _ | .float _ _ | .bool _ _ | .identifier _ | .hole _ => rfl
  | .value operand _ | .unary _ operand _ =>
      simp only [Expr.eraseSpans, Expr.height, operand.height_eraseSpans]
  | .list operands _ | .chain _ operands _ _ | .comparison _ operands _ | .ternary operands _ =>
      simp only [Expr.eraseSpans, Expr.height, Expr.heightAll_eraseAll operands]

theorem Expr.heightAll_eraseAll (exprs : List Expr) :
    Expr.heightAll (Expr.eraseAll exprs) = Expr.heightAll exprs := by
  match exprs with
  | [] => rfl
  | expr :: exprs =>
      simp only [Expr.eraseAll, Expr.heightAll, expr.height_eraseSpans,
        Expr.heightAll_eraseAll exprs]

end

mutual

theorem Expr.depth_eraseSpans (expr : Expr) : expr.eraseSpans.depth = expr.depth := by
  match expr with
  | .integer _ _ | .float _ _ | .bool _ _ | .identifier _ | .hole _ | .comparison _ [] _ => rfl
  | .value operand _ | .unary _ operand _ =>
      simp only [Expr.eraseSpans, Expr.depth, operand.depth_eraseSpans]
  | .list operands _ | .chain _ operands _ _ | .ternary operands _ =>
      simp only [Expr.eraseSpans, Expr.depth, Expr.depthAll_eraseAll operands]
  | .comparison _ (first :: others) _ =>
      simp only [Expr.eraseSpans, Expr.eraseAll, Expr.depth, first.restartedBy_eraseSpans,
        first.depth_eraseSpans, Expr.depthAll_eraseAll others]

theorem Expr.depthAll_eraseAll (exprs : List Expr) :
    Expr.depthAll (Expr.eraseAll exprs) = Expr.depthAll exprs := by
  match exprs with
  | [] => rfl
  | expr :: exprs =>
      simp only [Expr.eraseAll, Expr.depthAll, expr.depth_eraseSpans, Expr.depthAll_eraseAll exprs]

end

end Assay
