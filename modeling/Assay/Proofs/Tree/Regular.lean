import Mathlib.Data.List.Chain
import Mathlib.Order.Lattice
import Assay.Proofs.Tree.Spans

/-!
# Regular trees and nested blocks

A node of a parsed program has as many operands and operators as its sort calls for, and a bare
name is an expression only inside the `value` that reads it.  That is a matter of a node and its
children, so a tree is regular throughout if its root is regular and all children are.  How
deep blocks are nested is measured on the tree; along every path, the measure falls from block
to block.
-/

namespace Assay

namespace Node

open Relation (ReflTransGen TransGen)

/-! ## Regular nodes -/

/-- The node has the operands and operators that it is parsed with. -/
def Saturated : Node → Prop
  | expr (.chain _ operands operators _) =>
      2 ≤ operands.length ∧ operators.length + 1 = operands.length
  | expr (.comparison _ operands _) => 2 ≤ operands.length
  | expr (.ternary operands _) => operands.length = 3
  | expr (.value inner span) => ∃ name, inner = .identifier name ∧ name.span = span
  | expr (.hole _) => False
  | condition guard => guard.expr?.isSome
  | _ => True

/-- A bare name below the node stands there to be read. -/
def ReadsNames (node : Node) : Prop :=
  ∀ name, expr (.identifier name) ∈ node.children →
    ∃ span, node = expr (.value (.identifier name) span)

def Regular (node : Node) : Prop := node.Saturated ∧ node.ReadsNames

structure Proper (root : Node) : Prop where
  regular : ∀ node, ReflTransGen HasChild root node → node.Regular
  notName : ∀ name, root ≠ expr (.identifier name)

theorem Proper.of_children {root : Node} (hsaturated : root.Saturated)
    (hroot : ∀ name, root ≠ expr (.identifier name)) (h : ∀ child ∈ root.children, child.Proper) :
    root.Proper := by
  refine ⟨?_, hroot⟩
  intro node hnode
  obtain rfl | ⟨child, hchild, hbelow⟩ := hnode.cases_head
  · refine ⟨hsaturated, ?_⟩
    intro name hname
    exact absurd rfl ((h _ hname).notName name)
  · exact (h child hchild).regular node hbelow

theorem Proper.of_operands {tree : Expr} (hsaturated : (expr tree).Saturated)
    (htree : ∀ name, tree ≠ .identifier name)
    (h : ∀ operand ∈ tree.operands, (expr operand).Proper) : (expr tree).Proper := by
  refine .of_children hsaturated ?_ ?_
  · intro name heq
    exact htree name (Node.expr.inj heq)
  · simpa [children] using h

private theorem proper_name (identifier : Identifier) : (name identifier).Proper :=
  .of_children trivial (by simp) (by simp [children])

theorem proper_read (identifier : Identifier) : (expr (.read identifier)).Proper := by
  refine ⟨?_, by simp [Expr.read]⟩
  intro node hnode
  obtain rfl | ⟨child, hchild, hbelow⟩ := hnode.cases_head
  · refine ⟨⟨identifier, rfl, rfl⟩, ?_⟩
    intro name hname
    have heq : name = identifier := by simpa [Expr.read, children, Expr.operands] using hname
    exact ⟨identifier.span, by rw [heq, Expr.read]⟩
  · -- Below the `value` there is the name alone.
    have heq : child = expr (.identifier identifier) := by
      simpa [HasChild, Expr.read, children, Expr.operands] using hchild
    subst heq
    obtain rfl | ⟨leaf, hleaf, -⟩ := hbelow.cases_head
    · exact ⟨trivial, by simp [ReadsNames, children, Expr.operands]⟩
    · simp [HasChild, children, Expr.operands] at hleaf

end Node

/-! ## Nested blocks -/

mutual

def Stmt.nesting : Stmt → Nat
  | .declare _ _ _ _ | .assign _ _ _ => 0
  | .branch _ thenBody none _ => thenBody.nesting
  | .branch _ thenBody (some elseBody) _ => max thenBody.nesting elseBody.nesting
  | .loop _ body _ | .doLoop body _ _ => body.nesting

def Block.nesting : Block → Nat
  | .mk body _ => Stmt.nestingAll body + 1

def Stmt.nestingAll : List Stmt → Nat
  | [] => 0
  | stmt :: stmts => max stmt.nesting (Stmt.nestingAll stmts)

end

namespace Node

open Relation (ReflTransGen TransGen)

def nesting : Node → Nat
  | stmt tree => tree.nesting
  | block body => body.nesting
  | expr _ | name _ | condition _ => 0

private theorem nesting_stmt_le_iff {tree : Stmt} {limit : Nat} :
    tree.nesting ≤ limit ↔ ∀ child ∈ (stmt tree).children, child.nesting ≤ limit := by
  cases tree with
  | declare _ _ value? _ => cases value? <;> simp [children, nesting, Stmt.nesting]
  | assign => simp [children, nesting, Stmt.nesting]
  | branch _ _ elseBody? _ => cases elseBody? <;> simp [children, nesting, Stmt.nesting]
  | loop | doLoop => simp [children, nesting, Stmt.nesting]

private theorem nesting_block_le_iff {body : Block} {limit : Nat} :
    body.nesting ≤ limit + 1 ↔ ∀ child ∈ (block body).children, child.nesting ≤ limit := by
  obtain ⟨stmts, span⟩ := body
  simp only [Block.nesting, Nat.succ_le_succ_iff, children, Block.body, List.forall_mem_map,
    nesting]
  induction stmts with
  | nil => simp [Stmt.nestingAll]
  | cons stmt stmts ih => simp [Stmt.nestingAll, ih]

/-! ## Chains of blocks -/

private theorem nesting_pos (body : Block) : 0 < body.nesting := by
  obtain ⟨stmts, span⟩ := body
  exact Nat.succ_pos _

private theorem nesting_lt_of_child {body : Block} {child : Node}
    (h : HasChild (block body) child) :
    child.nesting < body.nesting := by
  have hpos := nesting_pos body
  have hle : body.nesting ≤ (body.nesting - 1) + 1 := by omega
  have hchild := nesting_block_le_iff.mp hle child h
  omega

private theorem nesting_le_of_child {node child : Node} (h : node.HasChild child) :
    child.nesting ≤ node.nesting := by
  cases node with
  | stmt tree => exact nesting_stmt_le_iff.mp (Nat.le_refl _) child h
  | block body => exact Nat.le_of_lt (nesting_lt_of_child h)
  | expr _ | name _ | condition _ =>
      -- There are expressions at most below these.
      revert child
      simp [HasChild, children, nesting]

private theorem nesting_le_of_below {node other : Node} (h : ReflTransGen HasChild node other) :
    other.nesting ≤ node.nesting := by
  induction h with
  | refl => exact Nat.le_refl _
  | tail _ hchild ih => exact Nat.le_trans (nesting_le_of_child hchild) ih

private theorem nesting_lt_of_inside {outer inner : Block}
    (h : TransGen HasChild (block outer) (block inner)) : inner.nesting < outer.nesting := by
  obtain ⟨child, hchild, hbelow⟩ := TransGen.head'_iff.mp h
  exact Nat.lt_of_le_of_lt (nesting_le_of_below hbelow) (nesting_lt_of_child hchild)

def Nested (blocks : List Block) : Prop :=
  blocks.IsChain fun outer inner => TransGen HasChild (block outer) (block inner)

theorem Nested.length_lt {outer : Block} {blocks : List Block} (h : Nested (outer :: blocks)) :
    blocks.length < outer.nesting := by
  induction blocks generalizing outer with
  | nil => exact nesting_pos outer
  | cons inner blocks ih =>
      obtain ⟨hinside, hblocks⟩ := List.isChain_cons_cons.mp h
      have hinner := ih hblocks
      have hlt := nesting_lt_of_inside hinside
      rw [List.length_cons]
      omega

/-! ## Trees within a limit -/

structure Fits (limit : Nat) (root : Node) : Prop where
  proper : root.Proper
  nesting : root.nesting ≤ limit

namespace Fits

variable {limit : Nat} {tree : Expr} {guard : Condition}

theorem name (identifier : Identifier) : Fits limit (name identifier) :=
  ⟨proper_name identifier, Nat.zero_le _⟩

theorem expr (h : (expr tree).Proper) : Fits limit (.expr tree) := ⟨h, Nat.zero_le _⟩

theorem condition (h : (condition guard).Proper) : Fits limit (.condition guard) :=
  ⟨h, Nat.zero_le _⟩

theorem stmt {tree : Stmt} (h : ∀ child ∈ (stmt tree).children, child.Fits limit) :
    Fits limit (.stmt tree) where
  proper := .of_children trivial (by simp) fun child hchild => (h child hchild).proper
  nesting := nesting_stmt_le_iff.mpr fun child hchild => (h child hchild).nesting

theorem block {body : Block} (h : ∀ child ∈ (block body).children, child.Fits limit) :
    Fits (limit + 1) (.block body) where
  proper := .of_children trivial (by simp) fun child hchild => (h child hchild).proper
  nesting := nesting_block_le_iff.mpr fun child hchild => (h child hchild).nesting

end Fits

end Node

end Assay
