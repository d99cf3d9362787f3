import Assay.Proofs.Tree.Erasure

/-!
# The shape of trees that a source yields

A tree is formed if its nodes have the operands that their signs stand between: at least
two in a chain or a comparison, three in a ternary.  Names occur only where their value is
read, and every condition is there.  What a formed tree is made of is formed too.
-/

namespace Assay

mutual

def Expr.Formed : Expr → Prop
  | .integer _ _ | .float _ _ | .bool _ _ => True
  | .value (.identifier _) _ => True
  | .identifier _ | .hole _ | .value _ _ => False
  | .list elements _ => Expr.AllFormed elements
  | .unary _ operand _ => operand.Formed
  | .chain _ operands _ _ => 2 ≤ operands.length ∧ Expr.AllFormed operands
  | .comparison _ operands _ => 2 ≤ operands.length ∧ Expr.AllFormed operands
  | .ternary operands _ => operands.length = 3 ∧ Expr.AllFormed operands

def Expr.AllFormed : List Expr → Prop
  | [] => True
  | expr :: exprs => expr.Formed ∧ Expr.AllFormed exprs

end

def Condition.Formed (condition : Condition) : Prop :=
  match condition.expr? with
  | none => False
  | some expr => expr.Formed

mutual

def Stmt.Formed : Stmt → Prop
  | .declare _ _ none _ => True
  | .declare _ _ (some value) _ => value.Formed
  | .assign _ value _ => value.Formed
  | .branch condition thenBody none _ => condition.Formed ∧ thenBody.Formed
  | .branch condition thenBody (some elseBody) _ =>
      condition.Formed ∧ thenBody.Formed ∧ elseBody.Formed
  | .loop condition body _ => condition.Formed ∧ body.Formed
  | .doLoop body condition _ => body.Formed ∧ condition.Formed

def Block.Formed : Block → Prop
  | .mk body _ => Stmt.AllFormed body

def Stmt.AllFormed : List Stmt → Prop
  | [] => True
  | stmt :: stmts => stmt.Formed ∧ Stmt.AllFormed stmts

end

theorem Expr.allFormed_iff {exprs : List Expr} :
    Expr.AllFormed exprs ↔ ∀ expr ∈ exprs, expr.Formed := by
  induction exprs with
  | nil => simp [Expr.AllFormed]
  | cons expr exprs ih => simp [Expr.AllFormed, ih]

/-! ## Spans do not matter -/

mutual

private theorem Expr.formed_eraseSpans (expr : Expr) : expr.eraseSpans.Formed ↔ expr.Formed := by
  match expr with
  | .integer _ _ | .float _ _ | .bool _ _ | .identifier _ | .hole _ => exact Iff.rfl
  | .value inner _ => cases inner <;> exact Iff.rfl
  | .list elements _ => exact Expr.allFormed_eraseAll elements
  | .unary _ operand _ => exact operand.formed_eraseSpans
  | .chain _ operands _ _ | .comparison _ operands _ | .ternary operands _ =>
      have hlength : (Expr.eraseAll operands).length = operands.length := by simp
      simp only [Expr.eraseSpans, Expr.Formed, hlength, Expr.allFormed_eraseAll operands]

theorem Expr.allFormed_eraseAll (exprs : List Expr) :
    Expr.AllFormed (Expr.eraseAll exprs) ↔ Expr.AllFormed exprs := by
  match exprs with
  | [] => exact Iff.rfl
  | expr :: exprs => exact and_congr expr.formed_eraseSpans (Expr.allFormed_eraseAll exprs)

end

private theorem Condition.formed_eraseSpans (condition : Condition) :
    condition.eraseSpans.Formed ↔ condition.Formed := by
  obtain ⟨expr?, span⟩ := condition
  cases expr? with
  | none => exact Iff.rfl
  | some expr => exact expr.formed_eraseSpans

mutual

theorem Stmt.formed_eraseSpans (stmt : Stmt) : stmt.eraseSpans.Formed ↔ stmt.Formed := by
  match stmt with
  | .declare _ _ none _ => exact Iff.rfl
  | .declare _ _ (some tree) _ => exact tree.formed_eraseSpans
  | .assign _ tree _ => exact tree.formed_eraseSpans
  | .branch condition thenBody none _ =>
      exact and_congr condition.formed_eraseSpans thenBody.formed_eraseSpans
  | .branch condition thenBody (some elseBody) _ =>
      exact and_congr condition.formed_eraseSpans
        (and_congr thenBody.formed_eraseSpans elseBody.formed_eraseSpans)
  | .loop condition body _ => exact and_congr condition.formed_eraseSpans body.formed_eraseSpans
  | .doLoop body condition _ => exact and_congr body.formed_eraseSpans condition.formed_eraseSpans

theorem Block.formed_eraseSpans (block : Block) : block.eraseSpans.Formed ↔ block.Formed := by
  match block with
  | .mk body _ => exact Stmt.allFormed_eraseAll body

theorem Stmt.allFormed_eraseAll (stmts : List Stmt) :
    Stmt.AllFormed (Stmt.eraseAll stmts) ↔ Stmt.AllFormed stmts := by
  match stmts with
  | [] => exact Iff.rfl
  | stmt :: stmts => exact and_congr stmt.formed_eraseSpans (Stmt.allFormed_eraseAll stmts)

end

/-! ## What trees are made of -/

mutual

/-- The expression and every expression in it.  The name that a `value` reads is not one of
them. -/
def Expr.parts : Expr → List Expr
  | expr@(.integer _ _) | expr@(.float _ _) | expr@(.bool _ _) => [expr]
  | expr@(.identifier _) | expr@(.hole _) | expr@(.value (.identifier _) _) => [expr]
  | expr@(.value inner _) => expr :: inner.parts
  | expr@(.list elements _) => expr :: Expr.partsAll elements
  | expr@(.unary _ operand _) => expr :: operand.parts
  | expr@(.chain _ operands _ _) => expr :: Expr.partsAll operands
  | expr@(.comparison _ operands _) => expr :: Expr.partsAll operands
  | expr@(.ternary operands _) => expr :: Expr.partsAll operands

def Expr.partsAll : List Expr → List Expr
  | [] => []
  | expr :: exprs => expr.parts ++ Expr.partsAll exprs

end

def Condition.parts (condition : Condition) : List Expr :=
  match condition.expr? with
  | none => []
  | some expr => expr.parts

mutual

def Stmt.parts : Stmt → List Expr
  | .declare _ _ none _ => []
  | .declare _ _ (some value) _ => value.parts
  | .assign _ value _ => value.parts
  | .branch condition thenBody none _ => condition.parts ++ thenBody.parts
  | .branch condition thenBody (some elseBody) _ =>
      condition.parts ++ (thenBody.parts ++ elseBody.parts)
  | .loop condition body _ => condition.parts ++ body.parts
  | .doLoop body condition _ => body.parts ++ condition.parts

def Block.parts : Block → List Expr
  | .mk body _ => Stmt.partsAll body

def Stmt.partsAll : List Stmt → List Expr
  | [] => []
  | stmt :: stmts => stmt.parts ++ Stmt.partsAll stmts

end

mutual

theorem Expr.Formed.parts {expr : Expr} (h : expr.Formed) : ∀ part ∈ expr.parts, part.Formed := by
  match expr with
  | .integer _ _ | .float _ _ | .bool _ _ | .value (.identifier _) _ =>
      simpa [Expr.parts] using h
  | .list elements _ => exact List.forall_mem_cons.mpr ⟨h, Expr.AllFormed.parts h⟩
  | .unary _ operand _ => exact List.forall_mem_cons.mpr ⟨h, Expr.Formed.parts h⟩
  | .chain _ operands _ _ | .comparison _ operands _ | .ternary operands _ =>
      exact List.forall_mem_cons.mpr ⟨h, Expr.AllFormed.parts h.2⟩

theorem Expr.AllFormed.parts {exprs : List Expr} (h : Expr.AllFormed exprs) :
    ∀ part ∈ Expr.partsAll exprs, part.Formed := by
  match exprs with
  | [] => nofun
  | expr :: exprs =>
      exact List.forall_mem_append.mpr ⟨Expr.Formed.parts h.1, Expr.AllFormed.parts h.2⟩

end

theorem Condition.Formed.parts {condition : Condition} (h : condition.Formed) :
    ∀ part ∈ condition.parts, part.Formed := by
  obtain ⟨expr?, span⟩ := condition
  cases expr? with
  | none => nofun
  | some expr => exact Expr.Formed.parts h

mutual

theorem Stmt.Formed.parts {stmt : Stmt} (h : stmt.Formed) : ∀ part ∈ stmt.parts, part.Formed := by
  match stmt with
  | .declare _ _ none _ => nofun
  | .declare _ _ (some tree) _ => exact Expr.Formed.parts h
  | .assign _ tree _ => exact Expr.Formed.parts h
  | .branch condition thenBody none _ =>
      exact List.forall_mem_append.mpr ⟨h.1.parts, Block.Formed.parts h.2⟩
  | .branch condition thenBody (some elseBody) _ =>
      refine List.forall_mem_append.mpr ⟨h.1.parts, List.forall_mem_append.mpr ⟨?_, ?_⟩⟩
      · exact Block.Formed.parts h.2.1
      · exact Block.Formed.parts h.2.2
  | .loop condition body _ =>
      exact List.forall_mem_append.mpr ⟨h.1.parts, Block.Formed.parts h.2⟩
  | .doLoop body condition _ =>
      exact List.forall_mem_append.mpr ⟨Block.Formed.parts h.1, h.2.parts⟩

theorem Block.Formed.parts {block : Block} (h : block.Formed) :
    ∀ part ∈ block.parts, part.Formed := by
  match block with
  | .mk body _ => exact Stmt.AllFormed.parts h

theorem Stmt.AllFormed.parts {stmts : List Stmt} (h : Stmt.AllFormed stmts) :
    ∀ part ∈ Stmt.partsAll stmts, part.Formed := by
  match stmts with
  | [] => nofun
  | stmt :: stmts =>
      exact List.forall_mem_append.mpr ⟨Stmt.Formed.parts h.1, Stmt.AllFormed.parts h.2⟩

end

/-! ## Erasing spans in all parts -/

mutual

private theorem Expr.parts_eraseSpans (expr : Expr) :
    expr.eraseSpans.parts = expr.parts.map Expr.eraseSpans := by
  match expr with
  | .integer _ _ | .float _ _ | .bool _ _ | .identifier _ | .hole _ => rfl
  | .value inner _ =>
      have := inner.parts_eraseSpans
      cases inner <;> first | rfl | exact congrArg _ this
  | .unary _ operand _ => exact congrArg _ operand.parts_eraseSpans
  | .list operands _ | .chain _ operands _ _ | .comparison _ operands _ | .ternary operands _ =>
      exact congrArg _ (Expr.partsAll_eraseAll operands)

theorem Expr.partsAll_eraseAll (exprs : List Expr) :
    Expr.partsAll (Expr.eraseAll exprs) = (Expr.partsAll exprs).map Expr.eraseSpans := by
  match exprs with
  | [] => rfl
  | expr :: exprs =>
      simp only [Expr.eraseAll, Expr.partsAll, expr.parts_eraseSpans,
        Expr.partsAll_eraseAll exprs, List.map_append]

end

private theorem Condition.parts_eraseSpans (condition : Condition) :
    condition.eraseSpans.parts = condition.parts.map Expr.eraseSpans := by
  obtain ⟨expr?, span⟩ := condition
  cases expr? with
  | none => rfl
  | some expr => exact expr.parts_eraseSpans

mutual

theorem Stmt.parts_eraseSpans (stmt : Stmt) :
    stmt.eraseSpans.parts = stmt.parts.map Expr.eraseSpans := by
  match stmt with
  | .declare _ _ none _ => rfl
  | .declare _ _ (some tree) _ => exact tree.parts_eraseSpans
  | .assign _ tree _ => exact tree.parts_eraseSpans
  | .branch condition thenBody none _ | .loop condition thenBody _ | .doLoop thenBody condition _ =>
      simp only [Stmt.eraseSpans, Stmt.parts, condition.parts_eraseSpans,
        thenBody.parts_eraseSpans, List.map_append]
  | .branch condition thenBody (some elseBody) _ =>
      simp only [Stmt.eraseSpans, Stmt.parts, condition.parts_eraseSpans,
        thenBody.parts_eraseSpans, elseBody.parts_eraseSpans, List.map_append]

theorem Block.parts_eraseSpans (block : Block) :
    block.eraseSpans.parts = block.parts.map Expr.eraseSpans := by
  match block with
  | .mk body _ => exact Stmt.partsAll_eraseAll body

theorem Stmt.partsAll_eraseAll (stmts : List Stmt) :
    Stmt.partsAll (Stmt.eraseAll stmts) = (Stmt.partsAll stmts).map Expr.eraseSpans := by
  match stmts with
  | [] => rfl
  | stmt :: stmts =>
      simp only [Stmt.eraseAll, Stmt.partsAll, stmt.parts_eraseSpans,
        Stmt.partsAll_eraseAll stmts, List.map_append]

end

end Assay
