import Assay.Proofs.Parsing.Soundness
import Assay.Proofs.Tree.Shape

/-!
# Parsing builds formed trees

Each rule of the grammar yields a formed tree from formed trees.  The rules for linked
operands are the ones with something to show: a chain has an operand more than it has
links, and a lone operand makes no chain.
-/

namespace Assay

namespace Grammar

/-! ## Linked operands -/

private theorem formed_chained {family : Family} {first : Expr}
    {links : List (Operator family × Expr)}
    (hfirst : first.Formed) (hlinks : Expr.AllFormed (links.map Prod.snd)) :
    (chained family first links).Formed := by
  cases links with
  | nil => exact hfirst
  | cons link links => exact ⟨by simp, hfirst, hlinks⟩

private theorem formed_compared {first : Expr} {links : List (Comparator × Expr)}
    (hfirst : first.Formed) (hlinks : Expr.AllFormed (links.map Prod.snd)) :
    (compared first links).Formed := by
  cases links with
  | nil => exact hfirst
  | cons link links => exact ⟨by simp, hfirst, hlinks⟩

private theorem formed_comparedInRuns {first : Expr} {links : List (Comparator × Expr)}
    (hfirst : first.Formed) (hlinks : Expr.AllFormed (links.map Prod.snd)) :
    (comparedInRuns first links).Formed := by
  have hruns (runs : List (List (Comparator × Expr))) (left : Expr) (hleft : left.Formed)
      (hrun : ∀ run ∈ runs, Expr.AllFormed (run.map Prod.snd)) :
      (runs.foldl compared left).Formed := by
    induction runs generalizing left with
    | nil => exact hleft
    | cons run runs ih =>
        obtain ⟨hrun, hruns⟩ := List.forall_mem_cons.mp hrun
        exact ih _ (formed_compared hleft hrun) hruns
  refine hruns _ first hfirst fun run hrun => ?_
  simp only [Expr.allFormed_iff, List.forall_mem_map] at hlinks ⊢
  intro link hlink
  refine hlinks link ?_
  rw [← List.flatten_splitBy (fun left right => left.1 = right.1) links]
  exact List.mem_flatten.mpr ⟨run, hrun, hlink⟩

/-! ## Expressions -/

mutual

theorem Derives.formed {limit level : Nat} {category : Category} {tokens : List Token}
    {tree : Expr} (h : Derives limit category level tokens tree) : tree.Formed := by
  match h with
  | .plain hlogical => exact hlogical.formed
  | .ternary _ _ hcondition hwhenTrue hwhenFalse =>
      exact ⟨rfl, hcondition.formed, hwhenTrue.formed, hwhenFalse.formed, trivial⟩
  | .chain _ hfirst hlinks => exact formed_chained hfirst.formed hlinks.formed
  | .comparison hfirst hlinks => exact formed_comparedInRuns hfirst.formed hlinks.formed
  | .unary _ _ hoperand => exact hoperand.formed
  | .primary _ hprimary => exact hprimary.formed
  | .integer _ _ | .float _ _ | .trueLiteral _ | .falseLiteral _ | .read _ => trivial
  | .list _ _ helements => exact helements.formed
  | .group _ _ hinner => exact hinner.formed

theorem Links.formed {limit level : Nat} {σ : Type} {sign : σ → TokenKind}
    {category : Category} {tokens : List Token} {links : List (σ × Expr)}
    (h : Links limit sign category level tokens links) :
    Expr.AllFormed (links.map Prod.snd) := by
  match h with
  | .nil => trivial
  | .cons _ hoperand hlinks => exact ⟨hoperand.formed, hlinks.formed⟩

theorem Elements.formed {limit level : Nat} {tokens : List Token} {elements : List Expr}
    (h : Elements limit level tokens elements) : Expr.AllFormed elements := by
  match h with
  | .nil => trivial
  | .last helement => exact ⟨helement.formed, trivial⟩
  | .cons _ helement helements => exact ⟨helement.formed, helements.formed⟩

end

/-! ## Statements -/

theorem Guard.formed {limit blocks : Nat} {tokens : List Token} {condition : Condition}
    (h : Guard limit blocks tokens condition) : condition.Formed := by
  cases h with
  | mk _ _ hexpr => exact hexpr.formed

mutual

theorem Statement.formed {limit blocks : Nat} {tokens : List Token} {stmt : Stmt}
    (h : Statement limit blocks tokens stmt) : stmt.Formed := by
  match h with
  | .declare _ _ _ _ _ hvalue =>
      cases hvalue with
      | absent => trivial
      | present _ hvalue => exact hvalue.formed
  | .assign _ _ _ hvalue => exact hvalue.formed
  | .branch _ hcondition hthenBody helseBody =>
      exact helseBody.formed hcondition.formed hthenBody.formed
  | .loop _ hcondition hbody => exact ⟨hcondition.formed, hbody.formed⟩
  | .doLoop _ _ _ hbody hcondition => exact ⟨hbody.formed, hcondition.formed⟩

theorem Braced.formed {limit blocks : Nat} {tokens : List Token} {body : Block}
    (h : Braced limit blocks tokens body) : body.Formed := by
  match h with
  | .mk _ _ _ hbody => exact hbody.formed

theorem ElseBody.formed {limit blocks : Nat} {tokens : List Token} {elseBody? : Option Block}
    (h : ElseBody limit blocks tokens elseBody?) {condition : Condition} {thenBody : Block}
    {span : Span} (hcondition : condition.Formed) (hthenBody : thenBody.Formed) :
    (Stmt.branch condition thenBody elseBody? span).Formed := by
  match h with
  | .absent => exact ⟨hcondition, hthenBody⟩
  | .present _ hbody => exact ⟨hcondition, hthenBody, hbody.formed⟩

theorem Statements.formed {limit blocks : Nat} {tokens : List Token} {stmts : List Stmt}
    (h : Statements limit blocks tokens stmts) : Stmt.AllFormed stmts := by
  match h with
  | .nil => trivial
  | .cons hstmt hstmts => exact ⟨hstmt.formed, hstmts.formed⟩

end

theorem Program.formed {limit : Nat} {tokens : List Token} {tree : Block}
    (h : Program limit tokens tree) : tree.Formed := by
  cases h with
  | mk hbody => exact hbody.formed

end Grammar

theorem formed_of_parse {tokens : List Token} {file : String} {program : Block}
    (h : parse tokens file = .ok program) : program.Formed :=
  program.formed_eraseSpans.mp (Parse.program_sound h).formed

end Assay
