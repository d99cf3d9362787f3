import Mathlib
import Assay.Proofs.Parsing.Completeness
import Assay.Proofs.Tree.Height
import Assay.Proofs.Tree.Sign
import Assay.Token.Stream

/-!
# Nesting and the height of trees

The limit on nesting counts the expressions that are open at once, and on each level an
expression grows by at most a node for each category of operators: the depth of every
parsed expression is bounded.  Its height is not.  Comparisons by operators in turn
restart one another on one level, and each restart is a node more.

Closed runs are evaluated here by equation lemmas that only the whole library holds.
-/

namespace Assay

namespace Grammar

/-! ## Linked operands -/

private theorem depth_chained {family : Family} {first : Expr}
    {links : List (Operator family × Expr)} {bound : Nat} (hfirst : first.depth ≤ bound)
    (hlinks : Expr.depthAll (links.map Prod.snd) ≤ bound) :
    (chained family first links).depth ≤ bound + 1 := by
  cases links with
  | nil => exact Nat.le_succ_of_le hfirst
  | cons link links => exact Nat.succ_le_succ (Nat.max_le.mpr ⟨hfirst, hlinks⟩)

/-- Only the first of several runs of comparisons adds a node: the others restart it. -/
theorem depth_comparedInRuns {first : Expr} {links : List (Comparator × Expr)} {bound : Nat}
    (hfirst : first.depth ≤ bound ∨
      first.depth ≤ bound + 1 ∧ ∀ link ∈ links.head?, first.restartedBy link.1)
    (hlinks : Expr.depthAll (links.map Prod.snd) ≤ bound) :
    (comparedInRuns first links).depth ≤ bound + 1 := by
  induction links using runs_induction generalizing first with
  | nil =>
      rw [comparedInRuns_nil]
      omega
  | run operator operand operands after hafter ih =>
      have hrestarts : first.depth ≤ bound ∨
          first.depth ≤ bound + 1 ∧ first.restartedBy operator := by
        simpa using hfirst
      have hoperands : Expr.depthAll (operand :: operands) ≤ bound ∧
          Expr.depthAll (after.map Prod.snd) ≤ bound := by
        rw [List.map_append, Expr.depthAll_append, List.map_map] at hlinks
        simpa [Function.comp_def] using Nat.max_le.mp hlinks
      rw [comparedInRuns_run_append first (List.cons_ne_nil _ _) hafter]
      refine ih (.inr ⟨?_, ?_⟩) hoperands.2
      · obtain hfirst | ⟨hfirst, hrestarted⟩ := hrestarts
        · simp only [Expr.depth]
          split <;> omega
        · simp only [Expr.depth, hrestarted, if_true]
          omega
      · intro link hlink
        simpa [Expr.restartedBy] using (hafter link hlink).symm

/-! ## Expressions -/

mutual

/-- The tighter the category and the deeper the level, the less there is left to grow. -/
theorem Derives.depth_le {limit level : Nat} {category : Category} {tokens : List Token}
    {tree : Expr} (h : Derives limit category level tokens tree) :
    tree.depth + min category.rank 6 ≤ 6 * (limit - level) + 8 := by
  match h with
  | .plain hlogical =>
      have := hlogical.depth_le
      simp only [Category.rank] at this ⊢
      omega
  | .ternary _ _ hcondition hwhenTrue hwhenFalse =>
      have := hwhenTrue.level_le nofun
      have := hcondition.depth_le
      have := hwhenTrue.depth_le
      have := hwhenFalse.depth_le
      simp only [Category.rank, Expr.depth, Expr.depthAll] at *
      omega
  | @Derives.chain _ _ family _ _ _ first links hfamily hfirst hlinks =>
      have := hfirst.depth_le
      have := hlinks.depth_le
      have hrank : category.tighter.rank = category.rank + 1 ∧ category.rank ≤ 5 := by
        cases category <;> cases hfamily <;> decide
      by_cases hnil : links = []
      · subst hnil
        rw [chained_nil]
        omega
      · have := hlinks.level_le (by cases category <;> cases hfamily <;> nofun) hnil
        have : (chained family first links).depth ≤ 6 * (limit - level) + 7 - category.rank + 1 :=
          depth_chained (by omega) (by omega)
        omega
  | @Derives.comparison _ _ _ _ first links hfirst hlinks =>
      have := hfirst.depth_le
      have := hlinks.depth_le
      simp only [Category.rank] at *
      by_cases hnil : links = []
      · subst hnil
        rw [comparedInRuns_nil]
        omega
      · have := hlinks.level_le nofun hnil
        have : (comparedInRuns first links).depth ≤ 6 * (limit - level) + 4 + 1 :=
          depth_comparedInRuns (.inl (by omega)) (by omega)
        omega
  | .unary hlevel _ hoperand =>
      have := hoperand.level_le nofun
      have := hoperand.depth_le
      simp only [Category.rank, Expr.depth] at *
      omega
  | .primary _ hprimary => exact hprimary.depth_le
  | .integer _ _ | .float _ _ | .trueLiteral _ | .falseLiteral _ | .read _ =>
      simp only [Category.rank, Expr.read, Expr.depth]
      omega
  | .list _ _ helements =>
      have := helements.depth_le
      simp only [Category.rank, Expr.depth]
      omega
  | .group _ _ hinner =>
      have := hinner.level_le nofun
      have := hinner.depth_le
      simp only [Category.rank] at *
      omega

theorem Links.depth_le {limit level : Nat} {σ : Type} {sign : σ → TokenKind}
    {category : Category} {tokens : List Token} {links : List (σ × Expr)}
    (h : Links limit sign category level tokens links) :
    Expr.depthAll (links.map Prod.snd) + min category.rank 6 ≤ 6 * (limit - level) + 8 := by
  match h with
  | .nil =>
      simp only [List.map_nil, Expr.depthAll]
      omega
  | .cons _ hoperand hlinks =>
      have := hoperand.depth_le
      have := hlinks.depth_le
      simp only [List.map_cons, Expr.depthAll]
      omega

theorem Elements.depth_le {limit level : Nat} {tokens : List Token} {elements : List Expr}
    (h : Elements limit level tokens elements) :
    Expr.depthAll elements ≤ 6 * (limit + 1 - level) + 1 := by
  match h with
  | .nil => exact Nat.zero_le _
  | .last helement =>
      have := helement.level_le nofun
      have := helement.depth_le
      simp only [Category.rank, Expr.depthAll] at *
      omega
  | .cons _ helement helements =>
      have := helement.level_le nofun
      have := helement.depth_le
      have := helements.depth_le
      simp only [Category.rank, Expr.depthAll] at *
      omega

end

/-! ## Statements -/

theorem Derives.depth_le_of_mem_parts {limit blocks : Nat} {tokens : List Token} {tree : Expr}
    (h : Derives limit .expression (blocks + 1) tokens tree) :
    ∀ part ∈ tree.parts, part.depth ≤ 8 * limit := by
  intro part hpart
  have := Expr.depth_le_of_mem_parts hpart
  have := h.level_le nofun
  have := h.depth_le
  simp only [Category.rank] at *
  omega

theorem Guard.depth_le {limit blocks : Nat} {tokens : List Token} {condition : Condition}
    (h : Guard limit blocks tokens condition) :
    ∀ part ∈ condition.parts, part.depth ≤ 8 * limit := by
  cases h with
  | mk _ _ hexpr => exact hexpr.depth_le_of_mem_parts

mutual

theorem Statement.depth_le {limit blocks : Nat} {tokens : List Token} {stmt : Stmt}
    (h : Statement limit blocks tokens stmt) : ∀ part ∈ stmt.parts, part.depth ≤ 8 * limit := by
  match h with
  | .declare _ _ _ _ _ hvalue =>
      cases hvalue with
      | absent => nofun
      | present _ hvalue => exact hvalue.depth_le_of_mem_parts
  | .assign _ _ _ hvalue => exact hvalue.depth_le_of_mem_parts
  | .branch _ hcondition hthenBody helseBody =>
      exact helseBody.depth_le hcondition.depth_le hthenBody.depth_le
  | .loop _ hcondition hbody =>
      exact List.forall_mem_append.mpr ⟨hcondition.depth_le, hbody.depth_le⟩
  | .doLoop _ _ _ hbody hcondition =>
      exact List.forall_mem_append.mpr ⟨hbody.depth_le, hcondition.depth_le⟩

theorem Braced.depth_le {limit blocks : Nat} {tokens : List Token} {body : Block}
    (h : Braced limit blocks tokens body) : ∀ part ∈ body.parts, part.depth ≤ 8 * limit := by
  match h with
  | .mk _ _ _ hbody => exact hbody.depth_le

theorem ElseBody.depth_le {limit blocks : Nat} {tokens : List Token} {elseBody? : Option Block}
    (h : ElseBody limit blocks tokens elseBody?) {condition : Condition} {thenBody : Block}
    {span : Span} (hcondition : ∀ part ∈ condition.parts, part.depth ≤ 8 * limit)
    (hthenBody : ∀ part ∈ thenBody.parts, part.depth ≤ 8 * limit) :
    ∀ part ∈ (Stmt.branch condition thenBody elseBody? span).parts, part.depth ≤ 8 * limit := by
  match h with
  | .absent => exact List.forall_mem_append.mpr ⟨hcondition, hthenBody⟩
  | .present _ hbody =>
      exact List.forall_mem_append.mpr
        ⟨hcondition, List.forall_mem_append.mpr ⟨hthenBody, hbody.depth_le⟩⟩

theorem Statements.depth_le {limit blocks : Nat} {tokens : List Token} {stmts : List Stmt}
    (h : Statements limit blocks tokens stmts) :
    ∀ part ∈ Stmt.partsAll stmts, part.depth ≤ 8 * limit := by
  match h with
  | .nil => nofun
  | .cons hstmt hstmts => exact List.forall_mem_append.mpr ⟨hstmt.depth_le, hstmts.depth_le⟩

end

end Grammar

private theorem depth_le_of_parse {tokens : List Token} {file : String} {program : Block}
    (h : parse tokens file = .ok program) {expr : Expr} (hexpr : expr ∈ program.parts) :
    expr.depth ≤ 8 * Parse.nestingLimit := by
  have hmem : expr.eraseSpans ∈ program.eraseSpans.parts := by
    rw [program.parts_eraseSpans]
    exact List.mem_map_of_mem hexpr
  rw [← expr.depth_eraseSpans]
  have hsound := Parse.program_sound h
  generalize program.eraseSpans = tree at hmem hsound
  cases hsound with
  | mk hbody => exact hbody.depth_le _ hmem

private theorem height_le_of_mem_parts {tokens : List Token} {file : String} {program : Block}
    (h : parse tokens file = .ok program) {expr : Expr} (hexpr : expr ∈ program.parts) :
    expr.height ≤ 8 * Parse.nestingLimit + expr.restarts := by
  have := depth_le_of_parse h hexpr
  have := expr.height_le
  omega

/-! ## Restarts without end -/

def alternation : Nat → List (Comparator × Expr)
  | 0 => []
  | steps + 1 =>
      (if steps % 2 = 0 then .equals else .notEquals, .bool true .null) :: alternation steps

def alternationTokens (steps : Nat) : List Token :=
  (alternation steps).flatMap fun link => [link.1.token, .fixed .trueWord]

open Grammar

private theorem derives_true {limit level : Nat} (hlevel : level ≤ limit) :
    Derives limit .additive level [.fixed .trueWord] (.bool true .null) := by
  have hprimary : Derives limit .primary level [.fixed .trueWord] (.bool true .null) :=
    .trueLiteral rfl
  exact hprimary.loosen hlevel (by decide)

private theorem links_alternation {limit level : Nat} (hlevel : level ≤ limit) (steps : Nat) :
    Links limit Comparator.sign .additive level (alternationTokens steps) (alternation steps) := by
  induction steps with
  | zero => exact .nil
  | succ steps ih => exact .cons rfl (derives_true hlevel) ih

private theorem kind_alternationTokens (steps : Nat) :
    ∀ token ∈ alternationTokens steps, token.kind ≠ .endOfInput := by
  intro token htoken
  obtain ⟨link, -, hlink⟩ := List.mem_flatMap.mp htoken
  simp only [List.mem_cons, List.not_mem_nil, or_false] at hlink
  rcases hlink with rfl | rfl
  · cases link.1 <;> decide
  · decide

private theorem head_alternation (steps : Nat) :
    ∀ link ∈ (alternation steps).head?,
      link.1 ≠ if steps % 2 = 0 then Comparator.equals else .notEquals := by
  cases steps with
  | zero => nofun
  | succ steps =>
      simp only [alternation, List.head?_cons, Option.mem_some_iff, forall_eq']
      split <;> split <;> first | omega | decide

private theorem height_alternation {first : Expr} (hfirst : 1 ≤ first.height) (steps : Nat) :
    (comparedInRuns first (alternation steps)).height = first.height + steps := by
  induction steps generalizing first with
  | zero => rfl
  | succ steps ih =>
      have hrun := comparedInRuns_run_append first
        (List.cons_ne_nil (Expr.bool true .null) []) (head_alternation steps)
      rw [List.map_cons, List.map_nil, List.singleton_append] at hrun
      rw [alternation, hrun, ih (by simp [Expr.height])]
      simp only [Expr.height, Expr.heightAll]
      omega

private theorem exists_parse_height (steps : Nat) (file : String) :
    ∃ tokens program, parse tokens file = .ok program ∧
      ∃ expr ∈ program.parts, expr.height = steps + 1 := by
  let value := comparedInRuns (.bool true .null) (alternation steps)
  let tokens : List Token := .unplaced .identifier "b" :: .fixed .assignment ::
    ((.fixed .trueWord :: alternationTokens steps) ++ [.fixed .semicolon])
  have hvalue : Derives Parse.nestingLimit .comparison 1
      (.fixed .trueWord :: alternationTokens steps) value :=
    .comparison (derives_true (by decide)) (links_alternation (by decide) steps)
  have hstatement : Statement Parse.nestingLimit 0 tokens (.assign ⟨"b", .null⟩ value .null) :=
    .assign rfl rfl rfl (hvalue.loosen (by decide) (by decide))
  have hinside : ∀ token ∈ tokens, token.kind ≠ .endOfInput := by
    simpa [tokens, or_imp, forall_and] using kind_alternationTokens steps
  have hprogram : Program Parse.nestingLimit (Token.beforeEnd tokens)
      ⟨[.assign ⟨"b", .null⟩ value .null], .null⟩ := by
    rw [← List.append_nil tokens, Token.beforeEnd_append _ hinside]
    exact .mk (.cons hstatement .nil)
  obtain ⟨program, hparse, htree⟩ := Parse.program_complete file hprogram
  refine ⟨tokens, program, hparse, ?_⟩
  have hmem : value ∈ program.eraseSpans.parts := by
    rw [htree]
    exact List.mem_append_left _ value.mem_parts_self
  rw [program.parts_eraseSpans] at hmem
  obtain ⟨expr, hexpr, herased⟩ := List.mem_map.mp hmem
  refine ⟨expr, hexpr, ?_⟩
  have hfirst : 1 ≤ (Expr.bool true .null).height := Nat.le_refl 1
  have hheight : value.height = 1 + steps := height_alternation hfirst steps
  rw [← expr.height_eraseSpans, herased, hheight, Nat.add_comm]

/-! ## The height of parsed expressions -/

/-- Apart from restarts, the nesting limit bounds the height of parsed expressions.  Nothing
bounds their restarts, and there are expressions of every height. -/
theorem height_le_of_parse (file : String) :
    (∀ tokens program, parse tokens file = .ok program →
      ∀ expr ∈ program.parts, expr.height ≤ 8 * Parse.nestingLimit + expr.restarts) ∧
    (∀ bound, ∃ tokens program, parse tokens file = .ok program ∧
      ∃ expr ∈ program.parts, bound < expr.restarts) ∧
    ∀ height, 0 < height → ∃ tokens program, parse tokens file = .ok program ∧
      ∃ expr ∈ program.parts, expr.height = height := by
  refine ⟨fun tokens program h expr => height_le_of_mem_parts h, ?_, ?_⟩
  · intro bound
    obtain ⟨tokens, program, hparse, expr, hexpr, hheight⟩ :=
      exists_parse_height (8 * Parse.nestingLimit + bound) file
    have hle := height_le_of_mem_parts hparse hexpr
    exact ⟨tokens, program, hparse, expr, hexpr, by omega⟩
  · intro height hpos
    obtain ⟨tokens, program, hparse, expr, hexpr, hheight⟩ := exists_parse_height (height - 1) file
    exact ⟨tokens, program, hparse, expr, hexpr, by omega⟩

theorem height_le_of_parse_restarted :
    ∃ tokens program, tokenize "b = 1 < 2 == true != [3];" none = .ok tokens ∧
      parse tokens "demo" = .ok program ∧
      program.parts.map (fun expr => (expr.height, expr.restarts)) =
        [(4, 2), (3, 1), (2, 0), (1, 0), (1, 0), (1, 0), (2, 0), (1, 0)] ∧
      ∀ expr ∈ program.parts, expr.height ≤ 8 * Parse.nestingLimit + expr.restarts := by
  obtain ⟨tokens, htokens, hparts⟩ : ∃ tokens,
      tokenize "b = 1 < 2 == true != [3];" none = .ok tokens ∧
      (parse tokens "demo").map
          (fun program => program.parts.map fun expr => (expr.height, expr.restarts)) =
        .ok [(4, 2), (3, 1), (2, 0), (1, 0), (1, 0), (1, 0), (2, 0), (1, 0)] :=
    ⟨_, by cbv, by cbv⟩
  cases hparse : parse tokens "demo" with
  | error diagnostic => simp [hparse, Except.map] at hparts
  | ok program =>
      simp only [hparse, Except.map, Except.ok.injEq] at hparts
      exact ⟨tokens, program, htokens, hparse, hparts,
        (height_le_of_parse "demo").1 tokens program hparse⟩

/-- Comparisons by operators in turn are parsed to any height, whatever the limit. -/
theorem not_height_le_nestingLimit :
    ¬ ∀ tokens file program, parse tokens file = .ok program →
      ∀ expr ∈ program.parts, expr.height ≤ 8 * Parse.nestingLimit := by
  intro hbounded
  obtain ⟨tokens, program, hparse, expr, hexpr, hheight⟩ :=
    exists_parse_height (8 * Parse.nestingLimit) "demo"
  have := hbounded tokens "demo" program hparse expr hexpr
  omega

end Assay
