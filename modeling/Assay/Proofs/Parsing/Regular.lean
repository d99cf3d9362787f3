import Mathlib
import Assay.Proofs.Parsing.Soundness
import Assay.Proofs.Tree.Regular
import Assay.Token.Stream

/-!
# Parsing builds regular trees

Whatever a step of the parser yields is proper, from whatever cursor it starts.  The forms for
chains and comparisons have something to show: their loops could stop at once, but an expression
is continued in such a form only where the first token is one of its operators.  Each block
takes a level, so blocks are nested no deeper than there are levels.

Closed runs are evaluated here by equation lemmas that only the whole library holds.
-/

namespace Assay

open Node (Proper Fits)

namespace Parse

/-! ## What a step yields -/

def Builds {α : Type} (step : Parse α) (property : α → Prop) : Prop :=
  ∀ start, Ensures step start (fun value _ => property value) fun _ _ => True

namespace Builds

variable {α β : Type} {step : Parse α} {following : α → Parse β} {property : α → Prop}
  {goal : β → Prop}

theorem pure {value : α} (h : property value) : Builds (Pure.pure value) property := fun _ => h

theorem reject (cause : String → Cause) : Builds (reject cause) property := fun _ => trivial

theorem tooDeep : Builds tooDeep property := fun _ => trivial

theorem bind (hstep : Builds step property)
    (hfollowing : ∀ value, property value → Builds (following value) goal) :
    Builds (step >>= following) goal := by
  intro start
  refine .bind ((hstep start).mono ?_ fun _ _ h => h)
  intro value stop hvalue
  exact hfollowing value hvalue stop

theorem after (hfollowing : ∀ value, Builds (following value) goal) :
    Builds (step >>= following) goal := by
  have hstep : Builds step fun _ => True := by
    intro start
    exact (Ensures.of_run step start).mono (fun _ _ _ => trivial) fun _ _ _ => trivial
  exact hstep.bind fun value _ => hfollowing value

end Builds

/-! ## Opening forms -/

private theorem number_builds {α : Type} (read? : String → Option α) {build : α → Span → Expr}
    (h : ∀ value span, Proper (.expr (build value span))) :
    Builds (number read? build) fun tree => Proper (.expr tree) := by
  intro start
  unfold Ensures number
  cases read? start.current.text with
  | none => trivial
  | some value => exact h value _

private theorem atom_builds : Builds atom fun tree => Proper (.expr tree) := by
  refine .after fun kind => ?_
  split
  · exact number_builds _ fun _ _ => .of_operands trivial (by simp) (by simp [Expr.operands])
  · exact number_builds _ fun _ _ => .of_operands trivial (by simp) (by simp [Expr.operands])
  · exact .after fun _ => .pure (.of_operands trivial (by simp) (by simp [Expr.operands]))
  · exact .after fun _ => .pure (.of_operands trivial (by simp) (by simp [Expr.operands]))
  · exact .after fun _ => .pure (Node.proper_read _)
  · exact .reject _

section

variable {subexpression : Power → Parse Expr}
  (hsub : ∀ power, Builds (subexpression power) fun tree => Proper (.expr tree))

include hsub

private theorem unary_builds : Builds (unary subexpression) fun tree => Proper (.expr tree) := by
  refine .after fun sign => (hsub _).bind fun operand hoperand => .pure ?_
  exact .of_operands trivial (by simp) (by simpa [Expr.operands] using hoperand)

private theorem group_builds : Builds (group subexpression) fun tree => Proper (.expr tree) :=
  .after fun _ => (hsub _).bind fun _ hinner => .after fun _ => .pure hinner

private theorem elements_builds (rounds : List Token) :
    Builds (elements (subexpression .lowest) rounds) fun trees =>
      ∀ tree ∈ trees, Proper (.expr tree) := by
  induction rounds with
  | nil => exact .reject _
  | cons round rounds ih =>
      refine .after fun kind => ?_
      split
      · exact .pure (by simp)
      · refine (hsub _).bind fun first hfirst => .after fun kind => ?_
        split
        · refine .after fun _ => ih.bind fun others hothers => .pure ?_
          exact List.forall_mem_cons.mpr ⟨hfirst, hothers⟩
        · exact .pure (by simpa using hfirst)
        · exact fun _ => trivial

private theorem list_builds : Builds (list subexpression) fun tree => Proper (.expr tree) := by
  refine .after fun opening => .after fun rounds => ?_
  refine (elements_builds hsub rounds).bind fun elements helements => ?_
  refine .after fun _ => .after fun stop => .pure ?_
  exact .of_operands trivial (by simp) helements

private theorem opening_builds (form : OpeningForm) :
    Builds (opening subexpression form) fun tree => Proper (.expr tree) := by
  cases form with
  | atom => exact atom_builds
  | unary => exact unary_builds hsub
  | group => exact group_builds hsub
  | list => exact list_builds hsub

/-! ## Continuation forms -/

private theorem links_builds (power : Power) (family : Family) (rounds : List Token)
    (start : Cursor) :
    Ensures (links (subexpression power) family rounds) start
      (fun pair _ => pair.1.length = pair.2.length ∧ (∀ tree ∈ pair.2, Proper (.expr tree)) ∧
        ((family.operator? start.kind).isSome → pair.2 ≠ []))
      fun _ _ => True := by
  induction rounds generalizing start with
  | nil => trivial
  | cons round rounds ih =>
      rw [links]
      refine .of_eq (kind_bind_apply start _) ?_
      cases hoperator : family.operator? start.kind with
      | none => exact .pure ⟨rfl, by simp, by simp⟩
      | some operator =>
          have hlinks : Builds (links (subexpression power) family rounds) fun pair =>
              pair.1.length = pair.2.length ∧ ∀ tree ∈ pair.2, Proper (.expr tree) :=
            fun start => (ih start).mono (fun _ _ h => ⟨h.1, h.2.1⟩) fun _ _ h => h
          refine Builds.after (fun _ => ?_) start
          refine (hsub power).bind fun first hfirst => hlinks.bind fun pair hpair => .pure ?_
          exact ⟨by simp [hpair.1], List.forall_mem_cons.mpr ⟨hfirst, hpair.2⟩, by simp⟩

private theorem chain_builds {family : Family} {left : Expr} (power : Power) {start : Cursor}
    (hleft : Proper (.expr left)) (hoperator : (family.operator? start.kind).isSome) :
    Ensures (chain subexpression family power left) start (fun tree _ => Proper (.expr tree))
      fun _ _ => True := by
  rw [chain]
  refine .of_eq remaining_bind_rest (.bind ?_)
  refine (links_builds hsub power family start.rest start).mono ?_ fun _ _ h => h
  rintro ⟨operators, operands⟩ stop ⟨hlength, hoperands, hne⟩
  change operators.length = operands.length at hlength
  have hpos : 0 < operands.length := List.length_pos_iff.mpr (hne hoperator)
  refine .pure (.of_operands ?_ (by simp) (List.forall_mem_cons.mpr ⟨hleft, hoperands⟩))
  simp only [Node.Saturated, List.length_cons]
  omega

private theorem comparands_builds (power : Power) (sign : TokenKind) (rounds : List Token)
    (start : Cursor) :
    Ensures (comparands (subexpression power) sign rounds) start
      (fun trees _ => (∀ tree ∈ trees, Proper (.expr tree)) ∧ (start.kind = sign → trees ≠ []))
      fun _ _ => True := by
  induction rounds generalizing start with
  | nil => trivial
  | cons round rounds ih =>
      rw [comparands]
      refine .of_eq (kind_bind_apply start _) ?_
      by_cases hkind : start.kind = sign
      · have hcomparands : Builds (comparands (subexpression power) sign rounds) fun trees =>
            ∀ tree ∈ trees, Proper (.expr tree) :=
          fun start => (ih start).mono (fun _ _ h => h.1) fun _ _ h => h
        rw [if_pos hkind]
        refine Builds.after (fun _ => ?_) start
        refine (hsub power).bind fun first hfirst => hcomparands.bind fun others hothers => .pure ?_
        exact ⟨List.forall_mem_cons.mpr ⟨hfirst, hothers⟩, by simp⟩
      · rw [if_neg hkind]
        exact .pure ⟨by simp, fun h => absurd h hkind⟩

private theorem comparison_builds {left : Expr} (power : Power) (hleft : Proper (.expr left)) :
    Builds (comparison subexpression power left) fun tree => Proper (.expr tree) := by
  intro start
  rw [comparison]
  refine .of_eq (kind_bind_apply start _) ?_
  cases Comparator.ofKind? start.kind with
  | none => trivial
  | some comparator =>
      refine .of_eq remaining_bind_rest (.bind ?_)
      refine (comparands_builds hsub power start.kind start.rest start).mono ?_ fun _ _ h => h
      rintro operands stop ⟨hoperands, hne⟩
      have hpos : 0 < operands.length := List.length_pos_iff.mpr (hne rfl)
      refine .pure (.of_operands ?_ (by simp) (List.forall_mem_cons.mpr ⟨hleft, hoperands⟩))
      simp only [Node.Saturated, List.length_cons]
      omega

private theorem ternary_builds {condition : Expr} (hcondition : Proper (.expr condition)) :
    Builds (ternary subexpression condition) fun tree => Proper (.expr tree) := by
  refine .after fun _ => (hsub _).bind fun whenTrue hwhenTrue => .after fun _ => ?_
  refine (hsub _).bind fun whenFalse hwhenFalse => .pure ?_
  exact .of_operands rfl (by simp) (by simp [Expr.operands, hcondition, hwhenTrue, hwhenFalse])

private theorem continuation_builds {power : Power} {form : ContinuationForm} {left : Expr}
    {start : Cursor} (hform : Dialect.standard.continuation? start.kind = some form)
    (hleft : Proper (.expr left)) :
    Ensures (continuation subexpression power left form) start (fun tree _ => Proper (.expr tree))
      fun _ _ => True := by
  obtain ⟨-, rfl⟩ | ⟨family, operator, hsign, rfl⟩ | ⟨comparator, -, rfl⟩ :=
    Dialect.continuation?_cases hform
  · exact ternary_builds hsub hleft start
  · have hoperator := Family.operator?_eq_some_iff.mpr hsign
    exact chain_builds hsub power hleft (by simp [hoperator])
  · exact comparison_builds hsub power hleft start

private theorem continued_builds (power : Power) (rounds : List Token) {left : Expr}
    (hleft : Proper (.expr left)) :
    Builds (continued .standard subexpression power rounds left) fun tree =>
      Proper (.expr tree) := by
  induction rounds generalizing left with
  | nil => exact .reject _
  | cons round rounds ih =>
      intro start
      rw [continued]
      refine .of_eq (kind_bind_apply start _) ?_
      split
      · cases hform : Dialect.standard.continuation? start.kind with
        | none => trivial
        | some form =>
            refine .bind ((continuation_builds hsub hform hleft).mono ?_ fun _ _ h => h)
            intro tree stop htree
            exact ih htree stop
      · exact .pure hleft

end

private theorem expression_builds (levels : Nat) (power : Power) :
    Builds (expression .standard levels power) fun tree => Proper (.expr tree) := by
  induction levels generalizing power with
  | zero =>
      rw [expression]
      exact .tooDeep
  | succ levels ih =>
      refine .after fun kind => ?_
      split
      · exact .reject _
      · refine (opening_builds ih _).bind fun left hleft => .after fun rounds => ?_
        exact continued_builds ih power rounds hleft

/-! ## Statements -/

section

variable {expr : Parse Expr} {body : Parse Block} {limit : Nat}
  (hexpr : Builds expr fun tree => Proper (.expr tree))
  (hbody : Builds body fun block => Fits limit (.block block))

include hexpr

private theorem condition_builds :
    Builds (condition expr) fun guard => Proper (.condition guard) := by
  refine .after fun opening => hexpr.bind fun tree htree => ?_
  refine .after fun _ => .after fun stop => .pure ?_
  exact .of_children rfl (by simp) (by simpa [Node.children] using htree)

private theorem initialValue_builds :
    Builds (initialValue expr) fun value? => ∀ tree ∈ value?, Proper (.expr tree) := by
  refine .after fun kind => ?_
  split
  · exact .after fun _ => hexpr.bind fun tree htree => .pure (by simpa using htree)
  · exact .pure (by simp)

private theorem declare_builds : Builds (declare expr) fun stmt => Fits limit (.stmt stmt) := by
  refine .after fun word => .after fun name => .after fun _ => .after fun typeName => ?_
  refine (initialValue_builds hexpr).bind fun value? hvalue => ?_
  refine .after fun _ => .after fun stop => .pure (.stmt ?_)
  simpa [Node.children, Fits.name] using fun tree htree => Fits.expr (hvalue tree htree)

private theorem assign_builds : Builds (assign expr) fun stmt => Fits limit (.stmt stmt) := by
  refine .after fun name => .after fun _ => hexpr.bind fun value hvalue => ?_
  refine .after fun _ => .after fun stop => .pure (.stmt ?_)
  simp [Node.children, Fits.name, Fits.expr hvalue]

include hbody

omit hexpr in
private theorem elseBody_builds :
    Builds (elseBody body) fun body? => ∀ block ∈ body?, Fits limit (.block block) := by
  refine .after fun kind => ?_
  split
  · exact .after fun _ => hbody.bind fun block hblock => .pure (by simpa using hblock)
  · exact .pure (by simp)

private theorem branch_builds : Builds (branch expr body) fun stmt => Fits limit (.stmt stmt) := by
  refine .after fun word => (condition_builds hexpr).bind fun guard hguard => ?_
  refine hbody.bind fun thenBody hthenBody => ?_
  refine (elseBody_builds hbody).bind fun elseBody? helseBody => .after fun stop => .pure (.stmt ?_)
  simpa [Node.children, Fits.condition hguard, hthenBody] using helseBody

private theorem loop_builds : Builds (loop expr body) fun stmt => Fits limit (.stmt stmt) := by
  refine .after fun word => (condition_builds hexpr).bind fun guard hguard => ?_
  refine hbody.bind fun block hblock => .after fun stop => .pure (.stmt ?_)
  simp [Node.children, Fits.condition hguard, hblock]

private theorem doLoop_builds : Builds (doLoop expr body) fun stmt => Fits limit (.stmt stmt) := by
  refine .after fun word => hbody.bind fun block hblock => .after fun _ => ?_
  refine (condition_builds hexpr).bind fun guard hguard => ?_
  refine .after fun _ => .after fun stop => .pure (.stmt ?_)
  simp [Node.children, Fits.condition hguard, hblock]

private theorem statementWith_builds :
    Builds (statementWith .standard expr body) fun stmt => Fits limit (.stmt stmt) := by
  refine .after fun kind => ?_
  cases Dialect.standard.statement? kind with
  | none => exact fun _ => trivial
  | some form =>
      cases form with
      | declare => exact declare_builds hexpr
      | assign => exact assign_builds hexpr
      | branch => exact branch_builds hexpr hbody
      | loop => exact loop_builds hexpr hbody
      | doLoop => exact doLoop_builds hexpr hbody

private theorem statementsUntil_builds (ends : List TokenKind) (rounds : List Token) :
    Builds (statementsUntil ends (statementWith .standard expr body) rounds) fun stmts =>
      ∀ span, Fits (limit + 1) (.block ⟨stmts, span⟩) := by
  suffices h : Builds (statementsUntil ends (statementWith .standard expr body) rounds) fun stmts =>
      ∀ stmt ∈ stmts, Fits limit (.stmt stmt) by
    intro start
    refine (h start).mono (fun stmts _ hstmts span => .block ?_) fun _ _ h => h
    simpa [Node.children, Block.body] using hstmts
  induction rounds with
  | nil => exact .reject _
  | cons round rounds ih =>
      refine .after fun kind => ?_
      split
      · exact .pure (by simp)
      · refine (statementWith_builds hexpr hbody).bind fun first hfirst => ?_
        exact ih.bind fun others hothers => .pure (List.forall_mem_cons.mpr ⟨hfirst, hothers⟩)

end

private theorem blockWith_builds {body : Parse (List Stmt)} {limit : Nat}
    (hbody : Builds body fun stmts => ∀ span, Fits limit (.block ⟨stmts, span⟩)) :
    Builds (blockWith body) fun block => Fits limit (.block block) := by
  refine .after fun opening => hbody.bind fun stmts hstmts => ?_
  exact .after fun _ => .after fun stop => .pure (hstmts _)

private theorem block_builds (levels : Nat) :
    Builds (block .standard levels) fun block => Fits levels (.block block) := by
  induction levels with
  | zero => exact blockWith_builds .tooDeep
  | succ levels ih =>
      refine blockWith_builds (.after fun rounds => ?_)
      exact statementsUntil_builds (expression_builds levels .lowest) ih _ rounds

private theorem program_builds (file : String) :
    Builds (program .standard file) fun block => Fits (nestingLimit + 1) (.block block) := by
  refine .after fun rounds => ?_
  refine (statementsUntil_builds (expression_builds nestingLimit .lowest)
    (block_builds nestingLimit) _ rounds).bind ?_
  exact fun stmts hstmts => .after fun stop => .pure (hstmts _)

end Parse

open Relation (ReflTransGen)

/-- In a parsed program, every chain has at least two operands and an operator between any two
neighbours, a comparison at least two operands, a ternary three; every `value` reads a name that
has its span, and no other expression is a bare name; every condition is there.  And no more than
128 blocks are nested in one another, where the program as a whole is none. -/
theorem regular_of_parse {tokens : List Token} {file : String} {program : Block}
    (h : parse tokens file = .ok program) :
    (∀ node, ReflTransGen Node.HasChild (.block program) node →
      node.Saturated ∧ node.ReadsNames) ∧
    ∀ blocks, Node.Nested (program :: blocks) → blocks.length ≤ 128 := by
  obtain ⟨stop, hprogram⟩ := Parse.exists_program_of_parse h
  have hfits := (Parse.program_builds file _).of_ok hprogram
  refine ⟨hfits.proper.regular, ?_⟩
  intro blocks hblocks
  have hlength : blocks.length < Parse.nestingLimit + 1 :=
    Nat.lt_of_lt_of_le hblocks.length_lt hfits.nesting
  exact Nat.le_of_lt_succ hlength

theorem regular_of_parse_loops :
    ∃ tokens program,
      tokenize "while (a < 1 - b) { do { x = !(c ? [] : y); } while (true || d); }" none =
        .ok tokens ∧
      parse tokens "demo" = .ok program ∧ program.nesting = 3 ∧
      (∀ node, ReflTransGen Node.HasChild (.block program) node →
        node.Saturated ∧ node.ReadsNames) ∧
      ∀ blocks, Node.Nested (program :: blocks) → blocks.length ≤ 128 := by
  obtain ⟨tokens, htokens, hnesting⟩ : ∃ tokens,
      tokenize "while (a < 1 - b) { do { x = !(c ? [] : y); } while (true || d); }" none =
        .ok tokens ∧
      (parse tokens "demo").map Block.nesting = .ok 3 := ⟨_, by cbv, by cbv⟩
  cases hparse : parse tokens "demo" with
  | error diagnostic => simp [hparse, Except.map] at hnesting
  | ok program =>
      simp only [hparse, Except.map, Except.ok.injEq] at hnesting
      exact ⟨tokens, program, htokens, hparse, hnesting, regular_of_parse hparse⟩

end Assay
