import Mathlib
import Assay.Analysis
import Assay.Proofs.Parsing.Soundness
import Assay.Proofs.Token.Stream
import Assay.Proofs.Usage.Tree

/-!
# What tokens use

Each node that the usage of a tree counts is announced by one token of its phrase: a
declaration by its keyword, a loop by the word `while`, a conditional by the word `if` or
by a question mark, and each operator by its sign.  So the metrics of a program are counts
of its tokens.

Closed runs are evaluated here by equation lemmas that only the whole library holds.
-/

namespace Assay

/-- The signs that operate on the operands around or after them. -/
def operatorKinds : List TokenKind :=
  [.plus, .dash, .star, .slash, .percent, .and, .or, .less, .lessEquals, .greater,
   .greaterEquals, .equals, .notEquals, .not]

namespace TokenKind

/-- What a token of the kind announces. -/
def usage : TokenKind → Metrics
  | declareWord => .declaration
  | whileWord => .loop
  | ifWord | question => .conditional
  | plus | dash | star | slash | percent | and | or | less | lessEquals | greater
  | greaterEquals | equals | notEquals | not => .ofOperators 1
  | _ => 0

private theorem usage_eq (kind : TokenKind) :
    kind.usage = ⟨if kind = declareWord then 1 else 0, if kind = whileWord then 1 else 0,
      (if kind = ifWord then 1 else 0) + if kind = question then 1 else 0,
      if kind ∈ operatorKinds then 1 else 0⟩ := by
  cases kind <;> rfl

end TokenKind

def Token.usage (tokens : List Token) : Metrics := (tokens.map (·.kind.usage)).sum

namespace Token

@[simp] theorem usage_nil : usage [] = 0 := rfl

@[simp] theorem usage_cons (token : Token) (tokens : List Token) :
    usage (token :: tokens) = token.kind.usage + usage tokens := by
  simp [usage]

@[simp] theorem usage_append (tokens more : List Token) :
    usage (tokens ++ more) = usage tokens + usage more := by
  simp [usage]

private theorem usage_eq_counts (tokens : List Token) :
    usage tokens = ⟨tokens.countP (·.kind = .declareWord), tokens.countP (·.kind = .whileWord),
      tokens.countP (·.kind = .ifWord) + tokens.countP (·.kind = .question),
      tokens.countP (·.kind ∈ operatorKinds)⟩ := by
  induction tokens with
  | nil => rfl
  | cons token tokens ih =>
      rw [usage_cons, ih, TokenKind.usage_eq]
      simp only [Metrics.add_def, List.countP_cons, decide_eq_true_eq,
        Metrics.mk.injEq]
      omega

end Token

namespace Grammar

/-! ## Linked operands -/

def linkUsage {σ : Type} (links : List (σ × Expr)) : Metrics :=
  .ofOperators links.length + Expr.usageAll (links.map Prod.snd)

private theorem linkUsage_cons {σ : Type} (sign : σ) (operand : Expr) (links : List (σ × Expr)) :
    linkUsage ((sign, operand) :: links) =
      .ofOperators 1 + (operand.usage + linkUsage links) := by
  simp only [linkUsage, List.length_cons, List.map_cons, Expr.usageAll, Metrics.ofOperators_add]
  abel

private theorem linkUsage_append {σ : Type} (first second : List (σ × Expr)) :
    linkUsage (first ++ second) = linkUsage first + linkUsage second := by
  induction first with
  | nil => simp [linkUsage, Expr.usageAll]
  | cons link links ih =>
      rw [List.cons_append, linkUsage_cons, linkUsage_cons, ih]
      abel

private theorem usage_chained (family : Family) (first : Expr)
    (links : List (Operator family × Expr)) :
    (chained family first links).usage = first.usage + linkUsage links := by
  cases links with
  | nil => simp [linkUsage, Expr.usageAll]
  | cons link links =>
      simp only [chained, Expr.usage, Expr.usageAll, linkUsage, List.length_cons, List.map_cons,
        List.length_map, Nat.add_sub_cancel]
      exact add_left_comm _ _ _

private theorem usage_compared (first : Expr) (links : List (Comparator × Expr)) :
    (compared first links).usage = first.usage + linkUsage links := by
  cases links with
  | nil => simp [compared, linkUsage, Expr.usageAll]
  | cons link links =>
      simp only [compared, Expr.usage, Expr.usageAll, linkUsage, List.length_cons, List.map_cons,
        List.length_map, Nat.add_sub_cancel]
      exact add_left_comm _ _ _

private theorem usage_comparedInRuns (first : Expr) (links : List (Comparator × Expr)) :
    (comparedInRuns first links).usage = first.usage + linkUsage links := by
  have hruns (runs : List (List (Comparator × Expr))) (left : Expr) :
      (runs.foldl compared left).usage = left.usage + linkUsage runs.flatten := by
    induction runs generalizing left with
    | nil => simp [linkUsage, Expr.usageAll]
    | cons run runs ih =>
        rw [List.foldl_cons, ih, usage_compared, List.flatten_cons, linkUsage_append, add_assoc]
  rw [comparedInRuns, hruns, List.flatten_splitBy]

/-! ## Expressions -/

private theorem usage_unarySign (operator : UnaryOperator) :
    operator.sign.usage = .ofOperators 1 := by
  cases operator <;> rfl

private theorem usage_operatorSign {family : Family} (operator : Operator family) :
    operator.sign.usage = .ofOperators 1 := by
  cases operator <;> rfl

private theorem usage_comparatorSign (operator : Comparator) :
    operator.sign.usage = .ofOperators 1 := by
  cases operator <;> rfl

mutual

theorem Derives.usage_eq {limit level : Nat} {category : Category} {tokens : List Token}
    {tree : Expr} (h : Derives limit category level tokens tree) :
    Token.usage tokens = tree.usage := by
  match h with
  | .plain hlogical => exact hlogical.usage_eq
  | .ternary hquestion hcolon hcondition hwhenTrue hwhenFalse =>
      simp only [Token.usage_append, Token.usage_cons, hquestion, hcolon, TokenKind.usage,
        hcondition.usage_eq, hwhenTrue.usage_eq, hwhenFalse.usage_eq, Expr.usage, Expr.usageAll,
        List.length_cons, List.length_nil, if_true, add_zero, zero_add]
      exact add_left_comm _ _ _
  | .chain _ hfirst hlinks =>
      rw [Token.usage_append, hfirst.usage_eq, hlinks.usage_eq usage_operatorSign, usage_chained]
  | .comparison hfirst hlinks =>
      rw [Token.usage_append, hfirst.usage_eq, hlinks.usage_eq usage_comparatorSign,
        usage_comparedInRuns]
  | .unary _ hsign hoperand =>
      rw [Token.usage_cons, hsign, usage_unarySign, hoperand.usage_eq, Expr.usage]
  | .primary _ hprimary => exact hprimary.usage_eq
  | .integer hkind _ | .float hkind _ | .trueLiteral hkind | .falseLiteral hkind | .read hkind =>
      rw [Token.usage_cons, hkind]
      rfl
  | .list hopening hclosing helements =>
      simp only [Token.usage_append, Token.usage_cons, Token.usage_nil, hopening, hclosing,
        TokenKind.usage, helements.usage_eq, Expr.usage, add_zero, zero_add]
  | .group hopening hclosing hinner =>
      simp only [Token.usage_append, Token.usage_cons, Token.usage_nil, hopening, hclosing,
        TokenKind.usage, hinner.usage_eq, add_zero, zero_add]

theorem Links.usage_eq {limit level : Nat} {σ : Type} {sign : σ → TokenKind}
    {category : Category} {tokens : List Token} {links : List (σ × Expr)}
    (h : Links limit sign category level tokens links)
    (husage : ∀ operator, (sign operator).usage = .ofOperators 1) :
    Token.usage tokens = linkUsage links := by
  match h with
  | .nil => rfl
  | .cons hsign hoperand hlinks =>
      rw [Token.usage_cons, Token.usage_append, hsign, husage, hoperand.usage_eq,
        hlinks.usage_eq husage, linkUsage_cons]

theorem Elements.usage_eq {limit level : Nat} {tokens : List Token} {elements : List Expr}
    (h : Elements limit level tokens elements) :
    Token.usage tokens = Expr.usageAll elements := by
  match h with
  | .nil => rfl
  | .last helement => rw [helement.usage_eq, Expr.usageAll, Expr.usageAll, add_zero]
  | .cons hcomma helement helements =>
      simp only [Token.usage_append, Token.usage_cons, hcomma, TokenKind.usage,
        helement.usage_eq, helements.usage_eq, Expr.usageAll, zero_add]

end

/-! ## Statements -/

theorem InitialValue.usage_eq {limit blocks : Nat} {tokens : List Token} {value? : Option Expr}
    (h : InitialValue limit blocks tokens value?) (name : Identifier) (typeName : String)
    (span : Span) :
    .declaration + Token.usage tokens = (Stmt.declare name typeName value? span).usage := by
  cases h with
  | absent => rfl
  | present hequals hvalue =>
      simp only [Token.usage_cons, hequals, TokenKind.usage, hvalue.usage_eq, Stmt.usage, zero_add]

theorem Guard.usage_eq {limit blocks : Nat} {tokens : List Token} {condition : Condition}
    (h : Guard limit blocks tokens condition) : Token.usage tokens = condition.usage := by
  cases h with
  | mk hopening hclosing hexpr =>
      simp only [Token.usage_append, Token.usage_cons, Token.usage_nil, hopening, hclosing,
        TokenKind.usage, hexpr.usage_eq, Condition.usage, add_zero, zero_add]

mutual

theorem Statement.usage_eq {limit blocks : Nat} {tokens : List Token} {stmt : Stmt}
    (h : Statement limit blocks tokens stmt) : Token.usage tokens = stmt.usage := by
  match h with
  | .declare hword hname hcolon htypeName hsemicolon hvalue =>
      rw [← hvalue.usage_eq]
      simp only [Token.usage_append, Token.usage_cons, Token.usage_nil, hword, hname, hcolon,
        htypeName, hsemicolon, TokenKind.usage, add_zero, zero_add]
  | .assign hname hequals hsemicolon hvalue =>
      simp only [Token.usage_append, Token.usage_cons, Token.usage_nil, hname, hequals, hsemicolon,
        TokenKind.usage, hvalue.usage_eq, Stmt.usage, add_zero, zero_add]
  | .branch hword hcondition hthenBody helseBody =>
      rw [← helseBody.usage_eq]
      simp only [Token.usage_append, Token.usage_cons, hword, TokenKind.usage,
        hcondition.usage_eq, hthenBody.usage_eq, add_assoc]
  | .loop hword hcondition hbody =>
      simp only [Token.usage_append, Token.usage_cons, hword, TokenKind.usage,
        hcondition.usage_eq, hbody.usage_eq, Stmt.usage, add_assoc]
  | .doLoop hword hwhile hsemicolon hbody hcondition =>
      -- The word `while` comes after the body, whose usage the tree counts second.
      simp only [Token.usage_append, Token.usage_cons, Token.usage_nil, hword, hwhile, hsemicolon,
        TokenKind.usage, hbody.usage_eq, hcondition.usage_eq, Stmt.usage, add_zero, zero_add]
      abel

theorem Braced.usage_eq {limit blocks : Nat} {tokens : List Token} {block : Block}
    (h : Braced limit blocks tokens block) : Token.usage tokens = block.usage := by
  match h with
  | .mk _ hopening hclosing hbody =>
      simp only [Token.usage_append, Token.usage_cons, Token.usage_nil, hopening, hclosing,
        TokenKind.usage, hbody.usage_eq, Block.usage, add_zero, zero_add]

theorem ElseBody.usage_eq {limit blocks : Nat} {tokens : List Token} {elseBody? : Option Block}
    (h : ElseBody limit blocks tokens elseBody?) (condition : Condition) (thenBody : Block)
    (span : Span) :
    .conditional + condition.usage + thenBody.usage + Token.usage tokens =
      (Stmt.branch condition thenBody elseBody? span).usage := by
  match h with
  | .absent => exact add_zero _
  | .present hword hbody =>
      simp only [Token.usage_cons, hword, TokenKind.usage, hbody.usage_eq, Stmt.usage, zero_add]

theorem Statements.usage_eq {limit blocks : Nat} {tokens : List Token} {stmts : List Stmt}
    (h : Statements limit blocks tokens stmts) :
    Token.usage tokens = Stmt.usageAll stmts := by
  match h with
  | .nil => rfl
  | .cons hstmt hstmts =>
      rw [Token.usage_append, hstmt.usage_eq, hstmts.usage_eq, Stmt.usageAll]

end

end Grammar

/-! ## Programs -/

private theorem usage_beforeEnd_of_parse {file : String} {tokens : List Token} {program : Block}
    (h : parse tokens file = .ok program) :
    Token.usage (Token.beforeEnd tokens) = program.usage := by
  have hprogram := Parse.program_sound h
  rw [← program.usage_eraseSpans]
  generalize program.eraseSpans = tree at hprogram
  cases hprogram with
  | mk hbody => exact hbody.usage_eq

private theorem usage_of_tokenize {source : String} {file? : Option String} {tokens : List Token}
    (h : tokenize source file? = .ok tokens) :
    Token.usage tokens = Token.usage (Token.beforeEnd tokens) := by
  have hcuts := cuts_tokenize source file?
  rw [h] at hcuts
  obtain ⟨before, rfl, hbefore⟩ := hcuts.ends
  have hkept (position : Position) :
      Token.beforeEnd (before ++ [Token.endAt position]) = before := by
    rw [Token.beforeEnd_append _ hbefore]
    simp [Token.beforeEnd, Token.endAt]
  rw [hkept, Token.usage_append]
  exact add_zero _

/-- The metrics of a source are counts of its tokens. -/
theorem metrics_eq_token_counts {source file : String} {metrics : Metrics}
    (h : analyze source file = .ok metrics) :
    ∃ tokens, tokenize source (some file) = .ok tokens ∧
      metrics.declarations = tokens.countP (·.kind = .declareWord) ∧
      metrics.loops = tokens.countP (·.kind = .whileWord) ∧
      metrics.conditionals =
        tokens.countP (·.kind = .ifWord) + tokens.countP (·.kind = .question) ∧
      metrics.operators = tokens.countP (·.kind ∈ operatorKinds) := by
  obtain ⟨tokens, program, htokens, hprogram, hmetrics⟩ := analyze_eq_ok.mp h
  have hcounts : metrics = Token.usage tokens := by
    rw [Block.metrics_eq_usage hmetrics, ← usage_beforeEnd_of_parse hprogram,
      ← usage_of_tokenize htokens]
  rw [Token.usage_eq_counts] at hcounts
  refine ⟨tokens, htokens, ?_⟩
  rw [hcounts]
  exact ⟨rfl, rfl, rfl, rfl⟩

theorem metrics_eq_token_counts_nested :
    ∃ tokens, tokenize
      "declare x: int = 1 * -3; while (!(x < 3)) \x7b if (true) \x7b x = x == 2 ? 1 : 0; \x7d \x7d"
      (some "demo") = .ok tokens ∧
      1 = tokens.countP (·.kind = .declareWord) ∧ 1 = tokens.countP (·.kind = .whileWord) ∧
      2 = tokens.countP (·.kind = .ifWord) + tokens.countP (·.kind = .question) ∧
      5 = tokens.countP (·.kind ∈ operatorKinds) := by
  have hanalyze : analyze
      "declare x: int = 1 * -3; while (!(x < 3)) \x7b if (true) \x7b x = x == 2 ? 1 : 0; \x7d \x7d"
      "demo" = .ok ⟨1, 1, 2, 5⟩ := by
    cbv
  exact metrics_eq_token_counts hanalyze

end Assay
