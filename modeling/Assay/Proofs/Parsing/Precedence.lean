import Assay.Parsing.Dialect
import Assay.Proofs.Parsing.Grammar

/-!
# Precedence

The grammar tells operators apart by category, the standard dialect by binding power.
Both are ranked, and the ranks agree: a category has the rank of the power of its own
operators, and what an operator takes as operand is of the next tighter category.
-/

namespace Assay

namespace Grammar

namespace Category

def rank : Category → Nat
  | expression => 1
  | logical => 2
  | comparison => 3
  | additive => 4
  | multiplicative => 5
  | unary => 6
  | primary => 7

private theorem rank_injective {left right : Category} (h : left.rank = right.rank) :
    left = right := by
  cases left <;> cases right <;> first | rfl | cases h

private theorem rank_tighter {category : Category} (h : category ≠ primary) :
    category.tighter.rank = category.rank + 1 := by
  cases category <;> first | rfl | exact absurd rfl h

end Category

/-! ## Loosening -/

theorem Derives.loosen_one {limit level : Nat} {category : Category} {tokens : List Token}
    {tree : Expr} (hlevel : level ≤ limit)
    (h : Derives limit category.tighter level tokens tree) :
    Derives limit category level tokens tree := by
  have chain {family : Family} (hfamily : category.family? = some family) :
      Derives limit category level tokens tree := by
    simpa using Derives.chain hfamily h .nil
  cases category with
  | expression => exact .plain h
  | logical => exact chain rfl
  | comparison => simpa using Derives.comparison h .nil
  | additive => exact chain rfl
  | multiplicative => exact chain rfl
  | unary => exact .primary hlevel h
  | primary => exact h

theorem Derives.loosen {limit level : Nat} {tight loose : Category} {tokens : List Token}
    {tree : Expr} (hlevel : level ≤ limit) (hrank : loose.rank ≤ tight.rank)
    (h : Derives limit tight level tokens tree) : Derives limit loose level tokens tree := by
  obtain ⟨steps, hsteps⟩ := Nat.exists_eq_add_of_le hrank
  induction steps generalizing loose with
  | zero => exact Category.rank_injective hsteps ▸ h
  | succ steps ih =>
      have hloose : loose ≠ .primary := by
        rintro rfl
        cases tight <;> simp only [Category.rank] at hsteps <;> omega
      have htighter := Category.rank_tighter hloose
      exact .loosen_one hlevel (ih (by omega) (by omega))

theorem Derives.chain_inv {limit level : Nat} {category : Category} {family : Family}
    {tokens : List Token} {tree : Expr} (h : Derives limit category level tokens tree)
    (hfamily : category.family? = some family) :
    ∃ first more operand links, tokens = first ++ more ∧ tree = chained family operand links ∧
      Derives limit category.tighter level first operand ∧
      Links limit Operator.sign category.tighter (level + 1) more links := by
  cases h with
  | chain hfamily' hfirst hlinks =>
      cases hfamily'.symm.trans hfamily
      exact ⟨_, _, _, _, rfl, rfl, hfirst, hlinks⟩
  | _ => cases hfamily

/-! ## Linked operands -/

theorem Links.append {limit level : Nat} {σ : Type} {sign : σ → TokenKind}
    {category : Category} {tokens more : List Token} {first second : List (σ × Expr)}
    (hfirst : Links limit sign category level tokens first)
    (hsecond : Links limit sign category level more second) :
    Links limit sign category level (tokens ++ more) (first ++ second) := by
  induction first generalizing tokens with
  | nil =>
      cases hfirst
      exact hsecond
  | cons link links ih =>
      cases hfirst with
      | cons hsign hoperand hlinks =>
          have := Links.cons hsign hoperand (ih hlinks)
          simpa only [List.cons_append, List.append_assoc] using this

theorem Links.of_append {limit level : Nat} {σ : Type} {sign : σ → TokenKind}
    {category : Category} {tokens : List Token} {first second : List (σ × Expr)}
    (h : Links limit sign category level tokens (first ++ second)) :
    ∃ before after, tokens = before ++ after ∧
      Links limit sign category level before first ∧
      Links limit sign category level after second := by
  induction first generalizing tokens with
  | nil => exact ⟨[], tokens, rfl, .nil, h⟩
  | cons link links ih =>
      cases h with
      | cons hsign hoperand hlinks =>
          obtain ⟨before, after, rfl, hbefore, hafter⟩ := ih hlinks
          exact ⟨_, after, by simp, .cons hsign hoperand hbefore, hafter⟩

/-- Comparisons start with a maximal run of one operator. -/
theorem exists_run {links : List (Comparator × Expr)} (h : links ≠ []) :
    ∃ operator operand operands after,
      links = (operand :: operands).map (operator, ·) ++ after ∧
      ∀ link ∈ after.head?, link.1 ≠ operator := by
  induction links with
  | nil => exact absurd rfl h
  | cons link links ih =>
      obtain ⟨operator, operand⟩ := link
      by_cases hnil : links = []
      · exact ⟨operator, operand, [], [], by simp [hnil], by simp⟩
      obtain ⟨next, second, operands, after, rfl, hafter⟩ := ih hnil
      by_cases hsame : next = operator
      · subst hsame
        exact ⟨next, operand, second :: operands, after, rfl, hafter⟩
      · exact ⟨operator, operand, [], _, rfl, by simpa using hsame⟩

/-- Comparisons are taken run by run. -/
@[elab_as_elim]
theorem runs_induction {motive : List (Comparator × Expr) → Prop} (nil : motive [])
    (run : ∀ operator operand operands after, (∀ link ∈ after.head?, link.1 ≠ operator) →
      motive after → motive ((operand :: operands).map (operator, ·) ++ after))
    (links : List (Comparator × Expr)) : motive links := by
  induction hlength : links.length using Nat.strong_induction_on generalizing links with
  | _ length ih =>
      by_cases hnil : links = []
      · exact hnil ▸ nil
      obtain ⟨operator, operand, operands, after, rfl, hafter⟩ := exists_run hnil
      refine run operator operand operands after hafter (ih after.length ?_ after rfl)
      simp only [← hlength, List.length_append, List.length_map, List.length_cons]
      omega

theorem comparedInRuns_append {first : Expr} {before after : List (Comparator × Expr)}
    (h : ∀ left ∈ before.getLast?, ∀ right ∈ after.head?, left.1 ≠ right.1) :
    comparedInRuns first (before ++ after) =
      comparedInRuns (comparedInRuns first before) after := by
  unfold comparedInRuns
  rw [List.splitBy_append, List.foldl_append]
  intro left hleft right hright
  exact decide_eq_false (h left hleft right hright)

theorem comparedInRuns_run (first : Expr) (operator : Comparator) {operands : List Expr}
    (h : operands ≠ []) :
    comparedInRuns first (operands.map (operator, ·)) =
      .comparison operator (first :: operands) .null := by
  unfold comparedInRuns
  rw [List.splitBy_of_isChain]
  · cases operands with
    | nil => exact absurd rfl h
    | cons operand operands => simp [compared, Function.comp_def]
  · simpa using h
  · rw [List.isChain_map]
    exact (List.pairwise_of_forall fun _ _ => decide_eq_true rfl).isChain

/-- Behind a run, the comparison goes on with the chain of that run as its first operand. -/
theorem comparedInRuns_run_append (first : Expr) {operator : Comparator} {operands : List Expr}
    {after : List (Comparator × Expr)} (h : operands ≠ [])
    (hafter : ∀ link ∈ after.head?, link.1 ≠ operator) :
    comparedInRuns first (operands.map (operator, ·) ++ after) =
      comparedInRuns (.comparison operator (first :: operands) .null) after := by
  rw [comparedInRuns_append, comparedInRuns_run first operator h]
  intro left hleft right hright
  obtain ⟨operand, -, rfl⟩ := List.mem_map.mp (List.mem_of_mem_getLast? hleft)
  exact (hafter right hright).symm

end Grammar

/-! ## Binding powers -/

open Grammar (Category)

namespace Power

theorem lt_iff {left right : Power} : left < right ↔ left.rank < right.rank := Iff.rfl

def operand : Power → Category
  | lowest => .expression
  | ternary => .logical
  | logical => .comparison
  | relational => .additive
  | additive => .multiplicative
  | multiplicative => .unary
  | unary => .unary
  | primary => .unary

theorem rank_operand (power : Power) : power.operand.rank = min (power.rank + 1) 6 := by
  cases power <;> rfl

end Power

namespace Family

def category : Family → Category
  | logical => .logical
  | additive => .additive
  | multiplicative => .multiplicative

def power : Family → Power
  | logical => .logical
  | additive => .additive
  | multiplicative => .multiplicative

theorem family?_category (family : Family) : family.category.family? = some family := by
  cases family <;> rfl

theorem rank_category (family : Family) : family.category.rank = family.power.rank := by
  cases family <;> rfl

theorem operand_power (family : Family) : family.power.operand = family.category.tighter := by
  cases family <;> rfl

end Family

/-! ## Reading signs

The parser asks a token for its operator; the grammar asks an operator for its token. -/

theorem Family.operator?_eq_some_iff {family : Family} {kind : TokenKind}
    {operator : Operator family} :
    family.operator? kind = some operator ↔ kind = operator.sign := by
  constructor
  · intro h
    cases family <;> cases kind <;> cases h <;> rfl
  · rintro rfl
    cases operator <;> rfl

theorem Comparator.ofKind?_eq_some_iff {kind : TokenKind} {operator : Comparator} :
    ofKind? kind = some operator ↔ kind = operator.sign := by
  constructor
  · intro h
    cases kind <;> cases h <;> rfl
  · rintro rfl
    cases operator <;> rfl

theorem Comparator.sign_injective {left right : Comparator} (h : left.sign = right.sign) :
    left = right :=
  Option.some.inj ((ofKind?_eq_some_iff.mpr rfl).symm.trans (ofKind?_eq_some_iff.mpr h))

namespace Dialect

theorem rank_power_lt (kind : TokenKind) : (standard.power kind).rank < 6 := by
  cases kind <;> decide

theorem continuation?_of_operator {family : Family} {operator : Operator family}
    {kind : TokenKind} (h : kind = operator.sign) :
    standard.continuation? kind = some (.chain family) := by
  subst h
  cases operator <;> rfl

theorem power_of_operator {family : Family} {operator : Operator family} {kind : TokenKind}
    (h : kind = operator.sign) : standard.power kind = family.power := by
  subst h
  cases operator <;> rfl

theorem continuation?_of_comparator {operator : Comparator} {kind : TokenKind}
    (h : kind = operator.sign) : standard.continuation? kind = some .comparison := by
  subst h
  cases operator <;> rfl

theorem power_of_comparator {operator : Comparator} {kind : TokenKind}
    (h : kind = operator.sign) : standard.power kind = .relational := by
  subst h
  cases operator <;> rfl

theorem continuation?_cases {kind : TokenKind} {form : ContinuationForm}
    (h : standard.continuation? kind = some form) :
    (kind = .question ∧ form = .ternary) ∨
      (∃ (family : Family) (operator : Operator family), kind = operator.sign ∧
        form = .chain family) ∨
      ∃ operator : Comparator, kind = operator.sign ∧ form = .comparison := by
  cases kind <;> cases h
  case question => exact .inl ⟨rfl, rfl⟩
  case or => exact .inr (.inl ⟨.logical, .or, rfl, rfl⟩)
  case and => exact .inr (.inl ⟨.logical, .and, rfl, rfl⟩)
  case plus => exact .inr (.inl ⟨.additive, .add, rfl, rfl⟩)
  case dash => exact .inr (.inl ⟨.additive, .sub, rfl, rfl⟩)
  case star => exact .inr (.inl ⟨.multiplicative, .mul, rfl, rfl⟩)
  case slash => exact .inr (.inl ⟨.multiplicative, .div, rfl, rfl⟩)
  case percent => exact .inr (.inl ⟨.multiplicative, .mod, rfl, rfl⟩)
  case less => exact .inr (.inr ⟨.less, rfl, rfl⟩)
  case lessEquals => exact .inr (.inr ⟨.lessEquals, rfl, rfl⟩)
  case greater => exact .inr (.inr ⟨.greater, rfl, rfl⟩)
  case greaterEquals => exact .inr (.inr ⟨.greaterEquals, rfl, rfl⟩)
  case equals => exact .inr (.inr ⟨.equals, rfl, rfl⟩)
  case notEquals => exact .inr (.inr ⟨.notEquals, rfl, rfl⟩)

theorem rank_power_ne_of_operator? {family : Family} {kind : TokenKind}
    (h : family.operator? kind = none) : (standard.power kind).rank ≠ family.power.rank := by
  cases family <;> cases kind <;> first | decide | cases h

theorem rank_power_ne_of_comparator {kind : TokenKind} (h : Comparator.ofKind? kind = none) :
    (standard.power kind).rank ≠ Power.relational.rank := by
  cases kind <;> first | decide | cases h

end Dialect

theorem Grammar.Derives.opens {limit level : Nat} {category : Category} {tokens : List Token}
    {tree : Expr} (h : Derives limit category level tokens tree) :
    ∃ token more, tokens = token :: more ∧ (Dialect.standard.opening? token.kind).isSome := by
  match h with
  | .plain hfirst | .primary _ hfirst => exact hfirst.opens
  | .ternary _ _ hfirst _ _ | .chain _ hfirst _ | .comparison hfirst _ =>
      obtain ⟨token, more, rfl, hopening⟩ := hfirst.opens
      exact ⟨token, _, rfl, hopening⟩
  | @Derives.unary _ _ _ _ operator _ _ hsign _ =>
      refine ⟨_, _, rfl, ?_⟩
      rw [hsign]
      cases operator <;> rfl
  | .integer hkind _ | .float hkind _ | .trueLiteral hkind | .falseLiteral hkind | .read hkind
  | .list hkind _ _ | .group hkind _ _ => exact ⟨_, _, rfl, by rw [hkind]; rfl⟩

theorem Grammar.Statement.opens {limit blocks : Nat} {tokens : List Token} {stmt : Stmt}
    (h : Statement limit blocks tokens stmt) :
    ∃ token more, tokens = token :: more ∧
      (Dialect.standard.statement? token.kind).isSome := by
  cases h with
  | declare hkind | assign hkind | branch hkind | loop hkind | doLoop hkind =>
      exact ⟨_, _, rfl, by rw [hkind]; rfl⟩

theorem Grammar.Derives.level_le {limit level : Nat} {category : Category}
    {tokens : List Token} {tree : Expr} (h : Derives limit category level tokens tree)
    (hcategory : category ≠ .primary) : level ≤ limit := by
  match h with
  | .plain hfirst | .ternary _ _ hfirst _ _ | .comparison hfirst _ =>
      exact hfirst.level_le nofun
  | .chain hfamily hfirst _ =>
      refine hfirst.level_le fun hprimary => ?_
      cases category <;> cases hprimary <;> cases hfamily
  | .unary hlevel _ _ | .primary hlevel _ => exact hlevel
  | .integer .. | .float .. | .trueLiteral .. | .falseLiteral .. | .read .. | .list ..
  | .group .. => exact absurd rfl hcategory

theorem Grammar.Links.level_le {limit level : Nat} {σ : Type} {sign : σ → TokenKind}
    {category : Category} {tokens : List Token} {links : List (σ × Expr)}
    (h : Links limit sign category level tokens links) (hcategory : category ≠ .primary)
    (hlinks : links ≠ []) : level ≤ limit := by
  cases h with
  | nil => exact absurd rfl hlinks
  | cons _ hoperand _ => exact hoperand.level_le hcategory

end Assay
