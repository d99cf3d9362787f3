import Assay.Parsing.Statement
import Assay.Proofs.Parsing.Precedence
import Assay.Proofs.Parsing.Steps
import Assay.Proofs.Tree.Erasure

/-!
# What is accepted is spelled by the grammar

Every step of the parser that succeeds has passed a phrase of the grammar, and the tree
it yields is the tree of that phrase.  The forms of expressions are followed under the
assumption that their subexpressions are read soundly one level deeper; induction on
the levels that are left closes the circle.
-/

namespace Assay.Parse

open Grammar

/-- Whatever is accepted as a subexpression is a phrase on the given level, and the token
after it binds no tighter than the context. -/
def Sound (limit level : Nat) (subexpression : Power → Parse Expr) : Prop :=
  ∀ ⦃power : Power⦄ ⦃start stop : Cursor⦄ ⦃tree : Expr⦄, start.Closing →
    subexpression power start = .ok tree stop →
      ∃ tokens, start.Passes tokens stop ∧
        Derives limit power.operand level tokens tree.eraseSpans ∧
        ¬ power < Dialect.standard.power stop.kind

section

variable {limit level : Nat} {subexpression : Power → Parse Expr} {start stop : Cursor}
  {tree : Expr}

/-! ## Opening forms -/

theorem number_passes {α : Type} {read? : String → Option α} {build : α → Span → Expr}
    (closing : start.Closing) (hkind : start.kind ≠ .endOfInput)
    (h : number read? build start = .ok tree stop) :
    ∃ value, read? start.current.text = some value ∧
      tree = build value start.current.span ∧ start.Passes [start.current] stop := by
  unfold number at h
  split at h
  · next value hvalue =>
      cases h
      exact ⟨value, hvalue, rfl, .next closing hkind⟩
  · exact absurd h reject_ne_ok

private theorem atom_sound (closing : start.Closing) (h : atom start = .ok tree stop) :
    ∃ tokens, start.Passes tokens stop ∧
      Derives limit .primary level tokens tree.eraseSpans := by
  simp only [atom, kind_bind_apply] at h
  generalize hkind : start.kind = kind at h
  split at h
  · obtain ⟨value, hvalue, rfl, hpasses⟩ := number_passes closing (by simp [hkind]) h
    exact ⟨_, hpasses, .integer hkind hvalue⟩
  · obtain ⟨value, hvalue, rfl, hpasses⟩ := number_passes closing (by simp [hkind]) h
    exact ⟨_, hpasses, .float hkind hvalue⟩
  · cases h
    exact ⟨_, .next closing (by simp [hkind]), .trueLiteral hkind⟩
  · cases h
    exact ⟨_, .next closing (by simp [hkind]), .falseLiteral hkind⟩
  · cases h
    exact ⟨_, .next closing (by simp [hkind]), .read hkind⟩
  · exact absurd h reject_ne_ok

private theorem unary_sound (hlevel : level ≤ limit) (hsub : Sound limit (level + 1) subexpression)
    (closing : start.Closing) (hform : Dialect.standard.opening? start.kind = some .unary)
    (h : unary subexpression start = .ok tree stop) :
    ∃ tokens, start.Passes tokens stop ∧
      Derives limit .unary level tokens tree.eraseSpans := by
  have hsign : start.current.kind =
      UnaryOperator.sign (if start.current.kind = .not then .not else .neg) := by
    change Dialect.standard.opening? start.current.kind = _ at hform
    cases hkind : start.current.kind <;> rw [hkind] at hform <;> first | rfl | cases hform
  have hfirst : start.Passes [start.current] start.next := by
    refine .next closing fun hkind => ?_
    rw [hkind] at hform
    cases hform
  simp only [unary, monadLift_self, advance_bind_apply] at h
  obtain ⟨operand, middle, hoperand, hrest⟩ := bind_eq_ok.mp h
  obtain ⟨tokens, hpasses, hderives, -⟩ := hsub hfirst.closing hoperand
  cases hrest
  exact ⟨_, hfirst.cons hpasses, .unary hlevel hsign hderives⟩

private theorem group_sound (hsub : Sound limit (level + 1) subexpression) (closing : start.Closing)
    (hkind : start.kind = .openParen) (h : group subexpression start = .ok tree stop) :
    ∃ tokens, start.Passes tokens stop ∧
      Derives limit .primary level tokens tree.eraseSpans := by
  have hopening : start.Passes [start.current] start.next := .next closing (by simp [hkind])
  simp only [group, monadLift_self, advance_bind_apply] at h
  obtain ⟨inner, middle, hinner, h⟩ := bind_eq_ok.mp h
  obtain ⟨closer, last, hcloser, hrest⟩ := bind_eq_ok.mp h
  obtain ⟨tokens, hpasses, hderives, -⟩ := hsub hopening.closing hinner
  obtain ⟨hclosing, hlast⟩ := expectOr_passes hpasses.closing (by decide) hcloser
  cases hrest
  exact ⟨_, hopening.cons (hpasses.trans hlast), .group hkind hclosing hderives⟩

private theorem elements_sound (hsub : Sound limit level subexpression) {rounds : List Token}
    {trees : List Expr} (closing : start.Closing)
    (h : elements (subexpression .lowest) rounds start = .ok trees stop) :
    ∃ tokens, start.Passes tokens stop ∧
      Elements limit level tokens (trees.map Expr.eraseSpans) := by
  induction rounds generalizing start trees with
  | nil => exact absurd h reject_ne_ok
  | cons round rounds ih =>
      simp only [elements, monadLift_self, kind_bind_apply] at h
      split at h
      · cases h
        exact ⟨[], .refl closing, .nil⟩
      · obtain ⟨first, middle, hfirst, h⟩ := bind_eq_ok.mp h
        obtain ⟨tokens, hpasses, hderives, -⟩ := hsub closing hfirst
        simp only [kind_bind_apply] at h
        generalize hkind : middle.kind = kind at h
        split at h
        · simp only [advance_bind_apply] at h
          obtain ⟨others, last, hothers, hrest⟩ := bind_eq_ok.mp h
          have hcomma : middle.Passes [middle.current] middle.next :=
            .next hpasses.closing (by simp [hkind])
          cases hrest
          obtain ⟨more, hmore, helements⟩ := ih hcomma.closing hothers
          exact ⟨_, hpasses.trans (hcomma.cons hmore), .cons hkind hderives helements⟩
        · cases h
          exact ⟨tokens, hpasses, .last hderives⟩
        · exact absurd h reject_ne_ok

private theorem list_sound (hsub : Sound limit (level + 1) subexpression) (closing : start.Closing)
    (hkind : start.kind = .openBracket) (h : list subexpression start = .ok tree stop) :
    ∃ tokens, start.Passes tokens stop ∧
      Derives limit .primary level tokens tree.eraseSpans := by
  have hopening : start.Passes [start.current] start.next := .next closing (by simp [hkind])
  simp only [list, monadLift_self, advance_bind_apply, remaining_bind_rest] at h
  obtain ⟨trees, middle, htrees, h⟩ := bind_eq_ok.mp h
  obtain ⟨closer, last, hcloser, hrest⟩ := bind_eq_ok.mp h
  obtain ⟨tokens, hpasses, helements⟩ := elements_sound hsub hopening.closing htrees
  obtain ⟨hclosing, hlast⟩ := expectOr_passes hpasses.closing (by decide) hcloser
  cases hrest
  refine ⟨_, hopening.cons (hpasses.trans hlast), ?_⟩
  simpa [Expr.eraseSpans] using Derives.list hkind hclosing helements

theorem opening_sound (hlevel : level ≤ limit) (hsub : Sound limit (level + 1) subexpression)
    {form : OpeningForm} (closing : start.Closing)
    (hform : Dialect.standard.opening? start.kind = some form)
    (h : opening subexpression form start = .ok tree stop) :
    ∃ tokens, start.Passes tokens stop ∧
      Derives limit .unary level tokens tree.eraseSpans := by
  have primary (hprimary : ∃ tokens, start.Passes tokens stop ∧
      Derives limit .primary level tokens tree.eraseSpans) :
      ∃ tokens, start.Passes tokens stop ∧
        Derives limit .unary level tokens tree.eraseSpans := by
    obtain ⟨tokens, hpasses, hderives⟩ := hprimary
    exact ⟨tokens, hpasses, .primary hlevel hderives⟩
  cases form with
  | atom => exact primary (atom_sound closing h)
  | unary => exact unary_sound hlevel hsub closing hform h
  | group =>
      refine primary (group_sound hsub closing ?_ h)
      cases hkind : start.kind <;> rw [hkind] at hform <;> first | rfl | cases hform
  | list =>
      refine primary (list_sound hsub closing ?_ h)
      cases hkind : start.kind <;> rw [hkind] at hform <;> first | rfl | cases hform

/-! ## Continuation forms -/

private theorem links_sound {power : Power} (hsub : Sound limit level subexpression)
    {family : Family} {rounds : List Token} {operators : List (Operator family)}
    {operands : List Expr} (closing : start.Closing)
    (hnext : ¬ power < Dialect.standard.power start.kind ∨
      (family.operator? start.kind).isSome)
    (h : links (subexpression power) family rounds start = .ok (operators, operands) stop) :
    ∃ tokens pairs, start.Passes tokens stop ∧
      Links limit Operator.sign power.operand level tokens pairs ∧
      operators = pairs.map Prod.fst ∧ operands.map Expr.eraseSpans = pairs.map Prod.snd ∧
      (pairs = [] → stop = start) ∧ (¬ power < Dialect.standard.power stop.kind) ∧
      family.operator? stop.kind = none := by
  induction rounds generalizing start operators operands with
  | nil => exact absurd h reject_ne_ok
  | cons round rounds ih =>
      simp only [links, monadLift_self, kind_bind_apply] at h
      generalize hoperator : family.operator? start.kind = operator? at h
      split at h
      · cases h
        refine ⟨[], [], .refl closing, .nil, rfl, rfl, fun _ => rfl, ?_, hoperator⟩
        simpa [hoperator] using hnext
      · next operator =>
          have hsign : start.Passes [start.current] start.next := by
            refine .next closing fun hkind => ?_
            rw [hkind] at hoperator
            cases family <;> cases hoperator
          simp only [advance_bind_apply] at h
          obtain ⟨first, middle, hfirst, h⟩ := bind_eq_ok.mp h
          obtain ⟨⟨others, more⟩, last, hmore, hrest⟩ := bind_eq_ok.mp h
          obtain ⟨tokens, hpasses, hderives, hbound⟩ := hsub hsign.closing hfirst
          cases hrest
          obtain ⟨after, pairs, hafter, hlinks, rfl, hmap, -, hstop⟩ :=
            ih hpasses.closing (.inl hbound) hmore
          exact ⟨_, (operator, first.eraseSpans) :: pairs, hsign.cons (hpasses.trans hafter),
            .cons (Family.operator?_eq_some_iff.mp hoperator) hderives hlinks, rfl, by simp [hmap],
            nofun, hstop⟩

private theorem comparands_sound (hsub : Sound limit level subexpression) {operator : Comparator}
    {sign : TokenKind} (hsign : sign = operator.sign) {rounds : List Token}
    {operands : List Expr} (closing : start.Closing)
    (h : comparands (subexpression .relational) sign rounds start = .ok operands stop) :
    ∃ tokens, start.Passes tokens stop ∧
      Links limit Comparator.sign .additive level tokens
        ((operands.map Expr.eraseSpans).map (operator, ·)) ∧
      (operands = [] → stop = start) ∧
      (operands ≠ [] → ¬ Power.relational < Dialect.standard.power stop.kind) ∧
      stop.kind ≠ sign := by
  induction rounds generalizing start operands with
  | nil => exact absurd h reject_ne_ok
  | cons round rounds ih =>
      simp only [comparands, monadLift_self, kind_bind_apply] at h
      split at h
      · next hkind =>
          have hpassed : start.Passes [start.current] start.next := by
            refine .next closing fun hend => ?_
            rw [← hkind, hend] at hsign
            cases operator <;> cases hsign
          simp only [advance_bind_apply] at h
          obtain ⟨first, middle, hfirst, h⟩ := bind_eq_ok.mp h
          obtain ⟨others, last, hothers, hrest⟩ := bind_eq_ok.mp h
          obtain ⟨tokens, hpasses, hderives, hbound⟩ := hsub hpassed.closing hfirst
          cases hrest
          obtain ⟨more, hmore, hlinks, hempty, hnonempty, hstop⟩ := ih hpasses.closing hothers
          refine ⟨_, hpassed.cons (hpasses.trans hmore),
            .cons (hkind.trans hsign) hderives hlinks, nofun, fun _ => ?_, hstop⟩
          by_cases hothers : others = []
          · rw [hempty hothers]
            exact hbound
          · exact hnonempty hothers
      · next hkind =>
          cases h
          exact ⟨[], .refl closing, .nil, fun _ => rfl, fun h => absurd rfl h, hkind⟩

/-! ## Continued expressions -/

/-- What is known of the expression read so far when the next token is looked at: it is a
phrase that this token cannot take apart, or the token is a comparator and the expression
is a comparison that ends with another one. -/
inductive Held (limit level : Nat) (context : Power) (tokens : List Token) (tree : Expr)
    (next : TokenKind) : Prop where
  | phrase (category : Category) (hcontext : context.operand.rank ≤ category.rank)
      (hnext : (Dialect.standard.power next).rank < category.rank)
      (hphrase : Derives limit category level tokens tree)
  | comparison {first more : List Token} {operand : Expr} {links : List (Comparator × Expr)}
      {operator : Comparator} (hcontext : context < .relational)
      (hnext : next = operator.sign)
      (hlast : ∀ link ∈ links.getLast?, link.1 ≠ operator)
      (htokens : tokens = first ++ more) (htree : tree = comparedInRuns operand links)
      (hfirst : Derives limit .additive level first operand)
      (hlinks : Links limit Comparator.sign .additive (level + 1) more links)

section

variable {context : Power} {tokens : List Token} {next : TokenKind}

theorem Held.derives (hlevel : level ≤ limit)
    (h : Held limit level context tokens tree next) :
    Derives limit context.operand level tokens tree := by
  cases h with
  | phrase _ hcontext _ hphrase => exact hphrase.loosen hlevel hcontext
  | comparison hcontext _ _ htokens htree hfirst hlinks =>
      rw [htokens, htree]
      refine (Derives.comparison hfirst hlinks).loosen hlevel ?_
      have hrank : context.rank < 3 := hcontext
      rw [Power.rank_operand]
      change min (context.rank + 1) 6 ≤ 3
      omega

theorem Held.operand (hlevel : level ≤ limit) (h : Held limit level context tokens tree next)
    (hother : Comparator.ofKind? next = none) :
    Derives limit (Dialect.standard.power next).operand level tokens tree := by
  cases h with
  | phrase _ _ hnext hphrase =>
      refine hphrase.loosen hlevel ?_
      rw [Power.rank_operand]
      omega
  | comparison _ hnext => simp [Comparator.ofKind?_eq_some_iff.mpr hnext] at hother

theorem Held.operand_of_operator (hlevel : level ≤ limit)
    (h : Held limit level context tokens tree next) {family : Family} {operator : Operator family}
    (hoperator : next = operator.sign) :
    Derives limit family.category.tighter level tokens tree := by
  have hother : Comparator.ofKind? next = none := by
    rw [hoperator]
    cases operator <;> rfl
  have hoperand := h.operand hlevel hother
  rwa [Dialect.power_of_operator hoperator, family.operand_power] at hoperand

theorem Held.comparison_of (hlevel : level ≤ limit)
    (h : Held limit level context tokens tree next) {operator : Comparator}
    (hoperator : next = operator.sign) :
    ∃ first more operand links, tokens = first ++ more ∧
      tree = comparedInRuns operand links ∧ (∀ link ∈ links.getLast?, link.1 ≠ operator) ∧
      Derives limit .additive level first operand ∧
      Links limit Comparator.sign .additive (level + 1) more links := by
  cases h with
  | phrase _ _ hnext hphrase =>
      have hadditive : Derives limit .additive level tokens tree := by
        refine hphrase.loosen hlevel ?_
        rw [Dialect.power_of_comparator hoperator] at hnext
        exact hnext
      exact ⟨tokens, [], tree, [], by simp, rfl, by simp, hadditive, .nil⟩
  | comparison _ hnext hlast htokens htree hfirst hlinks =>
      cases Comparator.sign_injective (hnext.symm.trans hoperator)
      exact ⟨_, _, _, _, htokens, htree, hlast, hfirst, hlinks⟩

theorem rank_operand_le {power : Power} (h : context < power) :
    context.operand.rank ≤ power.rank := by
  have hrank : context.rank < power.rank := h
  rw [Power.rank_operand]
  omega

private theorem ternary_sound (hlevel : level ≤ limit)
    (hsub : Sound limit (level + 1) subexpression) {condition : Expr} (closing : start.Closing)
    (held : Held limit level context tokens condition.eraseSpans start.kind)
    (hcontext : context < .ternary) (hkind : start.kind = .question)
    (h : ternary subexpression condition start = .ok tree stop) :
    ∃ more, start.Passes more stop ∧
      Held limit level context (tokens ++ more) tree.eraseSpans stop.kind := by
  have hcondition : Derives limit .logical level tokens condition.eraseSpans := by
    have hoperand := held.operand hlevel (by rw [hkind]; rfl)
    rwa [hkind] at hoperand
  have hquestion : start.Passes [start.current] start.next := .next closing (by simp [hkind])
  simp only [ternary, monadLift_self, advance_bind_apply] at h
  obtain ⟨whenTrue, first, hwhenTrue, h⟩ := bind_eq_ok.mp h
  obtain ⟨colon, second, hcolon, h⟩ := bind_eq_ok.mp h
  obtain ⟨whenFalse, third, hwhenFalse, hrest⟩ := bind_eq_ok.mp h
  obtain ⟨tokens₁, hpasses₁, hderives₁, -⟩ := hsub hquestion.closing hwhenTrue
  obtain ⟨hcolonKind, hpassed⟩ := expectOr_passes hpasses₁.closing (by decide) hcolon
  obtain ⟨tokens₂, hpasses₂, hderives₂, hstop⟩ := hsub hpassed.closing hwhenFalse
  cases hrest
  refine ⟨_, hquestion.cons (hpasses₁.trans (hpassed.cons hpasses₂)),
    .phrase .expression (rank_operand_le hcontext) ?_
      (.ternary hkind hcolonKind hcondition hderives₁ hderives₂)⟩
  rw [Power.lt_iff] at hstop
  change ¬ 0 < (Dialect.standard.power stop.kind).rank at hstop
  change (Dialect.standard.power stop.kind).rank < 1
  omega

private theorem chain_sound (hlevel : level ≤ limit) (hsub : Sound limit (level + 1) subexpression)
    {family : Family} {operator : Operator family} {left : Expr} (closing : start.Closing)
    (held : Held limit level context tokens left.eraseSpans start.kind)
    (hcontext : context < family.power)
    (hoperator : start.kind = operator.sign)
    (h : chain subexpression family family.power left start = .ok tree stop) :
    ∃ more, start.Passes more stop ∧
      Held limit level context (tokens ++ more) tree.eraseSpans stop.kind := by
  have hleft := held.operand_of_operator hlevel hoperator
  have hread := Family.operator?_eq_some_iff.mpr hoperator
  simp only [chain, monadLift_self, remaining_bind_rest] at h
  obtain ⟨⟨operators, operands⟩, last, hlinks, hrest⟩ := bind_eq_ok.mp h
  cases hrest
  obtain ⟨more, pairs, hpasses, hlinked, rfl, hoperands, hempty, hbound, hstop⟩ :=
    links_sound hsub closing (.inr (by simp [hread])) hlinks
  have htree : (Expr.chain family (left :: operands) (pairs.map Prod.fst)
      (spanOver left operands)).eraseSpans = chained family left.eraseSpans pairs := by
    cases pairs with
    | nil =>
        -- The first token is an operator of the family, so there is a link.
        rw [hempty rfl, hread] at hstop
        cases hstop
    | cons pair pairs => simp [Expr.eraseSpans, chained, hoperands]
  refine ⟨more, hpasses, .phrase family.category ?_ ?_ ?_⟩
  · rw [family.rank_category]
    exact rank_operand_le hcontext
  · have hne := Dialect.rank_power_ne_of_operator? hstop
    rw [Power.lt_iff] at hbound
    rw [family.rank_category]
    omega
  · rw [htree]
    rw [family.operand_power] at hlinked
    exact .chain family.family?_category hleft hlinked

private theorem comparison_sound (hlevel : level ≤ limit)
    (hsub : Sound limit (level + 1) subexpression) {operator : Comparator} {left : Expr}
    (closing : start.Closing)
    (held : Held limit level context tokens left.eraseSpans start.kind)
    (hcontext : context < .relational)
    (hoperator : start.kind = operator.sign)
    (h : comparison subexpression .relational left start = .ok tree stop) :
    ∃ more, start.Passes more stop ∧
      Held limit level context (tokens ++ more) tree.eraseSpans stop.kind := by
  obtain ⟨first, linked, operand, links, rfl, hleft, hlast, hfirst, hlinks⟩ :=
    held.comparison_of hlevel hoperator
  have hread := Comparator.ofKind?_eq_some_iff.mpr hoperator
  simp only [comparison, monadLift_self, kind_bind_apply, hread, remaining_bind_rest] at h
  obtain ⟨operands, last, hoperands, hrest⟩ := bind_eq_ok.mp h
  cases hrest
  obtain ⟨more, hpasses, hrun, hempty, hbound, hstop⟩ :=
    comparands_sound hsub hoperator closing hoperands
  have hne : operands ≠ [] := by
    intro hnil
    exact hstop (by rw [hempty hnil])
  have hrunOperator : ∀ link ∈ (operands.map Expr.eraseSpans).map (operator, ·),
      link.1 = operator := by
    simp
  have htree : (Expr.comparison operator (left :: operands) (spanOver left operands)).eraseSpans =
      comparedInRuns operand (links ++ (operands.map Expr.eraseSpans).map (operator, ·)) := by
    rw [comparedInRuns_append, comparedInRuns_run _ _ (by simpa using hne), ← hleft]
    · simp [Expr.eraseSpans]
    · intro link hlink right hright
      rw [hrunOperator right (List.mem_of_mem_head? hright)]
      exact hlast link hlink
  have hall := hlinks.append hrun
  rw [htree]
  refine ⟨more, hpasses, ?_⟩
  -- If another comparator follows, only this run is over, not the comparison.
  cases hnext : Comparator.ofKind? stop.kind with
  | some following =>
      have hsign := Comparator.ofKind?_eq_some_iff.mp hnext
      refine .comparison hcontext hsign ?_ (List.append_assoc ..) rfl hfirst hall
      intro link hlink
      rw [List.getLast?_append_of_ne_nil _ (by simpa using hne)] at hlink
      rw [hrunOperator link (List.mem_of_mem_getLast? hlink)]
      rintro rfl
      exact hstop (hsign.trans hoperator.symm)
  | none =>
      refine .phrase .comparison (rank_operand_le hcontext) ?_ ?_
      · have hrank := Dialect.rank_power_ne_of_comparator hnext
        have := hbound hne
        rw [Power.lt_iff] at this
        change _ < Power.relational.rank
        omega
      · rw [List.append_assoc]
        exact .comparison hfirst hall

theorem continuation_sound (hlevel : level ≤ limit)
    (hsub : Sound limit (level + 1) subexpression) {form : ContinuationForm} {left : Expr}
    (closing : start.Closing)
    (held : Held limit level context tokens left.eraseSpans start.kind)
    (hcontext : context < Dialect.standard.power start.kind)
    (hform : Dialect.standard.continuation? start.kind = some form)
    (h : continuation subexpression (Dialect.standard.power start.kind) left form start =
      .ok tree stop) :
    ∃ more, start.Passes more stop ∧
      Held limit level context (tokens ++ more) tree.eraseSpans stop.kind := by
  obtain ⟨hkind, rfl⟩ | ⟨family, operator, hoperator, rfl⟩ | ⟨operator, hoperator, rfl⟩ :=
    Dialect.continuation?_cases hform
  · rw [hkind] at hcontext
    exact ternary_sound hlevel hsub closing held hcontext hkind h
  · rw [Dialect.power_of_operator hoperator] at hcontext h
    exact chain_sound hlevel hsub closing held hcontext hoperator h
  · rw [Dialect.power_of_comparator hoperator] at hcontext h
    exact comparison_sound hlevel hsub closing held hcontext hoperator h

private theorem continued_sound (hlevel : level ≤ limit)
    (hsub : Sound limit (level + 1) subexpression) {rounds : List Token} {left : Expr}
    (closing : start.Closing)
    (held : Held limit level context tokens left.eraseSpans start.kind)
    (h : continued .standard subexpression context rounds left start = .ok tree stop) :
    ∃ more, start.Passes more stop ∧
      Derives limit context.operand level (tokens ++ more) tree.eraseSpans ∧
      ¬ context < Dialect.standard.power stop.kind := by
  induction rounds generalizing start left tokens with
  | nil => exact absurd h reject_ne_ok
  | cons round rounds ih =>
      simp only [continued, monadLift_self, kind_bind_apply] at h
      split at h
      · next hcontext =>
          generalize hform : Dialect.standard.continuation? start.kind = form? at h
          split at h
          · exact absurd h reject_ne_ok
          · next form =>
              obtain ⟨extended, middle, hextended, h⟩ := bind_eq_ok.mp h
              obtain ⟨before, hbefore, hheld⟩ :=
                continuation_sound hlevel hsub closing held hcontext hform hextended
              obtain ⟨after, hafter, hderives, hstop⟩ := ih hbefore.closing hheld h
              refine ⟨before ++ after, hbefore.trans hafter, ?_, hstop⟩
              rwa [← List.append_assoc]
      · next hcontext =>
          cases h
          exact ⟨[], .refl closing, by simpa using held.derives hlevel, hcontext⟩

end

end

/-! ## Expressions -/

theorem expression_sound {limit level levels : Nat} (hlevels : level + levels ≤ limit + 1) :
    Sound limit level (expression .standard levels) := by
  -- Each subexpression has one level less to go and stands one level deeper.
  induction levels generalizing level with
  | zero =>
      intro power start stop tree closing h
      rw [expression] at h
      cases h
  | succ levels ih =>
      intro power start stop tree closing h
      have hlevel : level ≤ limit := by omega
      have hsub : Sound limit (level + 1) (expression .standard levels) := ih (by omega)
      simp only [expression, expressionWith, monadLift_self, kind_bind_apply] at h
      generalize hform : Dialect.standard.opening? start.kind = form? at h
      split at h
      · exact absurd h reject_ne_ok
      · next form =>
          obtain ⟨left, middle, hleft, h⟩ := bind_eq_ok.mp h
          rw [remaining_bind_rest] at h
          obtain ⟨tokens, hpasses, hderives⟩ := opening_sound hlevel hsub closing hform hleft
          have held : Held limit level power tokens left.eraseSpans middle.kind := by
            refine .phrase .unary ?_ (Dialect.rank_power_lt middle.kind) hderives
            rw [Power.rank_operand]
            exact Nat.min_le_right ..
          obtain ⟨more, hmore, hall, hstop⟩ :=
            continued_sound hlevel hsub hpasses.closing held h
          exact ⟨tokens ++ more, hpasses.trans hmore, hall, hstop⟩

/-! ## Statements -/

def Yields {α : Type} (step : Parse α) (phrase : List Token → α → Prop) : Prop :=
  ∀ ⦃start stop : Cursor⦄ ⦃value : α⦄, start.Closing → step start = .ok value stop →
    ∃ tokens, start.Passes tokens stop ∧ phrase tokens value

section

variable {limit blocks : Nat} {expr : Parse Expr} {body : Parse Block} {start stop : Cursor}
  {stmt : Stmt}

theorem identifier_passes {message : String} {name : Identifier} (closing : start.Closing)
    (h : identifier message start = .ok name stop) :
    ∃ token, token.kind = .identifier ∧ start.Passes [token] stop ∧
      name = ⟨token.text, token.span⟩ := by
  obtain ⟨token, middle, htoken, hrest⟩ := bind_eq_ok.mp h
  obtain ⟨hkind, hpasses⟩ := expectOr_passes closing (by decide) htoken
  cases hrest
  exact ⟨token, hkind, hpasses, rfl⟩

variable
  (hexpr : Yields expr fun tokens tree =>
    Derives limit .expression (blocks + 1) tokens tree.eraseSpans)
  (hbody : Yields body fun tokens tree => Braced limit blocks tokens tree.eraseSpans)

include hexpr

private theorem condition_yields :
    Yields (condition expr) fun tokens tree => Guard limit blocks tokens tree.eraseSpans := by
  intro start stop value closing h
  obtain ⟨opening, first, hopening, h⟩ := bind_eq_ok.mp h
  obtain ⟨tree, second, htree, h⟩ := bind_eq_ok.mp h
  obtain ⟨closer, third, hcloser, hrest⟩ := bind_eq_ok.mp h
  obtain ⟨hopen, hpassed⟩ := expectOr_passes closing (by decide) hopening
  obtain ⟨tokens, hpasses, hderives⟩ := hexpr hpassed.closing htree
  obtain ⟨hclose, hlast⟩ := expectOr_passes hpasses.closing (by decide) hcloser
  cases hrest
  exact ⟨_, hpassed.cons (hpasses.trans hlast), .mk hopen hclose hderives⟩

private theorem initialValue_yields :
    Yields (initialValue expr) fun tokens value? =>
      InitialValue limit blocks tokens (value?.map Expr.eraseSpans) := by
  intro start stop value? closing h
  simp only [initialValue, monadLift_self, kind_bind_apply] at h
  split at h
  · next hkind =>
      have hequals : start.Passes [start.current] start.next :=
        .next closing (by simp [hkind])
      simp only [advance_bind_apply] at h
      obtain ⟨tree, last, htree, hrest⟩ := bind_eq_ok.mp h
      obtain ⟨tokens, hpasses, hderives⟩ := hexpr hequals.closing htree
      cases hrest
      exact ⟨_, hequals.cons hpasses, .present hkind hderives⟩
  · cases h
    exact ⟨[], .refl closing, .absent⟩

private theorem declare_sound (closing : start.Closing) (hkind : start.kind = .declareWord)
    (h : declare expr start = .ok stmt stop) :
    ∃ tokens, start.Passes tokens stop ∧ Statement limit blocks tokens stmt.eraseSpans := by
  have hword : start.Passes [start.current] start.next := .next closing (by simp [hkind])
  simp only [declare, monadLift_self, advance_bind_apply] at h
  obtain ⟨name, first, hname, h⟩ := bind_eq_ok.mp h
  obtain ⟨colon, second, hcolon, h⟩ := bind_eq_ok.mp h
  obtain ⟨typeName, third, htypeName, h⟩ := bind_eq_ok.mp h
  obtain ⟨value?, fourth, hvalue, h⟩ := bind_eq_ok.mp h
  obtain ⟨semicolon, fifth, hsemicolon, hrest⟩ := bind_eq_ok.mp h
  obtain ⟨token, htoken, hpasses₁, rfl⟩ := identifier_passes hword.closing hname
  obtain ⟨hcolonKind, hpasses₂⟩ := expectOr_passes hpasses₁.closing (by decide) hcolon
  obtain ⟨htypeKind, hpasses₃⟩ := expectOr_passes hpasses₂.closing (by decide) htypeName
  obtain ⟨tokens, hpasses₄, hinitial⟩ := initialValue_yields hexpr hpasses₃.closing hvalue
  obtain ⟨hsemicolonKind, hpasses₅⟩ :=
    expectOr_passes hpasses₄.closing (by decide) hsemicolon
  cases hrest
  exact ⟨_, hword.cons (hpasses₁.cons (hpasses₂.cons (hpasses₃.cons
      (hpasses₄.trans hpasses₅)))),
    .declare hkind htoken hcolonKind htypeKind hsemicolonKind hinitial⟩

private theorem assign_sound (closing : start.Closing) (h : assign expr start = .ok stmt stop) :
    ∃ tokens, start.Passes tokens stop ∧ Statement limit blocks tokens stmt.eraseSpans := by
  obtain ⟨name, first, hname, h⟩ := bind_eq_ok.mp h
  obtain ⟨equals, second, hequals, h⟩ := bind_eq_ok.mp h
  obtain ⟨value, third, hvalue, h⟩ := bind_eq_ok.mp h
  obtain ⟨semicolon, fourth, hsemicolon, hrest⟩ := bind_eq_ok.mp h
  obtain ⟨token, htoken, hpasses₁, rfl⟩ := identifier_passes closing hname
  obtain ⟨hequalsKind, hpasses₂⟩ := expectOr_passes hpasses₁.closing (by decide) hequals
  obtain ⟨tokens, hpasses₃, hderives⟩ := hexpr hpasses₂.closing hvalue
  obtain ⟨hsemicolonKind, hpasses₄⟩ :=
    expectOr_passes hpasses₃.closing (by decide) hsemicolon
  cases hrest
  exact ⟨_, hpasses₁.cons (hpasses₂.cons (hpasses₃.trans hpasses₄)),
    .assign htoken hequalsKind hsemicolonKind hderives⟩

include hbody

omit hexpr in
private theorem elseBody_yields :
    Yields (elseBody body) fun tokens body? =>
      ElseBody limit blocks tokens (body?.map Block.eraseSpans) := by
  intro start stop body? closing h
  simp only [elseBody, monadLift_self, kind_bind_apply] at h
  split at h
  · next hkind =>
      have hword : start.Passes [start.current] start.next := .next closing (by simp [hkind])
      simp only [advance_bind_apply] at h
      obtain ⟨tree, last, htree, hrest⟩ := bind_eq_ok.mp h
      obtain ⟨tokens, hpasses, hbraced⟩ := hbody hword.closing htree
      cases hrest
      exact ⟨_, hword.cons hpasses, .present hkind hbraced⟩
  · cases h
    exact ⟨[], .refl closing, .absent⟩

private theorem branch_sound (closing : start.Closing) (hkind : start.kind = .ifWord)
    (h : branch expr body start = .ok stmt stop) :
    ∃ tokens, start.Passes tokens stop ∧ Statement limit blocks tokens stmt.eraseSpans := by
  have hword : start.Passes [start.current] start.next := .next closing (by simp [hkind])
  simp only [branch, monadLift_self, advance_bind_apply] at h
  obtain ⟨guard, first, hguard, h⟩ := bind_eq_ok.mp h
  obtain ⟨thenBody, second, hthenBody, h⟩ := bind_eq_ok.mp h
  obtain ⟨elseBody?, third, helseBody, hrest⟩ := bind_eq_ok.mp h
  obtain ⟨tokens₁, hpasses₁, hcondition⟩ := condition_yields hexpr hword.closing hguard
  obtain ⟨tokens₂, hpasses₂, hthen⟩ := hbody hpasses₁.closing hthenBody
  obtain ⟨tokens₃, hpasses₃, helse⟩ := elseBody_yields hbody hpasses₂.closing helseBody
  cases hrest
  refine ⟨_, hword.cons (hpasses₁.trans (hpasses₂.trans hpasses₃)), ?_⟩
  rw [Stmt.eraseSpans_branch]
  exact .branch hkind hcondition hthen helse

private theorem loop_sound (closing : start.Closing) (hkind : start.kind = .whileWord)
    (h : loop expr body start = .ok stmt stop) :
    ∃ tokens, start.Passes tokens stop ∧ Statement limit blocks tokens stmt.eraseSpans := by
  have hword : start.Passes [start.current] start.next := .next closing (by simp [hkind])
  simp only [loop, monadLift_self, advance_bind_apply] at h
  obtain ⟨guard, first, hguard, h⟩ := bind_eq_ok.mp h
  obtain ⟨block, second, hblock, hrest⟩ := bind_eq_ok.mp h
  obtain ⟨tokens₁, hpasses₁, hcondition⟩ := condition_yields hexpr hword.closing hguard
  obtain ⟨tokens₂, hpasses₂, hbraced⟩ := hbody hpasses₁.closing hblock
  cases hrest
  exact ⟨_, hword.cons (hpasses₁.trans hpasses₂), .loop hkind hcondition hbraced⟩

private theorem doLoop_sound (closing : start.Closing) (hkind : start.kind = .doWord)
    (h : doLoop expr body start = .ok stmt stop) :
    ∃ tokens, start.Passes tokens stop ∧ Statement limit blocks tokens stmt.eraseSpans := by
  have hword : start.Passes [start.current] start.next := .next closing (by simp [hkind])
  simp only [doLoop, monadLift_self, advance_bind_apply] at h
  obtain ⟨block, first, hblock, h⟩ := bind_eq_ok.mp h
  obtain ⟨whileToken, second, hwhile, h⟩ := bind_eq_ok.mp h
  obtain ⟨guard, third, hguard, h⟩ := bind_eq_ok.mp h
  obtain ⟨semicolon, fourth, hsemicolon, hrest⟩ := bind_eq_ok.mp h
  obtain ⟨tokens₁, hpasses₁, hbraced⟩ := hbody hword.closing hblock
  obtain ⟨hwhileKind, hpasses₂⟩ := expectOr_passes hpasses₁.closing (by decide) hwhile
  obtain ⟨tokens₃, hpasses₃, hcondition⟩ := condition_yields hexpr hpasses₂.closing hguard
  obtain ⟨hsemicolonKind, hpasses₄⟩ :=
    expectOr_passes hpasses₃.closing (by decide) hsemicolon
  cases hrest
  exact ⟨_, hword.cons (hpasses₁.trans (hpasses₂.cons (hpasses₃.trans hpasses₄))),
    .doLoop hkind hwhileKind hsemicolonKind hbraced hcondition⟩

theorem statementWith_yields :
    Yields (statementWith .standard expr body) fun tokens stmt =>
      Statement limit blocks tokens stmt.eraseSpans := by
  intro start stop stmt closing h
  simp only [statementWith, monadLift_self, kind_bind_apply] at h
  generalize hkind : start.kind = kind at h
  cases kind with
  | declareWord => exact declare_sound hexpr closing hkind h
  | identifier => exact assign_sound hexpr closing h
  | ifWord => exact branch_sound hexpr hbody closing hkind h
  | whileWord => exact loop_sound hexpr hbody closing hkind h
  | doWord => exact doLoop_sound hexpr hbody closing hkind h
  | _ => cases h

end

theorem statementsUntil_yields {limit blocks : Nat} {ends : List TokenKind}
    {statement : Parse Stmt} {start stop : Cursor} {rounds : List Token} {stmts : List Stmt}
    (hstatement : Yields statement fun tokens stmt =>
      Statement limit blocks tokens stmt.eraseSpans)
    (closing : start.Closing)
    (h : statementsUntil ends statement rounds start = .ok stmts stop) :
    ∃ tokens, start.Passes tokens stop ∧
      Statements limit blocks tokens (stmts.map Stmt.eraseSpans) ∧ stop.kind ∈ ends := by
  induction rounds generalizing start stmts with
  | nil => exact absurd h reject_ne_ok
  | cons round rounds ih =>
      simp only [statementsUntil, monadLift_self, kind_bind_apply] at h
      split at h
      · next hend =>
          cases h
          exact ⟨[], .refl closing, .nil, hend⟩
      · obtain ⟨first, middle, hfirst, h⟩ := bind_eq_ok.mp h
        obtain ⟨others, last, hothers, hrest⟩ := bind_eq_ok.mp h
        obtain ⟨tokens, hpasses, hstmt⟩ := hstatement closing hfirst
        cases hrest
        obtain ⟨more, hmore, hstmts, hend⟩ := ih hpasses.closing hothers
        exact ⟨_, hpasses.trans hmore, .cons hstmt hstmts, hend⟩

theorem expression_yields {limit blocks levels : Nat} (hlevels : blocks + levels ≤ limit) :
    Yields (expression .standard levels .lowest) fun tokens tree =>
      Derives limit .expression (blocks + 1) tokens tree.eraseSpans := by
  intro start stop tree closing h
  have hsound : Sound limit (blocks + 1) (expression .standard levels) :=
    expression_sound (by omega)
  obtain ⟨tokens, hpasses, hderives, -⟩ := hsound closing h
  exact ⟨tokens, hpasses, hderives⟩

theorem block_yields {limit blocks levels : Nat} (hlevels : blocks + levels ≤ limit) :
    Yields (block .standard levels) fun tokens tree =>
      Braced limit blocks tokens tree.eraseSpans := by
  induction levels generalizing blocks with
  | zero =>
      intro start stop tree closing h
      obtain ⟨opening, middle, -, h⟩ := bind_eq_ok.mp h
      obtain ⟨body, last, h, -⟩ := bind_eq_ok.mp h
      cases h
  | succ levels ih =>
      intro start stop tree closing h
      have hlevels' : blocks + 1 + levels ≤ limit := by omega
      have hstatement := statementWith_yields (expression_yields hlevels') (ih hlevels')
      obtain ⟨opening, first, hopening, h⟩ := bind_eq_ok.mp h
      obtain ⟨body, second, hbody, h⟩ := bind_eq_ok.mp h
      rw [remaining_bind_rest] at hbody
      obtain ⟨closer, third, hcloser, hrest⟩ := bind_eq_ok.mp h
      obtain ⟨hopen, hpassed⟩ := expectOr_passes closing (by decide) hopening
      obtain ⟨tokens, hpasses, hstmts, -⟩ :=
        statementsUntil_yields hstatement hpassed.closing hbody
      obtain ⟨hclose, hlast⟩ := expectOr_passes hpasses.closing (by decide) hcloser
      cases hrest
      refine ⟨_, hpassed.cons (hpasses.trans hlast), ?_⟩
      have hbraced := Braced.mk (by omega) hopen hclose hstmts
      rwa [← Stmt.eraseAll_eq_map] at hbraced

theorem exists_program_of_parse {file : String} {tokens : List Token} {program : Block}
    (h : parse tokens file = .ok program) :
    ∃ stop, Parse.program .standard file (.ofTokens file tokens) = .ok program stop := by
  unfold parse at h
  split at h
  · next stop hstop =>
      cases h
      exact ⟨stop, hstop⟩
  · cases h

/-- A stream that is accepted is a program up to its first closing token. -/
theorem program_sound {file : String} {tokens : List Token} {program : Block}
    (h : parse tokens file = .ok program) :
    Program nestingLimit (Token.beforeEnd tokens) program.eraseSpans := by
  obtain ⟨stop, hstop⟩ := exists_program_of_parse h
  rw [Parse.program, remaining_bind_rest] at hstop
  obtain ⟨body, last, hbody, hrest⟩ := bind_eq_ok.mp hstop
  cases hrest
  have hlevels : 0 + nestingLimit ≤ nestingLimit := by omega
  obtain ⟨passed, hpasses, hstmts, hend⟩ :=
    statementsUntil_yields (statementWith_yields (expression_yields hlevels)
      (block_yields hlevels)) (Cursor.closing_ofTokens file tokens) hbody
  have hpassed := hpasses.beforeEnd_eq (List.mem_singleton.mp hend)
  rw [Cursor.rest_ofTokens, Cursor.beforeEnd_closed] at hpassed
  rw [hpassed]
  rw [← Stmt.eraseAll_eq_map] at hstmts
  exact .mk hstmts

end Assay.Parse
