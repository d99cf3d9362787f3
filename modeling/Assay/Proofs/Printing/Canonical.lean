import Assay.Proofs.Numeral.Reading
import Assay.Proofs.Printing.Lexing

/-!
# Written trees are phrases

A tree that the tokens of a source spell is spelled by the tokens it is written with, too,
and on no deeper level.  This is seen along the derivation of the source: where a tree is
written in parentheses, the source had to have them, as the tree has no derivation in a
tighter category without; and where the source had more of them, leaving them out makes the
phrase shallower.
-/

namespace Assay

/-! ## Integers -/

namespace Numeral

private theorem isDigit_eq (c : Char) : isDigit c = c.isDigit := by
  simp only [isDigit, Char.isDigit, Char.le_def, ge_iff_le]

private theorem integer?_digits {digits : List Char} (hne : digits ≠ [])
    (hdigits : ∀ c ∈ digits, isDigit c) {number : Int64} :
    integer? (String.ofList digits) = some number ↔ (value digits : Int) = number.toInt := by
  have hsplit : splitSign (String.ofList digits).toList = (false, digits) := by
    rw [String.toList_ofList]
    exact splitSign_append .absent (ne_sign_of_digits hdigits)
  rw [integer?_of_splitSign hsplit]
  exact ⟨fun h => h.2.2, fun h => ⟨hne, hdigits, h⟩⟩

private theorem integer?_toString {digits : List Char} (hne : digits ≠ [])
    (hdigits : ∀ c ∈ digits, isDigit c) {number : Int64}
    (h : integer? (String.ofList digits) = some number) :
    integer? (toString number.toInt) = some number ∧
      LexemeRule.Lexical .integer (toString number.toInt).toList := by
  have hnumber := (integer?_digits hne hdigits).mp h
  have htext : toString number.toInt = String.ofList (Nat.toDigits 10 (value digits)) := by
    rw [← hnumber]
    rfl
  have hdecimal : ∀ c ∈ Nat.toDigits 10 (value digits), isDigit c := by
    intro c hc
    rw [isDigit_eq]
    exact Nat.isDigit_of_mem_toDigits (by decide) (by decide) hc
  have hvalue : value (Nat.toDigits 10 (value digits)) = value digits :=
    Nat.ofDigitChars_toDigits (by decide) (by decide)
  rw [htext, integer?_digits Nat.toDigits_ne_nil hdecimal, hvalue, String.toList_ofList]
  exact ⟨hnumber, .integer Nat.toDigits_ne_nil hdecimal⟩

end Numeral

namespace Grammar

open Numeral (Spelling)

/-! ## Levels -/

mutual

theorem Derives.shallower {limit level outer : Nat} {category : Category} {tokens : List Token}
    {tree : Expr} (h : Derives limit category level tokens tree) (houter : outer ≤ level) :
    Derives limit category outer tokens tree := by
  have hinside := Nat.succ_le_succ houter
  match h with
  | .plain hlogical => exact .plain (hlogical.shallower houter)
  | .ternary hquestion hcolon hcondition hwhenTrue hwhenFalse =>
      exact .ternary hquestion hcolon (hcondition.shallower houter) (hwhenTrue.shallower hinside)
        (hwhenFalse.shallower hinside)
  | .chain hfamily hfirst hlinks =>
      exact .chain hfamily (hfirst.shallower houter) (hlinks.shallower hinside)
  | .comparison hfirst hlinks =>
      exact .comparison (hfirst.shallower houter) (hlinks.shallower hinside)
  | .unary hlevel hsign hoperand =>
      exact .unary (houter.trans hlevel) hsign (hoperand.shallower hinside)
  | .primary hlevel hprimary => exact .primary (houter.trans hlevel) (hprimary.shallower houter)
  | .integer hkind hvalue => exact .integer hkind hvalue
  | .float hkind hvalue => exact .float hkind hvalue
  | .trueLiteral hkind => exact .trueLiteral hkind
  | .falseLiteral hkind => exact .falseLiteral hkind
  | .read hkind => exact .read hkind
  | .list hopening hclosing helements =>
      exact .list hopening hclosing (helements.shallower hinside)
  | .group hopening hclosing hinner => exact .group hopening hclosing (hinner.shallower hinside)

theorem Links.shallower {limit level outer : Nat} {σ : Type} {sign : σ → TokenKind}
    {category : Category} {tokens : List Token} {links : List (σ × Expr)}
    (h : Links limit sign category level tokens links) (houter : outer ≤ level) :
    Links limit sign category outer tokens links := by
  match h with
  | .nil => exact .nil
  | .cons hsign hoperand hlinks =>
      exact .cons hsign (hoperand.shallower houter) (hlinks.shallower houter)

theorem Elements.shallower {limit level outer : Nat} {tokens : List Token}
    {elements : List Expr} (h : Elements limit level tokens elements) (houter : outer ≤ level) :
    Elements limit outer tokens elements := by
  match h with
  | .nil => exact .nil
  | .last helement => exact .last (helement.shallower houter)
  | .cons hcomma helement helements =>
      exact .cons hcomma (helement.shallower houter) (helements.shallower houter)

end

/-! ## Canonical phrases -/

private theorem Category.rank_expression_le (category : Category) :
    Category.expression.rank ≤ category.rank := by
  cases category <;> decide

/-- What is written for a tree is a phrase of its own category, on the given level; and if
the tree stood where a tighter category is asked for, on the next level as well. -/
structure Canonical (spelling : Spelling) (limit : Nat) (category : Category) (level : Nat)
    (tree : Expr) : Prop where
  derives : Derives limit tree.category level (tree.written spelling) tree
  deeper : tree.category.rank < category.rank →
    Derives limit tree.category (level + 1) (tree.written spelling) tree
  lexical : Token.AllLexical (tree.written spelling)

section

variable {spelling : Spelling} {limit level : Nat} {category : Category} {tree : Expr}

namespace Canonical

theorem loosen {loose : Category} (h : Canonical spelling limit category level tree)
    (hrank : loose.rank ≤ category.rank) : Canonical spelling limit loose level tree :=
  ⟨h.derives, fun hloose => h.deeper (by omega), h.lexical⟩

theorem of_rank_le (hrank : category.rank ≤ tree.category.rank)
    (hderives : Derives limit tree.category level (tree.written spelling) tree)
    (hlexical : Token.AllLexical (tree.written spelling)) :
    Canonical spelling limit category level tree :=
  ⟨hderives, fun hrank' => absurd hrank' (by omega), hlexical⟩

theorem expression (h : Canonical spelling limit category level tree) (hlevel : level ≤ limit) :
    Derives limit .expression level (tree.written spelling) tree :=
  h.derives.loosen hlevel (Category.rank_expression_le _)

theorem enclosed (h : Canonical spelling limit category level tree) (hlevel : level ≤ limit) :
    Derives limit category level (tree.enclosed category (tree.written spelling)) tree := by
  unfold Expr.enclosed
  split
  · next hrank =>
      have hdeeper := h.deeper hrank
      have hprimary : tree.category ≠ .primary := by
        intro hprimary
        rw [hprimary] at hrank
        cases category <;> simp [Category.rank] at hrank
      have hinner := hdeeper.loosen (hdeeper.level_le hprimary) (Category.rank_expression_le _)
      have hgroup : Derives limit .primary level
          (.fixed .openParen :: (tree.written spelling ++ [.fixed .closeParen])) tree :=
        .group rfl rfl hinner
      exact hgroup.loosen hlevel (by cases category <;> decide)
  · next hrank => exact h.derives.loosen hlevel (by omega)

end Canonical

private theorem lexical_enclosed {tokens : List Token} (h : Token.AllLexical tokens) :
    Token.AllLexical (tree.enclosed category tokens) := by
  unfold Expr.enclosed
  split
  · exact .fixed rfl (h.append (.fixed rfl .nil))
  · exact h

/-! ## Linked operands -/

private theorem links_written {σ : Type} {sign : σ → TokenKind} {token : σ → Token}
    (hsign : ∀ operator, (token operator).kind = sign operator)
    {links : List (σ × Expr)} (hlevel : links ≠ [] → level ≤ limit)
    (h : ∀ link ∈ links, Canonical spelling limit category level link.2) :
    Links limit sign category level
      (Expr.writtenLinks spelling category (links.map Prod.snd)
        (links.map fun link => token link.1))
      links := by
  induction links with
  | nil => exact .nil
  | cons link links ih =>
      rcases List.forall_mem_cons.mp h with ⟨hlink, hlinks⟩
      have hlevel := hlevel (List.cons_ne_nil link links)
      rw [List.map_cons, List.map_cons, Expr.writtenLinks]
      exact .cons (hsign link.1) (hlink.enclosed hlevel) (ih (fun _ => hlevel) hlinks)

private theorem lexical_writtenLinks {operands : List Expr} {signs : List Token}
    (hoperands : ∀ operand ∈ operands, Token.AllLexical (operand.written spelling))
    (hsigns : Token.AllLexical signs) :
    Token.AllLexical (Expr.writtenLinks spelling category operands signs) := by
  induction operands generalizing signs with
  | nil =>
      rw [Expr.writtenLinks_nil]
      exact .nil
  | cons operand operands ih =>
      rcases List.forall_mem_cons.mp hoperands with ⟨hoperand, hothers⟩
      cases signs with
      | nil => exact .nil
      | cons sign signs =>
          rw [Expr.writtenLinks]
          exact .cons hsigns.head ((lexical_enclosed hoperand).append (ih hothers hsigns.tail))

/-! ## Comparisons -/

private theorem restartedBy_comparedInRuns {first : Expr} {links : List (Comparator × Expr)}
    {last : Comparator × Expr} (hlast : last ∈ links.getLast?) {operator : Comparator}
    (h : (comparedInRuns first links).restartedBy operator) : last.1 ≠ operator := by
  induction links using runs_induction generalizing first with
  | nil => cases hlast
  | run other operand operands after hafter ih =>
      rw [comparedInRuns_run_append first (List.cons_ne_nil _ _) hafter] at h
      by_cases hnil : after = []
      · subst hnil
        rw [List.append_nil, List.getLast?_map] at hlast
        rcases Option.map_eq_some_iff.mp hlast with ⟨_, -, rfl⟩
        simpa [Expr.restartedBy] using h
      · rw [List.getLast?_append_of_ne_nil _ hnil] at hlast
        exact ih hlast h

theorem Derives.restart {tokens more : List Token} {first : Expr}
    {links : List (Comparator × Expr)} {operator : Comparator}
    (hfirst : Derives limit .comparison level tokens first)
    (hrestarted : first.restartedBy operator)
    (hhead : ∀ link ∈ links.head?, link.1 = operator)
    (hlinks : Links limit Comparator.sign .additive (level + 1) more links) :
    Derives limit .comparison level (tokens ++ more) (comparedInRuns first links) := by
  cases hfirst with
  | chain hfamily => cases hfamily
  | @comparison _ before after operand runs hoperand hruns =>
      have hdiffers : ∀ last ∈ runs.getLast?, ∀ link ∈ links.head?, last.1 ≠ link.1 := by
        intro last hlast link hlink
        rw [hhead link hlink]
        exact restartedBy_comparedInRuns hlast hrestarted
      rw [← comparedInRuns_append hdiffers, List.append_assoc]
      exact .comparison hoperand (hruns.append hlinks)

/-- The tokens may stand in front of the links of a comparison whose first operand is the
tree. -/
def Leads (limit level : Nat) (operator : Comparator) (tokens : List Token) (tree : Expr) : Prop :=
  ∀ more links, (∀ link ∈ links.head?, link.1 = operator) →
    Links limit Comparator.sign .additive (level + 1) more links →
      Derives limit .comparison level (tokens ++ more) (comparedInRuns tree links)

theorem Canonical.leads (h : Canonical spelling limit .additive level tree)
    (hlevel : level ≤ limit) (operator : Comparator) :
    Leads limit level operator (tree.enclosedFirst operator (tree.written spelling)) tree := by
  intro more links hhead hlinks
  unfold Expr.enclosedFirst
  split
  · next hrestarted =>
      have hcategory : tree.category = .comparison := by
        cases tree <;> first | rfl | cases hrestarted
      exact (hcategory ▸ h.derives).restart hrestarted hhead hlinks
  · exact .comparison (h.enclosed hlevel) hlinks

private theorem lexical_enclosedFirst {tokens : List Token} {operator : Comparator}
    (h : Token.AllLexical tokens) : Token.AllLexical (tree.enclosedFirst operator tokens) := by
  unfold Expr.enclosedFirst
  split
  · exact h
  · exact lexical_enclosed h

private theorem lexical_comparator (operator : Comparator) : operator.token.Lexical := by
  cases operator <;> exact .fixed rfl

/-- Each run is written behind what leads it, and leads the next one itself. -/
theorem canonical_comparedInRuns {first : Expr} {links : List (Comparator × Expr)}
    (hne : links ≠ []) (hlevel : level + 1 ≤ limit)
    (hlexical : Token.AllLexical (first.written spelling))
    (hleads : ∀ link ∈ links.head?, Leads limit level link.1
      (first.enclosedFirst link.1 (first.written spelling)) first)
    (hlinks : ∀ link ∈ links, Canonical spelling limit .additive (level + 1) link.2) :
    Canonical spelling limit .comparison level (comparedInRuns first links) := by
  induction links using runs_induction generalizing first with
  | nil => exact absurd rfl hne
  | run operator operand operands after hafter ih =>
      rcases List.forall_mem_append.mp hlinks with ⟨hrun, hothers⟩
      have hsigns : ((operand :: operands).map (operator, ·)).map
            (fun link : Comparator × Expr => link.1.token) =
          List.replicate (operand :: operands).length operator.token := by
        simp only [List.map_map, Function.comp_def, List.map_const']
      have hoperands : ((operand :: operands).map (operator, ·)).map Prod.snd =
          operand :: operands := by simp [Function.comp_def]
      have hwritten := links_written Comparator.kind_token (fun _ => hlevel) hrun
      rw [hsigns, hoperands] at hwritten
      -- The chain of the first run, which is the first operand of the next one.
      have hchain : Canonical spelling limit .comparison level
          (.comparison operator (first :: operand :: operands) .null) := by
        refine .of_rank_le (Nat.le_refl _) ?_ ?_
        · have hderives := hleads (operator, operand) rfl _ _ (by simp) hwritten
          rw [comparedInRuns_run first operator (List.cons_ne_nil _ _)] at hderives
          exact hderives
        · refine (lexical_enclosedFirst hlexical).append (lexical_writtenLinks ?_ ?_)
          · intro other hother
            exact (hrun (operator, other) (List.mem_map_of_mem hother)).lexical
          · intro sign hsign
            rw [List.eq_of_mem_replicate hsign]
            exact lexical_comparator operator
      rw [comparedInRuns_run_append first (List.cons_ne_nil _ _) hafter]
      by_cases hnil : after = []
      · rw [hnil, comparedInRuns_nil]
        exact hchain
      · refine ih hnil hchain.lexical ?_ hothers
        intro link hlink more links hhead hmore
        have hrestarted :
            (Expr.comparison operator (first :: operand :: operands) .null).restartedBy link.1 := by
          simpa [Expr.restartedBy] using (hafter link hlink).symm
        rw [Expr.enclosedFirst, if_pos hrestarted]
        exact hchain.derives.restart hrestarted hhead hmore

private theorem lexical_unary (operator : UnaryOperator) : operator.token.Lexical := by
  cases operator <;> exact .fixed rfl

private theorem lexical_operator {family : Family} (operator : Operator family) :
    operator.token.Lexical := by
  cases operator <;> exact .fixed rfl

end

/-! ## Expressions -/

private theorem canonical_chained {spelling : Spelling} {limit level : Nat} {family : Family}
    {first : Expr} {links : List (Operator family × Expr)} (hne : links ≠ [])
    (hlevel : level + 1 ≤ limit)
    (hfirst : Canonical spelling limit family.category.tighter level first)
    (hlinks : ∀ link ∈ links, Canonical spelling limit family.category.tighter (level + 1) link.2) :
    Canonical spelling limit family.category level (chained family first links) := by
  have hwritten := links_written Operator.kind_token (fun _ => hlevel) hlinks
  cases links with
  | nil => exact absurd rfl hne
  | cons link links =>
      have hsigns : (link :: links).map (fun link => link.1.token) =
          ((link :: links).map Prod.fst).map Operator.token := by
        rw [List.map_map]
        rfl
      rw [hsigns] at hwritten
      refine .of_rank_le (Nat.le_refl _) ?_ ?_
      · exact .chain family.family?_category (hfirst.enclosed (by omega)) hwritten
      · refine (lexical_enclosed hfirst.lexical).append (lexical_writtenLinks ?_ ?_)
        · intro operand hoperand
          rcases List.mem_map.mp hoperand with ⟨other, hother, rfl⟩
          exact (hlinks other hother).lexical
        · intro sign hsign
          rcases List.mem_map.mp hsign with ⟨operator, -, rfl⟩
          exact lexical_operator operator

mutual

theorem Derives.canonical {limit level : Nat} {category : Category} {tokens : List Token}
    {tree : Expr} (h : Derives limit category level tokens tree)
    (hlexical : Token.AllLexical tokens) (spelling : Spelling) :
    Canonical spelling limit category level tree := by
  match h with
  | .plain hlogical => exact (hlogical.canonical hlexical spelling).loosen (by decide)
  | .ternary hquestion hcolon hcondition hwhenTrue hwhenFalse =>
      have hfirst := hcondition.canonical hlexical.left spelling
      have hsecond := hwhenTrue.canonical hlexical.right.tail.left spelling
      have hthird := hwhenFalse.canonical hlexical.right.tail.right.tail spelling
      have hlevel := hwhenTrue.level_le nofun
      refine .of_rank_le (Nat.le_refl _) ?_ ?_
      · exact .ternary rfl rfl (hfirst.enclosed (by omega)) (hsecond.expression hlevel)
          (hthird.expression hlevel)
      · exact (lexical_enclosed hfirst.lexical).append
          (.fixed rfl (hsecond.lexical.append (.fixed rfl hthird.lexical)))
  | @Derives.chain _ _ family _ _ _ first links hfamily hfirst hlinks =>
      have hfirst' := hfirst.canonical hlexical.left spelling
      have hlinks' := hlinks.canonical hlexical.right spelling
      have hcategory : category = family.category := by
        cases category <;> cases hfamily <;> rfl
      subst hcategory
      by_cases hnil : links = []
      · rw [hnil, chained_nil]
        exact hfirst'.loosen (by cases family <;> decide)
      · have hlevel := hlinks.level_le (by cases family <;> nofun) hnil
        exact canonical_chained hnil hlevel hfirst' hlinks'
  | @Derives.comparison _ _ _ _ first links hfirst hlinks =>
      have hfirst' := hfirst.canonical hlexical.left spelling
      have hlinks' := hlinks.canonical hlexical.right spelling
      by_cases hnil : links = []
      · rw [hnil, comparedInRuns_nil]
        exact hfirst'.loosen (by decide)
      · have hleads := hfirst'.leads (hfirst.level_le nofun)
        exact canonical_comparedInRuns hnil (hlinks.level_le nofun hnil) hfirst'.lexical
          (fun link _ => hleads link.1) hlinks'
  | @Derives.unary _ _ _ _ operator _ hlevel hsign hoperand =>
      have hoperand' := hoperand.canonical hlexical.tail spelling
      refine .of_rank_le (Nat.le_refl _) ?_ ?_
      · exact .unary hlevel rfl (hoperand'.enclosed (hoperand.level_le nofun))
      · exact .cons (lexical_unary operator) (lexical_enclosed hoperand'.lexical)
  | .primary hlevel hprimary => exact (hprimary.canonical hlexical spelling).loosen (by decide)
  | @Derives.integer _ _ token value hkind hvalue =>
      rcases hlexical.head.digits hkind with ⟨hne, hdigits⟩
      rw [← String.ofList_toList (s := token.text)] at hvalue
      rcases Numeral.integer?_toString hne hdigits hvalue with ⟨hvalue', hlexical'⟩
      exact .of_rank_le (Nat.le_refl _) (.integer rfl hvalue') (.cons hlexical' .nil)
  | @Derives.float _ _ token value hkind hvalue =>
      have hpointed := hlexical.head.pointed hkind
      rw [String.ofList_toList] at hpointed
      rcases spelling.denotes ⟨hpointed, hvalue⟩ with ⟨hpointed', hvalue'⟩
      exact .of_rank_le (Nat.le_refl _) (.float rfl hvalue') (.cons hpointed'.lexical .nil)
  | .trueLiteral _ =>
      exact .of_rank_le (Nat.le_refl _) (.trueLiteral rfl) (.fixed rfl .nil)
  | .falseLiteral _ =>
      exact .of_rank_le (Nat.le_refl _) (.falseLiteral rfl) (.fixed rfl .nil)
  | @Derives.read _ _ token hkind =>
      exact .of_rank_le (Nat.le_refl _) (.read rfl) (.cons (hlexical.head.name hkind) .nil)
  | .list _ _ helements =>
      rcases helements.canonical hlexical.tail.left spelling with ⟨helements', hlexical'⟩
      exact .of_rank_le (Nat.le_refl _) (.list rfl rfl helements')
        (.fixed rfl (hlexical'.append (.fixed rfl .nil)))
  | .group _ _ hinner =>
      have hinner' := hinner.canonical hlexical.tail.left spelling
      exact ⟨hinner'.derives.shallower (Nat.le_succ _), fun _ => hinner'.derives, hinner'.lexical⟩

theorem Links.canonical {limit level : Nat} {σ : Type} {sign : σ → TokenKind}
    {category : Category} {tokens : List Token} {links : List (σ × Expr)}
    (h : Links limit sign category level tokens links) (hlexical : Token.AllLexical tokens)
    (spelling : Spelling) : ∀ link ∈ links, Canonical spelling limit category level link.2 := by
  match h with
  | .nil => nofun
  | .cons _ hoperand hlinks =>
      exact List.forall_mem_cons.mpr ⟨hoperand.canonical hlexical.tail.left spelling,
        hlinks.canonical hlexical.tail.right spelling⟩

theorem Elements.canonical {limit level : Nat} {tokens : List Token} {elements : List Expr}
    (h : Elements limit level tokens elements) (hlexical : Token.AllLexical tokens)
    (spelling : Spelling) :
    Elements limit level (Expr.writtenElements spelling elements) elements ∧
      Token.AllLexical (Expr.writtenElements spelling elements) := by
  match h with
  | .nil => exact ⟨.nil, .nil⟩
  | .last helement =>
      have helement' := helement.canonical hlexical spelling
      exact ⟨.last (helement'.expression (helement.level_le nofun)), helement'.lexical⟩
  | @Elements.cons _ _ _ _ _ _ elements hcomma helement helements =>
      have helement' := helement.canonical hlexical.left spelling
      have hfirst := helement'.expression (helement.level_le nofun)
      rcases helements.canonical hlexical.right.tail spelling with ⟨helements', hlexical'⟩
      -- A comma behind the last element is not written.
      cases elements with
      | nil => exact ⟨.last hfirst, helement'.lexical⟩
      | cons next elements =>
          exact ⟨.cons rfl hfirst helements', helement'.lexical.append (.fixed rfl hlexical')⟩

end

end Grammar

end Assay
