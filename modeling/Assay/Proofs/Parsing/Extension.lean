import Assay.Proofs.Parsing.Soundness
import Assay.Proofs.Tree.Sign

/-!
# What is passed begins a phrase

A step that fails has still passed tokens that some phrase begins with.  What it has read is
sound, what it was reading can be completed, and what it had not come to can be supplied,
since no category of the grammar is empty.  The phrases may lie a little deeper than what the
parser accepts, so the limit of the grammar has to leave room for them.
-/

namespace Assay.Parse

open Grammar

/-! ## Sets of phrases -/

/-- A set of phrases that is not empty. -/
structure Phrases where
  Mem : List Token → Prop
  exists_mem : ∃ tokens, Mem tokens

namespace Phrases

def empty : Phrases := ⟨(· = []), [], rfl⟩

def one (kind : TokenKind) : Phrases :=
  ⟨fun tokens => ∃ token : Token, token.kind = kind ∧ tokens = [token], [.fixed kind], _, rfl, rfl⟩

def andThen (first second : Phrases) : Phrases where
  Mem tokens := ∃ before after, first.Mem before ∧ second.Mem after ∧ tokens = before ++ after
  exists_mem := by
    rcases first.exists_mem with ⟨before, hbefore⟩
    rcases second.exists_mem with ⟨after, hafter⟩
    exact ⟨_, before, after, hbefore, hafter, rfl⟩

def optional (phrases : Phrases) : Phrases :=
  ⟨fun tokens => tokens = [] ∨ phrases.Mem tokens, [], .inl rfl⟩

def of {β : Type} (phrase : List Token → β → Prop) (h : ∃ tokens tree, phrase tokens tree) :
    Phrases :=
  ⟨fun tokens => ∃ tree, phrase tokens tree, h⟩

end Phrases

/-- If a step succeeds, what it passes is one of the phrases; if it fails, what it has passed
begins one. -/
def Spells {α : Type} (step : Parse α) (start : Cursor) (phrases : Phrases) : Prop :=
  start.Closing → Ensures step start
    (fun _ stop => ∃ tokens, start.Passes tokens stop ∧ phrases.Mem tokens)
    fun _ stop => ∃ tokens more, start.Passes tokens stop ∧ phrases.Mem (tokens ++ more)

namespace Spells

variable {α β : Type} {step : Parse α} {following : α → Parse β} {start : Cursor}
  {first second phrases : Phrases} {kind : TokenKind}

theorem pure {value : α} : Spells (Pure.pure value) start .empty :=
  fun closing => ⟨[], .refl closing, rfl⟩

theorem reject {cause : String → Cause} : Spells (reject cause : Parse α) start phrases := by
  intro closing
  rcases phrases.exists_mem with ⟨more, hmore⟩
  exact ⟨[], more, .refl closing, hmore⟩

theorem unexpected : Spells (unexpected : Parse α) start phrases := reject

theorem unexpectedHere (message : String) :
    Spells (unexpectedHere message : Parse α) start phrases := reject

theorem tooDeep : Spells (tooDeep : Parse α) start phrases := unexpectedHere _

theorem mono (h : Spells step start first) (hmem : ∀ tokens, first.Mem tokens → second.Mem tokens) :
    Spells step start second := by
  intro closing
  apply (h closing).mono
  · rintro value stop ⟨tokens, hpasses, htokens⟩
    exact ⟨tokens, hpasses, hmem _ htokens⟩
  · rintro fault stop ⟨tokens, more, hpasses, htokens⟩
    exact ⟨tokens, more, hpasses, hmem _ htokens⟩

theorem bind (hstep : Spells step start first)
    (hfollowing : ∀ value middle, Spells (following value) middle second) :
    Spells (step >>= following) start (first.andThen second) := by
  intro closing
  apply Ensures.bind
  apply (hstep closing).mono
  · rintro value middle ⟨tokens, hpasses, htokens⟩
    apply (hfollowing value middle hpasses.closing).mono
    · rintro result stop ⟨others, hothers, hmem⟩
      exact ⟨_, hpasses.trans hothers, tokens, others, htokens, hmem, rfl⟩
    · rintro fault stop ⟨others, more, hothers, hmem⟩
      exact ⟨_, more, hpasses.trans hothers, tokens, others ++ more, htokens, hmem, by simp⟩
  · rintro fault stop ⟨tokens, more, hpasses, htokens⟩
    rcases second.exists_mem with ⟨others, hothers⟩
    exact ⟨tokens, more ++ others, hpasses, tokens ++ more, others, htokens, hothers, by simp⟩

theorem last (hstep : Spells step start phrases)
    (hfollowing : ∀ value middle, Spells (following value) middle .empty) :
    Spells (step >>= following) start phrases := by
  apply (hstep.bind hfollowing).mono
  rintro tokens ⟨before, after, hbefore, rfl, rfl⟩
  rwa [List.append_nil]

theorem kind_bind {following : TokenKind → Parse β}
    (h : Spells (following start.kind) start phrases) :
    Spells (Parse.kind >>= following) start phrases := h

theorem remaining_bind {following : List Token → Parse β}
    (h : Spells (following start.rest) start phrases) :
    Spells (remaining >>= following) start phrases := h

theorem previousEnd {build : Position → α} :
    Spells (Parse.previousEnd >>= fun stop => Pure.pure (build stop)) start .empty :=
  fun closing => ⟨[], .refl closing, rfl⟩

theorem advance (hkind : start.kind = kind) (hend : kind ≠ .endOfInput) :
    Spells advance start (.one kind) :=
  fun closing => ⟨_, .next closing (hkind ▸ hend), _, hkind, rfl⟩

theorem expectOr {cause : String → Cause} (hend : kind ≠ .endOfInput) :
    Spells (expectOr kind (Parse.reject cause)) start (.one kind) := by
  intro closing
  by_cases hkind : start.kind = kind
  · exact .of_eq (if_pos hkind) (advance hkind hend closing)
  · exact .of_eq (if_neg hkind) (reject closing)

end Spells

/-! ## Expressions -/

section

variable {limit level : Nat}

private theorem exists_derives (category : Category) (hlevel : level ≤ limit) :
    ∃ tokens tree, Derives limit category level tokens tree := by
  have hprimary : Derives limit .primary level [.fixed .trueWord] (.bool true .null) :=
    .trueLiteral rfl
  exact ⟨_, _, hprimary.loosen hlevel (by cases category <;> decide)⟩

def Phrases.derives (category : Category) (hlevel : level ≤ limit) : Phrases :=
  .of (Derives limit category level) (exists_derives category hlevel)

def Phrases.elements (limit level : Nat) : Phrases :=
  .of (Elements limit level) ⟨[], [], .nil⟩

def Phrases.links {σ : Type} (limit : Nat) (sign : σ → TokenKind) (category : Category)
    (level : Nat) : Phrases :=
  .of (Links limit sign category level) ⟨[], [], .nil⟩

variable {start : Cursor}

private theorem number_spells {α : Type} {read? : String → Option α} {build : α → Span → Expr}
    {phrases : Phrases} (hkind : start.kind ≠ .endOfInput)
    (h : ∀ value, read? start.current.text = some value → phrases.Mem [start.current]) :
    Spells (number read? build) start phrases := by
  intro closing
  have hreject : Spells (reject .numberParse : Parse Expr) start phrases := .reject
  unfold Ensures number
  cases hread : read? start.current.text with
  | some value => exact ⟨_, .next closing hkind, h value hread⟩
  | none => exact hreject closing

private theorem atom_spells (hlevel : level ≤ limit) :
    Spells atom start (.derives .primary hlevel) := by
  apply Spells.kind_bind
  generalize hkind : start.kind = kind
  split
  · exact number_spells (by simp [hkind]) fun _ hvalue => ⟨_, .integer hkind hvalue⟩
  · exact number_spells (by simp [hkind]) fun _ hvalue => ⟨_, .float hkind hvalue⟩
  · apply ((Spells.advance hkind (by decide)).last fun _ _ => .pure).mono
    rintro tokens ⟨token, htoken, rfl⟩
    exact ⟨_, .trueLiteral htoken⟩
  · apply ((Spells.advance hkind (by decide)).last fun _ _ => .pure).mono
    rintro tokens ⟨token, htoken, rfl⟩
    exact ⟨_, .falseLiteral htoken⟩
  · apply ((Spells.advance hkind (by decide)).last fun _ _ => .pure).mono
    rintro tokens ⟨token, htoken, rfl⟩
    exact ⟨_, .read htoken⟩
  · exact .reject

end

section

variable {limit level : Nat} {subexpression : Power → Parse Expr} {start : Cursor}
variable {hinner : level + 1 ≤ limit}
variable (hsub : ∀ power start,
  Spells (subexpression power) start (.derives power.operand hinner))

include hsub

private theorem unary_spells (hform : Dialect.standard.opening? start.kind = some .unary) :
    Spells (unary subexpression) start (.derives .unary (Nat.le_of_succ_le hinner)) := by
  have hend : start.kind ≠ .endOfInput := by
    intro hkind
    rw [hkind] at hform
    cases hform
  apply ((Spells.advance rfl hend).bind fun _ _ => (hsub .unary _).last fun _ _ => .pure).mono
  rintro tokens ⟨_, _, ⟨sign, hsign, rfl⟩, ⟨tree, hderives⟩, rfl⟩
  rw [← hsign] at hform
  obtain ⟨operator, hoperator⟩ : ∃ operator : UnaryOperator, sign.kind = operator.sign := by
    cases hkind : sign.kind <;> rw [hkind] at hform <;> cases hform
    case not => exact ⟨.not, rfl⟩
    case dash => exact ⟨.neg, rfl⟩
  exact ⟨_, .unary (Nat.le_of_succ_le hinner) hoperator hderives⟩

private theorem group_spells (hkind : start.kind = .openParen) :
    Spells (group subexpression) start (.derives .primary (Nat.le_of_succ_le hinner)) := by
  apply ((Spells.advance hkind (by decide)).bind fun _ _ => (hsub .lowest _).bind fun _ _ =>
    (Spells.expectOr (by decide)).last fun _ _ => .pure).mono
  rintro tokens ⟨_, _, ⟨opening, hopening, rfl⟩, ⟨_, _, ⟨tree, hderives⟩,
    ⟨closing, hclosing, rfl⟩, rfl⟩, rfl⟩
  exact ⟨_, .group hopening hclosing hderives⟩

private theorem elements_spells (rounds : List Token) :
    Spells (elements (subexpression .lowest) rounds) start (.elements limit (level + 1)) := by
  induction rounds generalizing start with
  | nil => exact .reject
  | cons round rounds ih =>
      apply Spells.kind_bind
      split
      · apply Spells.pure.mono
        rintro tokens rfl
        exact ⟨_, .nil⟩
      · have hmem (tokens : List Token)
            (h : ((Phrases.derives .expression hinner).andThen (.optional
              ((Phrases.one .comma).andThen (.elements limit (level + 1))))).Mem tokens) :
            (Phrases.elements limit (level + 1)).Mem tokens := by
          rcases h with ⟨_, _, ⟨tree, hderives⟩,
            rfl | ⟨_, _, ⟨comma, hcomma, rfl⟩, ⟨trees, helements⟩, rfl⟩, rfl⟩
          · rw [List.append_nil]
            exact ⟨_, .last hderives⟩
          · exact ⟨_, .cons hcomma hderives helements⟩
        refine ((hsub .lowest start).bind fun first middle => .kind_bind ?_).mono hmem
        generalize hkind : middle.kind = kind
        split
        · apply ((Spells.advance hkind (by decide)).bind fun _ _ => ih.last fun _ _ => .pure).mono
          exact fun tokens htokens => .inr htokens
        · apply Spells.pure.mono
          exact fun tokens htokens => .inl htokens
        · exact .unexpectedHere _

private theorem list_spells (hkind : start.kind = .openBracket) :
    Spells (list subexpression) start (.derives .primary (Nat.le_of_succ_le hinner)) := by
  apply ((Spells.advance hkind (by decide)).bind fun _ middle =>
    Spells.remaining_bind ((elements_spells hsub _).bind fun _ _ =>
      (Spells.expectOr (by decide)).last fun _ _ => .previousEnd)).mono
  rintro tokens ⟨_, _, ⟨opening, hopening, rfl⟩, ⟨_, _, ⟨trees, helements⟩,
    ⟨closing, hclosing, rfl⟩, rfl⟩, rfl⟩
  exact ⟨_, .list hopening hclosing helements⟩

private theorem opening_spells {form : OpeningForm}
    (hform : Dialect.standard.opening? start.kind = some form) :
    Spells (opening subexpression form) start (.derives .unary (Nat.le_of_succ_le hinner)) := by
  have primary {step : Parse Expr}
      (h : Spells step start (.derives .primary (Nat.le_of_succ_le hinner))) :
      Spells step start (.derives .unary (Nat.le_of_succ_le hinner)) := by
    apply h.mono
    rintro tokens ⟨tree, hderives⟩
    exact ⟨tree, .primary (Nat.le_of_succ_le hinner) hderives⟩
  cases form with
  | atom => exact primary (atom_spells _)
  | unary => exact unary_spells hsub hform
  | group =>
      apply primary (group_spells hsub _)
      cases hkind : start.kind <;> rw [hkind] at hform <;> first | rfl | cases hform
  | list =>
      apply primary (list_spells hsub _)
      cases hkind : start.kind <;> rw [hkind] at hform <;> first | rfl | cases hform

private theorem links_spells (family : Family) (power : Power) (rounds : List Token) :
    Spells (links (subexpression power) family rounds) start
      (.links limit (@Operator.sign family) power.operand (level + 1)) := by
  induction rounds generalizing start with
  | nil => exact .reject
  | cons round rounds ih =>
      apply Spells.kind_bind
      split
      · apply Spells.pure.mono
        rintro tokens rfl
        exact ⟨_, .nil⟩
      · next operator hoperator =>
          have hend : start.kind ≠ .endOfInput := by
            intro hkind
            rw [hkind] at hoperator
            cases family <;> cases hoperator
          apply ((Spells.advance rfl hend).bind fun _ _ => (hsub power _).bind fun _ _ =>
            ih.last fun _ _ => .pure).mono
          rintro tokens ⟨_, _, ⟨sign, hsign, rfl⟩, ⟨_, _, ⟨tree, hderives⟩, ⟨pairs, hlinks⟩, rfl⟩,
            rfl⟩
          have hsigned := hsign.trans (Family.operator?_eq_some_iff.mp hoperator)
          have hcons := Links.cons hsigned hderives hlinks
          exact ⟨_, hcons⟩

private theorem comparands_spells {sign : TokenKind} {operator : Comparator}
    (hsign : sign = operator.sign) (rounds : List Token) :
    Spells (comparands (subexpression .relational) sign rounds) start
      (.links limit Comparator.sign .additive (level + 1)) := by
  induction rounds generalizing start with
  | nil => exact .reject
  | cons round rounds ih =>
      apply Spells.kind_bind
      split
      · next hkind =>
          have hend : sign ≠ .endOfInput := by
            rw [hsign]
            cases operator <;> decide
          apply ((Spells.advance hkind hend).bind fun _ _ => (hsub .relational _).bind fun _ _ =>
            ih.last fun _ _ => .pure).mono
          rintro tokens ⟨_, _, ⟨token, htoken, rfl⟩, ⟨_, _, ⟨tree, hderives⟩, ⟨pairs, hlinks⟩,
            rfl⟩, rfl⟩
          have hcons := Links.cons (htoken.trans hsign) hderives hlinks
          exact ⟨_, hcons⟩
      · apply Spells.pure.mono
        rintro tokens rfl
        exact ⟨_, .nil⟩

end

/-! ## Continued expressions -/

section

variable {limit level : Nat} {subexpression : Power → Parse Expr} {start : Cursor}
  {context : Power} {tokens : List Token} {left : Expr}

def Phrases.behind {limit level : Nat} {context : Power} {tokens : List Token} {tree : Expr}
    (h : Derives limit context.operand level tokens tree) : Phrases :=
  .of (fun more => Derives limit context.operand level (tokens ++ more))
    ⟨[], tree, by rwa [List.append_nil]⟩

variable {hinner : level + 1 ≤ limit}
variable (hsub : ∀ power start,
  Spells (subexpression power) start (.derives power.operand hinner))

include hsub

private theorem ternary_spells
    (hbefore : Derives limit context.operand level tokens left.eraseSpans)
    (held : Held limit level context tokens left.eraseSpans start.kind)
    (hcontext : context < .ternary) (hkind : start.kind = .question) :
    Spells (ternary subexpression left) start (.behind hbefore) := by
  have hlevel : level ≤ limit := Nat.le_of_succ_le hinner
  have hcondition : Derives limit .logical level tokens left.eraseSpans := by
    have hoperand := held.operand hlevel (by rw [hkind]; rfl)
    rwa [hkind] at hoperand
  apply ((Spells.advance hkind (by decide)).bind fun _ _ => (hsub .lowest _).bind fun _ _ =>
    (Spells.expectOr (by decide)).bind fun _ _ => (hsub .lowest _).last fun _ _ => .pure).mono
  rintro more ⟨_, _, ⟨question, hquestion, rfl⟩, ⟨_, _, ⟨whenTrue, hwhenTrue⟩, ⟨_, _,
    ⟨colon, hcolon, rfl⟩, ⟨whenFalse, hwhenFalse⟩, rfl⟩, rfl⟩, rfl⟩
  have hternary := Derives.ternary hquestion hcolon hcondition hwhenTrue hwhenFalse
  refine ⟨_, hternary.loosen hlevel ?_⟩
  exact rank_operand_le hcontext

private theorem chain_spells (hbefore : Derives limit context.operand level tokens left.eraseSpans)
    (held : Held limit level context tokens left.eraseSpans start.kind) {family : Family}
    {operator : Operator family} (hcontext : context < family.power)
    (hoperator : start.kind = operator.sign) :
    Spells (chain subexpression family family.power left) start (.behind hbefore) := by
  have hlevel : level ≤ limit := Nat.le_of_succ_le hinner
  have hleft := held.operand_of_operator hlevel hoperator
  apply Spells.remaining_bind
  apply ((links_spells hsub family family.power _).last fun _ _ => .pure).mono
  rintro more ⟨pairs, hlinks⟩
  rw [family.operand_power] at hlinks
  refine ⟨_, (Derives.chain family.family?_category hleft hlinks).loosen hlevel ?_⟩
  rw [family.rank_category]
  exact rank_operand_le hcontext

private theorem comparison_spells
    (hbefore : Derives limit context.operand level tokens left.eraseSpans)
    (held : Held limit level context tokens left.eraseSpans start.kind) {operator : Comparator}
    (hcontext : context < .relational) (hoperator : start.kind = operator.sign) :
    Spells (comparison subexpression .relational left) start (.behind hbefore) := by
  have hlevel : level ≤ limit := Nat.le_of_succ_le hinner
  rcases held.comparison_of hlevel hoperator with
    ⟨first, linked, operand, links, rfl, -, -, hfirst, hlinks⟩
  apply Spells.kind_bind
  rw [Comparator.ofKind?_eq_some_iff.mpr hoperator]
  apply Spells.remaining_bind
  apply ((comparands_spells hsub hoperator _).last fun _ _ => .pure).mono
  rintro more ⟨pairs, hmore⟩
  have hcomparison := Derives.comparison hfirst (hlinks.append hmore)
  rw [← List.append_assoc] at hcomparison
  refine ⟨_, hcomparison.loosen hlevel ?_⟩
  exact rank_operand_le hcontext

private theorem continuation_spells
    (hbefore : Derives limit context.operand level tokens left.eraseSpans)
    (held : Held limit level context tokens left.eraseSpans start.kind)
    {form : ContinuationForm} (hcontext : context < Dialect.standard.power start.kind)
    (hform : Dialect.standard.continuation? start.kind = some form) :
    Spells (continuation subexpression (Dialect.standard.power start.kind) left form) start
      (.behind hbefore) := by
  rcases Dialect.continuation?_cases hform with ⟨hkind, rfl⟩ | ⟨family, operator, hoperator, rfl⟩ |
    ⟨operator, hoperator, rfl⟩
  · rw [hkind] at hcontext
    exact ternary_spells hsub hbefore held hcontext hkind
  · rw [Dialect.power_of_operator hoperator] at hcontext ⊢
    exact chain_spells hsub hbefore held hcontext hoperator
  · rw [Dialect.power_of_comparator hoperator] at hcontext ⊢
    exact comparison_spells hsub hbefore held hcontext hoperator

private theorem continued_spells (hsound : Sound limit (level + 1) subexpression)
    (rounds : List Token) (hbefore : Derives limit context.operand level tokens left.eraseSpans)
    (held : Held limit level context tokens left.eraseSpans start.kind) :
    Spells (continued .standard subexpression context rounds left) start (.behind hbefore) := by
  have hlevel : level ≤ limit := Nat.le_of_succ_le hinner
  induction rounds generalizing start tokens left with
  | nil => exact .reject
  | cons round rounds ih =>
      have hstop : Spells (pure left : Parse Expr) start (.behind hbefore) := by
        apply Spells.pure.mono
        rintro more rfl
        refine ⟨left.eraseSpans, ?_⟩
        simpa using hbefore
      apply Spells.kind_bind
      split
      · next hcontext =>
          generalize hform : Dialect.standard.continuation? start.kind = form?
          split
          · exact .unexpected
          · next form =>
              intro closing
              apply Ensures.bind_of_eq
              · intro extended middle hextended
                rcases continuation_sound hlevel hsound closing held hcontext hform hextended with
                  ⟨passed, hpasses, hheld⟩
                apply (ih (hheld.derives hlevel) hheld hpasses.closing).mono
                · rintro result stop ⟨others, hothers, tree, hderives⟩
                  rw [List.append_assoc] at hderives
                  exact ⟨_, hpasses.trans hothers, tree, hderives⟩
                · rintro fault stop ⟨others, more, hothers, tree, hderives⟩
                  rw [List.append_assoc, ← List.append_assoc passed] at hderives
                  exact ⟨_, more, hpasses.trans hothers, tree, hderives⟩
              · intro fault stop hfault
                exact (continuation_spells hsub hbefore held hcontext hform closing).of_error hfault
      · exact hstop

end

/-- With room for one level more than the parser has left, whatever it reads of an expression
can be completed. -/
theorem expression_spells {limit level levels : Nat} (hlevels : level + levels ≤ limit)
    (hlevel : level ≤ limit) (power : Power) (start : Cursor) :
    Spells (expression .standard levels power) start (.derives power.operand hlevel) := by
  induction levels generalizing level power start with
  | zero =>
      rw [expression]
      exact .tooDeep
  | succ levels ih =>
      have hinner : level + 1 ≤ limit := by omega
      have hsub (power : Power) (start : Cursor) :
          Spells (expression .standard levels power) start (.derives power.operand hinner) :=
        ih (by omega) hinner power start
      have hsound : Sound limit (level + 1) (expression .standard levels) :=
        expression_sound (by omega)
      apply Spells.kind_bind
      generalize hform : Dialect.standard.opening? start.kind = form?
      split
      · exact .unexpected
      · next form =>
          intro closing
          apply Ensures.bind_of_eq
          · intro left middle hleft
            rcases opening_sound hlevel hsound closing hform hleft with ⟨tokens, hpasses, hderives⟩
            have hcontext : power.operand.rank ≤ Category.unary.rank := by
              rw [Power.rank_operand]
              exact Nat.min_le_right ..
            have held : Held limit level power tokens left.eraseSpans middle.kind :=
              .phrase .unary hcontext (Dialect.rank_power_lt middle.kind) hderives
            have hcontinued := continued_spells hsub hsound middle.rest (held.derives hlevel) held
            apply (hcontinued hpasses.closing).mono
            · rintro result stop ⟨others, hothers, tree, htree⟩
              exact ⟨_, hpasses.trans hothers, tree, htree⟩
            · rintro fault stop ⟨others, more, hothers, tree, htree⟩
              rw [← List.append_assoc] at htree
              exact ⟨_, more, hpasses.trans hothers, tree, htree⟩
          · intro fault stop hfault
            rcases (opening_spells hsub hform closing).of_error hfault with
              ⟨tokens, more, hpasses, tree, hderives⟩
            refine ⟨tokens, more, hpasses, tree, hderives.loosen hlevel ?_⟩
            rw [Power.rank_operand]
            exact Nat.min_le_right ..

/-! ## Statements -/

section

variable {limit blocks : Nat}

def Phrases.initialValue (limit blocks : Nat) : Phrases :=
  .of (InitialValue limit blocks) ⟨[], none, .absent⟩

def Phrases.elseBody (limit blocks : Nat) : Phrases :=
  .of (ElseBody limit blocks) ⟨[], none, .absent⟩

def Phrases.statements (limit blocks : Nat) : Phrases :=
  .of (Statements limit blocks) ⟨[], [], .nil⟩

private theorem exists_guard (hinner : blocks + 1 ≤ limit) :
    ∃ tokens guard, Guard limit blocks tokens guard := by
  rcases exists_derives .expression hinner with ⟨tokens, tree, hderives⟩
  exact ⟨_, _, .mk (Token.kind_fixed .openParen) (Token.kind_fixed .closeParen) hderives⟩

private theorem exists_braced (hinner : blocks + 1 ≤ limit) :
    ∃ tokens block, Braced limit blocks tokens block :=
  ⟨_, _, .mk hinner (Token.kind_fixed .openCurly) (Token.kind_fixed .closeCurly) .nil⟩

private theorem exists_statement (hinner : blocks + 1 ≤ limit) :
    ∃ tokens stmt, Statement limit blocks tokens stmt := by
  rcases exists_guard hinner with ⟨first, guard, hguard⟩
  rcases exists_braced hinner with ⟨second, block, hblock⟩
  exact ⟨_, _, .loop (Token.kind_fixed .whileWord) hguard hblock⟩

def Phrases.guard (hinner : blocks + 1 ≤ limit) : Phrases :=
  .of (Guard limit blocks) (exists_guard hinner)

def Phrases.braced (hinner : blocks + 1 ≤ limit) : Phrases :=
  .of (Braced limit blocks) (exists_braced hinner)

def Phrases.statement (hinner : blocks + 1 ≤ limit) : Phrases :=
  .of (Statement limit blocks) (exists_statement hinner)

variable {hinner : blocks + 1 ≤ limit} {expr : Parse Expr} {body : Parse Block} {start : Cursor}

private theorem identifier_spells {message : String} :
    Spells (identifier message) start (.one .identifier) :=
  (Spells.expectOr (by decide)).last fun _ _ => .pure

variable (hexpr : ∀ start, Spells expr start (.derives .expression hinner))
variable (hbody : ∀ start, Spells body start (.braced hinner))

include hexpr

private theorem condition_spells : Spells (condition expr) start (.guard hinner) := by
  apply ((Spells.expectOr (by decide)).bind fun _ _ => (hexpr _).bind fun _ _ =>
    (Spells.expectOr (by decide)).last fun _ _ => .previousEnd).mono
  rintro tokens ⟨_, _, ⟨opening, hopening, rfl⟩, ⟨_, _, ⟨tree, hderives⟩,
    ⟨closing, hclosing, rfl⟩, rfl⟩, rfl⟩
  exact ⟨_, .mk hopening hclosing hderives⟩

private theorem initialValue_spells :
    Spells (initialValue expr) start (.initialValue limit blocks) := by
  apply Spells.kind_bind
  split
  · next hkind =>
      apply ((Spells.advance hkind (by decide)).bind fun _ _ =>
        (hexpr _).last fun _ _ => .pure).mono
      rintro tokens ⟨_, _, ⟨equals, hequals, rfl⟩, ⟨tree, hderives⟩, rfl⟩
      exact ⟨_, .present hequals hderives⟩
  · apply Spells.pure.mono
    rintro tokens rfl
    exact ⟨_, .absent⟩

private theorem declare_spells (hkind : start.kind = .declareWord) :
    Spells (declare expr) start (.statement hinner) := by
  apply ((Spells.advance hkind (by decide)).bind fun _ _ => identifier_spells.bind fun _ _ =>
    (Spells.expectOr (by decide)).bind fun _ _ => (Spells.expectOr (by decide)).bind fun _ _ =>
      (initialValue_spells hexpr).bind fun _ _ => (Spells.expectOr (by decide)).last fun _ _ =>
        .previousEnd).mono
  rintro tokens ⟨_, _, ⟨word, hword, rfl⟩, ⟨_, _, ⟨name, hname, rfl⟩, ⟨_, _, ⟨colon, hcolon, rfl⟩,
    ⟨_, _, ⟨typeName, htypeName, rfl⟩, ⟨_, _, ⟨value?, hvalue⟩, ⟨semicolon, hsemicolon, rfl⟩, rfl⟩,
      rfl⟩, rfl⟩, rfl⟩, rfl⟩
  exact ⟨_, .declare hword hname hcolon htypeName hsemicolon hvalue⟩

private theorem assign_spells : Spells (assign expr) start (.statement hinner) := by
  apply (identifier_spells.bind fun _ _ => (Spells.expectOr (by decide)).bind fun _ _ =>
    (hexpr _).bind fun _ _ => (Spells.expectOr (by decide)).last fun _ _ => .previousEnd).mono
  rintro tokens ⟨_, _, ⟨name, hname, rfl⟩, ⟨_, _, ⟨equals, hequals, rfl⟩, ⟨_, _, ⟨tree, hderives⟩,
    ⟨semicolon, hsemicolon, rfl⟩, rfl⟩, rfl⟩, rfl⟩
  exact ⟨_, .assign hname hequals hsemicolon hderives⟩

include hbody

omit hexpr in
private theorem elseBody_spells : Spells (elseBody body) start (.elseBody limit blocks) := by
  apply Spells.kind_bind
  split
  · next hkind =>
      apply ((Spells.advance hkind (by decide)).bind fun _ _ =>
        (hbody _).last fun _ _ => .pure).mono
      rintro tokens ⟨_, _, ⟨word, hword, rfl⟩, ⟨block, hblock⟩, rfl⟩
      exact ⟨_, .present hword hblock⟩
  · apply Spells.pure.mono
    rintro tokens rfl
    exact ⟨_, .absent⟩

private theorem branch_spells (hkind : start.kind = .ifWord) :
    Spells (branch expr body) start (.statement hinner) := by
  apply ((Spells.advance hkind (by decide)).bind fun _ _ => (condition_spells hexpr).bind fun _ _ =>
    (hbody _).bind fun _ _ => (elseBody_spells hbody).last fun _ _ => .previousEnd).mono
  rintro tokens ⟨_, _, ⟨word, hword, rfl⟩, ⟨_, _, ⟨guard, hguard⟩, ⟨_, _, ⟨block, hblock⟩,
    ⟨other?, hother⟩, rfl⟩, rfl⟩, rfl⟩
  have hbranch := Statement.branch hword hguard hblock hother
  exact ⟨_, hbranch⟩

private theorem loop_spells (hkind : start.kind = .whileWord) :
    Spells (loop expr body) start (.statement hinner) := by
  apply ((Spells.advance hkind (by decide)).bind fun _ _ => (condition_spells hexpr).bind fun _ _ =>
    (hbody _).last fun _ _ => .previousEnd).mono
  rintro tokens ⟨_, _, ⟨word, hword, rfl⟩, ⟨_, _, ⟨guard, hguard⟩, ⟨block, hblock⟩, rfl⟩, rfl⟩
  have hloop := Statement.loop hword hguard hblock
  exact ⟨_, hloop⟩

private theorem doLoop_spells (hkind : start.kind = .doWord) :
    Spells (doLoop expr body) start (.statement hinner) := by
  apply ((Spells.advance hkind (by decide)).bind fun _ _ => (hbody _).bind fun _ _ =>
    (Spells.expectOr (by decide)).bind fun _ _ => (condition_spells hexpr).bind fun _ _ =>
      (Spells.expectOr (by decide)).last fun _ _ => .previousEnd).mono
  rintro tokens ⟨_, _, ⟨word, hword, rfl⟩, ⟨_, _, ⟨block, hblock⟩, ⟨_, _, ⟨while_, hwhile, rfl⟩,
    ⟨_, _, ⟨guard, hguard⟩, ⟨semicolon, hsemicolon, rfl⟩, rfl⟩, rfl⟩, rfl⟩, rfl⟩
  exact ⟨_, .doLoop hword hwhile hsemicolon hblock hguard⟩

theorem statementWith_spells :
    Spells (statementWith .standard expr body) start (.statement hinner) := by
  apply Spells.kind_bind
  generalize hkind : start.kind = kind
  cases kind with
  | declareWord => exact declare_spells hexpr hkind
  | identifier => exact assign_spells hexpr
  | ifWord => exact branch_spells hexpr hbody hkind
  | whileWord => exact loop_spells hexpr hbody hkind
  | doWord => exact doLoop_spells hexpr hbody hkind
  | _ => exact Spells.unexpected (α := Stmt)

end

theorem statementsUntil_spells {limit blocks : Nat} {hinner : blocks + 1 ≤ limit}
    (ends : List TokenKind) {statement : Parse Stmt}
    (hstatement : ∀ start, Spells statement start (.statement hinner)) (rounds : List Token)
    (start : Cursor) :
    Spells (statementsUntil ends statement rounds) start (.statements limit blocks) := by
  induction rounds generalizing start with
  | nil => exact .reject
  | cons round rounds ih =>
      apply Spells.kind_bind
      split
      · apply Spells.pure.mono
        rintro tokens rfl
        exact ⟨_, .nil⟩
      · apply ((hstatement start).bind fun _ _ => (ih _).last fun _ _ => .pure).mono
        rintro tokens ⟨_, _, ⟨stmt, hstmt⟩, ⟨stmts, hstmts⟩, rfl⟩
        exact ⟨_, .cons hstmt hstmts⟩

private theorem blockWith_spells {limit blocks : Nat} {hinner : blocks + 1 ≤ limit}
    {body : Parse (List Stmt)} {start : Cursor}
    (hbody : ∀ start, Spells body start (.statements limit (blocks + 1))) :
    Spells (blockWith body) start (.braced hinner) := by
  apply ((Spells.expectOr (by decide)).bind fun _ _ => (hbody _).bind fun _ _ =>
    (Spells.expectOr (by decide)).last fun _ _ => .previousEnd).mono
  rintro tokens ⟨_, _, ⟨opening, hopening, rfl⟩, ⟨_, _, ⟨stmts, hstmts⟩,
    ⟨closing, hclosing, rfl⟩, rfl⟩, rfl⟩
  exact ⟨_, .mk hinner hopening hclosing hstmts⟩

theorem block_spells {limit blocks levels : Nat} (hlevels : blocks + levels + 1 ≤ limit)
    (hinner : blocks + 1 ≤ limit) (start : Cursor) :
    Spells (block .standard levels) start (.braced hinner) := by
  induction levels generalizing blocks start with
  | zero => exact blockWith_spells fun _ => .tooDeep
  | succ levels ih =>
      have hdeeper : blocks + 1 + 1 ≤ limit := by omega
      have hstatement (start : Cursor) : Spells (statementWith .standard
          (expression .standard levels .lowest) (block .standard levels)) start
          (.statement hdeeper) :=
        statementWith_spells (expression_spells (by omega) hdeeper .lowest)
          (ih (by omega) hdeeper)
      exact blockWith_spells fun start =>
        .remaining_bind (statementsUntil_spells _ hstatement _ start)

end Assay.Parse
