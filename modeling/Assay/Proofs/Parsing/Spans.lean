import Mathlib
import Assay.Proofs.Parsing.Soundness
import Assay.Proofs.Token.Stream
import Assay.Proofs.Tree.Spans

/-!
# The spans of parsed programs

Every step of the parser that succeeds spreads the tree it yields over the tokens it has
passed.  So in a parsed program every span runs from the start of one token to the end of
another, the spans of the children of a node lie inside the span of the node, and they
follow one another without overlap.

Closed runs are evaluated here by equation lemmas that only the whole library holds.
-/

namespace Assay

open Node (Spread)

private theorem Cursor.previousEnd_next {cursor : Cursor} (closing : cursor.Closing)
    (h : cursor.kind ≠ .endOfInput) : cursor.next.previousEnd = cursor.current.span.stop := by
  have hrest := (Passes.next closing h).rest
  obtain ⟨passed, current, ahead⟩ := cursor
  cases ahead with
  | nil => cases hrest
  | cons token tokens => rfl

namespace Parse

variable {start stop : Cursor}

private theorem expectOr_previousEnd {kind : TokenKind} {cause : String → Cause} {token : Token}
    (closing : start.Closing) (hkind : kind ≠ .endOfInput)
    (h : expectOr kind (reject cause) start = .ok token stop) :
    stop.previousEnd = token.span.stop := by
  obtain ⟨hcurrent, rfl, rfl⟩ := expectOr_eq_ok.mp h
  exact Cursor.previousEnd_next closing (hcurrent ▸ hkind)

/-! ## Opening forms -/

private theorem atom_spreads : Yields atom fun tokens tree => Spread tokens [.expr tree] := by
  intro start stop tree closing h
  simp only [atom, kind_bind_apply] at h
  generalize hkind : start.kind = kind at h
  split at h
  · obtain ⟨value, -, rfl, hpasses⟩ := number_passes closing (by simp [hkind]) h
    exact ⟨_, hpasses, .leaf rfl rfl⟩
  · obtain ⟨value, -, rfl, hpasses⟩ := number_passes closing (by simp [hkind]) h
    exact ⟨_, hpasses, .leaf rfl rfl⟩
  · cases h
    exact ⟨_, .next closing (by simp [hkind]), .leaf rfl rfl⟩
  · cases h
    exact ⟨_, .next closing (by simp [hkind]), .leaf rfl rfl⟩
  · cases h
    exact ⟨_, .next closing (by simp [hkind]), .whole (.leaf rfl rfl) (Span.covers_singleton _)⟩
  · exact absurd h reject_ne_ok

section

variable {subexpression : Power → Parse Expr} {tree : Expr}
  (hsub : ∀ power, Yields (subexpression power) fun tokens tree => Spread tokens [.expr tree])

include hsub

private theorem unary_spreads (closing : start.Closing) (hkind : start.kind ≠ .endOfInput)
    (h : unary subexpression start = .ok tree stop) :
    ∃ tokens, start.Passes tokens stop ∧ Spread tokens [.expr tree] := by
  have hsign : start.Passes [start.current] start.next := .next closing hkind
  simp only [unary, monadLift_self, advance_bind_apply] at h
  obtain ⟨operand, middle, hoperand, hrest⟩ := bind_eq_ok.mp h
  obtain ⟨tokens, hpasses, hspread⟩ := hsub _ hsign.closing hoperand
  cases hrest
  exact ⟨_, hsign.cons hpasses, .opened hspread start.current rfl rfl rfl⟩

private theorem group_spreads (closing : start.Closing) (hkind : start.kind ≠ .endOfInput)
    (h : group subexpression start = .ok tree stop) :
    ∃ tokens, start.Passes tokens stop ∧ Spread tokens [.expr tree] := by
  have hopening : start.Passes [start.current] start.next := .next closing hkind
  simp only [group, monadLift_self, advance_bind_apply] at h
  obtain ⟨inner, middle, hinner, h⟩ := bind_eq_ok.mp h
  obtain ⟨closer, last, hcloser, hrest⟩ := bind_eq_ok.mp h
  obtain ⟨tokens, hpasses, hspread⟩ := hsub _ hopening.closing hinner
  obtain ⟨-, hlast⟩ := expectOr_passes hpasses.closing (by decide) hcloser
  cases hrest
  exact ⟨_, hopening.cons (hpasses.trans hlast), (hspread.ahead [closer]).behind [start.current]⟩

private theorem elements_spreads (rounds : List Token) :
    Yields (elements (subexpression .lowest) rounds) fun tokens trees =>
      Spread tokens (trees.map .expr) := by
  induction rounds with
  | nil => exact fun _ _ _ _ h => absurd h reject_ne_ok
  | cons round rounds ih =>
      intro start stop trees closing h
      simp only [elements, monadLift_self, kind_bind_apply] at h
      split at h
      · cases h
        exact ⟨[], .refl closing, .nil⟩
      · obtain ⟨first, middle, hfirst, h⟩ := bind_eq_ok.mp h
        obtain ⟨tokens, hpasses, hspread⟩ := hsub _ closing hfirst
        simp only [kind_bind_apply] at h
        generalize hkind : middle.kind = kind at h
        split at h
        · simp only [advance_bind_apply] at h
          obtain ⟨others, last, hothers, hrest⟩ := bind_eq_ok.mp h
          have hcomma : middle.Passes [middle.current] middle.next :=
            .next hpasses.closing (by simp [hkind])
          cases hrest
          obtain ⟨more, hmore, hspreads⟩ := ih hcomma.closing hothers
          exact ⟨_, hpasses.trans (hcomma.cons hmore),
            hspread.append (hspreads.behind [middle.current])⟩
        · cases h
          exact ⟨tokens, hpasses, hspread⟩
        · exact absurd h reject_ne_ok

private theorem list_spreads (closing : start.Closing) (hkind : start.kind ≠ .endOfInput)
    (h : list subexpression start = .ok tree stop) :
    ∃ tokens, start.Passes tokens stop ∧ Spread tokens [.expr tree] := by
  have hopening : start.Passes [start.current] start.next := .next closing hkind
  simp only [list, monadLift_self, advance_bind_apply, remaining_bind_rest] at h
  obtain ⟨trees, middle, htrees, h⟩ := bind_eq_ok.mp h
  obtain ⟨closer, last, hcloser, hrest⟩ := bind_eq_ok.mp h
  obtain ⟨tokens, hpasses, hspread⟩ := elements_spreads hsub _ hopening.closing htrees
  obtain ⟨-, hlast⟩ := expectOr_passes hpasses.closing (by decide) hcloser
  have hend := expectOr_previousEnd hpasses.closing (by decide) hcloser
  cases hrest
  exact ⟨_, hopening.cons (hpasses.trans hlast),
    .enclosed hspread (congrArg (Span.mk start.current.span.start) hend)⟩

private theorem opening_spreads {form : OpeningForm} (closing : start.Closing)
    (hform : Dialect.standard.opening? start.kind = some form)
    (h : opening subexpression form start = .ok tree stop) :
    ∃ tokens, start.Passes tokens stop ∧ Spread tokens [.expr tree] := by
  have hkind : start.kind ≠ .endOfInput := by
    intro hkind
    rw [hkind] at hform
    cases hform
  cases form with
  | atom => exact atom_spreads closing h
  | unary => exact unary_spreads hsub closing hkind h
  | group => exact group_spreads hsub closing hkind h
  | list => exact list_spreads hsub closing hkind h

/-! ## Continuation forms -/

private theorem links_spreads (power : Power) (family : Family) (rounds : List Token) :
    Yields (links (subexpression power) family rounds) fun tokens pair =>
      Spread tokens (pair.2.map .expr) := by
  induction rounds with
  | nil => exact fun _ _ _ _ h => absurd h reject_ne_ok
  | cons round rounds ih =>
      intro start stop pair closing h
      simp only [links, monadLift_self, kind_bind_apply] at h
      generalize hoperator : family.operator? start.kind = operator? at h
      split at h
      · cases h
        exact ⟨[], .refl closing, .nil⟩
      · have hsign : start.Passes [start.current] start.next := by
          refine .next closing fun hkind => ?_
          rw [hkind] at hoperator
          cases family <;> cases hoperator
        simp only [advance_bind_apply] at h
        obtain ⟨first, middle, hfirst, h⟩ := bind_eq_ok.mp h
        obtain ⟨⟨operators, others⟩, last, hothers, hrest⟩ := bind_eq_ok.mp h
        obtain ⟨tokens, hpasses, hspread⟩ := hsub _ hsign.closing hfirst
        obtain ⟨more, hmore, hspreads⟩ := ih hpasses.closing hothers
        cases hrest
        exact ⟨_, hsign.cons (hpasses.trans hmore),
          (hspread.append hspreads).behind [start.current]⟩

private theorem comparands_spreads (power : Power) {sign : TokenKind} (hsign : sign ≠ .endOfInput)
    (rounds : List Token) :
    Yields (comparands (subexpression power) sign rounds) fun tokens trees =>
      Spread tokens (trees.map .expr) := by
  induction rounds with
  | nil => exact fun _ _ _ _ h => absurd h reject_ne_ok
  | cons round rounds ih =>
      intro start stop trees closing h
      simp only [comparands, monadLift_self, kind_bind_apply] at h
      split at h
      · next hkind =>
          have hpassed : start.Passes [start.current] start.next :=
            .next closing (hkind ▸ hsign)
          simp only [advance_bind_apply] at h
          obtain ⟨first, middle, hfirst, h⟩ := bind_eq_ok.mp h
          obtain ⟨others, last, hothers, hrest⟩ := bind_eq_ok.mp h
          obtain ⟨tokens, hpasses, hspread⟩ := hsub _ hpassed.closing hfirst
          obtain ⟨more, hmore, hspreads⟩ := ih hpasses.closing hothers
          cases hrest
          exact ⟨_, hpassed.cons (hpasses.trans hmore),
            (hspread.append hspreads).behind [start.current]⟩
      · cases h
        exact ⟨[], .refl closing, .nil⟩

omit hsub in
private theorem spread_over {node : Node} {tokens more : List Token} {left : Expr}
    {operands : List Expr} (hchildren : node.children = .expr left :: operands.map .expr)
    (hspan : node.span = spanOver left operands) (hleft : Spread tokens [.expr left])
    (hoperands : Spread more (operands.map .expr)) : Spread (tokens ++ more) [node] := by
  have hlast : Node.expr (operands.getLastD left) ∈ node.children.getLast? := by
    simp [hchildren, List.getLast?_cons, List.getLastD_eq_getLast?]
  have hall := hleft.append hoperands
  rw [List.singleton_append, ← hchildren] at hall
  exact hall.hull hchildren hlast hspan

private theorem ternary_spreads {condition : Expr} {tokens : List Token} (closing : start.Closing)
    (hkind : start.kind ≠ .endOfInput) (hcondition : Spread tokens [.expr condition])
    (h : ternary subexpression condition start = .ok tree stop) :
    ∃ more, start.Passes more stop ∧ Spread (tokens ++ more) [.expr tree] := by
  have hquestion : start.Passes [start.current] start.next := .next closing hkind
  simp only [ternary, monadLift_self, advance_bind_apply] at h
  obtain ⟨whenTrue, first, hwhenTrue, h⟩ := bind_eq_ok.mp h
  obtain ⟨colon, second, hcolon, h⟩ := bind_eq_ok.mp h
  obtain ⟨whenFalse, third, hwhenFalse, hrest⟩ := bind_eq_ok.mp h
  obtain ⟨tokens₁, hpasses₁, hspread₁⟩ := hsub _ hquestion.closing hwhenTrue
  obtain ⟨-, hpassed⟩ := expectOr_passes hpasses₁.closing (by decide) hcolon
  obtain ⟨tokens₂, hpasses₂, hspread₂⟩ := hsub _ hpassed.closing hwhenFalse
  cases hrest
  have hbranches : Spread (start.current :: (tokens₁ ++ colon :: tokens₂))
      ([whenTrue, whenFalse].map .expr) :=
    (hspread₁.append (hspread₂.behind [colon])).behind [start.current]
  exact ⟨_, hquestion.cons (hpasses₁.trans (hpassed.cons hpasses₂)),
    spread_over rfl rfl hcondition hbranches⟩

private theorem continuation_spreads {power : Power} {form : ContinuationForm} {left : Expr}
    {tokens : List Token} (closing : start.Closing)
    (hform : Dialect.standard.continuation? start.kind = some form)
    (hleft : Spread tokens [.expr left])
    (h : continuation subexpression power left form start = .ok tree stop) :
    ∃ more, start.Passes more stop ∧ Spread (tokens ++ more) [.expr tree] := by
  have hkind : start.kind ≠ .endOfInput := by
    intro hkind
    rw [hkind] at hform
    cases hform
  cases form with
  | ternary => exact ternary_spreads hsub closing hkind hleft h
  | chain family =>
      simp only [continuation, chain, monadLift_self, remaining_bind_rest] at h
      obtain ⟨⟨operators, operands⟩, last, hlinks, hrest⟩ := bind_eq_ok.mp h
      obtain ⟨more, hpasses, hspread⟩ := links_spreads hsub power family _ closing hlinks
      cases hrest
      exact ⟨more, hpasses, spread_over rfl rfl hleft hspread⟩
  | comparison =>
      simp only [continuation, comparison, monadLift_self, kind_bind_apply] at h
      cases hsign : Comparator.ofKind? start.kind with
      | none =>
          simp only [hsign] at h
          exact absurd h reject_ne_ok
      | some comparator =>
          simp only [hsign, remaining_bind_rest] at h
          obtain ⟨operands, last, hoperands, hrest⟩ := bind_eq_ok.mp h
          obtain ⟨more, hpasses, hspread⟩ :=
            comparands_spreads hsub power hkind _ closing hoperands
          cases hrest
          exact ⟨more, hpasses, spread_over rfl rfl hleft hspread⟩

private theorem continued_spreads {power : Power} {rounds : List Token} {left : Expr}
    {tokens : List Token} (closing : start.Closing) (hleft : Spread tokens [.expr left])
    (h : continued .standard subexpression power rounds left start = .ok tree stop) :
    ∃ more, start.Passes more stop ∧ Spread (tokens ++ more) [.expr tree] := by
  induction rounds generalizing start left tokens with
  | nil => exact absurd h reject_ne_ok
  | cons round rounds ih =>
      simp only [continued, monadLift_self, kind_bind_apply] at h
      split at h
      · generalize hform : Dialect.standard.continuation? start.kind = form? at h
        split at h
        · exact absurd h reject_ne_ok
        · obtain ⟨extended, middle, hextended, h⟩ := bind_eq_ok.mp h
          obtain ⟨before, hbefore, hspread⟩ :=
            continuation_spreads hsub closing hform hleft hextended
          obtain ⟨after, hafter, hall⟩ := ih hbefore.closing hspread h
          rw [List.append_assoc] at hall
          exact ⟨before ++ after, hbefore.trans hafter, hall⟩
      · cases h
        exact ⟨[], .refl closing, by rwa [List.append_nil]⟩

end

/-! ## Expressions -/

private theorem expression_spreads (levels : Nat) (power : Power) :
    Yields (expression .standard levels power) fun tokens tree => Spread tokens [.expr tree] := by
  induction levels generalizing power with
  | zero =>
      intro start stop tree closing h
      rw [expression] at h
      cases h
  | succ levels ih =>
      intro start stop tree closing h
      simp only [expression, expressionWith, monadLift_self, kind_bind_apply] at h
      generalize hform : Dialect.standard.opening? start.kind = form? at h
      split at h
      · exact absurd h reject_ne_ok
      · obtain ⟨left, middle, hleft, h⟩ := bind_eq_ok.mp h
        rw [remaining_bind_rest] at h
        obtain ⟨tokens, hpasses, hspread⟩ := opening_spreads ih closing hform hleft
        obtain ⟨more, hmore, hall⟩ := continued_spreads ih hpasses.closing hspread h
        exact ⟨tokens ++ more, hpasses.trans hmore, hall⟩

/-! ## Statements -/

def Closes (body : Parse Block) : Prop :=
  ∀ ⦃start stop : Cursor⦄ ⦃tree : Block⦄, body start = .ok tree stop →
    stop.previousEnd = tree.span.stop

section

variable {expr : Parse Expr} {body : Parse Block} {stmt : Stmt}

private theorem elseBody_previousEnd (hcloses : Closes body) {body? : Option Block} {before : Block}
    (hbefore : start.previousEnd = before.span.stop) (h : elseBody body start = .ok body? stop) :
    stop.previousEnd = (body?.getD before).span.stop := by
  simp only [elseBody, monadLift_self, kind_bind_apply] at h
  split at h
  · simp only [advance_bind_apply] at h
    obtain ⟨tree, last, htree, hrest⟩ := bind_eq_ok.mp h
    cases hrest
    exact hcloses htree
  · cases h
    exact hbefore

variable (hexpr : Yields expr fun tokens tree => Spread tokens [.expr tree])
  (hbody : Yields body fun tokens tree => Spread tokens [.block tree])

include hexpr

private theorem condition_spreads :
    Yields (condition expr) fun tokens tree => Spread tokens [.condition tree] := by
  intro start stop value closing h
  obtain ⟨opening, first, hopening, h⟩ := bind_eq_ok.mp h
  obtain ⟨tree, second, htree, h⟩ := bind_eq_ok.mp h
  obtain ⟨closer, third, hcloser, hrest⟩ := bind_eq_ok.mp h
  obtain ⟨-, hpassed⟩ := expectOr_passes closing (by decide) hopening
  obtain ⟨tokens, hpasses, hspread⟩ := hexpr hpassed.closing htree
  obtain ⟨-, hlast⟩ := expectOr_passes hpasses.closing (by decide) hcloser
  have hend := expectOr_previousEnd hpasses.closing (by decide) hcloser
  cases hrest
  exact ⟨_, hpassed.cons (hpasses.trans hlast),
    .enclosed hspread (congrArg (Span.mk opening.span.start) hend)⟩

private theorem initialValue_spreads :
    Yields (initialValue expr) fun tokens value? => Spread tokens (value?.toList.map .expr) := by
  intro start stop value? closing h
  simp only [initialValue, monadLift_self, kind_bind_apply] at h
  split at h
  · next hkind =>
      have hequals : start.Passes [start.current] start.next :=
        .next closing (by simp [hkind])
      simp only [advance_bind_apply] at h
      obtain ⟨tree, last, htree, hrest⟩ := bind_eq_ok.mp h
      obtain ⟨tokens, hpasses, hspread⟩ := hexpr hequals.closing htree
      cases hrest
      exact ⟨_, hequals.cons hpasses, hspread.behind [start.current]⟩
  · cases h
    exact ⟨[], .refl closing, .nil⟩

private theorem declare_spreads (closing : start.Closing) (hkind : start.kind ≠ .endOfInput)
    (h : declare expr start = .ok stmt stop) :
    ∃ tokens, start.Passes tokens stop ∧ Spread tokens [.stmt stmt] := by
  have hword : start.Passes [start.current] start.next := .next closing hkind
  simp only [declare, monadLift_self, advance_bind_apply] at h
  obtain ⟨name, first, hname, h⟩ := bind_eq_ok.mp h
  obtain ⟨colon, second, hcolon, h⟩ := bind_eq_ok.mp h
  obtain ⟨typeName, third, htypeName, h⟩ := bind_eq_ok.mp h
  obtain ⟨value?, fourth, hvalue, h⟩ := bind_eq_ok.mp h
  obtain ⟨semicolon, fifth, hsemicolon, hrest⟩ := bind_eq_ok.mp h
  obtain ⟨token, -, hpasses₁, rfl⟩ := identifier_passes hword.closing hname
  obtain ⟨-, hpasses₂⟩ := expectOr_passes hpasses₁.closing (by decide) hcolon
  obtain ⟨-, hpasses₃⟩ := expectOr_passes hpasses₂.closing (by decide) htypeName
  obtain ⟨tokens, hpasses₄, hspread⟩ := initialValue_spreads hexpr hpasses₃.closing hvalue
  obtain ⟨-, hpasses₅⟩ := expectOr_passes hpasses₄.closing (by decide) hsemicolon
  have hend := expectOr_previousEnd hpasses₄.closing (by decide) hsemicolon
  cases hrest
  have hname : Spread [token] [.name ⟨token.text, token.span⟩] := .leaf rfl rfl
  have hparts := hname.append (hspread.behind [colon, typeName])
  have hinner := hpasses₁.trans ((hpasses₂.trans hpasses₃).trans hpasses₄)
  exact ⟨_, hword.cons (hinner.trans hpasses₅),
    .enclosed hparts (congrArg (Span.mk start.current.span.start) hend)⟩

private theorem assign_spreads (closing : start.Closing) (h : assign expr start = .ok stmt stop) :
    ∃ tokens, start.Passes tokens stop ∧ Spread tokens [.stmt stmt] := by
  obtain ⟨name, first, hname, h⟩ := bind_eq_ok.mp h
  obtain ⟨equals, second, hequals, h⟩ := bind_eq_ok.mp h
  obtain ⟨value, third, hvalue, h⟩ := bind_eq_ok.mp h
  obtain ⟨semicolon, fourth, hsemicolon, hrest⟩ := bind_eq_ok.mp h
  obtain ⟨token, -, hpasses₁, rfl⟩ := identifier_passes closing hname
  obtain ⟨-, hpasses₂⟩ := expectOr_passes hpasses₁.closing (by decide) hequals
  obtain ⟨tokens, hpasses₃, hspread⟩ := hexpr hpasses₂.closing hvalue
  obtain ⟨-, hpasses₄⟩ := expectOr_passes hpasses₃.closing (by decide) hsemicolon
  have hend := expectOr_previousEnd hpasses₃.closing (by decide) hsemicolon
  cases hrest
  have hname : Spread [token] [.name ⟨token.text, token.span⟩] := .leaf rfl rfl
  have hparts := (hname.append (hspread.behind [equals])).ahead [semicolon]
  refine ⟨_, hpasses₁.cons (hpasses₂.cons (hpasses₃.trans hpasses₄)), .whole hparts ?_⟩
  have hcovers := Span.covers_between token semicolon (equals :: tokens)
  rw [← hend] at hcovers
  exact hcovers

include hbody

omit hexpr in
private theorem elseBody_spreads :
    Yields (elseBody body) fun tokens body? => Spread tokens (body?.toList.map .block) := by
  intro start stop body? closing h
  simp only [elseBody, monadLift_self, kind_bind_apply] at h
  split at h
  · next hkind =>
      have hword : start.Passes [start.current] start.next := .next closing (by simp [hkind])
      simp only [advance_bind_apply] at h
      obtain ⟨tree, last, htree, hrest⟩ := bind_eq_ok.mp h
      obtain ⟨tokens, hpasses, hspread⟩ := hbody hword.closing htree
      cases hrest
      exact ⟨_, hword.cons hpasses, hspread.behind [start.current]⟩
  · cases h
    exact ⟨[], .refl closing, .nil⟩

private theorem branch_spreads (hcloses : Closes body) (closing : start.Closing)
    (hkind : start.kind ≠ .endOfInput) (h : branch expr body start = .ok stmt stop) :
    ∃ tokens, start.Passes tokens stop ∧ Spread tokens [.stmt stmt] := by
  have hword : start.Passes [start.current] start.next := .next closing hkind
  simp only [branch, monadLift_self, advance_bind_apply] at h
  obtain ⟨guard, first, hguard, h⟩ := bind_eq_ok.mp h
  obtain ⟨thenBody, second, hthenBody, h⟩ := bind_eq_ok.mp h
  obtain ⟨elseBody?, third, helseBody, hrest⟩ := bind_eq_ok.mp h
  obtain ⟨tokens₁, hpasses₁, hspread₁⟩ := condition_spreads hexpr hword.closing hguard
  obtain ⟨tokens₂, hpasses₂, hspread₂⟩ := hbody hpasses₁.closing hthenBody
  obtain ⟨tokens₃, hpasses₃, hspread₃⟩ := elseBody_spreads hbody hpasses₂.closing helseBody
  have hend := elseBody_previousEnd hcloses (hcloses hthenBody) helseBody
  cases hrest
  have hparts := hspread₁.append (hspread₂.append hspread₃)
  -- The statement ends with its second block, or with the first if there is no other.
  have hlast : Node.block (elseBody?.getD thenBody) ∈
      (Node.condition guard :: Node.block thenBody :: elseBody?.toList.map .block).getLast? := by
    cases elseBody? <;> rfl
  exact ⟨_, hword.cons (hpasses₁.trans (hpasses₂.trans hpasses₃)),
    .opened hparts start.current rfl hlast (congrArg (Span.mk start.current.span.start) hend)⟩

private theorem loop_spreads (hcloses : Closes body) (closing : start.Closing)
    (hkind : start.kind ≠ .endOfInput) (h : loop expr body start = .ok stmt stop) :
    ∃ tokens, start.Passes tokens stop ∧ Spread tokens [.stmt stmt] := by
  have hword : start.Passes [start.current] start.next := .next closing hkind
  simp only [loop, monadLift_self, advance_bind_apply] at h
  obtain ⟨guard, first, hguard, h⟩ := bind_eq_ok.mp h
  obtain ⟨block, second, hblock, hrest⟩ := bind_eq_ok.mp h
  obtain ⟨tokens₁, hpasses₁, hspread₁⟩ := condition_spreads hexpr hword.closing hguard
  obtain ⟨tokens₂, hpasses₂, hspread₂⟩ := hbody hpasses₁.closing hblock
  have hend := hcloses hblock
  cases hrest
  exact ⟨_, hword.cons (hpasses₁.trans hpasses₂),
    .opened (hspread₁.append hspread₂) start.current rfl rfl
      (congrArg (Span.mk start.current.span.start) hend)⟩

private theorem doLoop_spreads (closing : start.Closing) (hkind : start.kind ≠ .endOfInput)
    (h : doLoop expr body start = .ok stmt stop) :
    ∃ tokens, start.Passes tokens stop ∧ Spread tokens [.stmt stmt] := by
  have hword : start.Passes [start.current] start.next := .next closing hkind
  simp only [doLoop, monadLift_self, advance_bind_apply] at h
  obtain ⟨block, first, hblock, h⟩ := bind_eq_ok.mp h
  obtain ⟨whileToken, second, hwhile, h⟩ := bind_eq_ok.mp h
  obtain ⟨guard, third, hguard, h⟩ := bind_eq_ok.mp h
  obtain ⟨semicolon, fourth, hsemicolon, hrest⟩ := bind_eq_ok.mp h
  obtain ⟨tokens₁, hpasses₁, hspread₁⟩ := hbody hword.closing hblock
  obtain ⟨-, hpasses₂⟩ := expectOr_passes hpasses₁.closing (by decide) hwhile
  obtain ⟨tokens₃, hpasses₃, hspread₃⟩ := condition_spreads hexpr hpasses₂.closing hguard
  obtain ⟨-, hpasses₄⟩ := expectOr_passes hpasses₃.closing (by decide) hsemicolon
  have hend := expectOr_previousEnd hpasses₃.closing (by decide) hsemicolon
  cases hrest
  have hparts := hspread₁.append (hspread₃.behind [whileToken])
  exact ⟨_, hword.cons ((hpasses₁.trans (hpasses₂.trans hpasses₃)).trans hpasses₄),
    .enclosed hparts (congrArg (Span.mk start.current.span.start) hend)⟩

private theorem statementWith_spreads (hcloses : Closes body) :
    Yields (statementWith .standard expr body) fun tokens stmt => Spread tokens [.stmt stmt] := by
  intro start stop stmt closing h
  simp only [statementWith, monadLift_self, kind_bind_apply] at h
  generalize hform : Dialect.standard.statement? start.kind = form? at h
  cases form? with
  | none => exact absurd h reject_ne_ok
  | some form =>
      have hkind : start.kind ≠ .endOfInput := by
        intro hkind
        rw [hkind] at hform
        cases hform
      cases form with
      | declare => exact declare_spreads hexpr closing hkind h
      | assign => exact assign_spreads hexpr closing h
      | branch => exact branch_spreads hexpr hbody hcloses closing hkind h
      | loop => exact loop_spreads hexpr hbody hcloses closing hkind h
      | doLoop => exact doLoop_spreads hexpr hbody closing hkind h

end

private theorem statementsUntil_spreads {ends : List TokenKind} {statement : Parse Stmt}
    (hstatement : Yields statement fun tokens stmt => Spread tokens [.stmt stmt])
    {rounds : List Token} {stmts : List Stmt} (closing : start.Closing)
    (h : statementsUntil ends statement rounds start = .ok stmts stop) :
    ∃ tokens, start.Passes tokens stop ∧ Spread tokens (stmts.map .stmt) ∧ stop.kind ∈ ends := by
  induction rounds generalizing start stmts with
  | nil => exact absurd h reject_ne_ok
  | cons round rounds ih =>
      simp only [statementsUntil, monadLift_self, kind_bind_apply] at h
      split at h
      · next hend =>
          cases h
          exact ⟨[], .refl closing, .nil, hend⟩
      · obtain ⟨first, middle, hfirst, h⟩ := bind_eq_ok.mp h
        obtain ⟨others, last, hothers, hrest⟩ := bind_eq_ok.mp h
        obtain ⟨tokens, hpasses, hspread⟩ := hstatement closing hfirst
        cases hrest
        obtain ⟨more, hmore, hspreads, hend⟩ := ih hpasses.closing hothers
        exact ⟨_, hpasses.trans hmore, hspread.append hspreads, hend⟩

private theorem blockWith_closes {body : Parse (List Stmt)} : Closes (blockWith body) := by
  intro start stop tree h
  obtain ⟨opening, first, -, h⟩ := bind_eq_ok.mp h
  obtain ⟨stmts, second, -, h⟩ := bind_eq_ok.mp h
  obtain ⟨closer, third, -, hrest⟩ := bind_eq_ok.mp h
  cases hrest
  rfl

private theorem block_closes (levels : Nat) : Closes (block .standard levels) := by
  cases levels <;> exact blockWith_closes

private theorem blockWith_spreads {body : Parse (List Stmt)}
    (hbody : Yields body fun tokens stmts => Spread tokens (stmts.map .stmt)) :
    Yields (blockWith body) fun tokens tree => Spread tokens [.block tree] := by
  intro start stop tree closing h
  obtain ⟨opening, first, hopening, h⟩ := bind_eq_ok.mp h
  obtain ⟨stmts, second, hstmts, h⟩ := bind_eq_ok.mp h
  obtain ⟨closer, third, hcloser, hrest⟩ := bind_eq_ok.mp h
  obtain ⟨-, hpassed⟩ := expectOr_passes closing (by decide) hopening
  obtain ⟨tokens, hpasses, hspread⟩ := hbody hpassed.closing hstmts
  obtain ⟨-, hlast⟩ := expectOr_passes hpasses.closing (by decide) hcloser
  have hend := expectOr_previousEnd hpasses.closing (by decide) hcloser
  cases hrest
  exact ⟨_, hpassed.cons (hpasses.trans hlast),
    .enclosed hspread (congrArg (Span.mk opening.span.start) hend)⟩

private theorem block_spreads (levels : Nat) :
    Yields (block .standard levels) fun tokens tree => Spread tokens [.block tree] := by
  induction levels with
  | zero =>
      apply blockWith_spreads
      intro start stop stmts closing h
      cases h
  | succ levels ih =>
      have hstatement :=
        statementWith_spreads (expression_spreads levels .lowest) ih (block_closes levels)
      apply blockWith_spreads
      intro start stop stmts closing h
      rw [remaining_bind_rest] at h
      obtain ⟨tokens, hpasses, hspread, -⟩ := statementsUntil_spreads hstatement closing h
      exact ⟨tokens, hpasses, hspread⟩

theorem program_spreads {file : String} {others : List Token} {closing : Token}
    {program : Block}
    (hothers : ∀ token ∈ others, token.kind ≠ .endOfInput) (hclosing : closing.kind = .endOfInput)
    (h : parse (others ++ [closing]) file = .ok program) :
    Spread others (Node.block program).children ∧
      program.span = ⟨⟨0, file⟩, closing.span.start⟩ := by
  have hclosed : Cursor.closed file (others ++ [closing]) = others ++ [closing] := by
    simp [Cursor.closed, hclosing]
  have hrest := (Cursor.rest_ofTokens file (others ++ [closing])).trans hclosed
  obtain ⟨stop, hstop⟩ := exists_program_of_parse h
  rw [Parse.program, remaining_bind_rest] at hstop
  obtain ⟨body, last, hbody, hresult⟩ := bind_eq_ok.mp hstop
  obtain ⟨tokens, hpasses, hspread, hend⟩ :=
    statementsUntil_spreads
      (statementWith_spreads (expression_spreads nestingLimit .lowest)
        (block_spreads nestingLimit) (block_closes nestingLimit))
      (Cursor.closing_ofTokens file _) hbody
  have htokens : tokens = others := by
    rw [← hpasses.beforeEnd_eq (List.mem_singleton.mp hend), hrest,
      Token.beforeEnd_append _ hothers]
    simp [Token.beforeEnd, hclosing]
  subst htokens
  have hlast : last.rest = [closing] := by
    rw [hpasses.rest] at hrest
    exact List.append_cancel_left hrest
  have hposition : last.position = closing.span.start := by
    rw [Cursor.position, Cursor.current_eq hlast]
  cases hresult
  exact ⟨hspread, congrArg (Span.mk ⟨0, file⟩) hposition⟩

end Parse

theorem Token.Cuts.apart_of_append {file : String} {text : List Char} {others : List Token}
    {closing : Token} (h : Cuts file 0 text (.ok (others ++ [closing])))
    (hsize : Text.byteLength text < 2 ^ 32) :
    Apart others ∧ ∀ token ∈ others,
      token.span.stop.offset.toNat ≤ closing.span.start.offset.toNat := by
  have hpairs := List.pairwise_append.mp (h.apart (by omega))
  have hclosing : ∀ token ∈ others, _ := fun token htoken =>
    hpairs.2.2 token htoken closing (List.mem_singleton_self _)
  exact ⟨⟨fun token htoken => (hclosing token htoken).1, hpairs.1.imp And.right⟩,
    fun token htoken => (hclosing token htoken).2⟩

/-- In a program that was read from a source whose offsets fit, the root spans the source up to
the closing token, every other node spans some tokens, and the children of a node lie inside its
span, one after the other. -/
theorem spans_of_parse {source : String} {file? : Option String} {file : String}
    {tokens : List Token} {program : Block} (hsize : Text.byteLength source.toList < 2 ^ 32)
    (htokens : tokenize source file? = .ok tokens) (hparse : parse tokens file = .ok program) :
    (∃ others closing, tokens = others ++ [closing] ∧ closing.kind = .endOfInput ∧
      program.span = ⟨⟨0, file⟩, closing.span.start⟩) ∧
    (∀ node, Relation.TransGen Node.HasChild (.block program) node →
      (∃ first ∈ tokens, node.span.start = first.span.start) ∧
      (∃ last ∈ tokens, node.span.stop = last.span.stop) ∧
      node.span.start.offset.toNat < node.span.stop.offset.toNat) ∧
    ∀ node, Relation.ReflTransGen Node.HasChild (.block program) node →
      (∀ child ∈ node.children, child.span.Inside node.span) ∧
      node.children.Pairwise fun child other => child.span.Before other.span := by
  have hcuts := cuts_tokenize source file?
  rw [htokens] at hcuts
  rcases hcuts.ends with ⟨others, rfl, hothers⟩
  rcases hcuts.apart_of_append hsize with ⟨hapart, hbefore⟩
  rcases Parse.program_spreads hothers rfl hparse with ⟨hspread, hspan⟩
  have hframed : ∀ node, Relation.TransGen Node.HasChild (.block program) node →
      Node.Framed others node := by
    intro node hnode
    rcases Relation.TransGen.head'_iff.mp hnode with ⟨child, hchild, hpart⟩
    exact hspread.framed child hchild node hpart
  refine ⟨⟨others, _, rfl, rfl, hspan⟩, ?_, ?_⟩
  · intro node hnode
    rcases hframed node hnode with ⟨segment, hsegment, hcovers, -⟩
    rcases hcovers.ends with ⟨first, hfirst, last, hlast, hstart, hstop⟩
    exact ⟨⟨first, List.mem_append_left _ (hsegment.subset hfirst), hstart⟩,
      ⟨last, List.mem_append_left _ (hsegment.subset hlast), hstop⟩,
      hcovers.proper (hapart.of_infix hsegment)⟩
  · intro node hnode
    rcases Relation.reflTransGen_iff_eq_or_transGen.mp hnode with rfl | hbelow
    · refine ⟨?_, hspread.order.pairwise hapart⟩
      intro child hchild
      rcases hspread.order.covers hchild with ⟨segment, hsegment, hcovers⟩
      rcases hcovers.ends with ⟨-, -, last, hlast, -, hstop⟩
      change child.span.Inside program.span
      rw [hspan]
      refine ⟨Nat.zero_le _, ?_⟩
      rw [hstop]
      exact hbefore last (hsegment.subset hlast)
    · have hnode := hframed node hbelow
      exact ⟨fun child => hnode.inside hapart, hnode.pairwise hapart⟩

/-- Parentheses do not belong to the span of the sum in them, but the negation in front of them
reaches over the first one. -/
theorem spans_of_parse_group :
    let source := "x = -( 1 + y );"
    let sum : Expr := .chain .additive
      [.integer 1 (.ofBytes "shell" 7 1), .read ⟨"y", .ofBytes "shell" 11 1⟩] [.add]
      (.ofBytes "shell" 7 5)
    let negation : Expr := .unary .neg sum (.ofBytes "shell" 4 8)
    let stmt : Stmt := .assign ⟨"x", .ofBytes "shell" 0 1⟩ negation (.ofBytes "shell" 0 15)
    ∃ tokens, tokenize source none = .ok tokens ∧
      parse tokens "shell" = .ok ⟨[stmt], .ofBytes "shell" 0 15⟩ ∧
      (∃ first ∈ tokens, negation.span.start = first.span.start) ∧
      (∃ last ∈ tokens, negation.span.stop = last.span.stop) ∧
      sum.span.Inside negation.span ∧
      (Node.stmt stmt).children.Pairwise fun child other => child.span.Before other.span := by
  intro source sum negation stmt
  obtain ⟨tokens, htokens⟩ : ∃ tokens, tokenize source none = .ok tokens := ⟨_, by cbv⟩
  have hparse : (tokenize source none).bind (parse · "shell") =
      .ok ⟨[stmt], .ofBytes "shell" 0 15⟩ := by cbv
  rw [htokens] at hparse
  have hspans := spans_of_parse (by decide) htokens hparse
  have hstmt : Relation.TransGen Node.HasChild (.block ⟨[stmt], .ofBytes "shell" 0 15⟩)
      (.stmt stmt) := .single (List.mem_singleton_self _)
  have hnegation : Node.HasChild (.stmt stmt) (.expr negation) :=
    List.mem_cons_of_mem _ (List.mem_singleton_self _)
  have hbelow := hstmt.tail hnegation
  rcases hspans.2.1 _ hbelow with ⟨hstart, hstop, -⟩
  exact ⟨tokens, htokens, hparse, hstart, hstop,
    (hspans.2.2 _ hbelow.to_reflTransGen).1 (.expr sum) (List.mem_singleton_self _),
    (hspans.2.2 _ hstmt.to_reflTransGen).2⟩

end Assay
