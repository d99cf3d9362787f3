import Assay.Proofs.Parsing.Soundness

/-!
# What the grammar spells is accepted

A phrase is read to its end, and no further, whenever the token after it does not extend
it.  Inside an expression the loop over continuations passes the categories from the
tightest to the loosest: it comes to stand at the end of a phrase of each category with
the tree of that phrase at hand, and goes on from there.
-/

namespace Assay.Parse

open Grammar

def Reads {α : Type} (step : Parse α) (erase : α → α) (start : Cursor) (value : α)
    (after : List Token) : Prop :=
  ∃ read stop, step start = .ok read stop ∧ erase read = value ∧ stop.rest = after

/-- Every phrase is accepted as a subexpression, if the token after it binds no tighter
than the context. -/
def Complete (limit level : Nat) (subexpression : Power → Parse Expr) : Prop :=
  ∀ (power : Power) ⦃tokens : List Token⦄ ⦃tree : Expr⦄ ⦃start : Cursor⦄ ⦃next : Token⦄
    ⦃others : List Token⦄, Derives limit power.operand level tokens tree →
    ¬ power < Dialect.standard.power next.kind → start.rest = tokens ++ next :: others →
      Reads (subexpression power) Expr.eraseSpans start tree (next :: others)

section

variable {limit level : Nat} {subexpression : Power → Parse Expr} {start : Cursor}
  {tokens others : List Token} {next : Token} {tree : Expr}

/-! ## Opening forms -/

theorem length_lt_of_rest (hrest : start.rest = tokens ++ next :: others) :
    tokens.length < start.rest.length := by
  rw [hrest, List.length_append, List.length_cons]
  omega

private theorem kind_ne_closeBracket {category : Category}
    (h : Derives limit category level tokens tree) (hrest : start.rest = tokens ++ others) :
    start.kind ≠ .closeBracket := by
  obtain ⟨token, more, rfl, hopening⟩ := h.opens
  intro hkind
  rw [← Cursor.kind_eq hrest, hkind] at hopening
  cases hopening

private theorem elements_complete (hsub : Complete limit level subexpression) {rounds : List Token}
    {trees : List Expr} (h : Elements limit level tokens trees)
    (hnext : next.kind = .closeBracket) (hrest : start.rest = tokens ++ next :: others)
    (hrounds : tokens.length < rounds.length) :
    Reads (elements (subexpression .lowest) rounds) (List.map Expr.eraseSpans) start trees
      (next :: others) := by
  induction trees generalizing tokens start rounds with
  | nil =>
      cases h
      obtain ⟨round, rounds, rfl⟩ := List.exists_cons_of_length_pos hrounds
      have hkind : start.kind = .closeBracket := (Cursor.kind_eq hrest).trans hnext
      refine ⟨[], start, ?_, rfl, hrest⟩
      simp only [elements, monadLift_self, kind_bind_apply, if_pos hkind, pure_apply]
  | cons tree trees ih =>
      obtain ⟨round, rounds, rfl⟩ := List.exists_cons_of_length_pos (Nat.zero_lt_of_lt hrounds)
      cases h with
      | last helement =>
          obtain ⟨read, stop, hread, rfl, hstop⟩ :=
            hsub .lowest helement (by rw [hnext]; decide) hrest
          have hstopKind : stop.kind = .closeBracket := (Cursor.kind_eq hstop).trans hnext
          refine ⟨[read], stop, ?_, rfl, hstop⟩
          simp only [elements, monadLift_self, kind_bind_apply,
            if_neg (kind_ne_closeBracket helement hrest)]
          rw [bind_of_ok hread]
          simp only [kind_bind_apply, hstopKind, pure_apply]
      | @cons _ comma first more _ _ hcomma helement helements =>
          rw [List.append_assoc, List.cons_append] at hrest
          obtain ⟨read, middle, hread, rfl, hmiddle⟩ :=
            hsub .lowest helement (by rw [hcomma]; decide) hrest
          have hmiddleKind : middle.kind = .comma := (Cursor.kind_eq hmiddle).trans hcomma
          have hafter : middle.next.rest = more ++ next :: others :=
            Cursor.next_rest hmiddle (by simp)
          have hlength : more.length < rounds.length := by
            simp only [List.length_append, List.length_cons] at hrounds
            omega
          obtain ⟨reads, stop, hreads, rfl, hstop⟩ := ih helements hafter hlength
          refine ⟨read :: reads, stop, ?_, rfl, hstop⟩
          simp only [elements, monadLift_self, kind_bind_apply,
            if_neg (kind_ne_closeBracket helement hrest)]
          rw [bind_of_ok hread]
          simp only [kind_bind_apply, hmiddleKind, advance_bind_apply]
          rw [bind_of_ok hreads, pure_apply]

private theorem list_complete (hsub : Complete limit (level + 1) subexpression) {trees : List Expr}
    {opening closing : Token} (hclosing : closing.kind = .closeBracket)
    (h : Elements limit (level + 1) tokens trees)
    (hrest : start.rest = opening :: (tokens ++ closing :: next :: others)) :
    Reads (list subexpression) Expr.eraseSpans start (.list trees .null) (next :: others) := by
  have hinside : start.next.rest = tokens ++ closing :: next :: others :=
    Cursor.next_rest hrest (by simp)
  obtain ⟨reads, middle, hreads, rfl, hmiddle⟩ :=
    elements_complete hsub h hclosing hinside (length_lt_of_rest hinside)
  obtain ⟨stop, hexpect, hstop⟩ := expect_accepts hclosing hmiddle (by simp)
  refine ⟨.list reads ⟨start.current.span.start, stop.previousEnd⟩, stop, ?_, ?_, hstop⟩
  · simp only [list, monadLift_self, advance_bind_apply, remaining_bind_rest]
    rw [bind_of_ok hreads, bind_of_ok hexpect, previousEnd_bind_apply, pure_apply]
  · simp [Expr.eraseSpans]

private theorem group_complete (hsub : Complete limit (level + 1) subexpression)
    {opening closing : Token} (hclosing : closing.kind = .closeParen)
    (h : Derives limit .expression (level + 1) tokens tree)
    (hrest : start.rest = opening :: (tokens ++ closing :: next :: others)) :
    Reads (group subexpression) Expr.eraseSpans start tree (next :: others) := by
  have hinside : start.next.rest = tokens ++ closing :: next :: others :=
    Cursor.next_rest hrest (by simp)
  obtain ⟨read, middle, hread, htree, hmiddle⟩ :=
    hsub .lowest h (by rw [hclosing]; decide) hinside
  obtain ⟨stop, hexpect, hstop⟩ := expect_accepts hclosing hmiddle (by simp)
  refine ⟨read, stop, ?_, htree, hstop⟩
  simp only [group, monadLift_self, advance_bind_apply]
  rw [bind_of_ok hread, bind_of_ok hexpect, pure_apply]

private theorem primary_complete (hsub : Complete limit (level + 1) subexpression)
    (h : Derives limit .primary level tokens tree)
    (hrest : start.rest = tokens ++ next :: others) :
    ∃ form, Dialect.standard.opening? start.kind = some form ∧
      Reads (opening subexpression form) Expr.eraseSpans start tree (next :: others) := by
  cases h with
  | chain hfamily => cases hfamily
  | integer hkind hvalue =>
      have hstart := (Cursor.kind_eq hrest).trans hkind
      refine ⟨.atom, by rw [hstart]; rfl, .integer _ start.current.span, start.next, ?_, rfl,
        Cursor.next_rest hrest (by simp)⟩
      simp only [opening, atom, monadLift_self, kind_bind_apply, hstart, number,
        Cursor.current_eq hrest, hvalue]
  | float hkind hvalue =>
      have hstart := (Cursor.kind_eq hrest).trans hkind
      refine ⟨.atom, by rw [hstart]; rfl, .float _ start.current.span, start.next, ?_, rfl,
        Cursor.next_rest hrest (by simp)⟩
      simp only [opening, atom, monadLift_self, kind_bind_apply, hstart, number,
        Cursor.current_eq hrest, hvalue]
  | trueLiteral hkind =>
      have hstart := (Cursor.kind_eq hrest).trans hkind
      refine ⟨.atom, by rw [hstart]; rfl, .bool true start.current.span, start.next, ?_, rfl,
        Cursor.next_rest hrest (by simp)⟩
      simp only [opening, atom, monadLift_self, kind_bind_apply, hstart, advance_bind_apply,
        pure_apply]
  | falseLiteral hkind =>
      have hstart := (Cursor.kind_eq hrest).trans hkind
      refine ⟨.atom, by rw [hstart]; rfl, .bool false start.current.span, start.next, ?_, rfl,
        Cursor.next_rest hrest (by simp)⟩
      simp only [opening, atom, monadLift_self, kind_bind_apply, hstart, advance_bind_apply,
        pure_apply]
  | read hkind =>
      have hstart := (Cursor.kind_eq hrest).trans hkind
      refine ⟨.atom, by rw [hstart]; rfl, .read ⟨start.current.text, start.current.span⟩,
        start.next, ?_, ?_, Cursor.next_rest hrest (by simp)⟩
      · simp only [opening, atom, monadLift_self, kind_bind_apply, hstart, advance_bind_apply,
          pure_apply]
      · rw [Cursor.current_eq hrest]
        rfl
  | list hopening hclosing helements =>
      have hstart := (Cursor.kind_eq hrest).trans hopening
      exact ⟨.list, by rw [hstart]; rfl,
        list_complete hsub hclosing helements (by simpa using hrest)⟩
  | group hopening hclosing hinner =>
      have hstart := (Cursor.kind_eq hrest).trans hopening
      exact ⟨.group, by rw [hstart]; rfl,
        group_complete hsub hclosing hinner (by simpa using hrest)⟩

private theorem opening_complete (hsub : Complete limit (level + 1) subexpression)
    (h : Derives limit .unary level tokens tree)
    (hrest : start.rest = tokens ++ next :: others) :
    ∃ form, Dialect.standard.opening? start.kind = some form ∧
      Reads (opening subexpression form) Expr.eraseSpans start tree (next :: others) := by
  cases h with
  | chain hfamily => cases hfamily
  | primary _ hprimary => exact primary_complete hsub hprimary hrest
  | @unary _ sign tokens operator operand _ hsign hoperand =>
      have hbound : ¬ Power.unary < Dialect.standard.power next.kind :=
        Nat.not_lt.mpr (Nat.le_of_lt (Dialect.rank_power_lt next.kind))
      obtain ⟨read, stop, hread, rfl, hstop⟩ :=
        hsub .unary hoperand hbound (Cursor.next_rest hrest (by simp))
      refine ⟨.unary, ?_, .unary (if start.current.kind = .not then .not else .neg) read
        ⟨start.current.span.start, read.span.stop⟩, stop, ?_, ?_, hstop⟩
      · rw [Cursor.kind_eq hrest, hsign]
        cases operator <;> rfl
      · simp only [opening, unary, monadLift_self, advance_bind_apply]
        rw [bind_of_ok hread, pure_apply]
      · rw [Cursor.current_eq hrest, Expr.eraseSpans, hsign]
        cases operator <;> rfl

/-! ## Continuation forms -/

/-- A property of the token after linked operands that their first sign has too is one of
the token at their start. -/
theorem links_next {σ : Type} {sign : σ → TokenKind} {category : Category}
    {links : List (σ × Expr)} (property : TokenKind → Prop) (others : List Token)
    (h : Links limit sign category level tokens links) (hnext : property next.kind)
    (hsign : ∀ link ∈ links.head?, property (sign link.1)) :
    ∃ following after, tokens ++ next :: others = following :: after ∧
      property following.kind := by
  cases h with
  | nil => exact ⟨next, others, rfl, hnext⟩
  | cons htoken _ _ => exact ⟨_, _, rfl, htoken ▸ hsign _ rfl⟩

private theorem not_lt_of_power {power : Power} {kind : TokenKind}
    (h : Dialect.standard.power kind = power) : ¬ power < Dialect.standard.power kind := by
  rw [h]
  exact Nat.lt_irrefl _

private theorem links_complete (hsub : Complete limit level subexpression) {family : Family}
    {rounds : List Token} {pairs : List (Operator family × Expr)}
    (h : Links limit Operator.sign family.power.operand level tokens pairs)
    (hnext : (Dialect.standard.power next.kind).rank < family.power.rank)
    (hrest : start.rest = tokens ++ next :: others) (hrounds : tokens.length < rounds.length) :
    ∃ operands stop, links (subexpression family.power) family rounds start =
        .ok (pairs.map Prod.fst, operands) stop ∧
      operands.map Expr.eraseSpans = pairs.map Prod.snd ∧ stop.rest = next :: others := by
  induction pairs generalizing tokens start rounds with
  | nil =>
      cases h
      obtain ⟨round, rounds, rfl⟩ := List.exists_cons_of_length_pos hrounds
      have hoperator : family.operator? start.kind = none := by
        rw [Cursor.kind_eq hrest]
        cases hoperator : family.operator? next.kind with
        | none => rfl
        | some operator =>
            have hsign := Family.operator?_eq_some_iff.mp hoperator
            rw [Dialect.power_of_operator hsign] at hnext
            exact absurd hnext (Nat.lt_irrefl _)
      refine ⟨[], start, ?_, rfl, hrest⟩
      simp only [links, monadLift_self, kind_bind_apply, hoperator, pure_apply, List.map_nil]
  | cons pair pairs ih =>
      obtain ⟨round, rounds, rfl⟩ := List.exists_cons_of_length_pos (Nat.zero_lt_of_lt hrounds)
      cases h with
      | @cons _ _ _ _ token first more operator _ _ hoperator hoperand hlinks =>
          obtain ⟨following, after, hfollowing, hbound⟩ :=
            links_next (fun kind => ¬ family.power < Dialect.standard.power kind) others hlinks
              (Nat.not_lt.mpr (Nat.le_of_lt hnext))
              fun _ _ => not_lt_of_power (Dialect.power_of_operator rfl)
          simp only [List.cons_append, List.append_assoc, hfollowing] at hrest
          obtain ⟨read, middle, hread, rfl, hmiddle⟩ :=
            hsub family.power hoperand hbound (Cursor.next_rest hrest (by simp))
          have hlength : more.length < rounds.length := by
            simp only [List.length_append, List.length_cons] at hrounds
            omega
          obtain ⟨operands, stop, hreads, hoperands, hstop⟩ :=
            ih hlinks (hmiddle.trans hfollowing.symm) hlength
          have hstart : family.operator? start.kind = some operator :=
            Family.operator?_eq_some_iff.mpr ((Cursor.kind_eq hrest).trans hoperator)
          refine ⟨read :: operands, stop, ?_, by simp [hoperands], hstop⟩
          simp only [links, monadLift_self, kind_bind_apply, hstart, advance_bind_apply]
          rw [bind_of_ok hread, bind_of_ok hreads, pure_apply, List.map_cons]

private theorem comparands_complete (hsub : Complete limit level subexpression)
    {operator : Comparator} {sign : TokenKind} (hsign : sign = operator.sign)
    {rounds : List Token} {operands : List Expr}
    (h : Links limit Comparator.sign .additive level tokens (operands.map (operator, ·)))
    (hnext : ¬ Power.relational < Dialect.standard.power next.kind) (hother : next.kind ≠ sign)
    (hrest : start.rest = tokens ++ next :: others) (hrounds : tokens.length < rounds.length) :
    Reads (comparands (subexpression .relational) sign rounds) (List.map Expr.eraseSpans) start
      operands (next :: others) := by
  induction operands generalizing tokens start rounds with
  | nil =>
      cases h
      obtain ⟨round, rounds, rfl⟩ := List.exists_cons_of_length_pos hrounds
      have hkind : start.kind ≠ sign := by
        rw [Cursor.kind_eq hrest]
        exact hother
      refine ⟨[], start, ?_, rfl, hrest⟩
      simp only [comparands, monadLift_self, kind_bind_apply, if_neg hkind, pure_apply]
  | cons operand operands ih =>
      obtain ⟨round, rounds, rfl⟩ := List.exists_cons_of_length_pos (Nat.zero_lt_of_lt hrounds)
      cases h with
      | @cons _ _ _ _ token first more _ _ _ htoken hoperand hlinks =>
          obtain ⟨following, after, hfollowing, hbound⟩ :=
            links_next (fun kind => ¬ Power.relational < Dialect.standard.power kind) others hlinks
              hnext fun _ _ => not_lt_of_power (Dialect.power_of_comparator rfl)
          simp only [List.cons_append, List.append_assoc, hfollowing] at hrest
          obtain ⟨read, middle, hread, rfl, hmiddle⟩ :=
            hsub .relational hoperand hbound (Cursor.next_rest hrest (by simp))
          have hlength : more.length < rounds.length := by
            simp only [List.length_append, List.length_cons] at hrounds
            omega
          obtain ⟨reads, stop, hreads, rfl, hstop⟩ :=
            ih hlinks (hmiddle.trans hfollowing.symm) hlength
          have hkind : start.kind = sign := by
            rw [Cursor.kind_eq hrest]
            exact htoken.trans hsign.symm
          refine ⟨read :: reads, stop, ?_, rfl, hstop⟩
          simp only [comparands, monadLift_self, kind_bind_apply, if_pos hkind, advance_bind_apply]
          rw [bind_of_ok hread, bind_of_ok hreads, pure_apply]

private theorem ternary_complete (hsub : Complete limit level subexpression) {left : Expr}
    {question colon : Token} {second third : List Token} {whenTrue whenFalse : Expr}
    (hcolon : colon.kind = .colon)
    (hwhenTrue : Derives limit .expression level second whenTrue)
    (hwhenFalse : Derives limit .expression level third whenFalse)
    (hnext : ¬ Power.lowest < Dialect.standard.power next.kind)
    (hrest : start.rest = question :: (second ++ colon :: (third ++ next :: others))) :
    Reads (ternary subexpression left) Expr.eraseSpans start
      (.ternary [left.eraseSpans, whenTrue, whenFalse] .null) (next :: others) := by
  obtain ⟨readTrue, first, htrue, rfl, hfirst⟩ :=
    hsub .lowest hwhenTrue (by rw [hcolon]; decide) (Cursor.next_rest hrest (by simp))
  obtain ⟨second, hexpect, hsecond⟩ :=
    expectHere_accepts "expected `:` in ternary expression" hcolon hfirst (by simp)
  obtain ⟨readFalse, stop, hfalse, rfl, hstop⟩ := hsub .lowest hwhenFalse hnext hsecond
  refine ⟨.ternary [left, readTrue, readFalse] ⟨left.span.start, readFalse.span.stop⟩, stop,
    ?_, by simp [Expr.eraseSpans], hstop⟩
  simp only [ternary, monadLift_self, advance_bind_apply]
  rw [bind_of_ok htrue, bind_of_ok hexpect, bind_of_ok hfalse, pure_apply]

private theorem chain_complete (hsub : Complete limit level subexpression) {family : Family}
    {left : Expr} {pairs : List (Operator family × Expr)} (hpairs : pairs ≠ [])
    (h : Links limit Operator.sign family.power.operand level tokens pairs)
    (hnext : (Dialect.standard.power next.kind).rank < family.power.rank)
    (hrest : start.rest = tokens ++ next :: others) :
    Reads (chain subexpression family family.power left) Expr.eraseSpans start
      (chained family left.eraseSpans pairs) (next :: others) := by
  obtain ⟨operands, stop, hreads, hoperands, hstop⟩ :=
    links_complete hsub h hnext hrest (length_lt_of_rest hrest)
  refine ⟨.chain family (left :: operands) (pairs.map Prod.fst) (spanOver left operands), stop,
    ?_, ?_, hstop⟩
  · simp only [chain, monadLift_self, remaining_bind_rest]
    rw [bind_of_ok hreads, pure_apply]
  · cases pairs with
    | nil => exact absurd rfl hpairs
    | cons pair pairs => simp [Expr.eraseSpans, chained, hoperands]

private theorem comparison_complete (hsub : Complete limit level subexpression)
    {operator : Comparator} {left : Expr} {operands : List Expr} (hoperands : operands ≠ [])
    (h : Links limit Comparator.sign .additive level tokens (operands.map (operator, ·)))
    (hnext : ¬ Power.relational < Dialect.standard.power next.kind)
    (hother : next.kind ≠ operator.sign)
    (hrest : start.rest = tokens ++ next :: others) :
    Reads (comparison subexpression .relational left) Expr.eraseSpans start
      (comparedInRuns left.eraseSpans (operands.map (operator, ·))) (next :: others) := by
  have hsign : start.kind = operator.sign := by
    cases operands with
    | nil => exact absurd rfl hoperands
    | cons operand operands =>
        cases h with
        | cons htoken _ _ => rw [Cursor.kind_eq hrest, htoken]
  obtain ⟨reads, stop, hreads, rfl, hstop⟩ := comparands_complete hsub hsign h hnext
    (fun hkind => hother (hkind.trans hsign)) hrest (length_lt_of_rest hrest)
  refine ⟨.comparison operator (left :: reads) (spanOver left reads), stop, ?_, ?_, hstop⟩
  · simp only [comparison, monadLift_self, kind_bind_apply,
      Comparator.ofKind?_eq_some_iff.mpr hsign, remaining_bind_rest]
    rw [bind_of_ok hreads, pure_apply]
  · rw [comparedInRuns_run _ _ hoperands]
    simp [Expr.eraseSpans]

/-! ## Continued expressions -/

private theorem continued_step {context : Power} {form : ContinuationForm} {round : Token}
    {rounds : List Token} {left extended : Expr} {stop : Cursor}
    (hform : Dialect.standard.continuation? start.kind = some form)
    (hcontext : context < Dialect.standard.power start.kind)
    (h : continuation subexpression (Dialect.standard.power start.kind) left form start =
      .ok extended stop) :
    continued .standard subexpression context (round :: rounds) left start =
      continued .standard subexpression context rounds extended stop := by
  simp only [continued, monadLift_self, kind_bind_apply, if_pos hcontext, hform]
  rw [bind_of_ok h]

private theorem continued_stop {context : Power} {rounds : List Token} {left : Expr}
    (hcontext : ¬ context < Dialect.standard.power start.kind) (hrounds : 0 < rounds.length) :
    continued .standard subexpression context rounds left start = .ok left start := by
  obtain ⟨round, rounds, rfl⟩ := List.exists_cons_of_length_pos hrounds
  simp only [continued, monadLift_self, kind_bind_apply, if_neg hcontext, pure_apply]

/-- From the given cursor, a step comes down to continuing an expression with the given
tree in front of the given tokens, with a round left for each of them. -/
def Proceeds (subexpression : Power → Parse Expr) (context : Power) (step : Parse Expr)
    (start : Cursor) (tree : Expr) (after : List Token) : Prop :=
  ∃ rounds left stop, step start = continued .standard subexpression context rounds left stop ∧
    left.eraseSpans = tree ∧ stop.rest = after ∧ after.length ≤ rounds.length

section

variable {context : Power} {step : Parse Expr}

theorem Proceeds.stop (h : Proceeds subexpression context step start tree (next :: others))
    (hnext : ¬ context < Dialect.standard.power next.kind) :
    Reads step Expr.eraseSpans start tree (next :: others) := by
  obtain ⟨rounds, left, stop, hstep, htree, hstop, hrounds⟩ := h
  refine ⟨left, stop, ?_, htree, hstop⟩
  rw [hstep, continued_stop _ (Nat.zero_lt_of_lt hrounds)]
  rwa [Cursor.kind_eq hstop]

theorem Proceeds.continuation {power : Power} {form : ContinuationForm} {sign : Token}
    {before after : List Token} {extended : Expr}
    (h : Proceeds subexpression context step start tree (sign :: (before ++ after)))
    (hform : Dialect.standard.continuation? sign.kind = some form)
    (hpower : Dialect.standard.power sign.kind = power) (hcontext : context < power)
    (hextended : ∀ ⦃left stop⦄, left.eraseSpans = tree → stop.rest = sign :: (before ++ after) →
      Reads (Parse.continuation subexpression power left form) Expr.eraseSpans stop extended
        after) :
    Proceeds subexpression context step start extended after := by
  obtain ⟨rounds, left, stop, hstep, htree, hstop, hrounds⟩ := h
  obtain ⟨round, rounds, rfl⟩ := List.exists_cons_of_length_pos (Nat.zero_lt_of_lt hrounds)
  obtain ⟨read, last, hread, hreadTree, hlast⟩ := hextended htree hstop
  have hkind := Cursor.kind_eq hstop
  rw [← hkind] at hform hpower
  rw [← hpower] at hcontext hread
  refine ⟨rounds, read, last, ?_, hreadTree, hlast, ?_⟩
  · rw [hstep, continued_step hform hcontext hread]
  · simp only [List.length_cons, List.length_append] at hrounds
    omega

/-- Every phrase of a category is read as a whole where its tokens stand, if the context
and the token after it allow phrases of that category. -/
def Reaches (limit level : Nat) (subexpression : Power → Parse Expr) (context : Power)
    (step : Parse Expr) (category : Category) : Prop :=
  ∀ ⦃tokens : List Token⦄ ⦃tree : Expr⦄ ⦃start : Cursor⦄ ⦃next : Token⦄ ⦃others : List Token⦄,
    Derives limit category level tokens tree → context.operand.rank ≤ category.rank →
    (Dialect.standard.power next.kind).rank < category.rank →
    start.rest = tokens ++ next :: others →
      Proceeds subexpression context step start tree (next :: others)

private theorem lt_of_rank_operand_le {power : Power} (hpower : power.rank < 6)
    (h : context.operand.rank ≤ power.rank) : context < power := by
  rw [Power.rank_operand] at h
  rw [Power.lt_iff]
  omega

private theorem chain_reaches (family : Family) (hsub : Complete limit (level + 1) subexpression)
    (h : Reaches limit level subexpression context step family.category.tighter) :
    Reaches limit level subexpression context step family.category := by
  intro tokens tree start next others hderives hcontext hnext hrest
  have htighter : family.category.tighter.rank = family.category.rank + 1 := by
    cases family <;> rfl
  obtain ⟨first, more, operand, links, rfl, rfl, hfirst, hlinks⟩ :=
    hderives.chain_inv family.family?_category
  rw [List.append_assoc] at hrest
  cases hlinks with
  | nil => exact h hfirst (by omega) (by omega) hrest
  | @cons _ _ _ _ sign second third operator _ links hsign hoperand hmore =>
      rw [List.cons_append] at hrest
      have hform := Dialect.continuation?_of_operator hsign
      have hsignPower := Dialect.power_of_operator hsign
      have hrank := family.rank_category
      have hpower : family.power.rank < 6 := by cases family <;> decide
      have hproceeds := h hfirst (by omega) (by rw [hsignPower]; omega) hrest
      refine hproceeds.continuation hform hsignPower (lt_of_rank_operand_le hpower (by omega)) ?_
      intro left stop htree hstop
      rw [← htree]
      rw [← family.operand_power] at hoperand hmore
      exact chain_complete hsub (List.cons_ne_nil _ _) (.cons hsign hoperand hmore) (by omega) hstop

theorem Proceeds.runs (hsub : Complete limit level subexpression)
    {links : List (Comparator × Expr)}
    (h : Proceeds subexpression context step start tree (tokens ++ next :: others))
    (hlinks : Links limit Comparator.sign .additive level tokens links)
    (hcontext : context < .relational)
    (hnext : (Dialect.standard.power next.kind).rank < Power.relational.rank) :
    Proceeds subexpression context step start (comparedInRuns tree links) (next :: others) := by
  induction links using runs_induction generalizing tokens tree with
  | nil =>
      cases hlinks
      exact h
  | run operator operand operands after hafter ih =>
      obtain ⟨run, left, rfl, hrun, hleft⟩ := hlinks.of_append
      have hnextOther : next.kind ≠ operator.sign := fun hsign =>
        Nat.lt_irrefl _ (Dialect.power_of_comparator hsign ▸ hnext)
      obtain ⟨following, others', hfollowing, hbound, hother⟩ :=
        links_next (fun kind => ¬ Power.relational < Dialect.standard.power kind ∧
            kind ≠ operator.sign) others hleft
          ⟨Nat.not_lt.mpr (Nat.le_of_lt hnext), hnextOther⟩
          fun link hlink => ⟨not_lt_of_power (Dialect.power_of_comparator rfl),
            fun hsame => hafter link hlink (Comparator.sign_injective hsame)⟩
      -- One continuation takes the first run.
      have hbefore : Proceeds subexpression context step start
          (comparedInRuns tree ((operand :: operands).map (operator, ·)))
          (left ++ next :: others) := by
        cases hrun with
        | cons hsign hoperand hrun =>
            rw [List.append_assoc, hfollowing, List.cons_append] at h
            rw [hfollowing]
            refine h.continuation (Dialect.continuation?_of_comparator hsign)
              (Dialect.power_of_comparator hsign) hcontext ?_
            intro expr stop htree hstop
            rw [← htree]
            exact comparison_complete hsub (List.cons_ne_nil _ _) (.cons hsign hoperand hrun)
              hbound hother hstop
      rw [comparedInRuns_run tree operator (List.cons_ne_nil _ _)] at hbefore
      rw [comparedInRuns_run_append tree (List.cons_ne_nil _ _) hafter]
      exact ih hbefore hleft

private theorem comparison_reaches (hsub : Complete limit (level + 1) subexpression)
    (h : Reaches limit level subexpression context step .additive) :
    Reaches limit level subexpression context step .comparison := by
  intro tokens tree start next others hderives hcontext hnext hrest
  have hrelational : context < .relational := lt_of_rank_operand_le (by decide) hcontext
  cases hderives with
  | chain hfamily => cases hfamily
  | @comparison _ first more operand links hfirst hlinks =>
      rw [List.append_assoc] at hrest
      obtain ⟨following, after, hfollowing, hbound⟩ :=
        links_next (fun kind => ¬ Power.relational < Dialect.standard.power kind) others hlinks
          (Nat.not_lt.mpr (Nat.le_of_lt hnext))
          fun _ _ => not_lt_of_power (Dialect.power_of_comparator rfl)
      rw [hfollowing] at hrest
      have hproceeds := h hfirst (Nat.le_succ_of_le hcontext)
        (Nat.lt_succ_of_le (Nat.not_lt.mp hbound)) hrest
      rw [← hfollowing] at hproceeds
      exact hproceeds.runs hsub hlinks hrelational hnext

private theorem expression_reaches (hsub : Complete limit (level + 1) subexpression)
    (h : Reaches limit level subexpression context step .logical) :
    Reaches limit level subexpression context step .expression := by
  intro tokens tree start next others hderives hcontext hnext hrest
  cases hderives with
  | chain hfamily => cases hfamily
  | plain hlogical =>
      exact h hlogical (Nat.le_succ_of_le hcontext) (Nat.lt_succ_of_lt hnext) hrest
  | @ternary _ question colon first second third _ _ _ hquestion hcolon hcondition hwhenTrue
      hwhenFalse =>
      have hform : Dialect.standard.continuation? question.kind = some .ternary := by
        rw [hquestion]
        rfl
      have hpower : Dialect.standard.power question.kind = .ternary := by
        rw [hquestion]
        rfl
      rw [List.append_assoc, List.cons_append] at hrest
      have hproceeds := h hcondition (Nat.le_succ_of_le hcontext) (by rw [hpower]; decide) hrest
      refine hproceeds.continuation hform hpower (lt_of_rank_operand_le (by decide) hcontext) ?_
      intro left stop htree hstop
      rw [← htree]
      exact ternary_complete hsub hcolon hwhenTrue hwhenFalse
        (Nat.not_lt.mpr (Nat.le_of_lt_succ hnext)) (by simpa using hstop)

end

end

/-! ## Expressions -/

private theorem unary_reaches {limit level levels : Nat} (context : Power)
    (hsub : Complete limit (level + 1) (expression .standard levels)) :
    Reaches limit level (expression .standard levels) context
      (expression .standard (levels + 1) context) .unary := by
  intro tokens tree start next others hderives _ _ hrest
  obtain ⟨form, hform, read, stop, hread, htree, hstop⟩ := opening_complete hsub hderives hrest
  refine ⟨stop.rest, read, stop, ?_, htree, hstop, Nat.le_of_eq (by rw [hstop])⟩
  simp only [expression, expressionWith, monadLift_self, kind_bind_apply, hform]
  rw [bind_of_ok hread, remaining_bind_rest]

private theorem operand_reaches {limit level levels : Nat} (context power : Power)
    (hsub : Complete limit (level + 1) (expression .standard levels)) :
    Reaches limit level (expression .standard levels) context
      (expression .standard (levels + 1) context) power.operand := by
  have unary := unary_reaches context hsub
  have multiplicative := chain_reaches .multiplicative hsub unary
  have additive := chain_reaches .additive hsub multiplicative
  have comparison := comparison_reaches hsub additive
  have logical := chain_reaches .logical hsub comparison
  have expression := expression_reaches hsub logical
  cases power with
  | lowest => exact expression
  | ternary => exact logical
  | logical => exact comparison
  | relational => exact additive
  | additive => exact multiplicative
  | multiplicative | unary | primary => exact unary

theorem expression_complete {limit level levels : Nat}
    (hlevels : level + levels = limit + 1) :
    Complete limit level (expression .standard levels) := by
  induction levels generalizing level with
  | zero =>
      -- The level is past the limit, where the grammar has no phrases.
      intro power tokens tree start next others hderives
      have hlevel := hderives.level_le (by cases power <;> nofun)
      omega
  | succ levels ih =>
      intro power tokens tree start next others hderives hnext hrest
      have hrank : (Dialect.standard.power next.kind).rank < power.operand.rank := by
        have hlt := Dialect.rank_power_lt next.kind
        rw [Power.lt_iff] at hnext
        rw [Power.rank_operand]
        omega
      exact (operand_reaches power power (ih (by omega)) hderives (Nat.le_refl _) hrank
        hrest).stop hnext

/-! ## Statements -/

def Accepts {α : Type} (step : Parse α) (erase : α → α) (follow : TokenKind → Prop)
    (phrase : List Token → α → Prop) : Prop :=
  ∀ ⦃tokens : List Token⦄ ⦃value : α⦄ ⦃start : Cursor⦄ ⦃next : Token⦄ ⦃others : List Token⦄,
    phrase tokens value → follow next.kind → start.rest = tokens ++ next :: others →
      Reads step erase start value (next :: others)

section

variable {limit blocks : Nat} {expr : Parse Expr} {body : Parse Block} {start : Cursor}

private theorem identifier_accepts (message : String) {token : Token} {others : List Token}
    (hkind : token.kind = .identifier) (h : start.rest = token :: others)
    (hothers : others ≠ []) :
    ∃ stop, identifier message start = .ok ⟨token.text, token.span⟩ stop ∧
      stop.rest = others := by
  obtain ⟨stop, hexpect, hstop⟩ := expectHere_accepts message hkind h hothers
  refine ⟨stop, ?_, hstop⟩
  rw [identifier, bind_of_ok hexpect, pure_apply]

variable
  (hexpr : Accepts expr Expr.eraseSpans (¬ Power.lowest < Dialect.standard.power ·)
    (Derives limit .expression (blocks + 1)))
  (hbody : Accepts body Block.eraseSpans (fun _ => True) (Braced limit blocks))

include hexpr

private theorem condition_accepts :
    Accepts (condition expr) Condition.eraseSpans (fun _ => True) (Guard limit blocks) := by
  intro tokens value start next others h _ hrest
  cases h with
  | @mk opening closing tokens tree hopening hclosing htree =>
      simp only [List.cons_append, List.append_assoc, List.nil_append] at hrest
      obtain ⟨first, hopen, hfirst⟩ := expect_accepts hopening hrest (by simp)
      obtain ⟨read, second, hread, rfl, hsecond⟩ :=
        hexpr htree (by rw [hclosing]; decide) hfirst
      obtain ⟨stop, hclose, hstop⟩ := expect_accepts hclosing hsecond (by simp)
      refine ⟨⟨some read, ⟨opening.span.start, stop.previousEnd⟩⟩, stop, ?_, rfl, hstop⟩
      simp only [condition, monadLift_self]
      rw [bind_of_ok hopen, bind_of_ok hread, bind_of_ok hclose, previousEnd_bind_apply, pure_apply]

private theorem initialValue_accepts :
    Accepts (initialValue expr) (Option.map Expr.eraseSpans) (· = .semicolon)
      (InitialValue limit blocks) := by
  intro tokens value? start next others h hnext hrest
  cases h with
  | absent =>
      have hkind : start.kind ≠ .assignment := by
        rw [Cursor.kind_eq hrest, hnext]
        decide
      refine ⟨none, start, ?_, rfl, hrest⟩
      simp only [initialValue, monadLift_self, kind_bind_apply, if_neg hkind, pure_apply]
  | present hequals hvalue =>
      have hkind : start.kind = .assignment := (Cursor.kind_eq hrest).trans hequals
      obtain ⟨read, stop, hread, rfl, hstop⟩ :=
        hexpr hvalue (by rw [hnext]; decide) (Cursor.next_rest hrest (by simp))
      refine ⟨some read, stop, ?_, rfl, hstop⟩
      simp only [initialValue, monadLift_self, kind_bind_apply, if_pos hkind, advance_bind_apply]
      rw [bind_of_ok hread, pure_apply]

private theorem declare_complete {word name colon typeName semicolon next : Token}
    {tokens others : List Token} {value? : Option Expr} (hname : name.kind = .identifier)
    (hcolon : colon.kind = .colon) (htypeName : typeName.kind = .identifier)
    (hsemicolon : semicolon.kind = .semicolon) (hvalue : InitialValue limit blocks tokens value?)
    (hrest : start.rest =
      word :: name :: colon :: typeName :: (tokens ++ semicolon :: next :: others)) :
    Reads (declare expr) Stmt.eraseSpans start
      (.declare ⟨name.text, .null⟩ typeName.text value? .null) (next :: others) := by
  obtain ⟨first, hreadName, hfirst⟩ :=
    identifier_accepts "expected identifier during variable declaration" hname
      (Cursor.next_rest hrest (by simp)) (by simp)
  obtain ⟨second, hreadColon, hsecond⟩ := expect_accepts hcolon hfirst (by simp)
  obtain ⟨third, hreadType, hthird⟩ :=
    expectHere_accepts "expected a type name after `:`" htypeName hsecond (by simp)
  obtain ⟨read?, fourth, hreadValue, rfl, hfourth⟩ :=
    initialValue_accepts hexpr hvalue hsemicolon hthird
  obtain ⟨stop, hreadSemicolon, hstop⟩ := expect_accepts hsemicolon hfourth (by simp)
  refine ⟨.declare ⟨name.text, name.span⟩ typeName.text read?
    ⟨start.current.span.start, stop.previousEnd⟩, stop, ?_, rfl, hstop⟩
  simp only [declare, monadLift_self, advance_bind_apply]
  rw [bind_of_ok hreadName, bind_of_ok hreadColon, bind_of_ok hreadType, bind_of_ok hreadValue,
    bind_of_ok hreadSemicolon, previousEnd_bind_apply, pure_apply]

private theorem assign_complete {name equals semicolon next : Token} {tokens others : List Token}
    {tree : Expr} (hname : name.kind = .identifier) (hequals : equals.kind = .assignment)
    (hsemicolon : semicolon.kind = .semicolon)
    (hvalue : Derives limit .expression (blocks + 1) tokens tree)
    (hrest : start.rest = name :: equals :: (tokens ++ semicolon :: next :: others)) :
    Reads (assign expr) Stmt.eraseSpans start (.assign ⟨name.text, .null⟩ tree .null)
      (next :: others) := by
  obtain ⟨first, hreadName, hfirst⟩ :=
    identifier_accepts "expected identifier" hname hrest (by simp)
  obtain ⟨second, hreadEquals, hsecond⟩ :=
    expectHere_accepts "expected `=` after identifier" hequals hfirst (by simp)
  obtain ⟨read, third, hread, rfl, hthird⟩ :=
    hexpr hvalue (by rw [hsemicolon]; decide) hsecond
  obtain ⟨stop, hreadSemicolon, hstop⟩ := expect_accepts hsemicolon hthird (by simp)
  refine ⟨.assign ⟨name.text, name.span⟩ read ⟨name.span.start, stop.previousEnd⟩, stop,
    ?_, rfl, hstop⟩
  simp only [assign, monadLift_self]
  rw [bind_of_ok hreadName, bind_of_ok hreadEquals, bind_of_ok hread, bind_of_ok hreadSemicolon,
    previousEnd_bind_apply, pure_apply]

include hbody

omit hexpr in
private theorem elseBody_accepts :
    Accepts (elseBody body) (Option.map Block.eraseSpans) (· ≠ .elseWord)
      (ElseBody limit blocks) := by
  intro tokens body? start next others h hnext hrest
  cases h with
  | absent =>
      have hkind : start.kind ≠ .elseWord := by rwa [Cursor.kind_eq hrest]
      refine ⟨none, start, ?_, rfl, hrest⟩
      simp only [elseBody, monadLift_self, kind_bind_apply, if_neg hkind, pure_apply]
  | present hword hbraced =>
      have hkind : start.kind = .elseWord := (Cursor.kind_eq hrest).trans hword
      obtain ⟨read, stop, hread, rfl, hstop⟩ :=
        hbody hbraced trivial (Cursor.next_rest hrest (by simp))
      refine ⟨some read, stop, ?_, rfl, hstop⟩
      simp only [elseBody, monadLift_self, kind_bind_apply, if_pos hkind, advance_bind_apply]
      rw [bind_of_ok hread, pure_apply]

private theorem guarded_complete {first second after : List Token} {guard : Condition}
    {block : Block}
    (hcondition : Guard limit blocks first guard) (hblock : Braced limit blocks second block)
    (hafter : after ≠ []) (hrest : start.rest = first ++ (second ++ after)) :
    ∃ condition middle, Parse.condition expr start = .ok condition middle ∧
      condition.eraseSpans = guard ∧ Reads body Block.eraseSpans middle block after := by
  obtain ⟨next, others, rfl⟩ := List.exists_cons_of_ne_nil hafter
  obtain ⟨token, tokens, rfl⟩ : ∃ token tokens, second = token :: tokens := by
    cases hblock
    exact ⟨_, _, rfl⟩
  rw [List.cons_append] at hrest
  obtain ⟨condition, middle, hread, hguard, hmiddle⟩ :=
    condition_accepts hexpr hcondition trivial hrest
  exact ⟨condition, middle, hread, hguard, hbody hblock trivial hmiddle⟩

private theorem branch_complete {word next : Token} {first second third others : List Token}
    {guard : Condition} {thenBody : Block} {elseBody? : Option Block}
    (hcondition : Guard limit blocks first guard) (hthenBody : Braced limit blocks second thenBody)
    (helseBody : ElseBody limit blocks third elseBody?) (hnext : next.kind ≠ .elseWord)
    (hrest : start.rest = word :: (first ++ (second ++ (third ++ next :: others)))) :
    Reads (branch expr body) Stmt.eraseSpans start (.branch guard thenBody elseBody? .null)
      (next :: others) := by
  obtain ⟨condition, middle, hreadCondition, rfl, readThen, last, hreadThen, rfl, hlast⟩ :=
    guarded_complete hexpr hbody hcondition hthenBody (by simp)
      (Cursor.next_rest hrest (by simp))
  obtain ⟨readElse?, stop, hreadElse, rfl, hstop⟩ := elseBody_accepts hbody helseBody hnext hlast
  refine ⟨.branch condition readThen readElse? ⟨start.current.span.start, stop.previousEnd⟩,
    stop, ?_, Stmt.eraseSpans_branch .., hstop⟩
  simp only [branch, monadLift_self, advance_bind_apply]
  rw [bind_of_ok hreadCondition, bind_of_ok hreadThen, bind_of_ok hreadElse,
    previousEnd_bind_apply, pure_apply]

private theorem loop_complete {word next : Token} {first second others : List Token}
    {guard : Condition} {block : Block} (hcondition : Guard limit blocks first guard)
    (hblock : Braced limit blocks second block)
    (hrest : start.rest = word :: (first ++ (second ++ next :: others))) :
    Reads (loop expr body) Stmt.eraseSpans start (.loop guard block .null) (next :: others) := by
  obtain ⟨condition, middle, hreadCondition, rfl, readBlock, stop, hreadBlock, rfl, hstop⟩ :=
    guarded_complete hexpr hbody hcondition hblock (by simp) (Cursor.next_rest hrest (by simp))
  refine ⟨.loop condition readBlock ⟨start.current.span.start, stop.previousEnd⟩, stop, ?_, rfl,
    hstop⟩
  simp only [loop, monadLift_self, advance_bind_apply]
  rw [bind_of_ok hreadCondition, bind_of_ok hreadBlock, previousEnd_bind_apply, pure_apply]

private theorem doLoop_complete {word while_ semicolon next : Token}
    {first second others : List Token}
    {block : Block} {guard : Condition} (hwhile : while_.kind = .whileWord)
    (hsemicolon : semicolon.kind = .semicolon) (hblock : Braced limit blocks first block)
    (hcondition : Guard limit blocks second guard)
    (hrest : start.rest =
      word :: (first ++ while_ :: (second ++ semicolon :: next :: others))) :
    Reads (doLoop expr body) Stmt.eraseSpans start (.doLoop block guard .null)
      (next :: others) := by
  obtain ⟨readBlock, middle, hreadBlock, rfl, hmiddle⟩ :=
    hbody hblock trivial (Cursor.next_rest hrest (by simp))
  obtain ⟨third, hreadWhile, hthird⟩ :=
    expectHere_accepts "expected `while` after do block" hwhile hmiddle (by simp)
  obtain ⟨condition, fourth, hreadCondition, rfl, hfourth⟩ :=
    condition_accepts hexpr hcondition trivial hthird
  obtain ⟨stop, hreadSemicolon, hstop⟩ := expect_accepts hsemicolon hfourth (by simp)
  refine ⟨.doLoop readBlock condition ⟨start.current.span.start, stop.previousEnd⟩, stop, ?_,
    rfl, hstop⟩
  simp only [doLoop, monadLift_self, advance_bind_apply]
  rw [bind_of_ok hreadBlock, bind_of_ok hreadWhile, bind_of_ok hreadCondition,
    bind_of_ok hreadSemicolon, previousEnd_bind_apply, pure_apply]

omit hexpr hbody in
private theorem statementWith_reads {token : Token} {tokens after : List Token} {stmt : Stmt}
    {form : StatementForm} (hrest : start.rest = token :: tokens)
    (hform : Dialect.standard.statement? token.kind = some form)
    (h : Reads (statementForm expr body form) Stmt.eraseSpans start stmt after) :
    Reads (statementWith .standard expr body) Stmt.eraseSpans start stmt after := by
  obtain ⟨read, stop, hread, hstmt, hstop⟩ := h
  refine ⟨read, stop, ?_, hstmt, hstop⟩
  simp only [statementWith, monadLift_self, kind_bind_apply, Cursor.kind_eq hrest, hform]
  exact hread

theorem statementWith_accepts :
    Accepts (statementWith .standard expr body) Stmt.eraseSpans (· ≠ .elseWord)
      (Statement limit blocks) := by
  intro tokens stmt start next others h hnext hrest
  cases h with
  | declare hword hname hcolon htypeName hsemicolon hvalue =>
      refine statementWith_reads hrest (by rw [hword]; rfl) ?_
      exact declare_complete hexpr hname hcolon htypeName hsemicolon hvalue (by simpa using hrest)
  | assign hname hequals hsemicolon hvalue =>
      refine statementWith_reads hrest (by rw [hname]; rfl) ?_
      exact assign_complete hexpr hname hequals hsemicolon hvalue (by simpa using hrest)
  | branch hword hcondition hthenBody helseBody =>
      refine statementWith_reads hrest (by rw [hword]; rfl) ?_
      exact branch_complete hexpr hbody hcondition hthenBody helseBody hnext (by simpa using hrest)
  | loop hword hcondition hblock =>
      refine statementWith_reads hrest (by rw [hword]; rfl) ?_
      exact loop_complete hexpr hbody hcondition hblock (by simpa using hrest)
  | doLoop hword hwhile hsemicolon hblock hcondition =>
      refine statementWith_reads hrest (by rw [hword]; rfl) ?_
      exact doLoop_complete hexpr hbody hwhile hsemicolon hblock hcondition (by simpa using hrest)

end

private theorem statements_next {limit blocks : Nat} {tokens : List Token} {stmts : List Stmt}
    {next : Token} (others : List Token) (h : Statements limit blocks tokens stmts)
    (hnext : next.kind ≠ .elseWord) :
    ∃ following after, tokens ++ next :: others = following :: after ∧
      following.kind ≠ .elseWord := by
  cases h with
  | nil => exact ⟨next, others, rfl, hnext⟩
  | cons hstmt _ =>
      obtain ⟨token, more, rfl, hopening⟩ := hstmt.opens
      refine ⟨token, _, rfl, fun hkind => ?_⟩
      rw [hkind] at hopening
      cases hopening

theorem statementsUntil_complete {limit blocks : Nat} (ends : List TokenKind)
    {statement : Parse Stmt} {start : Cursor} {tokens others rounds : List Token}
    {stmts : List Stmt} {next : Token}
    (hstatement : Accepts statement Stmt.eraseSpans (· ≠ .elseWord) (Statement limit blocks))
    (hends : ∀ kind ∈ ends, Dialect.standard.statement? kind = none ∧ kind ≠ .elseWord)
    (h : Statements limit blocks tokens stmts) (hnext : next.kind ∈ ends)
    (hrest : start.rest = tokens ++ next :: others) (hrounds : tokens.length < rounds.length) :
    Reads (statementsUntil ends statement rounds) (List.map Stmt.eraseSpans) start stmts
      (next :: others) := by
  induction stmts generalizing tokens start rounds with
  | nil =>
      cases h
      obtain ⟨round, rounds, rfl⟩ := List.exists_cons_of_length_pos hrounds
      have hend : start.kind ∈ ends := by rwa [Cursor.kind_eq hrest]
      refine ⟨[], start, ?_, rfl, hrest⟩
      simp only [statementsUntil, monadLift_self, kind_bind_apply, if_pos hend, pure_apply]
  | cons stmt stmts ih =>
      obtain ⟨round, rounds, rfl⟩ := List.exists_cons_of_length_pos (Nat.zero_lt_of_lt hrounds)
      cases h with
      | @cons _ first more _ _ hstmt hstmts =>
          obtain ⟨following, after, hfollowing, hother⟩ :=
            statements_next others hstmts (hends _ hnext).2
          rw [List.append_assoc, hfollowing] at hrest
          obtain ⟨read, middle, hread, rfl, hmiddle⟩ := hstatement hstmt hother hrest
          obtain ⟨token, opened, rfl, hopening⟩ := hstmt.opens
          have hend : start.kind ∉ ends := by
            intro hend
            rw [Cursor.kind_eq hrest] at hend
            rw [(hends _ hend).1] at hopening
            cases hopening
          have hlength : more.length < rounds.length := by
            simp only [List.length_append, List.length_cons] at hrounds
            omega
          obtain ⟨reads, stop, hreads, rfl, hstop⟩ :=
            ih hstmts (hmiddle.trans hfollowing.symm) hlength
          refine ⟨read :: reads, stop, ?_, rfl, hstop⟩
          simp only [statementsUntil, monadLift_self, kind_bind_apply, if_neg hend]
          rw [bind_of_ok hread, bind_of_ok hreads, pure_apply]

theorem expression_accepts {limit blocks levels : Nat} (hlevels : blocks + levels = limit) :
    Accepts (expression .standard levels .lowest) Expr.eraseSpans
      (¬ Power.lowest < Dialect.standard.power ·) (Derives limit .expression (blocks + 1)) := by
  intro tokens tree start next others h hnext hrest
  exact expression_complete (by omega) .lowest h hnext hrest

theorem block_accepts {limit blocks levels : Nat} (hlevels : blocks + levels = limit) :
    Accepts (block .standard levels) Block.eraseSpans (fun _ => True) (Braced limit blocks) := by
  induction levels generalizing blocks with
  | zero =>
      intro tokens tree start next others h
      cases h
      omega
  | succ levels ih =>
      intro tokens tree start next others h _ hrest
      have hlevels' : blocks + 1 + levels = limit := by omega
      have hstatement := statementWith_accepts (expression_accepts hlevels') (ih hlevels')
      cases h with
      | @mk _ opening closing tokens body _ hopening hclosing hbody =>
          simp only [List.cons_append, List.append_assoc, List.nil_append] at hrest
          obtain ⟨first, hopen, hfirst⟩ := expect_accepts hopening hrest (by simp)
          obtain ⟨reads, second, hreads, hbody, hsecond⟩ :=
            statementsUntil_complete [.closeCurly, .endOfInput] hstatement (by decide)
              hbody (by simp [hclosing]) hfirst (length_lt_of_rest hfirst)
          obtain ⟨stop, hclose, hstop⟩ := expect_accepts hclosing hsecond (by simp)
          refine ⟨⟨reads, ⟨opening.span.start, stop.previousEnd⟩⟩, stop, ?_, ?_, hstop⟩
          · refine bind_eq_ok.mpr ⟨opening, first, hopen, bind_eq_ok.mpr ⟨reads, second, ?_, ?_⟩⟩
            · rw [remaining_bind_rest]
              exact hreads
            · exact bind_of_ok hclose
          · rw [Block.eraseSpans, Stmt.eraseAll_eq_map, hbody]

/-- A stream that is a program up to its first closing token is accepted. -/
theorem program_complete {tokens : List Token} {tree : Block} (file : String)
    (h : Program nestingLimit (Token.beforeEnd tokens) tree) :
    ∃ program, parse tokens file = .ok program ∧ program.eraseSpans = tree := by
  obtain ⟨last, others, hclosed, hlast⟩ := Cursor.closed_eq_beforeEnd file tokens
  have hrest := (Cursor.rest_ofTokens file tokens).trans hclosed
  have hlevels : 0 + nestingLimit = nestingLimit := Nat.zero_add _
  have hstatement :=
    statementWith_accepts (expression_accepts hlevels) (block_accepts hlevels)
  cases h with
  | mk hbody =>
      obtain ⟨reads, stop, hreads, rfl, hstop⟩ :=
        statementsUntil_complete [.endOfInput] hstatement (by decide) hbody
          (by simp [hlast]) hrest (length_lt_of_rest hrest)
      refine ⟨⟨reads, ⟨⟨0, file⟩, stop.position⟩⟩, ?_, ?_⟩
      · have hprogram : program .standard file (.ofTokens file tokens) =
            .ok ⟨reads, ⟨⟨0, file⟩, stop.position⟩⟩ stop := by
          rw [program, remaining_bind_rest]
          exact bind_of_ok hreads
        rw [parse, hprogram]
      · rw [Block.eraseSpans, Stmt.eraseAll_eq_map]

end Assay.Parse

namespace Assay

/-- The parser accepts exactly the programs of the grammar, with the trees of the grammar. -/
theorem parse_eraseSpans_eq_ok_iff (tokens : List Token) (file : String) (tree : Block) :
    (parse tokens file).map Block.eraseSpans = .ok tree ↔
      Grammar.Program Parse.nestingLimit (Token.beforeEnd tokens) tree := by
  constructor
  · intro h
    cases hparse : parse tokens file with
    | error diagnostic => simp [hparse, Except.map] at h
    | ok program =>
        simp only [hparse, Except.map, Except.ok.injEq] at h
        rw [← h]
        exact Parse.program_sound hparse
  · intro h
    obtain ⟨program, hparse, htree⟩ := Parse.program_complete file h
    rw [hparse, Except.map, htree]

end Assay
