import Assay.Parsing.Session
import Assay.Proofs.Parsing.Rejection
import Assay.Proofs.Parsing.Steps

/-!
# What a session keeps

The readers of a session enter levels of nesting and leave them by hand.  However a reader
ends, it has left as many levels as it has entered.  So it does what the parser does that is
told how many levels are left, and its only effect on the session is that the cursor has moved.
From this follows what holds after any steps, whether they succeed or not: the stream and its
closing token stay as they are, the cursor stands on one of its tokens and never moves back,
and the depth is within the limit.
-/

namespace Assay.Session

variable {α β : Type} {dialect : Dialect} {depth : Nat}

/-- In the dialect and at the depth, the step does what the parsing step does to the cursor,
and changes nothing else. -/
def Follows (dialect : Dialect) (depth : Nat) (step : Step α) (plain : Parse α) : Prop :=
  ∀ cursor, step ⟨dialect, cursor, depth⟩ = lift plain ⟨dialect, cursor, depth⟩

private theorem lift_of_ok {plain : Parse α} {session : Session} {value : α} {stop : Cursor}
    (h : plain session.cursor = .ok value stop) :
    lift plain session = .ok value { session with cursor := stop } := by
  unfold lift
  rw [h]

private theorem lift_of_error {plain : Parse α} {session : Session} {fault : Diagnostic}
    {stop : Cursor} (h : plain session.cursor = .error fault stop) :
    lift plain session = .error fault { session with cursor := stop } := by
  unfold lift
  rw [h]

private theorem finally_of_ok {step : Step α} {session stop : Session} {value : α}
    (h : step session = .ok value stop) :
    (tryFinally step leave : Step α) session =
      .ok value { stop with depth := stop.depth - 1 } := by
  simp only [tryFinally, MonadFinally.tryFinally', Functor.map, EStateM.map, h, leave]

private theorem finally_of_error {step : Step α} {session stop : Session} {fault : Diagnostic}
    (h : step session = .error fault stop) :
    (tryFinally step leave : Step α) session =
      .error fault { stop with depth := stop.depth - 1 } := by
  simp only [tryFinally, MonadFinally.tryFinally', Functor.map, EStateM.map, h, leave]

namespace Follows

variable {step : Step α} {plain : Parse α}

theorem lift (plain : Parse α) : Follows dialect depth (lift plain) plain := fun _ => rfl

theorem pure (value : α) : Follows dialect depth (Pure.pure value) (Pure.pure value) := fun _ => rfl

theorem bind {following : α → Step β} {following' : α → Parse β}
    (hstep : Follows dialect depth step plain)
    (hfollowing : ∀ value, Follows dialect depth (following value) (following' value)) :
    Follows dialect depth (step >>= following) (plain >>= following') := by
  intro cursor
  have hfirst := hstep cursor
  unfold Session.lift
  cases hplain : plain cursor with
  | ok value stop =>
      rw [lift_of_ok hplain] at hfirst
      rw [bind_of_ok hfirst, bind_of_ok hplain]
      exact hfollowing value stop
  | error fault stop =>
      rw [lift_of_error hplain] at hfirst
      rw [bind_of_error hfirst, bind_of_error hplain]

theorem map (h : Follows dialect depth step plain) (f : α → β) :
    Follows dialect depth (f <$> step) (f <$> plain) := by
  rw [map_eq_pure_bind, map_eq_pure_bind]
  exact h.bind fun value => .pure (f value)

theorem dialect_bind {following : Dialect → Step α}
    (h : Follows dialect depth (following dialect) plain) :
    Follows dialect depth (getDialect >>= following) plain := h

theorem deeper (hdepth : depth < Parse.nestingLimit) (h : Follows dialect (depth + 1) step plain) :
    Follows dialect depth (deeper step) plain := by
  intro cursor
  have hinside := h cursor
  have henter : enter ⟨dialect, cursor, depth⟩ = .ok () ⟨dialect, cursor, depth + 1⟩ :=
    if_pos hdepth
  unfold Session.deeper
  rw [bind_of_ok henter]
  cases hplain : plain cursor with
  | ok value stop =>
      rw [lift_of_ok hplain] at hinside ⊢
      exact finally_of_ok hinside
  | error fault stop =>
      rw [lift_of_error hplain] at hinside ⊢
      exact finally_of_error hinside

theorem tooDeep (hdepth : Parse.nestingLimit ≤ depth) :
    Follows dialect depth (Session.deeper step) Parse.tooDeep := by
  intro cursor
  have henter : enter ⟨dialect, cursor, depth⟩ =
      Session.lift Parse.tooDeep ⟨dialect, cursor, depth⟩ := if_neg (Nat.not_lt.mpr hdepth)
  exact bind_of_error henter

end Follows

/-! ## Expressions -/

section

variable {sub : Power → Step Expr} {sub' : Power → Parse Expr}
variable {operand : Step Expr} {operand' : Parse Expr}

private theorem elements_follows (hoperand : Follows dialect depth operand operand')
    (rounds : List Token) :
    Follows dialect depth (Parse.elements operand rounds) (Parse.elements operand' rounds) := by
  induction rounds with
  | nil => exact .lift Parse.stalled
  | cons round rounds ih =>
      refine .bind (.lift _) fun kind => ?_
      split
      · exact .pure _
      refine hoperand.bind fun first => .bind (.lift _) fun next => ?_
      by_cases hcomma : next = .comma
      · rw [hcomma]
        exact .bind (.lift _) fun _ => ih.bind fun _ => .pure _
      by_cases hclose : next = .closeBracket
      · rw [hclose]
        exact .pure _
      · simp only
        exact .lift _

private theorem links_follows (hoperand : Follows dialect depth operand operand') (family : Family)
    (rounds : List Token) :
    Follows dialect depth (Parse.links operand family rounds)
      (Parse.links operand' family rounds) := by
  induction rounds with
  | nil => exact .lift Parse.stalled
  | cons round rounds ih =>
      refine .bind (.lift _) fun kind => ?_
      cases family.operator? kind with
      | none => exact .pure _
      | some operator =>
          exact .bind (.lift _) fun _ => hoperand.bind fun _ => ih.bind fun _ => .pure _

private theorem comparands_follows (hoperand : Follows dialect depth operand operand')
    (sign : TokenKind) (rounds : List Token) :
    Follows dialect depth (Parse.comparands operand sign rounds)
      (Parse.comparands operand' sign rounds) := by
  induction rounds with
  | nil => exact .lift Parse.stalled
  | cons round rounds ih =>
      refine .bind (.lift _) fun kind => ?_
      split
      · exact .bind (.lift _) fun _ => hoperand.bind fun _ => ih.bind fun _ => .pure _
      · exact .pure _

variable (hsub : ∀ power, Follows dialect depth (sub power) (sub' power))

include hsub

private theorem opening_follows (form : OpeningForm) :
    Follows dialect depth (Parse.opening sub form) (Parse.opening sub' form) := by
  cases form with
  | atom => exact .lift _
  | unary => exact .bind (.lift _) fun _ => (hsub .unary).bind fun _ => .pure _
  | group =>
      exact .bind (.lift _) fun _ => (hsub .lowest).bind fun _ => .bind (.lift _) fun _ => .pure _
  | list =>
      exact .bind (.lift _) fun _ => .bind (.lift _) fun rounds =>
        (elements_follows (hsub .lowest) rounds).bind fun _ => .bind (.lift _) fun _ =>
          .bind (.lift _) fun _ => .pure _

private theorem continuation_follows (power : Power) (left : Expr) (form : ContinuationForm) :
    Follows dialect depth (Parse.continuation sub power left form)
      (Parse.continuation sub' power left form) := by
  cases form with
  | ternary =>
      exact .bind (.lift _) fun _ => (hsub .lowest).bind fun _ => .bind (.lift _) fun _ =>
        (hsub .lowest).bind fun _ => .pure _
  | chain family =>
      exact .bind (.lift _) fun rounds => (links_follows (hsub power) family rounds).bind fun _ =>
        .pure _
  | comparison =>
      refine .bind (.lift _) fun sign => ?_
      cases Comparator.ofKind? sign with
      | none => exact .lift _
      | some comparator =>
          exact .bind (.lift _) fun rounds =>
            (comparands_follows (hsub power) sign rounds).bind fun _ => .pure _

private theorem continued_follows (power : Power) (rounds : List Token) (left : Expr) :
    Follows dialect depth (Parse.continued dialect sub power rounds left)
      (Parse.continued dialect sub' power rounds left) := by
  induction rounds generalizing left with
  | nil => exact .lift Parse.stalled
  | cons round rounds ih =>
      refine .bind (.lift _) fun kind => ?_
      split
      · cases dialect.continuation? kind with
        | none => exact .lift _
        | some form => exact (continuation_follows hsub _ left form).bind ih
      · exact .pure _

private theorem expressionWith_follows (power : Power) :
    Follows dialect depth (Parse.expressionWith dialect sub power)
      (Parse.expressionWith dialect sub' power) := by
  refine .bind (.lift _) fun kind => ?_
  cases dialect.opening? kind with
  | none => exact .lift _
  | some form =>
      exact (opening_follows hsub form).bind fun left => .bind (.lift _) fun rounds =>
        continued_follows hsub power rounds left

end

private theorem levels_cases (depth : Nat) :
    (∃ levels, depth < Parse.nestingLimit ∧ Parse.nestingLimit - depth = levels + 1 ∧
      Parse.nestingLimit - (depth + 1) = levels) ∨
    Parse.nestingLimit ≤ depth ∧ Parse.nestingLimit - depth = 0 := by
  by_cases hdepth : depth < Parse.nestingLimit
  · exact .inl ⟨_, hdepth, by omega, rfl⟩
  · exact .inr (by omega)

private theorem expression_follows {calls : Nat} (hcalls : Parse.nestingLimit - depth < calls)
    (power : Power) :
    Follows dialect depth (expression calls power)
      (Parse.expression dialect (Parse.nestingLimit - depth) power) := by
  -- each call opens a level, so what is left of calls stays ahead of what is left of levels
  induction calls generalizing depth power with
  | zero => exact absurd hcalls (Nat.not_lt_zero _)
  | succ calls ih =>
      rcases levels_cases depth with ⟨levels, hdepth, houter, hinner⟩ | ⟨hdepth, hnone⟩
      · have hinside : Parse.nestingLimit - (depth + 1) < calls := by omega
        have hsub (power : Power) := ih hinside power
        rw [hinner] at hsub
        rw [houter]
        exact .deeper hdepth (.dialect_bind (expressionWith_follows hsub power))
      · rw [hnone]
        exact .tooDeep hdepth

/-! ## Statements -/

section

variable {expr : Step Expr} {expr' : Parse Expr} {body : Step Block} {body' : Parse Block}
variable (hexpr : Follows dialect depth expr expr') (hbody : Follows dialect depth body body')

include hexpr

private theorem condition_follows :
    Follows dialect depth (Parse.condition expr) (Parse.condition expr') :=
  .bind (.lift _) fun _ => hexpr.bind fun _ => .bind (.lift _) fun _ =>
    .bind (.lift _) fun _ => .pure _

private theorem initialValue_follows :
    Follows dialect depth (Parse.initialValue expr) (Parse.initialValue expr') := by
  refine .bind (.lift _) fun kind => ?_
  split
  · exact .bind (.lift _) fun _ => hexpr.bind fun _ => .pure _
  · exact .pure _

include hbody

omit hexpr in
private theorem elseBody_follows :
    Follows dialect depth (Parse.elseBody body) (Parse.elseBody body') := by
  refine .bind (.lift _) fun kind => ?_
  split
  · exact .bind (.lift _) fun _ => hbody.bind fun _ => .pure _
  · exact .pure _

private theorem statementForm_follows (form : StatementForm) :
    Follows dialect depth (Parse.statementForm expr body form)
      (Parse.statementForm expr' body' form) := by
  cases form with
  | declare =>
      exact .bind (.lift _) fun _ => .bind (.lift _) fun _ => .bind (.lift _) fun _ =>
        .bind (.lift _) fun _ => (initialValue_follows hexpr).bind fun _ =>
          .bind (.lift _) fun _ => .bind (.lift _) fun _ => .pure _
  | assign =>
      exact .bind (.lift _) fun _ => .bind (.lift _) fun _ => hexpr.bind fun _ =>
        .bind (.lift _) fun _ => .bind (.lift _) fun _ => .pure _
  | branch =>
      exact .bind (.lift _) fun _ => (condition_follows hexpr).bind fun _ => hbody.bind fun _ =>
        (elseBody_follows hbody).bind fun _ => .bind (.lift _) fun _ => .pure _
  | loop =>
      exact .bind (.lift _) fun _ => (condition_follows hexpr).bind fun _ => hbody.bind fun _ =>
        .bind (.lift _) fun _ => .pure _
  | doLoop =>
      exact .bind (.lift _) fun _ => hbody.bind fun _ => .bind (.lift _) fun _ =>
        (condition_follows hexpr).bind fun _ => .bind (.lift _) fun _ =>
          .bind (.lift _) fun _ => .pure _

private theorem statementOf_follows :
    Follows dialect depth (statementOf expr body) (Parse.statementWith dialect expr' body') := by
  refine .dialect_bind (.bind (.lift _) fun kind => ?_)
  cases dialect.statement? kind with
  | none => exact .lift _
  | some form => exact statementForm_follows hexpr hbody form

end

private theorem statementsUntil_follows {statement : Step Stmt} {statement' : Parse Stmt}
    (hstatement : Follows dialect depth statement statement') (ends : List TokenKind)
    (rounds : List Token) :
    Follows dialect depth (Parse.statementsUntil ends statement rounds)
      (Parse.statementsUntil ends statement' rounds) := by
  induction rounds with
  | nil => exact .lift Parse.stalled
  | cons round rounds ih =>
      refine .bind (.lift _) fun kind => ?_
      split
      · exact .pure _
      · exact hstatement.bind fun _ => ih.bind fun _ => .pure _

private theorem blockWith_follows {body : Step (List Stmt)} {body' : Parse (List Stmt)}
    (hbody : Follows dialect depth body body') :
    Follows dialect depth (Parse.blockWith body) (Parse.blockWith body') :=
  .bind (.lift _) fun _ => hbody.bind fun _ => .bind (.lift _) fun _ => .bind (.lift _) fun _ =>
    .pure _

private theorem block_follows {calls : Nat} (hcalls : Parse.nestingLimit - depth < calls) :
    Follows dialect depth (block calls) (Parse.block dialect (Parse.nestingLimit - depth)) := by
  induction calls generalizing depth with
  | zero => exact absurd hcalls (Nat.not_lt_zero _)
  | succ calls ih =>
      rcases levels_cases depth with ⟨levels, hdepth, houter, hinner⟩ | ⟨hdepth, hnone⟩
      · have hinside : Parse.nestingLimit - (depth + 1) < calls := by omega
        have hstatement := statementOf_follows (expression_follows hinside .lowest) (ih hinside)
        rw [hinner] at hstatement
        rw [houter]
        -- only what is between the braces is read one level deeper
        exact blockWith_follows (.deeper hdepth (.bind (.lift _) fun rounds =>
          statementsUntil_follows hstatement _ rounds))
      · rw [hnone]
        exact blockWith_follows (.tooDeep hdepth)

/-! ## Fragments -/

namespace Fragment

/-- How a fragment is read by the parser that is told how many levels are left. -/
def parse (dialect : Dialect) (levels : Nat) : Fragment → Parse Answer
  | .token => .token <$> Parse.advance
  | .expected kind => .token <$> Parse.expect kind
  | .expectedHere kind message => .token <$> Parse.expectHere kind message
  | .expectedOr kind diagnostic => .token <$> Parse.expectOr kind (throw diagnostic)
  | .expression power => .expr <$> Parse.expression dialect levels power
  | .statement => .stmt <$> Parse.statement dialect levels
  | .block => .block <$> Parse.block dialect levels
  | .condition => .condition <$> Parse.condition (Parse.expression dialect levels .lowest)
  | .opening form => .expr <$> Parse.opening (Parse.expression dialect levels) form
  | .continuation form power left =>
      .expr <$> Parse.continuation (Parse.expression dialect levels) power left form
  | .statementForm form =>
      .stmt <$> Parse.statementForm (Parse.expression dialect levels .lowest)
        (Parse.block dialect levels) form

/-- Reading a fragment moves the cursor as the parser does, and leaves all levels it enters. -/
theorem read_eq (fragment : Fragment) (session : Session) :
    fragment.read session = lift (fragment.parse session.dialect session.levels) session := by
  obtain ⟨dialect, cursor, depth⟩ := session
  have hcalls : Parse.nestingLimit - depth < calls := Nat.lt_succ_of_le (Nat.sub_le _ _)
  have hexpr (power : Power) : Follows dialect depth (Session.expression calls power) _ :=
    expression_follows hcalls power
  have hblock : Follows dialect depth (Session.block calls) _ := block_follows hcalls
  suffices h : Follows dialect depth fragment.read
      (fragment.parse dialect (Parse.nestingLimit - depth)) from h cursor
  cases fragment with
  | token | expected | expectedHere | expectedOr => exact (Follows.lift _).map _
  | expression power => exact (hexpr power).map _
  | statement => exact (statementOf_follows (hexpr .lowest) hblock).map _
  | block => exact hblock.map _
  | condition => exact (condition_follows (hexpr .lowest)).map _
  | opening form => exact (opening_follows hexpr form).map _
  | continuation form power left => exact (continuation_follows hexpr power left form).map _
  | statementForm form => exact (statementForm_follows (hexpr .lowest) hblock form).map _

def IsExpected : Fragment → Bool
  | .expected _ | .expectedHere _ _ | .expectedOr _ _ => true
  | _ => false

private theorem parse_of_isExpected {fragment : Fragment} (h : fragment.IsExpected)
    (dialect : Dialect) (levels : Nat) (cursor : Cursor) :
    Ensures (fragment.parse dialect levels) cursor (fun _ stop => stop = cursor.next)
      fun _ stop => stop = cursor := by
  have hexpect (kind : TokenKind) {otherwise : Parse Token}
      (hotherwise : Ensures otherwise cursor (fun _ _ => False) fun _ stop => stop = cursor) :
      Ensures (.token <$> Parse.expectOr kind otherwise : Parse Answer) cursor
        (fun _ stop => stop = cursor.next) fun _ stop => stop = cursor := by
    rw [map_eq_pure_bind]
    by_cases hkind : cursor.kind = kind
    · exact .bind (.of_eq (if_pos hkind) rfl)
    · exact .bind (.of_eq (if_neg hkind) (hotherwise.mono (fun _ _ => False.elim) fun _ _ => id))
  cases fragment with
  | expected kind => exact hexpect kind rfl
  | expectedHere kind message => exact hexpect kind rfl
  | expectedOr kind diagnostic => exact hexpect kind rfl
  | _ => cases h

private theorem parse_onward (fragment : Fragment) (dialect : Dialect) (levels : Nat)
    (cursor : Cursor) :
    Ensures (fragment.parse dialect levels) cursor (fun _ stop => cursor.Onward stop)
      fun _ stop => cursor.Onward stop := by
  have horderly {α : Type} {step : Parse α} (hstep : Parse.Orderly step) (f : α → Answer) :
      Ensures (f <$> step) cursor (fun _ stop => cursor.Onward stop)
        fun _ stop => cursor.Onward stop := by
    rw [map_eq_pure_bind]
    exact .bind ((hstep cursor).mono (fun _ _ h => h) fun _ _ h => h.1)
  have hexpr (power : Power) := Parse.expression_orderly dialect levels power
  have hblock := Parse.block_orderly dialect levels
  cases fragment with
  | token => exact horderly .advance _
  | expected | expectedHere | expectedOr =>
      refine (parse_of_isExpected rfl dialect levels cursor).mono ?_ ?_
      · rintro _ _ rfl
        exact .next cursor
      · rintro _ _ rfl
        exact .refl _
  | expression power => exact horderly (hexpr power) _
  | statement => exact horderly (Parse.statementWith_orderly (hexpr .lowest) hblock dialect) _
  | block => exact horderly hblock _
  | condition => exact horderly (Parse.condition_orderly (hexpr .lowest)) _
  | opening form => exact horderly (Parse.opening_orderly hexpr form) _
  | continuation form power left =>
      exact horderly (Parse.continuation_orderly hexpr power left form) _
  | statementForm form =>
      exact horderly (Parse.statementForm_orderly (hexpr .lowest) hblock form) _

end Fragment

/-! ## Steps and runs -/

private theorem perform_read_of_ok {session : Session} {fragment : Fragment} {answer : Answer}
    {stop : Cursor}
    (h : fragment.parse session.dialect session.levels session.cursor = .ok answer stop) :
    session.perform (.read fragment) = (.ok answer, { session with cursor := stop }) := by
  simp only [perform, Action.step, fragment.read_eq, lift_of_ok h]

private theorem perform_read_of_error {session : Session} {fragment : Fragment}
    {diagnostic : Diagnostic} {stop : Cursor}
    (h : fragment.parse session.dialect session.levels session.cursor = .error diagnostic stop) :
    session.perform (.read fragment) = (.error diagnostic, { session with cursor := stop }) := by
  simp only [perform, Action.step, fragment.read_eq, lift_of_error h]

/-- Reading moves the cursor of a session onward, and that is all it does. -/
theorem perform_read (session : Session) (fragment : Fragment) :
    ∃ stop, session.cursor.Onward stop ∧
      (session.perform (.read fragment)).2 = { session with cursor := stop } := by
  have honward := fragment.parse_onward session.dialect session.levels session.cursor
  cases hparse : fragment.parse session.dialect session.levels session.cursor with
  | ok answer stop => exact ⟨stop, honward.of_ok hparse, by rw [perform_read_of_ok hparse]⟩
  | error diagnostic stop =>
      exact ⟨stop, honward.of_error hparse, by rw [perform_read_of_error hparse]⟩

private theorem eq_of_perform_expected {session stop : Session} {fragment : Fragment}
    {diagnostic : Diagnostic} (hfragment : fragment.IsExpected)
    (h : session.perform (.read fragment) = (.error diagnostic, stop)) : stop = session := by
  have hexpected :=
    Fragment.parse_of_isExpected hfragment session.dialect session.levels session.cursor
  cases hparse : fragment.parse session.dialect session.levels session.cursor with
  | ok answer cursor => simp [perform_read_of_ok hparse] at h
  | error fault cursor =>
      rw [perform_read_of_error hparse, hexpected.of_error hparse] at h
      exact (congrArg Prod.snd h).symm

structure Leads (session stop : Session) : Prop where
  onward : session.cursor.Onward stop.cursor
  depth_le : session.depth ≤ Parse.nestingLimit → stop.depth ≤ Parse.nestingLimit

namespace Leads

theorem refl (session : Session) : session.Leads session := ⟨.refl _, id⟩

theorem trans {session middle stop : Session} (hfirst : session.Leads middle)
    (hsecond : middle.Leads stop) : session.Leads stop :=
  ⟨hfirst.onward.trans hsecond.onward, hsecond.depth_le ∘ hfirst.depth_le⟩

theorem perform (session : Session) (action : Action) :
    session.Leads (session.perform action).2 := by
  cases action with
  | read fragment =>
      obtain ⟨stop, honward, hstop⟩ := session.perform_read fragment
      rw [hstop]
      exact ⟨honward, id⟩
  | enter =>
      by_cases hdepth : session.depth < Parse.nestingLimit
      · have henter : enter session = .ok () { session with depth := session.depth + 1 } :=
          if_pos hdepth
        simp only [Session.perform, Action.step, Functor.map, EStateM.map, henter]
        exact ⟨.refl _, fun _ => hdepth⟩
      · have henter : enter session = Session.lift Parse.tooDeep session := if_neg hdepth
        simp only [Session.perform, Action.step, Functor.map, EStateM.map, henter]
        exact ⟨.refl _, id⟩
  | leave => exact ⟨.refl _, fun h => Nat.le_trans (Nat.sub_le _ _) h⟩
  | setOpening | setContinuation | setStatement => exact ⟨.refl _, id⟩

theorem run (session : Session) (actions : List Action) : session.Leads (session.run actions) := by
  induction actions generalizing session with
  | nil => exact .refl session
  | cons action actions ih => exact (Leads.perform session action).trans (ih _)

end Leads

structure Intact (file : String) (tokens : List Token) (session : Session) : Prop where
  stream : session.cursor.tokens = Cursor.closed file tokens
  index : (Cursor.closed file tokens)[session.cursor.passed.length]? = some session.cursor.current
  closing : ∃ others last, session.cursor.tokens = others ++ [last] ∧ last.kind = .endOfInput
  depth_le : session.depth ≤ Parse.nestingLimit

theorem Leads.intact {dialect : Dialect} {file : String} {tokens : List Token} {session : Session}
    (h : (start dialect file tokens).Leads session) : session.Intact file tokens := by
  have hstream : session.cursor.tokens = Cursor.closed file tokens := by
    rw [h.onward.tokens, start, Cursor.tokens_ofTokens_closed]
  refine ⟨hstream, ?_, ?_, h.depth_le (Nat.zero_le _)⟩
  · rw [← hstream, Cursor.getElem?_tokens]
  · rw [hstream]
    exact Cursor.closed_eq file tokens

/-- Whatever steps are taken on a stream, and whether or not they succeed, the session is intact.
More steps never move the cursor back.  What is read is what the parser reads with the levels that
are left, and the depth stays as it was.  A token that is not the expected one leaves the whole
session as it was. -/
theorem intact_run (dialect : Dialect) (file : String) (tokens : List Token)
    (actions : List Action) :
    let session := (start dialect file tokens).run actions
    session.Intact file tokens ∧
    (∀ more, session.cursor.passed.length ≤ (session.run more).cursor.passed.length) ∧
    (∀ fragment,
      fragment.read session = lift (fragment.parse session.dialect session.levels) session ∧
      (session.perform (.read fragment)).2.depth = session.depth) ∧
    ∀ fragment diagnostic stop, fragment.IsExpected →
      session.perform (.read fragment) = (.error diagnostic, stop) → stop = session := by
  intro session
  refine ⟨(Leads.run _ actions).intact, fun more => ?_,
    fun fragment => ⟨fragment.read_eq session, ?_⟩, ?_⟩
  · exact (Leads.run session more).onward.passed
  · obtain ⟨stop, -, hstop⟩ := session.perform_read fragment
    rw [hstop]
  · intro fragment diagnostic stop hfragment hperform
    exact eq_of_perform_expected hfragment hperform

end Assay.Session
