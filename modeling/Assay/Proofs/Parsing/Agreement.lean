import Assay.Proofs.Parsing.Rejection
import Assay.Proofs.Parsing.Steps
import Assay.Proofs.Token.Stream

/-!
# Streams that agree up to a horizon

The parser decides what to do by the kind of the token it stands on, and never looks ahead.
On two streams whose tokens agree in kind up to a horizon it does the same until it gets
there.  So if it succeeds on one of them, it does not find a token of the other one out of
place before the horizon.  The levels of nesting that are left may differ, since to run out of
them is another fault.
-/

namespace Assay

def Cause.isMisplaced : Cause → Bool
  | unexpectedToken _ => true
  | unexpectedTokenDetailed _ message => message ≠ "nesting is too deep"
  | _ => false

namespace Cursor

private theorem ahead_eq_nil_iff {cursor : Cursor} (h : Token.Sealed cursor.tokens) :
    cursor.ahead = [] ↔ cursor.kind = .endOfInput := by
  rcases h with ⟨others, last, htokens, hlast, hothers⟩
  rw [tokens] at htokens
  rcases List.eq_nil_or_concat cursor.ahead with hahead | ⟨init, final, hahead⟩
  · rw [hahead] at htokens
    have hcurrent : [cursor.current] = [last] := (List.append_inj' htokens rfl).2
    simp [hahead, kind, (List.cons.inj hcurrent).1, hlast]
  · rw [hahead, List.concat_eq_append, ← List.cons_append, ← List.append_assoc] at htokens
    have hinit := (List.append_inj' htokens rfl).1
    have hcurrent : cursor.current.kind ≠ .endOfInput := hothers _ (by simp [← hinit])
    simp [hahead, kind, hcurrent]

/-- Cursors that have passed equally many tokens of streams that agree up to a horizon. -/
structure Abreast (horizon : Nat) (cursor twin : Cursor) : Prop where
  index : cursor.passed.length = twin.passed.length
  kinds : (cursor.tokens.take horizon).map Token.kind = (twin.tokens.take horizon).map Token.kind
  left : Token.Sealed cursor.tokens
  right : Token.Sealed twin.tokens

namespace Abreast

variable {horizon : Nat} {cursor twin : Cursor}

theorem kind_eq (h : Abreast horizon cursor twin) (hnear : cursor.passed.length < horizon) :
    cursor.kind = twin.kind := by
  have hcurrent := congrArg (·[cursor.passed.length]?) h.kinds
  have htwin := twin.getElem?_tokens
  rw [← h.index] at htwin
  simpa [kind, List.getElem?_take, hnear, cursor.getElem?_tokens, htwin] using hcurrent

theorem next (h : Abreast horizon cursor twin) (hnear : cursor.passed.length < horizon) :
    Abreast horizon cursor.next twin.next := by
  have hahead : cursor.ahead = [] ↔ twin.ahead = [] := by
    rw [ahead_eq_nil_iff h.left, ahead_eq_nil_iff h.right, h.kind_eq hnear]
  refine ⟨?_, by simpa using h.kinds, by simpa using h.left, by simpa using h.right⟩
  unfold Cursor.next
  cases hleft : cursor.ahead <;> cases hright : twin.ahead <;>
    simp_all [h.index]

end Abreast

end Cursor

namespace Parse

/-- Run beside another step that succeeds, a step ends with the cursors abreast or beyond the
horizon, and it finds no token out of place before that. -/
structure Tracks {α : Type} (horizon : Nat) (step other : Parse α) : Prop where
  orderly : Orderly step
  ensures : ∀ ⦃cursor twin stop' : Cursor⦄ ⦃value' : α⦄, Cursor.Abreast horizon cursor twin →
    cursor.passed.length < horizon → other twin = .ok value' stop' →
      Ensures step cursor
        (fun _ stop => Cursor.Abreast horizon stop stop' ∨ horizon ≤ stop.passed.length)
        fun fault stop => fault.cause.isMisplaced → horizon ≤ stop.passed.length

namespace Tracks

variable {α β : Type} {horizon : Nat} {step other : Parse α} {following following' : α → Parse β}

theorem run (h : Tracks horizon step other) {cursor twin stop' : Cursor} {value' : α}
    (hstart : Cursor.Abreast horizon cursor twin ∨ horizon ≤ cursor.passed.length)
    (hother : other twin = .ok value' stop') :
    Ensures step cursor
      (fun _ stop => Cursor.Abreast horizon stop stop' ∨ horizon ≤ stop.passed.length)
      fun fault stop => fault.cause.isMisplaced → horizon ≤ stop.passed.length := by
  by_cases hnear : cursor.passed.length < horizon
  · exact h.ensures (hstart.resolve_right (by omega)) hnear hother
  · apply (h.orderly cursor).mono
    · intro value stop honward
      have := honward.passed
      exact .inr (by omega)
    · rintro fault stop ⟨honward, -⟩ -
      have := honward.passed
      omega

theorem pure {value value' : α} : Tracks horizon (Pure.pure value) (Pure.pure value') where
  orderly := .pure value
  ensures := by
    intro cursor twin stop' value' habreast _ hother
    cases hother
    exact .inl habreast

theorem bind (hstep : Tracks horizon step other)
    (hfollowing : ∀ value value', Tracks horizon (following value) (following' value')) :
    Tracks horizon (step >>= following) (other >>= following') where
  orderly := .bind hstep.orderly fun value => (hfollowing value value).orderly
  ensures := by
    intro cursor twin stop' value' habreast hnear hother
    rcases bind_eq_ok.mp hother with ⟨first', middle', hfirst', hrest'⟩
    apply Ensures.bind
    apply (hstep.ensures habreast hnear hfirst').mono
    · intro first middle hmiddle
      exact (hfollowing first first').run hmiddle hrest'
    · exact fun _ _ hfault => hfault

theorem of_fails (horderly : Orderly step)
    (hfails : ∀ twin value stop, other twin ≠ .ok value stop) : Tracks horizon step other where
  orderly := horderly
  ensures := fun _ twin stop' value' _ _ hother => absurd hother (hfails twin value' stop')

theorem unexpected : Tracks horizon (unexpected : Parse α) unexpected :=
  of_fails .unexpected fun _ _ _ => reject_ne_ok

theorem unexpectedHere {message : String} :
    Tracks horizon (unexpectedHere message : Parse α) (unexpectedHere message) :=
  of_fails (.unexpectedHere message) fun _ _ _ => reject_ne_ok

theorem stalled : Tracks horizon stalled other where
  orderly := .stalled
  ensures := fun _ _ _ _ _ _ _ => nofun

theorem tooDeep_ne_ok {value : α} {start stop : Cursor} :
    (tooDeep : Parse α) start ≠ .ok value stop := nofun

theorem tooDeep : Tracks horizon tooDeep other where
  orderly := .unexpectedHere _
  ensures := by
    intro cursor twin stop' value' _ _ _ hcause
    simp [Cause.isMisplaced] at hcause

theorem kind_bind {following following' : TokenKind → Parse β}
    (h : ∀ kind, Tracks horizon (following kind) (following' kind)) :
    Tracks horizon (Parse.kind >>= following) (Parse.kind >>= following') where
  orderly := .bind .kind fun kind => (h kind).orderly
  ensures := by
    intro cursor twin stop' value' habreast hnear hother
    rw [kind_bind_apply, ← habreast.kind_eq hnear] at hother
    exact (h cursor.kind).ensures habreast hnear hother

theorem advance : Tracks horizon advance advance where
  orderly := .advance
  ensures := by
    intro cursor twin stop' value' habreast hnear hother
    cases hother
    exact .inl (habreast.next hnear)

theorem previousEnd : Tracks horizon previousEnd previousEnd where
  orderly := .previousEnd
  ensures := by
    intro cursor twin stop' value' habreast _ hother
    cases hother
    exact .inl habreast

theorem remaining : Tracks horizon remaining remaining where
  orderly := .remaining
  ensures := by
    intro cursor twin stop' value' habreast _ hother
    cases hother
    exact .inl habreast

theorem expectOr {kind : TokenKind} {cause : String → Cause}
    (horderly : Orderly (expectOr kind (reject cause))) :
    Tracks horizon (expectOr kind (reject cause)) (expectOr kind (reject cause)) where
  orderly := horderly
  ensures := by
    intro cursor twin stop' value' habreast hnear hother
    rcases expectOr_eq_ok.mp hother with ⟨hkind, -, rfl⟩
    have hcursor : cursor.kind = kind := (habreast.kind_eq hnear).trans hkind
    exact .of_eq (if_pos hcursor) (.inl (habreast.next hnear))

theorem expect {kind : TokenKind} : Tracks horizon (expect kind) (expect kind) :=
  expectOr (.expect kind)

theorem expectHere {kind : TokenKind} {message : String} :
    Tracks horizon (expectHere kind message) (expectHere kind message) :=
  expectOr (.expectHere kind message)

end Tracks

/-! ## Expressions -/

variable {horizon : Nat}

private theorem number_tracks {α : Type} (read? : String → Option α) (build : α → Span → Expr) :
    Tracks horizon (number read? build) (number read? build) where
  orderly := number_orderly read? build
  ensures := by
    intro cursor twin stop' value' habreast hnear hother
    have hstop : stop' = twin.next := by
      unfold number at hother
      split at hother
      · cases hother
        rfl
      · cases hother
    unfold Ensures number
    cases read? cursor.current.text with
    | some value => exact .inl (hstop ▸ habreast.next hnear)
    | none => nofun

private theorem atom_tracks : Tracks horizon atom atom := by
  refine .kind_bind fun kind => ?_
  split
  · exact number_tracks _ _
  · exact number_tracks _ _
  · exact .bind .advance fun _ _ => .pure
  · exact .bind .advance fun _ _ => .pure
  · exact .bind .advance fun _ _ => .pure
  · exact .unexpected

section

variable {sub sub' : Power → Parse Expr} (hsub : ∀ power, Tracks horizon (sub power) (sub' power))

include hsub

private theorem elements_tracks (rounds rounds' : List Token) :
    Tracks horizon (elements (sub .lowest) rounds) (elements (sub' .lowest) rounds') := by
  induction rounds generalizing rounds' with
  | nil => exact .stalled
  | cons round rounds ih =>
      cases rounds' with
      | nil =>
          exact .of_fails (elements_orderly (fun power => (hsub power).orderly) _)
            fun _ _ _ => reject_ne_ok
      | cons round' rounds' =>
          refine .kind_bind fun kind => ?_
          split
          · exact .pure
          refine .bind (hsub .lowest) fun _ _ => .kind_bind fun next => ?_
          split
          · exact .bind .advance fun _ _ => .bind (ih rounds') fun _ _ => .pure
          · exact .pure
          · exact .unexpectedHere

private theorem opening_tracks (form : OpeningForm) :
    Tracks horizon (opening sub form) (opening sub' form) := by
  cases form with
  | atom => exact atom_tracks
  | unary => exact .bind .advance fun _ _ => .bind (hsub .unary) fun _ _ => .pure
  | group =>
      exact .bind .advance fun _ _ => .bind (hsub .lowest) fun _ _ => .bind .expect fun _ _ =>
        .pure
  | list =>
      exact .bind .advance fun _ _ => .bind .remaining fun rounds rounds' =>
        .bind (elements_tracks hsub rounds rounds') fun _ _ => .bind .expect fun _ _ =>
          .bind .previousEnd fun _ _ => .pure

private theorem links_tracks (family : Family) (power : Power) (rounds rounds' : List Token) :
    Tracks horizon (links (sub power) family rounds) (links (sub' power) family rounds') := by
  induction rounds generalizing rounds' with
  | nil => exact .stalled
  | cons round rounds ih =>
      cases rounds' with
      | nil =>
          exact .of_fails (links_orderly (fun power => (hsub power).orderly) family power _)
            fun _ _ _ => reject_ne_ok
      | cons round' rounds' =>
          refine .kind_bind fun kind => ?_
          split
          · exact .pure
          · exact .bind .advance fun _ _ => .bind (hsub power) fun _ _ =>
              .bind (ih rounds') fun _ _ => .pure

private theorem comparands_tracks (sign : TokenKind) (power : Power) (rounds rounds' : List Token) :
    Tracks horizon (comparands (sub power) sign rounds) (comparands (sub' power) sign rounds') := by
  induction rounds generalizing rounds' with
  | nil => exact .stalled
  | cons round rounds ih =>
      cases rounds' with
      | nil =>
          exact .of_fails (comparands_orderly (fun power => (hsub power).orderly) sign power _)
            fun _ _ _ => reject_ne_ok
      | cons round' rounds' =>
          refine .kind_bind fun kind => ?_
          split
          · exact .bind .advance fun _ _ => .bind (hsub power) fun _ _ =>
              .bind (ih rounds') fun _ _ => .pure
          · exact .pure

private theorem continuation_tracks (power : Power) (left left' : Expr) (form : ContinuationForm) :
    Tracks horizon (continuation sub power left form) (continuation sub' power left' form) := by
  cases form with
  | ternary =>
      exact .bind .advance fun _ _ => .bind (hsub .lowest) fun _ _ => .bind .expectHere fun _ _ =>
        .bind (hsub .lowest) fun _ _ => .pure
  | chain family =>
      exact .bind .remaining fun rounds rounds' =>
        .bind (links_tracks hsub family power rounds rounds') fun _ _ => .pure
  | comparison =>
      refine .kind_bind fun sign => ?_
      split
      · exact .unexpectedHere
      · exact .bind .remaining fun rounds rounds' =>
          .bind (comparands_tracks hsub sign power rounds rounds') fun _ _ => .pure

private theorem continued_tracks (dialect : Dialect) (power : Power) (rounds rounds' : List Token)
    (left left' : Expr) :
    Tracks horizon (continued dialect sub power rounds left)
      (continued dialect sub' power rounds' left') := by
  induction rounds generalizing rounds' left left' with
  | nil => exact .stalled
  | cons round rounds ih =>
      cases rounds' with
      | nil =>
          have horderly (power : Power) := (hsub power).orderly
          exact .of_fails (continued_orderly horderly dialect power _ left) fun _ _ _ =>
            reject_ne_ok
      | cons round' rounds' =>
          refine .kind_bind fun kind => ?_
          split
          · split
            · exact .unexpected
            · exact .bind (continuation_tracks hsub _ left left' _) (ih rounds')
          · exact .pure

end

theorem expression_tracks (dialect : Dialect) (levels levels' : Nat) (power : Power) :
    Tracks horizon (expression dialect levels power) (expression dialect levels' power) := by
  induction levels generalizing levels' power with
  | zero =>
      -- To run out of levels is no matter of place, however many the other side has left.
      rw [expression]
      exact .tooDeep
  | succ levels ih =>
      cases levels' with
      | zero =>
          refine .of_fails (expression_orderly dialect _ power) fun twin value stop => ?_
          rw [expression]
          exact Tracks.tooDeep_ne_ok
      | succ levels' =>
          refine .kind_bind fun kind => ?_
          split
          · exact .unexpected
          · exact .bind (opening_tracks (ih levels') _) fun left left' =>
              .bind .remaining fun rounds rounds' =>
                continued_tracks (ih levels') dialect power rounds rounds' left left'

/-! ## Statements -/

section

variable {expr expr' : Parse Expr} {body body' : Parse Block}
variable (hexpr : Tracks horizon expr expr') (hbody : Tracks horizon body body')

private theorem identifier_tracks (message : String) :
    Tracks horizon (identifier message) (identifier message) :=
  .bind .expectHere fun _ _ => .pure

include hexpr

private theorem condition_tracks : Tracks horizon (condition expr) (condition expr') :=
  .bind .expect fun _ _ => .bind hexpr fun _ _ => .bind .expect fun _ _ =>
    .bind .previousEnd fun _ _ => .pure

private theorem initialValue_tracks : Tracks horizon (initialValue expr) (initialValue expr') := by
  refine .kind_bind fun kind => ?_
  split
  · exact .bind .advance fun _ _ => .bind hexpr fun _ _ => .pure
  · exact .pure

include hbody

omit hexpr in
private theorem elseBody_tracks : Tracks horizon (elseBody body) (elseBody body') := by
  refine .kind_bind fun kind => ?_
  split
  · exact .bind .advance fun _ _ => .bind hbody fun _ _ => .pure
  · exact .pure

private theorem statementForm_tracks (form : StatementForm) :
    Tracks horizon (statementForm expr body form) (statementForm expr' body' form) := by
  cases form with
  | declare =>
      exact .bind .advance fun _ _ => .bind (identifier_tracks _) fun _ _ =>
        .bind .expect fun _ _ => .bind .expectHere fun _ _ =>
          .bind (initialValue_tracks hexpr) fun _ _ => .bind .expect fun _ _ =>
            .bind .previousEnd fun _ _ => .pure
  | assign =>
      exact .bind (identifier_tracks _) fun _ _ => .bind .expectHere fun _ _ =>
        .bind hexpr fun _ _ => .bind .expect fun _ _ => .bind .previousEnd fun _ _ => .pure
  | branch =>
      exact .bind .advance fun _ _ => .bind (condition_tracks hexpr) fun _ _ =>
        .bind hbody fun _ _ => .bind (elseBody_tracks hbody) fun _ _ =>
          .bind .previousEnd fun _ _ => .pure
  | loop =>
      exact .bind .advance fun _ _ => .bind (condition_tracks hexpr) fun _ _ =>
        .bind hbody fun _ _ => .bind .previousEnd fun _ _ => .pure
  | doLoop =>
      exact .bind .advance fun _ _ => .bind hbody fun _ _ => .bind .expectHere fun _ _ =>
        .bind (condition_tracks hexpr) fun _ _ => .bind .expect fun _ _ =>
          .bind .previousEnd fun _ _ => .pure

theorem statementWith_tracks (dialect : Dialect) :
    Tracks horizon (statementWith dialect expr body) (statementWith dialect expr' body') := by
  refine .kind_bind fun kind => ?_
  split
  · exact .unexpectedHere
  · exact statementForm_tracks hexpr hbody _

end

theorem statementsUntil_tracks (ends : List TokenKind) {statement statement' : Parse Stmt}
    (hstatement : Tracks horizon statement statement') (rounds rounds' : List Token) :
    Tracks horizon (statementsUntil ends statement rounds)
      (statementsUntil ends statement' rounds') := by
  induction rounds generalizing rounds' with
  | nil => exact .stalled
  | cons round rounds ih =>
      cases rounds' with
      | nil =>
          exact .of_fails (statementsUntil_orderly ends hstatement.orderly _)
            fun _ _ _ => reject_ne_ok
      | cons round' rounds' =>
          refine .kind_bind fun kind => ?_
          split
          · exact .pure
          · exact .bind hstatement fun _ _ => .bind (ih rounds') fun _ _ => .pure

private theorem blockWith_tracks {body body' : Parse (List Stmt)}
    (hbody : Tracks horizon body body') :
    Tracks horizon (blockWith body) (blockWith body') :=
  .bind .expect fun _ _ => .bind hbody fun _ _ => .bind .expect fun _ _ =>
    .bind .previousEnd fun _ _ => .pure

theorem block_tracks (dialect : Dialect) (levels levels' : Nat) :
    Tracks horizon (block dialect levels) (block dialect levels') := by
  induction levels generalizing levels' with
  | zero => cases levels' <;> exact blockWith_tracks .tooDeep
  | succ levels ih =>
      have hstatement (levels' : Nat) :=
        statementWith_tracks (expression_tracks dialect levels levels' .lowest) (ih levels') dialect
      cases levels' with
      | zero =>
          have horderly := (hstatement 0).orderly
          exact blockWith_tracks (.of_fails (.bind .remaining fun rounds =>
            statementsUntil_orderly _ horderly rounds) fun _ _ _ => Tracks.tooDeep_ne_ok)
      | succ levels' =>
          exact blockWith_tracks (.bind .remaining fun rounds rounds' =>
            statementsUntil_tracks _ (hstatement levels') rounds rounds')

end Parse

end Assay
