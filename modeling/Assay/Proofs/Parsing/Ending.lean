import Mathlib
import Assay.Proofs.Parsing.Progress

/-!
# How parsing ends

Every loop of the parser ends by itself, and every level of nesting is left again, before the
tokens are used up.  So the bounds that the definitions carry are never met.  And parsing ends
at the first closing token: what stands behind it changes nothing, and where there is none, one
is taken to stand at the end of the last token.

Closed runs are evaluated here by equation lemmas that only the whole library holds.
-/

namespace Assay

/-! ## One stream -/

namespace Cursor.Closing

variable {cursor : Cursor}

theorem next (closing : cursor.Closing) : cursor.next.Closing := by
  unfold Cursor.next
  split
  · exact closing
  · next token others hahead =>
      refine closing.of_rest_eq (?_ : cursor.rest = [cursor.current] ++ token :: others)
      rw [Cursor.rest, hahead]
      rfl

theorem iterate (closing : cursor.Closing) (index : Nat) :
    (Cursor.next^[index] cursor).Closing := by
  induction index generalizing cursor with
  | zero => exact closing
  | succ index ih => exact ih closing.next

theorem beside (closing : cursor.Closing) :
    ∃ (parting : Parting) (count : Nat), parting.left = parting.right ∧
      parting.Beside count cursor cursor := by
  rcases closing with ⟨others, last, hrest, hlast⟩
  have hmem : last ∈ cursor.rest := by simp [hrest]
  rcases Token.eq_beforeEnd hmem hlast with ⟨first, more, hfirst, hkind⟩
  refine ⟨⟨first, more, more, hkind⟩, _, rfl, rfl, Token.beforeEnd cursor.rest, rfl, ?_, hfirst,
    hfirst⟩
  intro token htoken
  simpa using List.mem_takeWhile_imp htoken

end Cursor.Closing

namespace Parting

variable {parting : Parting} {α : Type} {limit : Nat}
variable {result result' : EStateM.Result Diagnostic Cursor α}

theorem Beside.eq {count : Nat} {cursor twin : Cursor} (h : parting.Beside count cursor twin)
    (hparting : parting.left = parting.right) : cursor = twin := by
  rcases h with ⟨hpassed, tokens, -, -, hcursor, htwin⟩
  rw [hparting, ← htwin] at hcursor
  obtain ⟨passed, current, ahead⟩ := cursor
  obtain ⟨hcurrent, hahead⟩ := List.cons.inj hcursor
  cases hpassed
  cases hcurrent
  cases hahead
  rfl

theorem EndsAlike.eq (h : parting.EndsAlike limit result result')
    (hparting : parting.left = parting.right) : result = result' := by
  cases h with
  | ok hcount hstop => rw [hstop.eq hparting]
  | error hcause hstop => rw [hstop.eq hparting]

theorem EndsAlike.not_stalled (h : parting.EndsAlike limit result result') {fault : Diagnostic}
    {stop : Cursor} (hresult : result' = .error fault stop) : ¬ fault.cause.isStalled := by
  cases h with
  | ok => cases hresult
  | error hcause hstop =>
      cases hresult
      exact hcause

end Parting

namespace Parse

open Parting

variable {α : Type} {start : Cursor}

def Advances (step : Parse α) (start : Cursor) : Prop :=
  Ensures step start (fun _ stop => stop.rest.length < start.rest.length)
    fun fault _ => ¬ fault.cause.isStalled

/-- The loop comes to one and the same end, which is not that it has run out of rounds, in any
number of rounds that is at least the number of tokens left. -/
def Ends (loop : List Token → Parse α) (start : Cursor) : Prop :=
  ∃ outcome, (∀ fault stop, outcome = .error fault stop → ¬ fault.cause.isStalled) ∧
    ∀ rounds, start.rest.length ≤ rounds.length → loop rounds start = outcome

private theorem advances_of_strides (closing : start.Closing) {step : Parse α}
    (h : ∀ (parting : Parting) (bound : Nat), parting.StridesOn start.kind bound step step) :
    Advances step start := by
  rcases closing.beside with ⟨parting, count, hparting, hbeside⟩
  have hends := h parting count (Nat.le_refl count) hbeside rfl
  unfold Advances Ensures
  cases hstep : step start with
  | ok value stop =>
      rw [hstep] at hends
      cases hends with
      | ok hcount hstop =>
          have hstart := hbeside.length_left
          have hlength := hstop.length_left
          change stop.rest.length < start.rest.length
          omega
  | error fault stop => exact hends.not_stalled hstep

private theorem ends_of_steady (closing : start.Closing) {loop : List Token → Parse α}
    (h : ∀ (parting : Parting) (bound : Nat) (rounds rounds' : List Token),
      bound ≤ rounds.length → bound ≤ rounds'.length →
        parting.Steady bound (loop rounds) (loop rounds')) :
    Ends loop start := by
  rcases closing.beside with ⟨parting, count, hparting, hbeside⟩
  have hcount := hbeside.count_lt_left
  have halike (rounds : List Token) (hrounds : start.rest.length ≤ rounds.length) :
      parting.EndsAlike (count + 1) (loop rounds start) (loop start.rest start) :=
    h parting (count + 1) rounds start.rest (Nat.le_trans hcount hrounds) hcount start.kind
      (Nat.lt_succ_self count) hbeside rfl
  refine ⟨loop start.rest start, fun fault stop => ?_, fun rounds hrounds => ?_⟩
  · exact (halike start.rest (Nat.le_refl _)).not_stalled
  · exact (halike rounds hrounds).eq hparting

/-- What there is to say of the progress that the parser makes from where a cursor stands, with
some levels of nesting left: each form that the current token selects passes a token or fails,
a token that binds tighter than the lowest power selects a form, every loop ends by itself, and
nesting is no deeper than there are tokens left. -/
structure Progresses (levels : Nat) (start : Cursor) : Prop where
  opening_advances : ∀ form, Dialect.standard.opening? start.kind = some form →
    Advances (opening (expression .standard levels) form) start
  continuation_advances : ∀ power form left,
    Dialect.standard.continuation? start.kind = some form →
      Advances (continuation (expression .standard levels) power left form) start
  statement_advances : ∀ form, Dialect.standard.statement? start.kind = some form →
    Advances (statementForm (expression .standard levels .lowest) (block .standard levels) form)
      start
  tighter_continues : .lowest < Dialect.standard.power start.kind →
    ∃ form, Dialect.standard.continuation? start.kind = some form
  continued_ends : ∀ power left,
    Ends (continued .standard (expression .standard levels) power · left) start
  links_ends : ∀ power family, Ends (links (expression .standard levels power) family) start
  comparands_ends : ∀ power sign comparator, Comparator.ofKind? sign = some comparator →
    Ends (comparands (expression .standard levels power) sign) start
  elements_ends : Ends (elements (expression .standard levels .lowest)) start
  statements_end : ∀ ends, Ends (statementsUntil ends (statement .standard levels)) start
  expression_settles : ∀ power deeper, start.rest.length ≤ deeper →
    expression .standard deeper power start = expression .standard start.rest.length power start
  block_settles : ∀ deeper, start.rest.length ≤ deeper →
    block .standard deeper start = block .standard start.rest.length start

private theorem expression_steady {parting : Parting} {bound : Nat} (levels : Nat) (power : Power) :
    parting.Steady bound (expression .standard levels power)
      (expression .standard levels power) :=
  .of_strides fun _ _ => expression_strides (.inl rfl) power

private theorem block_steady {parting : Parting} {bound : Nat} (levels : Nat) :
    parting.Steady bound (block .standard levels) (block .standard levels) :=
  .of_strides fun _ _ => block_strides (.inl rfl)

/-- Levels that outnumber the tokens left make no difference. -/
theorem settles (closing : start.Closing) {step : Nat → Parse α}
    (h : ∀ (parting : Parting) (bound levels levels' : Nat), LevelsAgree bound levels levels' →
      parting.Strides bound (step levels) (step levels')) {deeper : Nat}
    (hdeeper : start.rest.length ≤ deeper) : step deeper start = step start.rest.length start := by
  rcases closing.beside with ⟨parting, count, hparting, hbeside⟩
  have hcount := hbeside.count_lt_left
  have hlevels : LevelsAgree count deeper start.rest.length :=
    .inr ⟨Nat.lt_of_lt_of_le hcount hdeeper, hcount⟩
  exact (h parting count _ _ hlevels start.kind (Nat.le_refl count) hbeside rfl).eq hparting

private theorem progresses (levels : Nat) (closing : start.Closing) : Progresses levels start where
  opening_advances form hform := advances_of_strides closing fun _ _ => by
    refine opening_strides (expression_steady levels) ?_ form
    intro hkind
    rw [hkind] at hform
    cases hform
  continuation_advances power form left hform := advances_of_strides closing fun _ _ =>
    continuation_strides (expression_steady levels) hform power left
  statement_advances form hform := advances_of_strides closing fun _ _ => by
    refine statementForm_strides (expression_steady levels .lowest) (block_steady levels) ?_ form
    intro hkind
    rw [hkind] at hform
    cases hform
  tighter_continues htighter :=
    Option.isSome_iff_exists.mp (Dialect.lowest_lt_power_iff.mp htighter)
  continued_ends power left := ends_of_steady closing fun _ _ _ _ hrounds hrounds' =>
    continued_steady (expression_steady levels) hrounds hrounds' power left
  links_ends power family := ends_of_steady closing fun _ _ _ _ hrounds hrounds' =>
    links_steady hrounds hrounds' (expression_steady levels power) family
  comparands_ends power sign comparator hsign :=
    ends_of_steady closing fun _ _ _ _ hrounds hrounds' => by
      refine comparands_steady hrounds hrounds' (expression_steady levels power) ?_
      rintro rfl
      cases hsign
  elements_ends := ends_of_steady closing fun _ _ _ _ hrounds hrounds' =>
    elements_steady hrounds hrounds' (expression_steady levels .lowest)
  statements_end ends := ends_of_steady closing fun _ _ _ _ hrounds hrounds' =>
    statementsUntil_steady ends (fun _ _ => statement_strides levels) hrounds hrounds'
  expression_settles power _ hdeeper :=
    settles closing (fun _ _ _ _ hlevels => expression_strides hlevels power) hdeeper
  block_settles _ hdeeper := settles closing (fun _ _ _ _ => block_strides) hdeeper

end Parse

/-- From every token of every stream the parser makes progress, and no stream is refused
because a loop has run out of rounds. -/
theorem parse_progresses (tokens : List Token) (file : String) :
    (∀ index levels, Parse.Progresses levels (Cursor.next^[index] (.ofTokens file tokens))) ∧
      ∀ text position, parse tokens file ≠ .error ⟨.stalled text, position⟩ := by
  have closing := Cursor.closing_ofTokens file tokens
  refine ⟨fun index levels => Parse.progresses levels (closing.iterate index), ?_⟩
  intro text position hparse
  rcases closing.beside with ⟨parting, count, -, hbeside⟩
  have hends := Parse.program_steady file _ (Nat.lt_succ_self count) hbeside rfl
  unfold parse at hparse
  split at hparse
  · cases hparse
  · next hprogram =>
      cases hparse
      exact hends.not_stalled hprogram rfl

/-! ## Behind the closing token -/

private theorem Cursor.closed_eq_append (file : String) (tokens : List Token) :
    ∃ added, closed file tokens = tokens ++ added := by
  unfold closed
  split
  · next hnone => exact ⟨_, by rw [List.getLast?_eq_none_iff.mp hnone, List.nil_append]⟩
  · split
    · exact ⟨[], (List.append_nil tokens).symm⟩
    · exact ⟨_, rfl⟩

theorem Parting.parse_eq (parting : Parting) {file : String}
    {before tokens tokens' : List Token} (hbefore : ∀ token ∈ before, token.kind ≠ .endOfInput)
    (hleft : Cursor.closed file tokens = before ++ parting.last :: parting.left)
    (hright : Cursor.closed file tokens' = before ++ parting.last :: parting.right) :
    parse tokens file = parse tokens' file := by
  have hbeside : parting.Beside before.length (.ofTokens file tokens) (.ofTokens file tokens') := by
    refine ⟨?_, before, rfl, hbefore, ?_, ?_⟩
    · rw [Cursor.passed_ofTokens, Cursor.passed_ofTokens]
    · rw [Cursor.rest_ofTokens, hleft]
    · rw [Cursor.rest_ofTokens, hright]
  have hends := Parse.program_steady file _ (Nat.lt_succ_self before.length) hbeside rfl
  unfold parse
  generalize Parse.program .standard file (.ofTokens file tokens) = result at hends
  generalize Parse.program .standard file (.ofTokens file tokens') = result' at hends
  cases hends with
  | ok => rfl
  | error => rfl

/-- A stream is parsed like its part up to the first closing token.  One without a closing token
is parsed as if it had one where its last token ends, or at the start of the file. -/
theorem parse_upto_closing (file : String) {tokens : List Token} {closing : Token}
    (htokens : ∀ token ∈ tokens, token.kind ≠ .endOfInput) (hclosing : closing.kind = .endOfInput)
    (more : List Token) :
    parse (tokens ++ [closing] ++ more) file = parse (tokens ++ [closing]) file ∧
      (closing = .endAt ((tokens.getLast?.map fun last => last.span.stop).getD ⟨0, file⟩) →
        parse tokens file = parse (tokens ++ [closing]) file) := by
  have hclosed := Cursor.closed_append file tokens hclosing
  refine ⟨?_, fun hplace => ?_⟩
  · rcases Cursor.closed_eq_append file (tokens ++ [closing] ++ more) with ⟨added, hadded⟩
    have hleft : Cursor.closed file (tokens ++ [closing] ++ more) =
        tokens ++ closing :: (more ++ added) := by
      rw [hadded]
      simp
    exact Parting.parse_eq ⟨closing, more ++ added, [], hclosing⟩ htokens hleft hclosed
  · have hleft : Cursor.closed file tokens = tokens ++ [closing] := by
      unfold Cursor.closed
      split
      · next hnone =>
          rw [List.getLast?_eq_none_iff.mp hnone] at hplace ⊢
          rw [hplace]
          rfl
      · next last hlast =>
          have hmem : last ∈ tokens := List.mem_of_getLast? hlast
          rw [if_neg (htokens last hmem), hplace, hlast]
          rfl
    exact Parting.parse_eq ⟨closing, [], [], hclosing⟩ htokens hleft hclosed

/-- A statement that breaks off is refused at the closing token, though its end stands behind
that. -/
theorem parse_upto_closing_brokenOff :
    let tokens : List Token := [⟨.identifier, "x", .ofBytes "demo" 0 1⟩,
      ⟨.assignment, "=", .ofBytes "demo" 2 1⟩, ⟨.integer, "1", .ofBytes "demo" 4 1⟩]
    let closing := Token.endAt (.ofBytes "demo" 5)
    let diagnostic : Diagnostic := ⟨.unexpectedToken "EOF", .ofBytes "demo" 5⟩
    parse (tokens ++ [closing] ++ [⟨.semicolon, ";", .ofBytes "demo" 9 1⟩]) "demo" =
        .error diagnostic ∧ parse tokens "demo" = .error diagnostic := by
  intro tokens closing diagnostic
  have htokens : ∀ token ∈ tokens, token.kind ≠ .endOfInput := by decide
  have hparse : parse (tokens ++ [closing]) "demo" = .error diagnostic := by cbv
  have hclosing : closing.kind = .endOfInput := rfl
  have hupto := parse_upto_closing "demo" htokens hclosing [⟨.semicolon, ";", .ofBytes "demo" 9 1⟩]
  exact ⟨hupto.1.trans hparse, (hupto.2 rfl).trans hparse⟩

end Assay
