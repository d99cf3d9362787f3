import Mathlib
import Assay.Proofs.Layout.Alike
import Assay.Proofs.Parsing.Agreement
import Assay.Proofs.Parsing.Completeness
import Assay.Proofs.Parsing.Extension

/-!
# Faults are found as early as possible

A token that is out of place is reported as soon as no sentence of the grammar begins with
the tokens up to it.  The tokens before it begin a sentence, since whatever a step has passed
can be completed.  With it they begin none: the parser would have accepted that sentence, and
up to this token it would have done the same there.  A sentence has its closing token, which
is out of place behind a program that breaks off.

Closed runs are evaluated here by equation lemmas that only the whole library holds.
-/

namespace Assay

namespace Grammar

/-- The kinds of the tokens are those of a program, however deeply nested it is and whatever
its numbers are, and of the closing token behind it. -/
def Sentence (tokens : List Token) : Prop :=
  ∃ limit spelled block, spelled.map Token.kind ++ [.endOfInput] = tokens.map Token.kind ∧
    Program limit spelled block

/-- Some sentence begins with the tokens. -/
def Viable (tokens : List Token) : Prop := ∃ more, Sentence (tokens ++ more)

theorem Program.viable {limit : Nat} {tokens more : List Token} {block : Block}
    (h : Program limit (tokens ++ more) block) : Viable tokens :=
  ⟨more ++ [Token.fixed .endOfInput], limit, tokens ++ more, block, by simp [Token.fixed], h⟩

end Grammar

namespace Cursor

private theorem tokens_ofTokens (file : String) {others : List Token} {last : Token}
    (hlast : last.kind = .endOfInput) :
    (ofTokens file (others ++ [last])).tokens = others ++ [last] := by
  rw [tokens_ofTokens_closed, closed_append file others hlast]

private theorem rest_eq_tokens {cursor : Cursor} (h : cursor.passed = []) :
    cursor.rest = cursor.tokens := by
  rw [tokens, h, List.reverse_nil, List.nil_append, rest]

private theorem passed_length_lt (cursor : Cursor) :
    cursor.passed.length < cursor.tokens.length := by
  simp [tokens]

end Cursor

namespace Parse

open Grammar

variable {start stop : Cursor} {diagnostic : Diagnostic} {file : String}

private theorem program_eq_error {dialect : Dialect}
    (h : program dialect file start = .error diagnostic stop) :
    statementsUntil [.endOfInput] (statement dialect nestingLimit) start.rest start =
      .error diagnostic stop := by
  rw [program, remaining_bind_rest] at h
  cases hbody : statementsUntil [.endOfInput] (statement dialect nestingLimit) start.rest start with
  | ok body middle =>
      rw [bind_of_ok hbody] at h
      cases h
  | error fault middle =>
      rw [bind_of_error hbody] at h
      cases h
      rfl

/-- What was passed when parsing failed begins a sentence. -/
theorem viable_passed (closing : start.Closing) (hstart : start.passed = [])
    (h : program .standard file start = .error diagnostic stop) :
    Viable stop.passed.reverse := by
  -- Room for one level more than the parser allows.
  have hinner : 0 + 1 ≤ nestingLimit + 1 := by omega
  have hstatement (start : Cursor) :
      Spells (statement .standard nestingLimit) start (.statement hinner) :=
    statementWith_spells (expression_spells (by omega) hinner .lowest)
      (block_spells (by omega) hinner)
  have hspells := statementsUntil_spells [.endOfInput] hstatement start.rest start closing
  rcases hspells.of_error (program_eq_error h) with ⟨tokens, more, hpasses, stmts, hstmts⟩
  have honward := ((program_orderly .standard file start).of_error h).1
  have hpassed : stop.passed.reverse = tokens := by
    have htokens := honward.tokens
    rw [Cursor.tokens, Cursor.tokens, hstart] at htokens
    exact List.append_cancel_right (htokens.trans hpasses.rest)
  rw [hpassed]
  exact (Program.mk hstmts).viable

private theorem program_reads {limit : Nat} {tokens : List Token} {block : Block} {last : Token}
    (h : Program limit tokens block) (hlast : last.kind = .endOfInput)
    (hrest : start.rest = tokens ++ [last]) :
    (∀ token ∈ tokens, token.kind ≠ .endOfInput) ∧
      ∃ stmts stop, statementsUntil [.endOfInput] (statement .standard limit) start.rest start =
        .ok stmts stop := by
  have hlevels : 0 + limit = limit := Nat.zero_add limit
  cases h with
  | mk hbody =>
      rcases statementsUntil_complete [.endOfInput]
        (statementWith_accepts (expression_accepts hlevels) (block_accepts hlevels)) (by decide)
        hbody (by simp [hlast]) hrest (length_lt_of_rest hrest) with
        ⟨stmts, stop, hreads, -, hstop⟩
      have closing : start.Closing := ⟨tokens, last, hrest, hlast⟩
      rcases statementsUntil_yields (statementWith_yields (expression_yields hlevels.le)
        (block_yields hlevels.le)) closing hreads with ⟨passed, hpasses, -⟩
      have hpassed : tokens = passed := by
        have hsplit := hrest.symm.trans hpasses.rest
        rw [hstop] at hsplit
        exact List.append_cancel_right hsplit
      exact ⟨hpassed ▸ hpasses.inside, stmts, stop, hreads⟩

/-- With the token that is out of place, no sentence begins. -/
theorem not_viable_rejected (hsealed : Token.Sealed start.tokens) (hstart : start.passed = [])
    (h : program .standard file start = .error diagnostic stop)
    (hcause : diagnostic.cause.isMisplaced) :
    ¬ Viable (start.tokens.take (stop.passed.length + 1)) := by
  rintro ⟨more, limit, spelled, block, hkinds, hprogram⟩
  -- The parser on the sentence that should not be.
  let last := Token.fixed .endOfInput
  let twin := Cursor.ofTokens file (spelled ++ [last])
  have hpassed : twin.passed = [] := Cursor.passed_ofTokens file _
  have htwin : twin.tokens = spelled ++ [last] := Cursor.tokens_ofTokens file rfl
  have hrest : twin.rest = spelled ++ [last] := (Cursor.rest_eq_tokens hpassed).trans htwin
  rcases program_reads hprogram rfl hrest with ⟨hinside, stmts, stop', hreads⟩
  have honward := ((program_orderly .standard file start).of_error h).1
  have hlength : stop.passed.length + 1 ≤ start.tokens.length := by
    rw [← honward.tokens]
    exact stop.passed_length_lt
  have hagree : (twin.tokens.take (stop.passed.length + 1)).map Token.kind =
      (start.tokens.take (stop.passed.length + 1)).map Token.kind := by
    have htwinKinds : twin.tokens.map Token.kind = spelled.map Token.kind ++ [.endOfInput] := by
      simp [htwin, last, Token.fixed]
    rw [List.map_take, htwinKinds, hkinds, List.map_append]
    exact List.take_left' (by simp [hlength])
  have habreast : Cursor.Abreast (stop.passed.length + 1) start twin :=
    ⟨by rw [hstart, hpassed], hagree.symm, hsealed, spelled, last, htwin, rfl, hinside⟩
  have hstatement : Tracks (stop.passed.length + 1) (statement .standard nestingLimit)
      (statement .standard limit) :=
    statementWith_tracks (expression_tracks .standard nestingLimit limit .lowest)
      (block_tracks .standard nestingLimit limit) .standard
  have htracks := statementsUntil_tracks [.endOfInput] hstatement start.rest twin.rest
  have hnear : start.passed.length < stop.passed.length + 1 := by simp [hstart]
  have hbeyond := (htracks.ensures habreast hnear hreads).of_error (program_eq_error h) hcause
  omega

end Parse

theorem Rejection.pointsAt {cursor : Cursor} {diagnostic : Diagnostic}
    (h : Rejection cursor diagnostic) :
    diagnostic.PointsAt cursor.tokens cursor.passed.length := by
  have hcurrent := cursor.getElem?_tokens
  cases h <;> exact ⟨_, hcurrent, rfl, rfl⟩

/-- A token that is reported as out of place is the first one with which no sentence of the
grammar begins. -/
theorem parse_error_earliest {source : String} {file? : Option String} {tokens : List Token}
    {file : String} {diagnostic : Diagnostic} (htokens : tokenize source file? = .ok tokens)
    (hparse : parse tokens file = .error diagnostic) (hcause : diagnostic.cause.isMisplaced) :
    ∃ index, diagnostic.PointsAt tokens index ∧
      (Text.byteLength source.toList < 2 ^ 32 →
        ∀ other, diagnostic.PointsAt tokens other → other = index) ∧
      Grammar.Viable (tokens.take index) ∧ ¬ Grammar.Viable (tokens.take (index + 1)) := by
  have hsealed := tokenize_sealed htokens
  let start := Cursor.ofTokens file tokens
  have hstart : start.passed = [] := Cursor.passed_ofTokens file tokens
  have hstream : start.tokens = tokens := by
    rcases hsealed with ⟨others, last, rfl, hlast, -⟩
    exact Cursor.tokens_ofTokens file hlast
  obtain ⟨stop, hstop⟩ : ∃ stop, Parse.program .standard file start = .error diagnostic stop := by
    unfold parse at hparse
    split at hparse
    · cases hparse
    · next stop hstop =>
        cases hparse
        exact ⟨stop, hstop⟩
  rcases (Parse.program_orderly .standard file start).of_error hstop with ⟨honward, hrejection⟩
  have hstopTokens : stop.tokens = tokens := honward.tokens.trans hstream
  have hpoints : diagnostic.PointsAt tokens stop.passed.length := hstopTokens ▸ hrejection.pointsAt
  refine ⟨stop.passed.length, hpoints, ?_, ?_, ?_⟩
  · rintro hsize other ⟨token, htoken, hposition, -⟩
    rcases hpoints with ⟨token', htoken', hposition', -⟩
    exact index_eq_of_start_eq hsize htokens htoken htoken' (hposition.symm.trans hposition')
  · have htake : tokens.take stop.passed.length = stop.passed.reverse := by
      rw [← hstopTokens, Cursor.tokens]
      exact List.take_left' (by simp)
    rw [htake]
    exact Parse.viable_passed (Cursor.closing_ofTokens file tokens) hstart hstop
  · rw [← hstream] at hsealed ⊢
    exact Parse.not_viable_rejected hsealed hstart hstop hcause

/-- The semicolon comes before the list is closed. -/
theorem parse_error_earliest_list :
    let source := "x = [1, -y; z = true;"
    let diagnostic : Diagnostic :=
      ⟨.unexpectedTokenDetailed ";" "expected `,` or `]` in list literal", ⟨10, "shell"⟩⟩
    ∃ tokens, tokenize source none = .ok tokens ∧ parse tokens "demo" = .error diagnostic ∧
      Grammar.Viable (tokens.take 7) ∧ ¬ Grammar.Viable (tokens.take 8) := by
  intro source diagnostic
  obtain ⟨tokens, htokens⟩ : ∃ tokens, tokenize source none = .ok tokens := ⟨_, by cbv⟩
  have hparse : (tokenize source none).bind (parse · "demo") = .error diagnostic := by cbv
  have hseventh : (tokenize source none).map (·[7]?) =
      .ok (some ⟨.semicolon, ";", .ofBytes "shell" 10 1⟩) := by cbv
  rw [htokens] at hparse hseventh
  have hpoints : diagnostic.PointsAt tokens 7 := ⟨_, Except.ok.inj hseventh, rfl, rfl⟩
  rcases parse_error_earliest htokens hparse rfl with ⟨index, -, hunique, hviable, hnot⟩
  cases hunique (by decide) 7 hpoints
  exact ⟨tokens, htokens, hparse, hviable, hnot⟩

end Assay
