import Assay.Parsing.Statement
import Assay.Proofs.Effect

/-!
# Steps and the tokens they pass

What a parsing step does shows in the tokens that are left before and after it.  The
tokens of a stream end in a closing token, which no step of the language passes; so a
cursor that has not met the end can always move on.
-/

namespace Assay

def Token.beforeEnd (tokens : List Token) : List Token :=
  tokens.takeWhile (·.kind ≠ .endOfInput)

theorem Token.eq_beforeEnd {tokens : List Token} {closing : Token} (hmem : closing ∈ tokens)
    (hclosing : closing.kind = .endOfInput) :
    ∃ last others, tokens = beforeEnd tokens ++ last :: others ∧ last.kind = .endOfInput := by
  induction tokens with
  | nil => cases hmem
  | cons token tokens ih =>
      by_cases hkind : token.kind = .endOfInput
      · exact ⟨token, tokens, by simp [beforeEnd, hkind], hkind⟩
      · have hmem : closing ∈ tokens := by
          refine (List.mem_cons.mp hmem).resolve_left ?_
          rintro rfl
          exact hkind hclosing
        obtain ⟨last, others, htokens, hlast⟩ := ih hmem
        refine ⟨last, others, ?_, hlast⟩
        have hsplit : beforeEnd (token :: tokens) = token :: beforeEnd tokens := by
          simp [beforeEnd, hkind]
        rw [hsplit, List.cons_append, ← htokens]

theorem Token.beforeEnd_append {tokens : List Token} (more : List Token)
    (h : ∀ token ∈ tokens, token.kind ≠ .endOfInput) :
    beforeEnd (tokens ++ more) = tokens ++ beforeEnd more :=
  List.takeWhile_append_of_pos (by simpa using h)

namespace Cursor

def rest (cursor : Cursor) : List Token := cursor.current :: cursor.ahead

def Closing (cursor : Cursor) : Prop :=
  ∃ others last, cursor.rest = others ++ [last] ∧ last.kind = .endOfInput

/-- Moving from one cursor to the other passes exactly these tokens, none of which closes
the stream. -/
structure Passes (start : Cursor) (tokens : List Token) (stop : Cursor) : Prop where
  rest : start.rest = tokens ++ stop.rest
  inside : ∀ token ∈ tokens, token.kind ≠ .endOfInput
  closing : stop.Closing

theorem getElem?_tokens (cursor : Cursor) :
    cursor.tokens[cursor.passed.length]? = some cursor.current := by
  simp [tokens]

theorem next_rest {cursor : Cursor} {token : Token} {others : List Token}
    (h : cursor.rest = token :: others) (hothers : others ≠ []) : cursor.next.rest = others := by
  obtain ⟨passed, current, ahead⟩ := cursor
  obtain ⟨rfl, rfl⟩ := List.cons.inj h
  cases ahead with
  | nil => exact absurd rfl hothers
  | cons next others => rfl

theorem current_eq {cursor : Cursor} {token : Token} {others : List Token}
    (h : cursor.rest = token :: others) : cursor.current = token :=
  (List.cons.inj h).1

theorem kind_eq {cursor : Cursor} {token : Token} {others : List Token}
    (h : cursor.rest = token :: others) : cursor.kind = token.kind := by
  rw [kind, current_eq h]

theorem Closing.of_rest_eq {start stop : Cursor} {tokens : List Token}
    (closing : start.Closing) (h : start.rest = tokens ++ stop.rest) : stop.Closing := by
  obtain ⟨others, last, hlast, hkind⟩ := closing
  have hstop : stop.rest = stop.rest.dropLast ++ [stop.rest.getLast (by simp [rest])] :=
    (List.dropLast_concat_getLast _).symm
  rw [h, hstop, ← List.append_assoc] at hlast
  refine ⟨stop.rest.dropLast, last, ?_, hkind⟩
  rw [← (List.append_inj' hlast rfl).2]
  exact hstop

namespace Passes

theorem refl {cursor : Cursor} (closing : cursor.Closing) : cursor.Passes [] cursor :=
  ⟨rfl, nofun, closing⟩

theorem trans {start middle stop : Cursor} {first second : List Token}
    (hfirst : start.Passes first middle) (hsecond : middle.Passes second stop) :
    start.Passes (first ++ second) stop :=
  ⟨by rw [hfirst.rest, hsecond.rest, List.append_assoc],
    List.forall_mem_append.mpr ⟨hfirst.inside, hsecond.inside⟩, hsecond.closing⟩

theorem cons {start middle stop : Cursor} {token : Token} {tokens : List Token}
    (hfirst : start.Passes [token] middle) (hothers : middle.Passes tokens stop) :
    start.Passes (token :: tokens) stop :=
  hfirst.trans hothers

theorem next {cursor : Cursor} (closing : cursor.Closing)
    (h : cursor.kind ≠ .endOfInput) : cursor.Passes [cursor.current] cursor.next := by
  have hrest : cursor.rest = [cursor.current] ++ cursor.next.rest := by
    obtain ⟨others, last, hlast, hkind⟩ := closing
    obtain ⟨passed, current, ahead⟩ := cursor
    cases ahead with
    | nil =>
        have hsplit : [] ++ [current] = others ++ [last] := hlast
        cases (List.append_inj' hsplit rfl).2
        exact absurd hkind h
    | cons token tokens => rfl
  exact ⟨hrest, by simpa [kind] using h, closing.of_rest_eq hrest⟩

theorem beforeEnd_eq {start stop : Cursor} {tokens : List Token}
    (h : start.Passes tokens stop) (hstop : stop.kind = .endOfInput) :
    Token.beforeEnd start.rest = tokens := by
  have hcurrent : stop.current.kind = .endOfInput := hstop
  rw [h.rest, Token.beforeEnd_append _ h.inside]
  simp [Token.beforeEnd, Cursor.rest, hcurrent]

end Passes

/-! ## Cursors on whole streams -/

theorem closed_eq (file : String) (tokens : List Token) :
    ∃ others last, closed file tokens = others ++ [last] ∧ last.kind = .endOfInput := by
  unfold closed
  split
  · exact ⟨[], _, rfl, rfl⟩
  · next last hlast =>
      obtain ⟨others, rfl⟩ := List.getLast?_eq_some_iff.mp hlast
      by_cases hkind : last.kind = .endOfInput
      · exact ⟨others, last, by simp [hkind], hkind⟩
      · exact ⟨others ++ [last], .endAt last.span.stop, by simp [hkind], rfl⟩

theorem closed_append (file : String) (tokens : List Token) {closing : Token}
    (hclosing : closing.kind = .endOfInput) :
    closed file (tokens ++ [closing]) = tokens ++ [closing] := by
  simp [closed, hclosing]

theorem passed_ofTokens (file : String) (tokens : List Token) :
    (ofTokens file tokens).passed = [] := by
  unfold ofTokens
  split <;> rfl

theorem rest_ofTokens (file : String) (tokens : List Token) :
    (ofTokens file tokens).rest = closed file tokens := by
  obtain ⟨others, last, hclosed, -⟩ := closed_eq file tokens
  unfold ofTokens
  split
  · next hnil => simp [hnil] at hclosed
  · next hcons => rw [hcons, rest]

theorem tokens_ofTokens_closed (file : String) (tokens : List Token) :
    (ofTokens file tokens).tokens = closed file tokens := by
  rw [Cursor.tokens, passed_ofTokens, List.reverse_nil, List.nil_append]
  exact rest_ofTokens file tokens

theorem beforeEnd_closed (file : String) (tokens : List Token) :
    Token.beforeEnd (closed file tokens) = Token.beforeEnd tokens := by
  unfold closed
  split
  · next hnil =>
      rw [List.getLast?_eq_none_iff.mp hnil]
      rfl
  · split
    · rfl
    · rw [Token.beforeEnd, List.takeWhile_append]
      split
      · next hlength =>
          have hall := (List.takeWhile_prefix _).eq_of_length hlength
          rw [Token.beforeEnd, hall]
          simp [Token.endAt]
      · rfl

theorem closed_eq_beforeEnd (file : String) (tokens : List Token) :
    ∃ last others, closed file tokens = Token.beforeEnd tokens ++ last :: others ∧
      last.kind = .endOfInput := by
  obtain ⟨others, last, hclosed, hkind⟩ := closed_eq file tokens
  have hmem : last ∈ closed file tokens := by simp [hclosed]
  rw [← beforeEnd_closed file]
  exact Token.eq_beforeEnd hmem hkind

theorem closing_ofTokens (file : String) (tokens : List Token) :
    (ofTokens file tokens).Closing := by
  obtain ⟨others, last, hclosed, hkind⟩ := closed_eq file tokens
  exact ⟨others, last, by rw [rest_ofTokens, hclosed], hkind⟩

end Cursor

/-! ## Steps that succeed -/

namespace Parse

section

variable {α β : Type} {start stop : Cursor}

theorem remaining_bind_rest {following : List Token → Parse β} :
    (remaining >>= following) start = following start.rest start := rfl

theorem reject_ne_ok {cause : String → Cause} {value : α} :
    (reject cause : Parse α) start ≠ .ok value stop := nofun

theorem expectOr_eq_ok {kind : TokenKind} {cause : String → Cause} {token : Token} :
    expectOr kind (reject cause) start = .ok token stop ↔
      start.kind = kind ∧ token = start.current ∧ stop = start.next := by
  unfold expectOr
  split
  · next h => simp [h, advance, eq_comm]
  · next h => simp [h, reject]

theorem expectOr_passes {kind : TokenKind} {cause : String → Cause} {token : Token}
    (closing : start.Closing) (hkind : kind ≠ .endOfInput)
    (h : expectOr kind (reject cause) start = .ok token stop) :
    token.kind = kind ∧ start.Passes [token] stop := by
  obtain ⟨hcurrent, rfl, rfl⟩ := expectOr_eq_ok.mp h
  exact ⟨hcurrent, .next closing (hcurrent ▸ hkind)⟩

theorem expect_accepts {kind : TokenKind} {token : Token} {others : List Token}
    (hkind : token.kind = kind) (h : start.rest = token :: others) (hothers : others ≠ []) :
    ∃ stop, expect kind start = .ok token stop ∧ stop.rest = others :=
  ⟨start.next, expectOr_eq_ok.mpr
    ⟨(Cursor.kind_eq h).trans hkind, (Cursor.current_eq h).symm, rfl⟩,
    Cursor.next_rest h hothers⟩

theorem expectHere_accepts {kind : TokenKind} (message : String) {token : Token}
    {others : List Token} (hkind : token.kind = kind) (h : start.rest = token :: others)
    (hothers : others ≠ []) :
    ∃ stop, expectHere kind message start = .ok token stop ∧ stop.rest = others :=
  ⟨start.next, expectOr_eq_ok.mpr
    ⟨(Cursor.kind_eq h).trans hkind, (Cursor.current_eq h).symm, rfl⟩,
    Cursor.next_rest h hothers⟩

end

end Parse

end Assay
