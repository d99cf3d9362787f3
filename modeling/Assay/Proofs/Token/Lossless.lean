import Mathlib
import Assay.Proofs.Printing.Lexing

/-!
# Tokens and gaps

A token stream keeps its source whole: each token is a slice of the source, and what stands
between two tokens is nothing but blanks and comments.  Where the tokenizer gets stuck, the
text before that place is cut up on its own just as it was within the source, since no rule
looks past the character that follows its lexeme.  The gaps themselves do not matter: with single
blanks in their place, the tokens are the same.

Closed runs are evaluated here by equation lemmas that only the whole library holds.
-/

namespace Assay

/-- The characters of a text from one offset to another, and the characters behind them. -/
structure Text.Slice (text : List Char) (start stop : Nat) (part after : List Char) : Prop where
  split : ∃ before, text = before ++ (part ++ after) ∧ start = byteLength before
  stop_eq : stop = start + byteLength part

private theorem Text.slice_middle (before part after : List Char) :
    Slice (before ++ (part ++ after)) (byteLength before) (byteLength (before ++ part)) part
      after :=
  ⟨⟨before, rfl, rfl⟩, byteLength_append before part⟩

namespace LexemeRule

open Numeral (isDigit)

/-! ## Separators -/

/-- In front of `after`, the characters are blanks and comments, each comment running up to a
newline or to the end. -/
inductive Separation (after : List Char) : List Char → Prop where
  | nil : Separation after []
  | blank {c : Char} {rest : List Char} (hc : Text.isBlank c) (hrest : Separation after rest) :
      Separation after (c :: rest)
  | comment {body rest : List Char} (hbody : '\n' ∉ body)
      (hend : ∀ c ∈ (rest ++ after).head?, c = '\n') (hrest : Separation after rest) :
      Separation after ('/' :: '/' :: (body ++ rest))

theorem Separation.blanks {after blanks rest : List Char} (hblanks : ∀ c ∈ blanks, Text.isBlank c)
    (hrest : Separation after rest) : Separation after (blanks ++ rest) := by
  induction blanks with
  | nil => exact hrest
  | cons c blanks ih =>
      rw [List.forall_mem_cons] at hblanks
      exact .blank hblanks.1 (ih hblanks.2)

private theorem head?_of_takeWhile {inClass : Char → Bool} {run after : List Char}
    (h : (run ++ after).takeWhile inClass = run) : ∀ c ∈ after.head?, ¬ inClass c := by
  have hrun : ∀ c ∈ run, inClass c := by
    rw [← h]
    exact fun c => List.mem_takeWhile_imp
  rw [List.takeWhile_append_of_pos hrun, List.append_right_eq_self] at h
  cases after with
  | nil => simp
  | cons c rest => simpa [List.takeWhile_cons] using h

theorem comment?_eq {text lexeme : List Char} (h : comment? text = some lexeme) :
    ∃ rest, text = '/' :: '/' :: rest ∧ lexeme = '/' :: '/' :: rest.takeWhile (· ≠ '\n') := by
  unfold comment? at h
  split at h
  · cases h
    exact ⟨_, rfl, rfl⟩
  · cases h

theorem Separation.of_first? {rule : LexemeRule} {lexeme rest after : List Char}
    (hfirst : first? (lexeme ++ (rest ++ after)) = some (rule, lexeme))
    (hkind : rule.kind? lexeme = none) (hrest : Separation after rest) :
    Separation after (lexeme ++ rest) := by
  have hlexeme := lexeme?_of_first? hfirst
  cases rule with
  | word | decimal | integer | pair | mark => cases hkind
  | blank => exact .blanks (mem_of_run? hlexeme) hrest
  | comment =>
      rcases comment?_eq hlexeme with ⟨others, htext, hbody⟩
      generalize hrun : others.takeWhile (· ≠ '\n') = body at hbody
      subst hbody
      have hothers : others = body ++ (rest ++ after) := by simpa [eq_comm] using htext
      subst hothers
      apply Separation.comment _ _ hrest
      · rw [← hrun]
        intro hmem
        simpa using List.mem_takeWhile_imp hmem
      · simpa using head?_of_takeWhile hrun

/-! ## Kinds -/

theorem Lexical.unique {kind other : TokenKind} {lexeme : List Char} (h : Lexical kind lexeme)
    (hother : Lexical other lexeme) : other = kind := by
  rcases h.whole with ⟨rule, hkind, hfirst⟩
  rcases hother.whole with ⟨rule', hkind', hfirst'⟩
  have hrules := (hfirst [] nofun).symm.trans (hfirst' [] nofun)
  simp only [Option.some.injEq, Prod.mk.injEq, and_true] at hrules
  subst hrules
  simpa [hkind, eq_comm] using hkind'

private theorem reservedWords_fixed {kind : TokenKind} {word : String}
    (h : (word, kind) ∈ reservedWords) :
    kind.isFixed ∧ kind.text = word := by
  revert h
  simp only [reservedWords, List.mem_cons, Prod.mk.injEq, List.not_mem_nil, or_false]
  rintro (h | h | h | h | h | h | h) <;> rcases h with ⟨rfl, rfl⟩ <;> exact ⟨rfl, rfl⟩

theorem Lexical.reserved {kind reserved : TokenKind} {lexeme : List Char} (h : Lexical kind lexeme)
    (hreserved : reserved ∈ reservedWords.map Prod.snd) :
    kind = reserved ↔ (String.ofList lexeme, reserved) ∈ reservedWords := by
  constructor
  · intro hkind
    cases h with
    | @word c rest =>
        cases hword : reservedKind? (String.ofList (c :: rest)) with
        | none =>
            rw [hword] at hkind
            subst hkind
            exact absurd hreserved (by decide)
        | some found =>
            rw [hword] at hkind
            subst hkind
            rcases List.lookup_eq_some_iff.mp hword with ⟨before, after, hwords, -⟩
            simp [hwords]
    | integer | decimal =>
        subst hkind
        exact absurd hreserved (by decide)
    | fixed =>
        subst hkind
        rcases List.mem_map.mp hreserved with ⟨⟨word, kind⟩, hmem, rfl⟩
        rwa [(reservedWords_fixed hmem).2, String.ofList_toList]
  · intro hmem
    rcases reservedWords_fixed hmem with ⟨hfixed, htext⟩
    have hlexical : Lexical reserved reserved.text.toList := .fixed hfixed
    rw [htext, String.toList_ofList] at hlexical
    exact hlexical.unique h

/-! ## Texts that are cut off -/

private theorem head?_of_append {p : Char → Prop} {before after : List Char}
    (h : ∀ c ∈ (before ++ after).head?, p c) : ∀ c ∈ before.head?, p c := by
  cases before with
  | nil => simp
  | cons c rest => exact h

private theorem run?_cut {inClass : Char → Bool} {run before after : List Char}
    (h : run? inClass (run ++ (before ++ after)) = some run) :
    run? inClass (run ++ before) = some run := by
  have hrun : (run ++ (before ++ after)).takeWhile inClass = run := by
    unfold run? at h
    split at h
    · cases h
    · exact Option.some.inj h
  exact run?_eq (run?_eq_some h).1 (mem_of_run? h) (head?_of_append (head?_of_takeWhile hrun))

private theorem run?_append_eq_none {inClass : Char → Bool} {text more : List Char}
    (h : run? inClass (text ++ more) = none) : run? inClass text = none := by
  cases text with
  | nil => rfl
  | cons c rest =>
      by_cases hc : inClass c
      · simp [run?, hc] at h
      · exact run?_eq_none hc rest

private theorem word?_cut {lexeme before after : List Char}
    (h : word? (lexeme ++ (before ++ after)) = some lexeme) :
    word? (lexeme ++ before) = some lexeme := by
  cases lexeme with
  | nil => exact absurd rfl (word?_eq_some h).1
  | cons c rest =>
      rw [List.cons_append, word?] at h ⊢
      split at h
      · next hc =>
          simp only [Option.some.injEq, List.cons.injEq, true_and] at h
          have hrest : ∀ d ∈ rest, isWordPart d := by
            rw [← h]
            exact fun d => List.mem_takeWhile_imp
          rw [if_pos hc, takeWhile_eq hrest (head?_of_append (head?_of_takeWhile h))]
      · cases h

private theorem decimal?_cut {lexeme before after : List Char}
    (h : decimal? (lexeme ++ (before ++ after)) = some lexeme) :
    decimal? (lexeme ++ before) = some lexeme := by
  rcases decimal?_eq h with ⟨whole, fraction, rest, hne, hdigits, htext, hfraction, rfl⟩
  simp only [List.append_assoc, List.cons_append, List.append_cancel_left_eq, List.cons.injEq,
    true_and] at htext
  subst htext
  rw [List.append_assoc, List.cons_append, decimal?_pointed hne hdigits, run?_cut hfraction]
  rfl

private theorem decimal?_append_eq_none {text more : List Char}
    (h : decimal? (text ++ more) = none) :
    decimal? text = none := by
  by_contra hsome
  rcases Option.ne_none_iff_exists'.mp hsome with ⟨lexeme, hlexeme⟩
  rcases decimal?_eq hlexeme with ⟨whole, fraction, rest, hne, hdigits, rfl, hfraction, -⟩
  rw [List.append_assoc, List.cons_append, decimal?_pointed hne hdigits,
    Option.map_eq_none_iff] at h
  simp [run?_append_eq_none h] at hfraction

private theorem comment?_cut {lexeme before after : List Char}
    (h : comment? (lexeme ++ (before ++ after)) = some lexeme) :
    comment? (lexeme ++ before) = some lexeme := by
  rcases comment?_eq h with ⟨rest, htext, hlexeme⟩
  generalize hbody : rest.takeWhile (· ≠ '\n') = body at hlexeme
  subst hlexeme
  simp only [List.cons_append, List.cons.injEq, true_and] at htext
  subst htext
  have hmem : ∀ c ∈ body, c ≠ '\n' := by
    rw [← hbody]
    exact fun c hc => by simpa using List.mem_takeWhile_imp hc
  have hcut : (body ++ before).takeWhile (· ≠ '\n') = body :=
    takeWhile_eq (by simpa using hmem) (head?_of_append (head?_of_takeWhile hbody))
  simp only [List.cons_append, comment?, hcut]

private theorem comment?_append_eq_none {text more : List Char}
    (h : comment? (text ++ more) = none) :
    comment? text = none := by
  by_contra hsome
  rcases Option.ne_none_iff_exists'.mp hsome with ⟨lexeme, hlexeme⟩
  rcases comment?_eq hlexeme with ⟨rest, rfl, -⟩
  simp [comment?] at h

private theorem lexeme?_cut {rule : LexemeRule} {lexeme before after : List Char}
    (h : rule.lexeme? (lexeme ++ (before ++ after)) = some lexeme) :
    rule.lexeme? (lexeme ++ before) = some lexeme := by
  cases rule with
  | word => exact word?_cut h
  | decimal => exact decimal?_cut h
  | integer | blank => exact run?_cut h
  | comment => exact comment?_cut h
  | pair kind first second =>
      cases pair?_eq h
      simp [lexeme?, pair?]
  | mark kind sign =>
      cases mark?_eq h
      simp [lexeme?, mark?]

private theorem lexeme?_append_eq_none {rule : LexemeRule} {text more : List Char}
    (h : rule.lexeme? (text ++ more) = none) : rule.lexeme? text = none := by
  cases rule with
  | decimal => exact decimal?_append_eq_none h
  | integer | blank => exact run?_append_eq_none h
  | comment => exact comment?_append_eq_none h
  | word | pair | mark =>
      rcases text with - | ⟨c, - | ⟨d, rest⟩⟩ <;> simp_all [lexeme?, word?, pair?, mark?]

/-- Cutting a text off behind its first lexeme does not change the lexeme. -/
theorem first?_cut {rule : LexemeRule} {lexeme before after : List Char}
    (h : first? (lexeme ++ (before ++ after)) = some (rule, lexeme)) :
    first? (lexeme ++ before) = some (rule, lexeme) := by
  have hlexeme := lexeme?_cut (lexeme?_of_first? h)
  rw [first?, List.findSome?_eq_some_iff] at h ⊢
  rcases h with ⟨tried, found, untried, htable, hfound, htried⟩
  have hrule : found = rule := by
    rcases Option.map_eq_some_iff.mp hfound with ⟨_, -, hpair⟩
    exact congrArg Prod.fst hpair
  subst hrule
  refine ⟨tried, found, untried, htable, by rw [hlexeme, Option.map_some], ?_⟩
  intro other hother
  rw [← List.append_assoc] at htried
  simpa using lexeme?_append_eq_none (Option.map_eq_none_iff.mp (htried other hother))

end LexemeRule

namespace Token

open LexemeRule

/-! ## Tokens laid out in a source -/

/-- The tokens of a text that stands behind `front` in a file, each with the gap before it. -/
inductive Laid (file : String) : List Char → List Char → List Token → Prop where
  | closing {front gap : List Char} (hgap : Separation [] gap) :
      Laid file front gap [endAt (.ofBytes file (Text.byteLength (front ++ gap)))]
  | token {front gap lexeme rest : List Char} {kind : TokenKind} {tokens : List Token}
      (hgap : Separation (lexeme ++ rest) gap) (hlexical : LexemeRule.Lexical kind lexeme)
      (hrest : Laid file (front ++ (gap ++ lexeme)) rest tokens) :
      Laid file front (gap ++ (lexeme ++ rest))
        (⟨kind, String.ofList lexeme,
          .ofBytes file (Text.byteLength (front ++ gap)) (Text.byteLength lexeme)⟩ :: tokens)

theorem Laid.separator {file : String} {front lexeme rest : List Char} {rule : LexemeRule}
    {tokens : List Token} (hfirst : first? (lexeme ++ rest) = some (rule, lexeme))
    (hkind : rule.kind? lexeme = none) (h : Laid file (front ++ lexeme) rest tokens) :
    Laid file front (lexeme ++ rest) tokens := by
  cases h with
  | closing hgap =>
      rw [← List.append_nil rest] at hfirst
      rw [List.append_assoc]
      exact .closing (.of_first? hfirst hkind hgap)
  | token hgap hlexical hrest =>
      rw [← List.append_assoc, List.append_assoc front]
      refine .token (.of_first? hfirst hkind hgap) hlexical ?_
      simpa using hrest

theorem Cuts.laid {file : String} {offset : Nat} {text : List Char} {tokens : List Token}
    (h : Cuts file offset text (.ok tokens)) {front : List Char}
    (hfront : offset = Text.byteLength front) : Laid file front text tokens := by
  generalize hresult : (Except.ok tokens : Except Diagnostic (List Token)) = result at h
  induction h generalizing front tokens with
  | done =>
      cases hresult
      have hlaid : Laid file front [] _ := .closing .nil
      rwa [List.append_nil, ← hfront] at hlaid
  | unrecognised => cases hresult
  | separator hfirst hkind _ ih =>
      exact .separator hfirst hkind (ih (by rw [Text.byteLength_append, hfront]) hresult)
  | @token offset rule lexeme rest kind result hfirst hkind _ ih =>
      cases result with
      | error diagnostic => cases hresult
      | ok others =>
          cases hresult
          have hrest : Laid file (front ++ ([] ++ lexeme)) rest others :=
            ih (by rw [List.nil_append, Text.byteLength_append, hfront]) rfl
          have hlaid := Laid.token .nil (lexical_of_first? hfirst hkind) hrest
          rwa [List.append_nil, ← hfront] at hlaid

section

variable {file : String} {front text : List Char} {tokens : List Token}

private theorem split_token (front gap lexeme rest : List Char) :
    front ++ (gap ++ (lexeme ++ rest)) = front ++ (gap ++ lexeme) ++ rest := by
  simp

theorem Laid.slice (h : Laid file front text tokens)
    (hsize : Text.byteLength (front ++ text) < 2 ^ 32) {token : Token} (htoken : token ∈ tokens)
    (hkind : token.kind ≠ .endOfInput) :
    ∃ after, Text.Slice (front ++ text) token.span.start.offset.toNat
      token.span.stop.offset.toNat token.text.toList after := by
  induction h with
  | closing =>
      cases List.mem_singleton.mp htoken
      exact absurd rfl hkind
  | @token front gap lexeme rest kind tokens _ _ _ ih =>
      rcases List.mem_cons.mp htoken with rfl | htoken
      · have hslice := Text.slice_middle (front ++ gap) lexeme rest
        simp only [Text.byteLength_append] at hsize hslice
        refine ⟨rest, ?_⟩
        rw [Span.ofBytes, Position.toNat_ofBytes (by simp; omega),
          Position.toNat_ofBytes (by simp; omega), String.toList_ofList]
        simpa using hslice
      · rw [split_token] at hsize ⊢
        exact ih hsize htoken

/-- The gaps run from the end of each token, or the start of the text, to the next token. -/
theorem Laid.gaps (h : Laid file front text tokens)
    (hsize : Text.byteLength (front ++ text) < 2 ^ 32) :
    ∀ edge ∈ (Text.byteLength front :: tokens.map (·.span.stop.offset.toNat)).zip
        (tokens.map (·.span.start.offset.toNat)),
      ∃ gap after, Text.Slice (front ++ text) edge.1 edge.2 gap after ∧ Separation after gap := by
  induction h with
  | @closing front gap hgap =>
      intro edge hedge
      have hpair : edge = (Text.byteLength front, Text.byteLength (front ++ gap)) := by
        rw [List.mem_singleton.mp hedge]
        exact congrArg _ (Position.toNat_ofBytes hsize)
      subst hpair
      have hslice := Text.slice_middle front gap []
      rw [List.append_nil] at hslice
      exact ⟨gap, [], hslice, hgap⟩
  | @token front gap lexeme rest kind tokens hgap _ _ ih =>
      have hstart : Text.byteLength (front ++ gap) < 2 ^ 32 := by
        simp only [Text.byteLength_append] at hsize ⊢
        omega
      have hstop : Text.byteLength (front ++ gap) + Text.byteLength lexeme < 2 ^ 32 := by
        simp only [Text.byteLength_append] at hsize ⊢
        omega
      have hwidth : Text.byteLength (front ++ gap) + Text.byteLength lexeme =
          Text.byteLength (front ++ (gap ++ lexeme)) := by
        simp [Nat.add_assoc]
      intro edge hedge
      simp only [List.map_cons, List.zip_cons_cons, List.mem_cons, Span.ofBytes,
        Position.toNat_ofBytes hstart, Position.toNat_ofBytes hstop] at hedge
      rcases hedge with rfl | hedge
      · exact ⟨gap, lexeme ++ rest, Text.slice_middle front gap (lexeme ++ rest), hgap⟩
      · rw [split_token] at hsize ⊢
        rw [hwidth] at hedge
        exact ih hsize edge hedge

end

/-- A stream keeps a source whole. -/
structure Lossless (source : List Char) (tokens : List Token) : Prop where
  /-- The last token, and no other, closes the stream; it is empty and stands at the end. -/
  ends : ∃ others last, tokens = others ++ [last] ∧
    (∀ token ∈ others, token.kind ≠ .endOfInput) ∧ last.kind = .endOfInput ∧ last.text = "EOF" ∧
    last.span.start.offset.toNat = Text.byteLength source ∧ last.span.stop = last.span.start
  /-- Every other token has characters, which are those of the source at its span. -/
  slices : ∀ token ∈ tokens, token.kind ≠ .endOfInput →
    token.span.start.offset.toNat < token.span.stop.offset.toNat ∧
    ∃ after, Text.Slice source token.span.start.offset.toNat token.span.stop.offset.toNat
      token.text.toList after
  /-- Its kind is the only one for its text, and a reserved one just for a reserved word. -/
  kinds : ∀ token ∈ tokens, token.kind ≠ .endOfInput →
    token.Lexical ∧ (∀ kind, LexemeRule.Lexical kind token.text.toList → kind = token.kind) ∧
    ∀ kind ∈ reservedWords.map Prod.snd, token.kind = kind ↔ (token.text, kind) ∈ reservedWords
  apart : tokens.Pairwise fun token other =>
    token.span.stop.offset.toNat ≤ other.span.start.offset.toNat
  /-- From the end of each token, or the start of the source, to the start of the next one
  there are only blanks and comments. -/
  gaps : ∀ edge ∈ (0 :: tokens.map (·.span.stop.offset.toNat)).zip
      (tokens.map (·.span.start.offset.toNat)),
    ∃ gap after, Text.Slice source edge.1 edge.2 gap after ∧ Separation after gap

theorem Cuts.lossless {file : String} {source : List Char} {tokens : List Token}
    (h : Cuts file 0 source (.ok tokens)) (hsize : Text.byteLength source < 2 ^ 32) :
    Lossless source tokens := by
  have hlaid : Laid file [] source tokens := h.laid rfl
  have hapart := h.apart (by simpa using hsize)
  rcases h.ends with ⟨others, htokens, hothers⟩
  rw [Nat.zero_add] at htokens
  refine ⟨?ends, ?slices, ?kinds, ?apart, ?gaps⟩
  case ends =>
    exact ⟨others, _, htokens, hothers, rfl, rfl, Position.toNat_ofBytes hsize, rfl⟩
  case slices =>
    intro token htoken hkind
    refine ⟨?_, hlaid.slice hsize htoken hkind⟩
    -- The closing token comes after every other one.
    have hbefore : token ∈ others := by
      rw [htokens, List.mem_append, List.mem_singleton] at htoken
      refine htoken.resolve_right ?_
      rintro rfl
      exact hkind rfl
    rw [htokens, List.pairwise_append] at hapart
    exact (hapart.2.2 token hbefore _ (List.mem_singleton_self _)).1
  case kinds =>
    intro token htoken hkind
    have hlexical := h.lexical htoken hkind
    refine ⟨hlexical, fun kind hother => hlexical.unique hother, fun kind hreserved => ?_⟩
    simpa using hlexical.reserved hreserved
  case apart =>
    exact hapart.imp fun hpair => hpair.2
  case gaps =>
    exact hlaid.gaps hsize

/-- What the rules take off a text lexeme by lexeme is cut into tokens on its own. -/
theorem Reaches.stream {before after : List Char} (h : Reaches before after) (file : String)
    (offset : Nat) : ∃ tokens, stream file offset before = .ok tokens := by
  induction h generalizing offset with
  | here => exact ⟨_, by rw [Token.stream]⟩
  | @further rule lexeme before after hfirst _ ih =>
      rcases ih (offset + Text.byteLength lexeme) with ⟨tokens, htokens⟩
      rw [stream_of_first? (first?_cut hfirst), htokens]
      exact ⟨_, rfl⟩

end Token

/-- Tokens keep their source whole; where the tokenizer gets stuck, it stands at the boundary
of a character, and the text before that place is cut into tokens. -/
theorem tokenize_lossless (source : String) (file? : Option String)
    (hsize : Text.byteLength source.toList < 2 ^ 32) :
    (∀ tokens, tokenize source file? = .ok tokens → Token.Lossless source.toList tokens) ∧
    ∀ diagnostic, tokenize source file? = .error diagnostic →
      ∃ before after : String, source = before ++ after ∧
        diagnostic.position.offset.toNat = Text.byteLength before.toList ∧
        ∃ tokens, tokenize before file? = .ok tokens := by
  have hcuts := cuts_tokenize source file?
  constructor
  · intro tokens htokens
    rw [htokens] at hcuts
    exact hcuts.lossless hsize
  · intro diagnostic hdiagnostic
    rw [hdiagnostic] at hcuts
    rcases hcuts.stuck with ⟨before, c, after, ⟨htext, hreaches, hposition⟩, -⟩
    rcases hreaches.stream (file?.getD interactiveFile) 0 with ⟨tokens, htokens⟩
    refine ⟨String.ofList before, String.ofList (c :: after), ?_, ?_, tokens, ?_⟩
    · rw [← String.ofList_append, ← htext, String.ofList_toList]
    · rw [htext, Text.byteLength_append] at hsize
      rw [hposition, Position.toNat_ofBytes (by omega), String.toList_ofList, Nat.zero_add]
    · rw [tokenize, String.toList_ofList, htokens]

/-- A wide blank and a comment between two tokens, and a number that breaks off. -/
theorem tokenize_lossless_comment :
    let source := "do\u00a0<=//\u00e9\n"
    let tokens : List Token :=
      [⟨.doWord, "do", .ofBytes "demo" 0 2⟩, ⟨.lessEquals, "<=", .ofBytes "demo" 4 2⟩,
        .endAt (.ofBytes "demo" 11)]
    (tokenize source (some "demo") = .ok tokens ∧ Token.Lossless source.toList tokens) ∧
    ∃ before after : String, "x = 1.;" = before ++ after ∧ 5 = Text.byteLength before.toList ∧
      ∃ tokens, tokenize before (some "demo") = .ok tokens := by
  intro source tokens
  have htokens : tokenize source (some "demo") = .ok tokens := by cbv
  have hstuck : tokenize "x = 1.;" (some "demo") =
      .error ⟨.unrecognisedToken ".", .ofBytes "demo" 5⟩ := by cbv
  exact ⟨⟨htokens, (tokenize_lossless source (some "demo") (by decide)).1 tokens htokens⟩,
    (tokenize_lossless "x = 1.;" (some "demo") (by decide)).2 _ hstuck⟩

/-- Tokens that are written again with single blanks between them are read as they were. -/
theorem tokenize_respaced {source : String} {file? : Option String} {tokens : List Token}
    (h : tokenize source file? = .ok tokens) (file?' : Option String) :
    ∃ placed, tokenize (Token.joined (tokens.filter (·.kind ≠ .endOfInput))) file?' = .ok placed ∧
      placed.map Token.spelling = tokens.map Token.spelling := by
  have hcuts := cuts_tokenize source file?
  rw [h] at hcuts
  rcases hcuts.ends with ⟨before, htokens, hbefore⟩
  have hfilter : tokens.filter (·.kind ≠ .endOfInput) = before := by
    rw [htokens, List.filter_append, List.filter_eq_self.mpr (by simpa using hbefore)]
    simp [Token.endAt]
  have hlexical : Token.AllLexical before := fun token htoken =>
    hcuts.lexical (by simp [htokens, htoken]) (hbefore token htoken)
  rcases tokenize_joined hlexical file?' with ⟨placed, hplaced, hspelling⟩
  refine ⟨placed, by rw [hfilter, hplaced], ?_⟩
  rw [hspelling, htokens, List.map_append]
  rfl

/-- A number that runs into a word, and slashes that make a comment only where they touch. -/
theorem tokenize_respaced_slashes :
    let source := "x=1.5y-/ /2<=_z//y"
    let spelled := [(.identifier, "x"), (.assignment, "="), (.float, "1.5"), (.identifier, "y"),
      (.dash, "-"), (.slash, "/"), (.slash, "/"), (.integer, "2"), (.lessEquals, "<="),
      (.identifier, "_z"), (.endOfInput, "EOF")]
    ∃ tokens placed, tokenize source none = .ok tokens ∧ tokens.map Token.spelling = spelled ∧
      Token.joined (tokens.filter (·.kind ≠ .endOfInput)) = "x = 1.5 y - / / 2 <= _z" ∧
      tokenize "x = 1.5 y - / / 2 <= _z" (some "demo") = .ok placed ∧
      placed.map Token.spelling = spelled := by
  intro source spelled
  obtain ⟨tokens, htokens, hspelled, hjoined⟩ : ∃ tokens, tokenize source none = .ok tokens ∧
      tokens.map Token.spelling = spelled ∧
      Token.joined (tokens.filter (·.kind ≠ .endOfInput)) = "x = 1.5 y - / / 2 <= _z" :=
    ⟨_, by cbv, by decide, by decide⟩
  rcases tokenize_respaced htokens (some "demo") with ⟨placed, hplaced, hspelling⟩
  rw [hjoined] at hplaced
  exact ⟨tokens, placed, htokens, hspelled, hjoined, hplaced, hspelling.trans hspelled⟩

end Assay
