import Mathlib.Algebra.Group.Nat.Defs
import Assay.Token.Stream

/-!
# How a source is cut into tokens

`Cuts` follows the lexemes of a text from its start to its end, or to the first character
that starts none.  It says once what a round of the tokenizer does; whatever holds of all
token streams is shown by induction on it.
-/

namespace Assay

namespace LexemeRule

private theorem reservedKind?_mem {word : String} {kind : TokenKind}
    (h : reservedKind? word = some kind) :
    kind ∈ reservedWords.map Prod.snd := by
  obtain ⟨before, after, hwords, -⟩ := List.lookup_eq_some_iff.mp h
  simp [hwords]

theorem getD_reservedKind?_ne {kind : TokenKind} (hkind : kind ≠ .identifier)
    (hreserved : kind ∉ reservedWords.map Prod.snd) (word : String) :
    (reservedKind? word).getD .identifier ≠ kind := by
  cases hword : reservedKind? word with
  | none => exact hkind.symm
  | some other =>
      rintro rfl
      exact hreserved (reservedKind?_mem hword)

private theorem kind?_ne_endOfInput {rule : LexemeRule} (hrule : rule ∈ table)
    (lexeme : List Char) :
    rule.kind? lexeme ≠ some .endOfInput := by
  cases rule with
  | word =>
      intro hkind
      exact getD_reservedKind?_ne (by decide) (by decide) _ (Option.some.inj hkind)
  | decimal | integer | blank | comment => nofun
  | pair kind first second literal =>
      intro hkind
      cases hkind
      simp [table] at hrule
  | mark kind sign literal =>
      intro hkind
      cases hkind
      simp [table] at hrule

end LexemeRule

theorem Text.byteLength_pos {text : List Char} (h : text ≠ []) : 0 < byteLength text := by
  cases text with
  | nil => exact absurd rfl h
  | cons c rest =>
      have hsize := c.utf8Size_pos
      rw [byteLength_cons]
      omega

theorem Position.toNat_ofBytes {file : String} {count : Nat} (h : count < 2 ^ 32) :
    (ofBytes file count).offset.toNat = count :=
  Nat.mod_eq_of_lt h

namespace Token

/-- What comes out of a text that starts `offset` bytes into a file, lexeme by lexeme. -/
inductive Cuts (file : String) : Nat → List Char → Except Diagnostic (List Token) → Prop where
  | done {offset : Nat} : Cuts file offset [] (.ok [endAt (.ofBytes file offset)])
  | unrecognised {offset : Nat} {c : Char} {rest : List Char}
      (hfirst : LexemeRule.first? (c :: rest) = none) :
      Cuts file offset (c :: rest)
        (.error ⟨.unrecognisedToken c.toString, .ofBytes file offset⟩)
  | separator {offset : Nat} {rule : LexemeRule} {lexeme rest : List Char}
      {result : Except Diagnostic (List Token)}
      (hfirst : LexemeRule.first? (lexeme ++ rest) = some (rule, lexeme))
      (hkind : rule.kind? lexeme = none)
      (hrest : Cuts file (offset + Text.byteLength lexeme) rest result) :
      Cuts file offset (lexeme ++ rest) result
  | token {offset : Nat} {rule : LexemeRule} {lexeme rest : List Char} {kind : TokenKind}
      {result : Except Diagnostic (List Token)}
      (hfirst : LexemeRule.first? (lexeme ++ rest) = some (rule, lexeme))
      (hkind : rule.kind? lexeme = some kind)
      (hrest : Cuts file (offset + Text.byteLength lexeme) rest result) :
      Cuts file offset (lexeme ++ rest) (result.map
        (⟨kind, String.ofList lexeme, .ofBytes file offset (Text.byteLength lexeme)⟩ :: ·))

private theorem cuts_stream (file : String) (offset : Nat) (text : List Char) :
    Cuts file offset text (stream file offset text) := by
  fun_induction stream file offset text with
  | case1 offset => exact .done
  | case2 offset c rest hfirst => exact .unrecognised hfirst
  | case3 offset c rest rule lexeme hfirst taken width ih =>
      have htaken : taken = lexeme := LexemeRule.taken_of_first? hfirst
      have hwidth : width = Text.byteLength lexeme := congrArg Text.byteLength htaken
      obtain ⟨-, after, hafter⟩ :=
        LexemeRule.lexeme?_eq_some (LexemeRule.lexeme?_of_first? hfirst)
      clear_value width taken
      subst taken width
      rw [← hafter] at hfirst ih ⊢
      rw [List.drop_left] at ih ⊢
      cases hkind : rule.kind? lexeme with
      | none =>
          have hcuts := Cuts.separator hfirst hkind ih
          cases hstream : stream file (offset + Text.byteLength lexeme) after <;>
            rw [hstream] at hcuts <;> exact hcuts
      | some kind =>
          have hcuts := Cuts.token hfirst hkind ih
          cases hstream : stream file (offset + Text.byteLength lexeme) after <;>
            rw [hstream] at hcuts <;> exact hcuts

def Sealed (tokens : List Token) : Prop :=
  ∃ others last, tokens = others ++ [last] ∧ last.kind = .endOfInput ∧
    ∀ token ∈ others, token.kind ≠ .endOfInput

theorem Cuts.ends {file : String} {offset : Nat} {text : List Char} {tokens : List Token}
    (h : Cuts file offset text (.ok tokens)) :
    ∃ before, tokens = before ++ [endAt (.ofBytes file (offset + Text.byteLength text))] ∧
      ∀ token ∈ before, token.kind ≠ .endOfInput := by
  generalize hresult : (Except.ok tokens : Except Diagnostic (List Token)) = result at h
  induction h generalizing tokens with
  | done =>
      cases hresult
      exact ⟨[], rfl, nofun⟩
  | unrecognised => cases hresult
  | separator _ _ _ ih =>
      rw [Text.byteLength_append, ← Nat.add_assoc]
      exact ih hresult
  | @token offset rule lexeme rest kind result hfirst hkind _ ih =>
      cases result with
      | error diagnostic => cases hresult
      | ok others =>
          obtain ⟨before, rfl, hbefore⟩ := ih rfl
          cases hresult
          rw [Text.byteLength_append, ← Nat.add_assoc]
          refine ⟨_ :: before, rfl, List.forall_mem_cons.mpr ⟨?_, hbefore⟩⟩
          rintro rfl
          exact LexemeRule.kind?_ne_endOfInput (LexemeRule.mem_table_of_first? hfirst) lexeme hkind

/-- The rules take `before` off the front of a text, lexeme by lexeme, and leave `after`. -/
inductive Reaches : List Char → List Char → Prop where
  | here {after : List Char} : Reaches [] after
  | further {rule : LexemeRule} {lexeme before after : List Char}
      (hfirst : LexemeRule.first? (lexeme ++ (before ++ after)) = some (rule, lexeme))
      (hrest : Reaches before after) : Reaches (lexeme ++ before) after

/-- The rules arrive at the rest `after` of the text, which stands at the position. -/
structure Arrives (file : String) (offset : Nat) (text before after : List Char)
    (position : Position) : Prop where
  text_eq : text = before ++ after
  reaches : Reaches before after
  position_eq : position = .ofBytes file (offset + Text.byteLength before)

theorem Arrives.here {file : String} {offset : Nat} {text : List Char} :
    Arrives file offset text [] text (.ofBytes file offset) :=
  ⟨rfl, .here, rfl⟩

theorem Arrives.further {file : String} {offset : Nat} {rule : LexemeRule}
    {lexeme rest before after : List Char} {position : Position}
    (hfirst : LexemeRule.first? (lexeme ++ rest) = some (rule, lexeme))
    (h : Arrives file (offset + Text.byteLength lexeme) rest before after position) :
    Arrives file offset (lexeme ++ rest) (lexeme ++ before) after position := by
  rcases h with ⟨rfl, hreaches, rfl⟩
  refine ⟨(List.append_assoc ..).symm, .further hfirst hreaches, ?_⟩
  rw [Text.byteLength_append, Nat.add_assoc]

theorem Cuts.start {file : String} {offset : Nat} {text : List Char} {tokens : List Token}
    (h : Cuts file offset text (.ok tokens)) {token : Token} (htoken : token ∈ tokens) :
    ∃ before after, Arrives file offset text before after token.span.start := by
  generalize hresult : (Except.ok tokens : Except Diagnostic (List Token)) = result at h
  induction h generalizing tokens with
  | done =>
      cases hresult
      cases List.mem_singleton.mp htoken
      exact ⟨[], [], .here⟩
  | unrecognised => cases hresult
  | separator hfirst _ _ ih =>
      rcases ih htoken hresult with ⟨before, after, harrives⟩
      exact ⟨_, after, harrives.further hfirst⟩
  | @token offset rule lexeme rest kind result hfirst _ _ ih =>
      cases result with
      | error diagnostic => cases hresult
      | ok others =>
          cases hresult
          rcases List.mem_cons.mp htoken with rfl | hothers
          · exact ⟨[], lexeme ++ rest, .here⟩
          · rcases ih hothers rfl with ⟨before, after, harrives⟩
            exact ⟨_, after, harrives.further hfirst⟩

/-- In a file that is small enough for its offsets, every token ends behind its start, and no
later token starts before that. -/
theorem Cuts.apart {file : String} {offset : Nat} {text : List Char} {tokens : List Token}
    (h : Cuts file offset text (.ok tokens)) (hsize : offset + Text.byteLength text < 2 ^ 32) :
    tokens.Pairwise fun token other =>
      token.span.start.offset.toNat < token.span.stop.offset.toNat ∧
      token.span.stop.offset.toNat ≤ other.span.start.offset.toNat := by
  generalize hresult : (Except.ok tokens : Except Diagnostic (List Token)) = result at h
  induction h generalizing tokens with
  | done =>
      cases hresult
      exact List.pairwise_singleton _ _
  | unrecognised => cases hresult
  | separator _ _ _ ih =>
      rw [Text.byteLength_append] at hsize
      exact ih (by omega) hresult
  | @token offset rule lexeme rest kind result hfirst hkind hrest ih =>
      rw [Text.byteLength_append] at hsize
      have hwidth : 0 < Text.byteLength lexeme :=
        Text.byteLength_pos (LexemeRule.lexeme?_eq_some (LexemeRule.lexeme?_of_first? hfirst)).1
      cases result with
      | error _ => cases hresult
      | ok others =>
          cases hresult
          refine List.pairwise_cons.mpr ⟨?_, ih (by omega) rfl⟩
          intro other hother
          rcases hrest.start hother with ⟨before, after, rfl, -, hstart⟩
          rw [Text.byteLength_append] at hsize
          rw [hstart, Span.ofBytes, Position.toNat_ofBytes (by omega),
            Position.toNat_ofBytes (by omega), Position.toNat_ofBytes (by omega)]
          omega

theorem Cuts.increasing {file : String} {offset : Nat} {text : List Char} {tokens : List Token}
    (h : Cuts file offset text (.ok tokens)) (hsize : offset + Text.byteLength text < 2 ^ 32) :
    tokens.Pairwise fun token other =>
      token.span.start.offset.toNat < other.span.start.offset.toNat :=
  (h.apart hsize).imp fun hapart => Nat.lt_of_lt_of_le hapart.1 hapart.2

theorem Cuts.stuck {file : String} {offset : Nat} {text : List Char} {diagnostic : Diagnostic}
    (h : Cuts file offset text (.error diagnostic)) :
    ∃ before c after, Arrives file offset text before (c :: after) diagnostic.position ∧
      LexemeRule.first? (c :: after) = none ∧
      diagnostic.cause = .unrecognisedToken c.toString := by
  generalize hresult : (Except.error diagnostic : Except Diagnostic (List Token)) = result at h
  induction h with
  | done => cases hresult
  | @unrecognised offset c rest hfirst =>
      cases hresult
      exact ⟨[], c, rest, .here, hfirst, rfl⟩
  | separator hfirst _ _ ih =>
      rcases ih hresult with ⟨before, c, after, harrives, hstuck⟩
      exact ⟨_, c, after, harrives.further hfirst, hstuck⟩
  | @token _ _ _ _ _ result hfirst _ _ ih =>
      cases result with
      | error _ =>
          cases hresult
          rcases ih rfl with ⟨before, c, after, harrives, hstuck⟩
          exact ⟨_, c, after, harrives.further hfirst, hstuck⟩
      | ok _ => cases hresult

end Token

theorem cuts_tokenize (source : String) (file? : Option String) :
    Token.Cuts (file?.getD interactiveFile) 0 source.toList (tokenize source file?) :=
  Token.cuts_stream _ _ _

theorem tokenize_sealed {source : String} {file? : Option String} {tokens : List Token}
    (h : tokenize source file? = .ok tokens) : Token.Sealed tokens := by
  have hcuts := cuts_tokenize source file?
  rw [h] at hcuts
  rcases hcuts.ends with ⟨before, htokens, hbefore⟩
  exact ⟨before, _, htokens, rfl, hbefore⟩

theorem index_eq_of_start_eq {source : String} {file? : Option String} {tokens : List Token}
    (hsize : Text.byteLength source.toList < 2 ^ 32) (htokens : tokenize source file? = .ok tokens)
    {index index' : Nat} {token token' : Token} (htoken : tokens[index]? = some token)
    (htoken' : tokens[index']? = some token') (h : token.span.start = token'.span.start) :
    index = index' := by
  have hcuts := cuts_tokenize source file?
  rw [htokens] at hcuts
  have hincreasing := List.pairwise_iff_getElem.mp (hcuts.increasing (by simpa using hsize))
  rcases List.getElem?_eq_some_iff.mp htoken with ⟨hindex, rfl⟩
  rcases List.getElem?_eq_some_iff.mp htoken' with ⟨hindex', rfl⟩
  rcases Nat.lt_trichotomy index index' with hlt | heq | hlt
  · have hstart := hincreasing index index' hindex hindex' hlt
    rw [h] at hstart
    omega
  · exact heq
  · have hstart := hincreasing index' index hindex' hindex hlt
    rw [h] at hstart
    omega

end Assay
