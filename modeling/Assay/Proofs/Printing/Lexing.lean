import Mathlib.Data.List.TakeWhile
import Assay.Proofs.Layout.Alike
import Assay.Proofs.Printing.Printer
import Assay.Proofs.Token.Stream

/-!
# Lexemes that stand alone

A lexeme makes a token of some kind: it is a word, a number, or the one text of its kind.
Whatever followed it in a source, it is read as that token where a blank or nothing follows.
So lexemes with single blanks between them are read one by one.
-/

namespace Assay

namespace LexemeRule

open Numeral (isDigit isDigit_iff)

/-! ## Classes of characters -/

private theorem isWordStart_iff {c : Char} :
    isWordStart c ↔
      97 ≤ c.toNat ∧ c.toNat ≤ 122 ∨ 65 ≤ c.toNat ∧ c.toNat ≤ 90 ∨ c.toNat = 95 := by
  have hunderscore : c = '_' ↔ c.toNat = 95 := by
    rw [← Char.toNat_inj]
    exact Iff.rfl
  simp only [isWordStart, Bool.and_eq_true, Bool.or_eq_true, decide_eq_true_eq, Char.le_def,
    UInt32.le_iff_toNat_le, beq_iff_eq, hunderscore, or_assoc]
  exact Iff.rfl

private theorem toNat_of_isBlank {c : Char} (h : Text.isBlank c) :
    c.toNat ≤ 32 ∨ 133 ≤ c.toNat := by
  simp [Text.isBlank, Text.inRanges, Text.blankRanges] at h
  omega

theorem not_isWordStart_of_isDigit {c : Char} (h : isDigit c) : ¬ isWordStart c := by
  rw [isDigit_iff] at h
  rw [isWordStart_iff]
  omega

theorem not_isWordStart_of_isBlank {c : Char} (h : Text.isBlank c) : ¬ isWordStart c := by
  have := toNat_of_isBlank h
  rw [isWordStart_iff]
  omega

theorem not_isDigit_of_isBlank {c : Char} (h : Text.isBlank c) : ¬ isDigit c := by
  have := toNat_of_isBlank h
  rw [isDigit_iff]
  omega

/-! ## Runs -/

theorem run?_eq {inClass : Char → Bool} {run after : List Char} (hne : run ≠ [])
    (hrun : ∀ c ∈ run, inClass c) (hafter : ∀ c ∈ after.head?, ¬ inClass c) :
    run? inClass (run ++ after) = some run := by
  rw [run?, takeWhile_eq hrun hafter]
  cases run with
  | nil => exact absurd rfl hne
  | cons c rest => rfl

theorem mem_of_run? {inClass : Char → Bool} {text run : List Char}
    (h : run? inClass text = some run) : ∀ c ∈ run, inClass c := by
  unfold run? at h
  split at h
  · cases h
  · cases h
    intro c hc
    exact List.mem_takeWhile_imp hc

theorem run?_eq_none {inClass : Char → Bool} {c : Char} (h : ¬ inClass c) (rest : List Char) :
    run? inClass (c :: rest) = none := by
  simp [run?, h]

/-! ## The rules that are tried first -/

@[simp] theorem lexeme?_word (text : List Char) : word.lexeme? text = word? text := rfl

@[simp] theorem lexeme?_decimal (text : List Char) : decimal.lexeme? text = decimal? text := rfl

@[simp] theorem lexeme?_integer (text : List Char) : integer.lexeme? text = run? isDigit text :=
  rfl

@[simp] theorem lexeme?_blank (text : List Char) : blank.lexeme? text = run? Text.isBlank text :=
  rfl

theorem word?_eq_none {c : Char} (h : ¬ isWordStart c) (rest : List Char) :
    word? (c :: rest) = none := by
  simp [word?, h]

theorem decimal?_eq_none {c : Char} (h : ¬ isDigit c) (rest : List Char) :
    decimal? (c :: rest) = none := by
  simp [decimal?, run?_eq_none h]

theorem decimal?_pointed {whole : List Char} (hne : whole ≠ []) (hdigits : ∀ c ∈ whole, isDigit c)
    (rest : List Char) :
    decimal? (whole ++ '.' :: rest) = (run? isDigit rest).map (whole ++ '.' :: ·) := by
  have hwhole : run? isDigit (whole ++ '.' :: rest) = some whole :=
    run?_eq hne hdigits (by simp [isDigit])
  rw [decimal?, hwhole, Option.bind_some, List.drop_left]
  rfl

theorem first?_blank {c : Char} (h : Text.isBlank c) (rest : List Char) :
    first? (c :: rest) = some (.blank, c :: rest.takeWhile Text.isBlank) := by
  have hword := word?_eq_none (not_isWordStart_of_isBlank h) rest
  have hdecimal := decimal?_eq_none (not_isDigit_of_isBlank h) rest
  have hinteger := run?_eq_none (not_isDigit_of_isBlank h) rest
  have hblank : run? Text.isBlank (c :: rest) = some (c :: rest.takeWhile Text.isBlank) := by
    simp [run?, h]
  simp [first?, table, hword, hdecimal, hinteger, hblank]

/-! ## Lexemes and what follows them -/

/-- What may follow a lexeme that stands alone: nothing, or a blank first. -/
def Parted (after : List Char) : Prop := ∀ c ∈ after.head?, c = ' '

/-- The characters are read as a token of the kind wherever a blank or nothing follows. -/
def Whole (kind : TokenKind) (lexeme : List Char) : Prop :=
  ∃ rule : LexemeRule, rule.kind? lexeme = some kind ∧
    ∀ after, Parted after → first? (lexeme ++ after) = some (rule, lexeme)

theorem Parted.outside {after : List Char} (h : Parted after) {inClass : Char → Bool}
    (hblank : ¬ inClass ' ') : ∀ c ∈ after.head?, ¬ inClass c := by
  intro c hc
  rw [h c hc]
  exact hblank

private theorem whole_word {c : Char} {rest : List Char} {kind : TokenKind} (hc : isWordStart c)
    (hrest : ∀ d ∈ rest, isWordPart d) (hkind : word.kind? (c :: rest) = some kind) :
    Whole kind (c :: rest) := by
  refine ⟨.word, hkind, fun after hafter => ?_⟩
  have hword : word? (c :: (rest ++ after)) = some (c :: rest) := by
    rw [word?, if_pos hc, takeWhile_eq hrest (hafter.outside (by decide))]
  simp [first?, table, hword]

private theorem word?_eq_none_of_digits {digits : List Char} (hne : digits ≠ [])
    (hdigits : ∀ c ∈ digits, isDigit c) (after : List Char) : word? (digits ++ after) = none := by
  cases digits with
  | nil => exact absurd rfl hne
  | cons c rest => exact word?_eq_none (not_isWordStart_of_isDigit (hdigits c (by simp))) _

private theorem whole_integer {digits : List Char} (hne : digits ≠ [])
    (hdigits : ∀ c ∈ digits, isDigit c) : Whole .integer digits := by
  refine ⟨.integer, rfl, fun after hafter => ?_⟩
  have hword := word?_eq_none_of_digits hne hdigits after
  have hinteger := run?_eq hne hdigits (hafter.outside (by decide))
  have hdecimal : decimal? (digits ++ after) = none := by
    rw [decimal?, hinteger, Option.bind_some, List.drop_left]
    cases after with
    | nil => rfl
    | cons c rest =>
        cases hafter c rfl
        rfl
  simp [first?, table, hword, hdecimal, hinteger]

private theorem whole_decimal {whole fraction : List Char} (hwhole : whole ≠ [])
    (hfraction : fraction ≠ [])
    (hdigits : ∀ c ∈ whole, isDigit c) (hdigits' : ∀ c ∈ fraction, isDigit c) :
    Whole .float (whole ++ '.' :: fraction) := by
  refine ⟨.decimal, rfl, fun after hafter => ?_⟩
  rw [List.append_assoc, List.cons_append]
  have hword := word?_eq_none_of_digits hwhole hdigits ('.' :: (fraction ++ after))
  have hdecimal : decimal? (whole ++ '.' :: (fraction ++ after)) =
      some (whole ++ '.' :: fraction) := by
    rw [decimal?_pointed hwhole hdigits,
      run?_eq hfraction hdigits' (hafter.outside (by decide)), Option.map_some]
  simp [first?, table, hword, hdecimal]

/-- It is enough to look at the end of a text and at one blank. -/
theorem whole_of_first? {rule : LexemeRule} {kind : TokenKind} {lexeme : List Char}
    (hlast : first? lexeme = some (rule, lexeme)) (hkind : rule.kind? lexeme = some kind)
    (hblank : ∀ rest, first? (lexeme ++ ' ' :: rest) = some (rule, lexeme)) :
    Whole kind lexeme := by
  refine ⟨rule, hkind, fun after hafter => ?_⟩
  cases after with
  | nil => rw [List.append_nil, hlast]
  | cons c rest =>
      cases hafter c rfl
      exact hblank rest

private theorem whole_fixed {kind : TokenKind} (h : kind.isFixed) :
    Whole kind kind.text.toList := by
  cases kind <;> first | exact whole_of_first? rfl rfl fun _ => rfl | cases h

inductive Lexical : TokenKind → List Char → Prop where
  | word {c : Char} {rest : List Char} (hc : isWordStart c) (hrest : ∀ d ∈ rest, isWordPart d) :
      Lexical ((reservedKind? (String.ofList (c :: rest))).getD .identifier) (c :: rest)
  | integer {digits : List Char} (hne : digits ≠ []) (hdigits : ∀ c ∈ digits, isDigit c) :
      Lexical .integer digits
  | decimal {whole fraction : List Char} (hwhole : whole ≠ []) (hfraction : fraction ≠ [])
      (hdigits : ∀ c ∈ whole, isDigit c) (hdigits' : ∀ c ∈ fraction, isDigit c) :
      Lexical .float (whole ++ '.' :: fraction)
  | fixed {kind : TokenKind} (hfixed : kind.isFixed) : Lexical kind kind.text.toList

theorem Lexical.whole {kind : TokenKind} {lexeme : List Char} (h : Lexical kind lexeme) :
    Whole kind lexeme := by
  cases h with
  | word hc hrest => exact whole_word hc hrest rfl
  | integer hne hdigits => exact whole_integer hne hdigits
  | decimal hwhole hfraction hdigits hdigits' =>
      exact whole_decimal hwhole hfraction hdigits hdigits'
  | fixed hfixed => exact whole_fixed hfixed

theorem Lexical.kind_ne {kind : TokenKind} {lexeme : List Char} (h : Lexical kind lexeme) :
    kind ≠ .endOfInput := by
  cases h with
  | word => exact getD_reservedKind?_ne (by decide) (by decide) _
  | integer | decimal => nofun
  | fixed hfixed =>
      rintro rfl
      cases hfixed

theorem Lexical.digits {kind : TokenKind} {lexeme : List Char} (h : Lexical kind lexeme)
    (hkind : kind = .integer) : lexeme ≠ [] ∧ ∀ c ∈ lexeme, isDigit c := by
  cases h with
  | word => exact absurd hkind (getD_reservedKind?_ne (by decide) (by decide) _)
  | integer hne hdigits => exact ⟨hne, hdigits⟩
  | decimal => cases hkind
  | fixed hfixed =>
      cases hkind
      cases hfixed

theorem Lexical.pointed {kind : TokenKind} {lexeme : List Char} (h : Lexical kind lexeme)
    (hkind : kind = .float) : Numeral.IsPointed (String.ofList lexeme) := by
  cases h with
  | word => exact absurd hkind (getD_reservedKind?_ne (by decide) (by decide) _)
  | integer => cases hkind
  | decimal hwhole hfraction hdigits hdigits' =>
      exact ⟨_, _, hwhole, hfraction, hdigits, hdigits', rfl⟩
  | fixed hfixed =>
      cases hkind
      cases hfixed

/-! ## Lexemes of a source -/

private theorem isFixed_of_literal? : ∀ rule ∈ table, ∀ literal ∈ rule.literal?,
    ∀ kind ∈ rule.kind? rule.signs, kind.isFixed ∧ literal = kind.text := by
  decide

theorem decimal?_eq {text lexeme : List Char} (h : decimal? text = some lexeme) :
    ∃ whole fraction rest, whole ≠ [] ∧ (∀ c ∈ whole, isDigit c) ∧ text = whole ++ '.' :: rest ∧
      run? isDigit rest = some fraction ∧ lexeme = whole ++ '.' :: fraction := by
  rcases Option.bind_eq_some_iff.mp h with ⟨whole, hwhole, hpoint⟩
  split at hpoint
  · next rest hrest =>
      rcases Option.map_eq_some_iff.mp hpoint with ⟨fraction, hfraction, rfl⟩
      refine ⟨whole, fraction, rest, (run?_eq_some hwhole).1, mem_of_run? hwhole, ?_, hfraction,
        rfl⟩
      rw [← hrest]
      exact (List.prefix_iff_eq_append.mp (run?_eq_some hwhole).2).symm
  · cases hpoint

theorem lexical_of_first? {rule : LexemeRule} {kind : TokenKind} {text lexeme : List Char}
    (hfirst : first? text = some (rule, lexeme)) (hkind : rule.kind? lexeme = some kind) :
    Lexical kind lexeme := by
  have hmem := mem_table_of_first? hfirst
  have hlexeme := lexeme?_of_first? hfirst
  cases rule with
  | word =>
      cases hkind
      change word? text = some lexeme at hlexeme
      unfold word? at hlexeme
      split at hlexeme
      · cases hlexeme
      · split at hlexeme
        · next hc =>
            cases hlexeme
            exact .word hc fun d hd => List.mem_takeWhile_imp hd
        · cases hlexeme
  | decimal =>
      cases hkind
      rcases decimal?_eq hlexeme with ⟨whole, fraction, rest, hne, hdigits, -, hfraction, rfl⟩
      exact .decimal hne (run?_eq_some hfraction).1 hdigits (mem_of_run? hfraction)
  | integer =>
      cases hkind
      exact .integer (run?_eq_some hlexeme).1 (mem_of_run? hlexeme)
  | blank | comment => cases hkind
  | pair _ _ _ literal | mark _ _ literal =>
      cases hkind
      rcases isFixed_of_literal? _ hmem literal rfl kind rfl with ⟨hfixed, rfl⟩
      rw [← taken_of_first? hfirst]
      exact .fixed hfixed

theorem Whole.head {kind : TokenKind} {lexeme : List Char} (h : Whole kind lexeme) :
    ∃ c rest, lexeme = c :: rest ∧ ¬ Text.isBlank c := by
  rcases h with ⟨rule, hkind, hfirst⟩
  have hlast := hfirst [] nofun
  rw [List.append_nil] at hlast
  cases lexeme with
  | nil => exact absurd rfl (lexeme?_eq_some (lexeme?_of_first? hlast)).1
  | cons c rest =>
      refine ⟨c, rest, rfl, fun hblank => ?_⟩
      rw [first?_blank hblank, Option.some.injEq, Prod.mk.injEq] at hlast
      rw [← hlast.1] at hkind
      cases hkind

end LexemeRule

theorem Numeral.IsPointed.lexical {text : String} (h : Numeral.IsPointed text) :
    LexemeRule.Lexical .float text.toList := by
  rcases h with ⟨whole, fraction, hwhole, hfraction, hdigits, hdigits', rfl⟩
  rw [String.toList_ofList]
  exact .decimal hwhole hfraction hdigits hdigits'

namespace Token

open LexemeRule

def Lexical (token : Token) : Prop := LexemeRule.Lexical token.kind token.text.toList

theorem Lexical.name {token : Token} (h : token.Lexical) (hkind : token.kind = .identifier) :
    (unplaced .identifier token.text).Lexical := by
  unfold Lexical at h
  rwa [hkind] at h

def AllLexical (tokens : List Token) : Prop := ∀ token ∈ tokens, token.Lexical

namespace AllLexical

variable {token : Token} {tokens more : List Token}

theorem nil : AllLexical [] := nofun

theorem cons (htoken : token.Lexical) (htokens : AllLexical tokens) :
    AllLexical (token :: tokens) :=
  List.forall_mem_cons.mpr ⟨htoken, htokens⟩

theorem append (htokens : AllLexical tokens) (hmore : AllLexical more) :
    AllLexical (tokens ++ more) :=
  List.forall_mem_append.mpr ⟨htokens, hmore⟩

theorem fixed {kind : TokenKind} (hkind : kind.isFixed) (htokens : AllLexical tokens) :
    AllLexical (.fixed kind :: tokens) :=
  cons (.fixed hkind) htokens

theorem head (h : AllLexical (token :: tokens)) : token.Lexical := h token List.mem_cons_self

theorem tail (h : AllLexical (token :: tokens)) : AllLexical tokens :=
  fun other hother => h other (List.mem_cons_of_mem token hother)

theorem left (h : AllLexical (tokens ++ more)) : AllLexical tokens :=
  fun token htoken => h token (List.mem_append_left more htoken)

theorem right (h : AllLexical (tokens ++ more)) : AllLexical more :=
  fun token htoken => h token (List.mem_append_right tokens htoken)

end AllLexical

theorem Cuts.lexical {file : String} {offset : Nat} {text : List Char} {tokens : List Token}
    (h : Cuts file offset text (.ok tokens)) {token : Token} (htoken : token ∈ tokens)
    (hkind : token.kind ≠ .endOfInput) : token.Lexical := by
  generalize hresult : (Except.ok tokens : Except Diagnostic (List Token)) = result at h
  induction h generalizing tokens with
  | done =>
      cases hresult
      cases List.mem_singleton.mp htoken
      exact absurd rfl hkind
  | unrecognised => cases hresult
  | separator _ _ _ ih => exact ih htoken hresult
  | @token offset rule lexeme rest kind result hfirst hlexeme _ ih =>
      cases result with
      | error diagnostic => cases hresult
      | ok others =>
          cases hresult
          rcases List.mem_cons.mp htoken with rfl | hothers
          · rw [Lexical, String.toList_ofList]
            exact lexical_of_first? hfirst hlexeme
          · exact ih hothers rfl

/-! ## Joined tokens -/

theorem stream_of_first? {file : String} {offset : Nat} {rule : LexemeRule}
    {lexeme rest : List Char} (h : first? (lexeme ++ rest) = some (rule, lexeme)) :
    stream file offset (lexeme ++ rest) =
      (stream file (offset + Text.byteLength lexeme) rest).map fun tokens =>
        match rule.kind? lexeme with
        | none => tokens
        | some kind =>
            ⟨kind, String.ofList lexeme, .ofBytes file offset (Text.byteLength lexeme)⟩ ::
              tokens := by
  have htaken := taken_of_first? h
  rcases lexeme?_eq_some (lexeme?_of_first? h) with ⟨hne, -⟩
  obtain ⟨c, others, htext⟩ : ∃ c others, lexeme ++ rest = c :: others :=
    List.exists_cons_of_ne_nil (by simp [hne])
  have hdrop : (c :: others).drop lexeme.length = rest := by rw [← htext, List.drop_left]
  rw [htext] at h ⊢
  rw [stream]
  split
  · next hnone => simp [h] at hnone
  · next hsome =>
      rw [h] at hsome
      cases hsome
      simp only [htaken, hdrop]
      cases stream file (offset + Text.byteLength lexeme) rest <;>
        cases rule.kind? lexeme <;> simp [Except.map, bind, Except.bind]

private theorem joined_singleton (token : Token) : (joined [token]).toList = token.text.toList := by
  simp [joined]

private theorem joined_cons_cons (token next : Token) (tokens : List Token) :
    (joined (token :: next :: tokens)).toList =
      token.text.toList ++ ' ' :: (joined (next :: tokens)).toList := by
  simp [joined, String.toList_intercalate]

theorem Lexical.stream {token : Token} (h : token.Lexical) {rest : List Char} (hrest : Parted rest)
    (file : String) (offset : Nat) :
    stream file offset (token.text.toList ++ rest) =
      (stream file (offset + Text.byteLength token.text.toList) rest).map
        (⟨token.kind, token.text, .ofBytes file offset (Text.byteLength token.text.toList)⟩ ::
          ·) := by
  rcases h.whole with ⟨rule, hkind, hfirst⟩
  simp only [stream_of_first? (hfirst rest hrest), hkind, String.ofList_toList]

private theorem stream_blank {token : Token} (h : token.Lexical) (tokens : List Token)
    (file : String) (offset : Nat) :
    stream file offset (' ' :: (joined (token :: tokens)).toList) =
      stream file (offset + 1) (joined (token :: tokens)).toList := by
  rcases h.whole.head with ⟨c, rest, htext, hc⟩
  obtain ⟨others, hjoined⟩ : ∃ others, (joined (token :: tokens)).toList = c :: others := by
    cases tokens with
    | nil => exact ⟨rest, by rw [joined_singleton, htext]⟩
    | cons next tokens => exact ⟨_, by rw [joined_cons_cons, htext, List.cons_append]⟩
  have hfirst : first? ([' '] ++ c :: others) = some (.blank, [' ']) := by
    rw [List.singleton_append, first?_blank (by decide), List.takeWhile_cons_of_neg hc]
  have hwidth : Text.byteLength [' '] = 1 := rfl
  rw [hjoined, ← List.singleton_append, stream_of_first? hfirst, hwidth]
  cases stream file (offset + 1) (c :: others) <;> rfl

private theorem stream_joined {tokens : List Token} (h : AllLexical tokens) (file : String)
    (offset : Nat) :
    ∃ placed, stream file offset (joined tokens).toList = .ok placed ∧
      placed.map spelling = tokens.map spelling ++ [(.endOfInput, "EOF")] := by
  induction tokens generalizing offset with
  | nil =>
      refine ⟨[endAt (.ofBytes file offset)], ?_, rfl⟩
      rw [show (joined []).toList = [] from rfl, stream]
  | cons token tokens ih =>
      have htoken := h.head
      have htokens := h.tail
      cases tokens with
      | nil =>
          have hlast : Parted [] := by simp [Parted]
          have hstream := htoken.stream hlast file offset
          rw [List.append_nil, stream] at hstream
          rw [joined_singleton, hstream]
          exact ⟨_, rfl, rfl⟩
      | cons next tokens =>
          have hparted : Parted (' ' :: (joined (next :: tokens)).toList) := by simp [Parted]
          rw [joined_cons_cons, htoken.stream hparted, stream_blank htokens.head]
          rcases ih htokens (offset + Text.byteLength token.text.toList + 1) with
            ⟨placed, hplaced, hspelling⟩
          rw [hplaced]
          exact ⟨_, rfl, congrArg (token.spelling :: ·) hspelling⟩

end Token

/-- The text that tokens are joined to has these tokens. -/
theorem tokenize_joined {tokens : List Token} (h : Token.AllLexical tokens)
    (file? : Option String) :
    ∃ placed, tokenize (Token.joined tokens) file? = .ok placed ∧
      placed.map Token.spelling = tokens.map Token.spelling ++ [(.endOfInput, "EOF")] :=
  Token.stream_joined h _ 0

end Assay
