import Mathlib.Data.List.MinMax
import Assay.Proofs.Token.Lossless

/-!
# The longest match

The rules are tried in order, and the first one that matches counts.  The order is such that
this is the rule with the longest match: rules that open with different characters never match
the same text, and of two that open alike the one that is tried first goes on where the other
ends.  So the tokenizer is the one that always takes the longest match, and no two rules ever
tie for it.
-/

namespace Assay

private theorem Text.byteLength_lt_of_prefix {shorter longer text : List Char}
    (hshorter : shorter <+: text) (hlonger : longer <+: text) (h : shorter.length < longer.length) :
    byteLength shorter < byteLength longer := by
  rcases List.prefix_of_prefix_length_le hshorter hlonger (Nat.le_of_lt h) with ⟨rest, rfl⟩
  have hrest : rest ≠ [] := by
    rintro rfl
    simp at h
  rw [byteLength_append]
  exact Nat.lt_add_of_pos_right (byteLength_pos hrest)

namespace LexemeRule

open Numeral (isDigit)

/-! ## How lexemes open -/

inductive Opening where
  | letter
  | digit
  | blank
  | sign (c : Char)
  deriving DecidableEq

namespace Opening

def ofChar (c : Char) : Opening :=
  if isWordStart c then letter
  else if isDigit c then digit
  else if Text.isBlank c then blank
  else sign c

def sign? : Opening → Option Char
  | sign c => some c
  | _ => none

private theorem ofChar_letter {c : Char} (h : isWordStart c) : ofChar c = letter := by
  simp [ofChar, h]

private theorem ofChar_digit {c : Char} (h : isDigit c) : ofChar c = digit := by
  simp [ofChar, h, not_isWordStart_of_isDigit h]

private theorem ofChar_blank {c : Char} (h : Text.isBlank c) : ofChar c = blank := by
  simp [ofChar, h, not_isWordStart_of_isBlank h, not_isDigit_of_isBlank h]

end Opening

def opening : LexemeRule → Opening
  | word => .letter
  | decimal | integer => .digit
  | blank => .blank
  | comment => .sign '/'
  | pair _ first _ _ => .sign first
  | mark _ sign _ => .sign sign

private theorem table_signs :
    ∀ rule ∈ table, ∀ c ∈ rule.opening.sign?, Opening.ofChar c = .sign c := by
  simp only [table, List.forall_mem_cons]
  and_intros
  all_goals
    intro c hc
    cases hc <;> rfl

/-- Rules that match the same text open alike. -/
theorem opening_of_lexeme? {rule : LexemeRule} (hrule : rule ∈ table) {c : Char}
    {rest lexeme : List Char} (h : rule.lexeme? (c :: rest) = some lexeme) :
    rule.opening = .ofChar c := by
  have hsigns := table_signs rule hrule
  have hfront := (lexeme?_eq_some h).2
  cases rule with
  | word =>
      by_cases hc : isWordStart c
      · exact (Opening.ofChar_letter hc).symm
      · simp [word?_eq_none hc] at h
  | decimal =>
      by_cases hc : isDigit c
      · exact (Opening.ofChar_digit hc).symm
      · simp [decimal?_eq_none hc] at h
  | integer =>
      by_cases hc : isDigit c
      · exact (Opening.ofChar_digit hc).symm
      · simp [run?_eq_none hc] at h
  | blank =>
      by_cases hc : Text.isBlank c
      · exact (Opening.ofChar_blank hc).symm
      · simp [run?_eq_none hc] at h
  | comment =>
      rcases comment?_eq h with ⟨others, htext, -⟩
      rw [(List.cons.inj htext).1]
      exact (hsigns '/' rfl).symm
  | pair kind first second literal =>
      rw [pair?_eq h, List.cons_prefix_cons] at hfront
      rw [← hfront.1]
      exact (hsigns first rfl).symm
  | mark kind sign literal =>
      change mark? sign (c :: rest) = some lexeme at h
      rw [mark?_eq h, List.cons_prefix_cons] at hfront
      rw [← hfront.1]
      exact (hsigns sign rfl).symm

/-! ## Rules that open alike -/

/-- Lexemes of the first rule go on where lexemes of the other end. -/
def prolongs : LexemeRule → LexemeRule → Bool
  | decimal, integer | comment, mark .. | pair .., mark .. => true
  | _, _ => false

/-- Of two rules that open alike, the one that is tried first prolongs the other. -/
theorem table_prolongs :
    table.Pairwise fun rule other => rule.opening = other.opening → rule.prolongs other := by
  decide

private theorem length_lt_of_prolongs {rule other : LexemeRule} (hprolongs : rule.prolongs other)
    {text longer shorter : List Char} (hlonger : rule.lexeme? text = some longer)
    (hshorter : other.lexeme? text = some shorter) : shorter.length < longer.length := by
  cases rule with
  | word | integer | blank | mark => cases hprolongs
  | decimal =>
      cases other with
      | integer =>
          rcases decimal?_eq hlonger with ⟨whole, fraction, rest, hne, hdigits, rfl, -, rfl⟩
          have hwhole : run? isDigit (whole ++ '.' :: rest) = some whole :=
            run?_eq hne hdigits (by simp [isDigit])
          cases hwhole.symm.trans hshorter
          simp
      | _ => cases hprolongs
  | comment =>
      cases other with
      | mark =>
          rcases comment?_eq hlonger with ⟨rest, -, rfl⟩
          rw [mark?_eq hshorter]
          simp
      | _ => cases hprolongs
  | pair =>
      cases other with
      | mark =>
          rw [pair?_eq hlonger, mark?_eq hshorter]
          simp
      | _ => cases hprolongs

def Outmatches (rule other : LexemeRule) : Prop :=
  ∀ ⦃text longer shorter : List Char⦄, rule.lexeme? text = some longer →
    other.lexeme? text = some shorter → Text.byteLength shorter < Text.byteLength longer

private theorem table_outmatches : table.Pairwise Outmatches := by
  refine table_prolongs.imp_of_mem ?_
  intro rule other hrule hother hprolongs text longer shorter hlonger hshorter
  rcases lexeme?_eq_some hlonger with ⟨hne, hfront⟩
  rcases lexeme?_eq_some hshorter with ⟨-, hfront'⟩
  cases text with
  | nil => exact absurd (List.prefix_nil.mp hfront) hne
  | cons c rest =>
      have hopening : rule.opening = other.opening :=
        (opening_of_lexeme? hrule hlonger).trans (opening_of_lexeme? hother hshorter).symm
      exact Text.byteLength_lt_of_prefix hfront' hfront
        (length_lt_of_prolongs (hprolongs hopening) hlonger hshorter)

/-! ## All matches of a text -/

def candidates (text : List Char) : List (LexemeRule × List Char) :=
  table.filterMap fun rule => (rule.lexeme? text).map (rule, ·)

def longest? (text : List Char) : Option (LexemeRule × List Char) :=
  (candidates text).argmax fun candidate => Text.byteLength candidate.2

private theorem mem_candidates {text lexeme : List Char} {rule : LexemeRule} :
    (rule, lexeme) ∈ candidates text ↔ rule ∈ table ∧ rule.lexeme? text = some lexeme := by
  simp only [candidates, List.mem_filterMap, Option.map_eq_some_iff, Prod.mk.injEq]
  constructor
  · rintro ⟨_, hrule, _, hlexeme, rfl, rfl⟩
    exact ⟨hrule, hlexeme⟩
  · rintro ⟨hrule, hlexeme⟩
    exact ⟨rule, hrule, lexeme, hlexeme, rfl, rfl⟩

private theorem candidates_pairwise (text : List Char) :
    (candidates text).Pairwise fun candidate other =>
      Text.byteLength other.2 < Text.byteLength candidate.2 := by
  refine List.Pairwise.filterMap _ ?_ table_outmatches
  intro rule other houtmatches candidate hcandidate another hanother
  rw [Option.map_eq_some_iff] at hcandidate hanother
  rcases hcandidate with ⟨longer, hlonger, rfl⟩
  rcases hanother with ⟨shorter, hshorter, rfl⟩
  exact houtmatches hlonger hshorter

private theorem longest?_eq_head? (text : List Char) : longest? text = (candidates text).head? := by
  have hpairwise := candidates_pairwise text
  unfold longest?
  generalize candidates text = candidates at hpairwise
  cases candidates with
  | nil => rfl
  | cons first others =>
      rw [List.head?_cons, List.argmax_eq_some_iff]
      refine ⟨List.mem_cons_self, List.forall_mem_cons.mpr ⟨Nat.le_refl _, ?_⟩, ?_⟩
      · exact fun other hother => Nat.le_of_lt (List.rel_of_pairwise_cons hpairwise hother)
      · simp

private theorem longest?_eq_first? (text : List Char) : longest? text = first? text := by
  rw [longest?_eq_head?, candidates, List.head?_filterMap]
  rfl

private theorem mem_of_longest? {text lexeme : List Char} {rule : LexemeRule}
    (h : longest? text = some (rule, lexeme)) :
    rule ∈ table ∧ rule.lexeme? text = some lexeme :=
  mem_candidates.mp (List.argmax_mem h)

/-- The rule matches, and no rule of the table has a longer match. -/
structure IsLongest (text : List Char) (rule : LexemeRule) (lexeme : List Char) : Prop where
  mem : rule ∈ table
  matches_text : rule.lexeme? text = some lexeme
  longest : ∀ other ∈ table, ∀ found, other.lexeme? text = some found →
    Text.byteLength found ≤ Text.byteLength lexeme

private theorem isLongest_iff {text lexeme : List Char} {rule : LexemeRule} :
    IsLongest text rule lexeme ↔ first? text = some (rule, lexeme) := by
  rw [← longest?_eq_first?, longest?_eq_head?]
  have hpairwise := candidates_pairwise text
  constructor
  · rintro ⟨hrule, hlexeme, hlongest⟩
    have hmem := mem_candidates.mpr ⟨hrule, hlexeme⟩
    cases hcandidates : candidates text with
    | nil => simp [hcandidates] at hmem
    | cons first others =>
        rw [hcandidates] at hmem hpairwise
        rcases List.mem_cons.mp hmem with rfl | hother
        · rfl
        · -- What stands behind the first match is shorter than it.
          have hshorter := List.rel_of_pairwise_cons hpairwise hother
          have hfirst : (first.1, first.2) ∈ candidates text := by simp [hcandidates]
          have hle := hlongest first.1 (mem_candidates.mp hfirst).1 first.2
            (mem_candidates.mp hfirst).2
          exact absurd hshorter (Nat.not_lt.mpr hle)
  · intro hhead
    rcases List.head?_eq_some_iff.mp hhead with ⟨others, hcandidates⟩
    have hfirst : (rule, lexeme) ∈ candidates text := by simp [hcandidates]
    rw [hcandidates] at hpairwise
    refine ⟨(mem_candidates.mp hfirst).1, (mem_candidates.mp hfirst).2, ?_⟩
    intro other hother found hfound
    have hmem := mem_candidates.mpr ⟨hother, hfound⟩
    rw [hcandidates] at hmem
    rcases List.mem_cons.mp hmem with heq | hlater
    · cases heq
      exact Nat.le_refl _
    · exact Nat.le_of_lt (List.rel_of_pairwise_cons hpairwise hlater)

private theorem first?_ne_none {text lexeme : List Char} {rule : LexemeRule} (hrule : rule ∈ table)
    (h : rule.lexeme? text = some lexeme) : first? text ≠ none := by
  intro hnone
  have hrules := List.findSome?_eq_none_iff.mp hnone rule hrule
  simp [h] at hrules

end LexemeRule

namespace Token

open LexemeRule

/-- The tokens of a text, cut by the longest match at every step. -/
def longestStream (file : String) (offset : Nat) (text : List Char) :
    Except Diagnostic (List Token) :=
  match text with
  | [] => .ok [endAt (.ofBytes file offset)]
  | c :: rest =>
      match _h : longest? (c :: rest) with
      | none => .error ⟨.unrecognisedToken c.toString, .ofBytes file offset⟩
      | some (rule, lexeme) => do
          let taken := rule.taken lexeme
          let width := Text.byteLength taken
          let tokens ← longestStream file (offset + width) ((c :: rest).drop taken.length)
          match rule.kind? lexeme with
          | none => .ok tokens
          | some kind =>
              .ok (⟨kind, String.ofList taken, .ofBytes file offset width⟩ :: tokens)
termination_by text.length
decreasing_by
  have hlexeme := mem_of_longest? _h
  have hpos := List.length_pos_iff.mpr (lexeme?_eq_some hlexeme.2).1
  simp only [taken_eq hlexeme.1 hlexeme.2, List.length_drop, List.length_cons]
  omega

private theorem longestStream_eq_stream (file : String) (offset : Nat) (text : List Char) :
    longestStream file offset text = stream file offset text := by
  fun_induction stream file offset text with
  | case1 offset => rw [longestStream]
  | case2 offset c rest hfirst =>
      rw [longestStream]
      split
      · rfl
      · next hlongest =>
          rw [longest?_eq_first?, hfirst] at hlongest
          cases hlongest
  | case3 offset c rest rule lexeme hfirst taken width ih =>
      rw [longestStream]
      split
      · next hlongest =>
          rw [longest?_eq_first?, hfirst] at hlongest
          cases hlongest
      · next hlongest =>
          rw [longest?_eq_first?, hfirst] at hlongest
          cases hlongest
          rewrite [← ih]
          rfl

end Token

def tokenizeLongest (source : String) (file? : Option String) : Except Diagnostic (List Token) :=
  Token.longestStream (file?.getD interactiveFile) 0 source.toList

open LexemeRule in
/-- The tokenizer is the one that takes the longest match at every step.  Where any rule matches,
just one rule has the longest match; what it takes off the text is as wide as the match and not
empty, and the tokenizer goes on behind it. -/
theorem tokenize_longest :
    (∀ source file?, tokenize source file? = tokenizeLongest source file?) ∧
    ∀ text, (∃ rule ∈ table, ∃ lexeme, rule.lexeme? text = some lexeme) →
      ∃ rule lexeme, IsLongest text rule lexeme ∧
        (∀ other found, IsLongest text other found → other = rule) ∧
        Text.byteLength (rule.taken lexeme) = Text.byteLength lexeme ∧
        1 ≤ Text.byteLength lexeme ∧
        ∃ rest, text = lexeme ++ rest ∧ ∀ file offset, ∃ added,
          Token.stream file offset text =
            (Token.stream file (offset + Text.byteLength (rule.taken lexeme)) rest).map
              (added ++ ·) := by
  constructor
  · intro source file?
    exact (Token.longestStream_eq_stream _ _ _).symm
  · rintro text ⟨matching, hmatching, found, hfound⟩
    rcases Option.ne_none_iff_exists'.mp (first?_ne_none hmatching hfound) with
      ⟨⟨rule, lexeme⟩, hfirst⟩
    have hlexeme := lexeme?_of_first? hfirst
    rcases lexeme?_eq_some hlexeme with ⟨hne, rest, rfl⟩
    refine ⟨rule, lexeme, isLongest_iff.mpr hfirst, ?_, ?_, Text.byteLength_pos hne, rest, rfl, ?_⟩
    · intro other found hother
      have hpair := (isLongest_iff.mp hother).symm.trans hfirst
      exact congrArg Prod.fst (Option.some.inj hpair)
    · rw [taken_of_first? hfirst]
    · intro file offset
      rw [taken_of_first? hfirst, Token.stream_of_first? hfirst]
      cases rule.kind? lexeme with
      | none => exact ⟨[], by simp⟩
      | some kind => exact ⟨[_], rfl⟩

/-- An integer matches as well, but the decimal is longer, and it is the only one. -/
theorem tokenize_longest_decimal :
    let text := "1.5<=x".toList
    LexemeRule.integer.lexeme? text = some ['1'] ∧
      ∃ rule lexeme, LexemeRule.IsLongest text rule lexeme ∧
        (∀ other found, LexemeRule.IsLongest text other found → other = rule) ∧
        Text.byteLength (rule.taken lexeme) = Text.byteLength lexeme ∧
        1 ≤ Text.byteLength lexeme := by
  intro text
  have hinteger : LexemeRule.integer.lexeme? text = some ['1'] := rfl
  have hmem : LexemeRule.integer ∈ LexemeRule.table := by simp [LexemeRule.table]
  rcases tokenize_longest.2 text ⟨.integer, hmem, ['1'], hinteger⟩ with
    ⟨rule, lexeme, hlongest, honly, hwidth, hpos, -⟩
  exact ⟨hinteger, rule, lexeme, hlongest, honly, hwidth, hpos⟩

end Assay
