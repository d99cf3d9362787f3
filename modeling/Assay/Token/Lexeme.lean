import Assay.Numeral.Digits
import Assay.Text.Blank
import Assay.Token

/-!
# Lexemes

A lexeme is a stretch of source text that makes up one token, or that separates
tokens.  Each class of lexemes is a rule that takes its longest match off the
front of a text; the rules stand in a table, and the first one that matches is
the one that counts.  Decimals precede integers, comments precede the division mark,
and marks of two characters precede the marks they start with.

A rule stands for a regular expression that is anchored at the front of the text: for
`[a-zA-Z_][a-zA-Z0-9_]*`, `[0-9]+\.[0-9]+`, `[0-9]+`, `\s+`, `//.*`, and one or two signs that
stand for themselves.  The engine that matches them is not modelled.  It is assumed that its
match is the leftmost one, with the first alternative that fits and with every repetition as long
as it can be, that `\s` is the property White_Space and that `.` is any character but a newline.
-/

namespace Assay

inductive LexemeRule where
  | word
  | decimal
  | integer
  | blank
  | comment
  | pair (kind : TokenKind) (first second : Char) (literal : String)
  | mark (kind : TokenKind) (sign : Char) (literal : String)
  deriving DecidableEq, Repr

namespace LexemeRule

open Numeral (isDigit)

def isWordStart (c : Char) : Bool :=
  ('a' ≤ c && c ≤ 'z') || ('A' ≤ c && c ≤ 'Z') || c == '_'

def isWordPart (c : Char) : Bool := isWordStart c || isDigit c

def run? (inClass : Char → Bool) (text : List Char) : Option (List Char) :=
  match text.takeWhile inClass with
  | [] => none
  | run => some run

def word? : List Char → Option (List Char)
  | [] => none
  | c :: rest => if isWordStart c then some (c :: rest.takeWhile isWordPart) else none

def decimal? (text : List Char) : Option (List Char) :=
  (run? isDigit text).bind fun whole =>
    match text.drop whole.length with
    | '.' :: rest => (run? isDigit rest).map fun fraction => whole ++ '.' :: fraction
    | _ => none

def comment? : List Char → Option (List Char)
  | '/' :: '/' :: rest => some ('/' :: '/' :: rest.takeWhile (· ≠ '\n'))
  | _ => none

def pair? (first second : Char) : List Char → Option (List Char)
  | c :: d :: _ => if c = first ∧ d = second then some [c, d] else none
  | _ => none

def mark? (sign : Char) : List Char → Option (List Char)
  | c :: _ => if c = sign then some [c] else none
  | [] => none

def lexeme? : LexemeRule → List Char → Option (List Char)
  | word => word?
  | decimal => decimal?
  | integer => run? isDigit
  | blank => run? Text.isBlank
  | comment => comment?
  | pair _ first second _ => pair? first second
  | mark _ sign _ => mark? sign

def kind? : LexemeRule → List Char → Option TokenKind
  | word, lexeme => some ((reservedKind? (String.ofList lexeme)).getD .identifier)
  | decimal, _ => some .float
  | integer, _ => some .integer
  | blank, _ => none
  | comment, _ => none
  | pair kind _ _ _, _ => some kind
  | mark kind _ _, _ => some kind

def literal? : LexemeRule → Option String
  | pair _ _ _ literal => some literal
  | mark _ _ literal => some literal
  | _ => none

/-- The characters that are taken off the text when the rule has matched.  A mark is written in
one way only, so its rule does not look at the match again. -/
def taken (rule : LexemeRule) (lexeme : List Char) : List Char :=
  (rule.literal?.map String.toList).getD lexeme

/-- The rules in the order in which they are tried. -/
def table : List LexemeRule :=
  [word, decimal, integer, blank, comment,
   mark .openBracket '[' "[", mark .closeBracket ']' "]",
   mark .openCurly '\x7b' "\x7b", mark .closeCurly '\x7d' "\x7d",
   mark .openParen '(' "(", mark .closeParen ')' ")",
   pair .equals '=' '=' "==", pair .notEquals '!' '=' "!=",
   mark .not '!' "!", mark .assignment '=' "=",
   pair .lessEquals '<' '=' "<=", mark .less '<' "<",
   pair .greaterEquals '>' '=' ">=", mark .greater '>' ">",
   pair .or '|' '|' "||", pair .and '&' '&' "&&",
   mark .semicolon ';' ";", mark .colon ':' ":", mark .question '?' "?", mark .comma ',' ",",
   mark .plus '+' "+", mark .dash '-' "-", mark .slash '/' "/", mark .star '*' "*",
   mark .percent '%' "%"]

/-! ## A lexeme is a nonempty front part of the text -/

theorem takeWhile_eq {inClass : Char → Bool} {run after : List Char}
    (hrun : ∀ c ∈ run, inClass c) (hafter : ∀ c ∈ after.head?, ¬ inClass c) :
    (run ++ after).takeWhile inClass = run := by
  have hnone : after.takeWhile inClass = [] := by
    cases after with
    | nil => rfl
    | cons c rest => simp [hafter c rfl]
  rw [List.takeWhile_append_of_pos hrun, hnone, List.append_nil]

theorem run?_eq_some {inClass : Char → Bool} {text run : List Char}
    (h : run? inClass text = some run) : run ≠ [] ∧ run <+: text := by
  unfold run? at h
  split at h
  · contradiction
  · next nonempty =>
      cases h
      exact ⟨fun empty => nonempty empty, List.takeWhile_prefix _⟩

theorem word?_eq_some {text lexeme : List Char} (h : word? text = some lexeme) :
    lexeme ≠ [] ∧ lexeme <+: text := by
  unfold word? at h
  split at h
  · contradiction
  · split at h
    · cases h
      exact ⟨by simp, by simpa using List.takeWhile_prefix _⟩
    · contradiction

private theorem decimal?_eq_some {text lexeme : List Char} (h : decimal? text = some lexeme) :
    lexeme ≠ [] ∧ lexeme <+: text := by
  obtain ⟨whole, hwhole, h⟩ := Option.bind_eq_some_iff.mp h
  have front := (run?_eq_some hwhole).2
  split at h
  · next rest hrest =>
      obtain ⟨fraction, hfraction, rfl⟩ := Option.map_eq_some_iff.mp h
      obtain ⟨tail, htail⟩ := (run?_eq_some hfraction).2
      refine ⟨by simp, tail, ?_⟩
      rw [List.append_assoc, List.cons_append, htail, ← hrest]
      exact (List.prefix_iff_eq_append.mp front)
  · contradiction

private theorem comment?_eq_some {text lexeme : List Char} (h : comment? text = some lexeme) :
    lexeme ≠ [] ∧ lexeme <+: text := by
  unfold comment? at h
  split at h
  · cases h
    exact ⟨by simp, by simpa using List.takeWhile_prefix _⟩
  · contradiction

private theorem pair?_eq_some {first second : Char} {text lexeme : List Char}
    (h : pair? first second text = some lexeme) : lexeme ≠ [] ∧ lexeme <+: text := by
  unfold pair? at h
  split at h
  · split at h
    · cases h
      exact ⟨by simp, by simp⟩
    · contradiction
  · contradiction

private theorem mark?_eq_some {sign : Char} {text lexeme : List Char}
    (h : mark? sign text = some lexeme) : lexeme ≠ [] ∧ lexeme <+: text := by
  unfold mark? at h
  split at h
  · split at h
    · cases h
      exact ⟨by simp, by simp⟩
    · contradiction
  · contradiction

theorem lexeme?_eq_some {rule : LexemeRule} {text lexeme : List Char}
    (h : rule.lexeme? text = some lexeme) : lexeme ≠ [] ∧ lexeme <+: text := by
  cases rule with
  | word => exact word?_eq_some h
  | decimal => exact decimal?_eq_some h
  | integer => exact run?_eq_some h
  | blank => exact run?_eq_some h
  | comment => exact comment?_eq_some h
  | pair _ _ _ _ => exact pair?_eq_some h
  | mark _ _ _ => exact mark?_eq_some h

theorem pair?_eq {first second : Char} {text lexeme : List Char}
    (h : pair? first second text = some lexeme) : lexeme = [first, second] := by
  unfold pair? at h
  split at h
  · split at h
    · next hsigns =>
        cases h
        rw [hsigns.1, hsigns.2]
    · cases h
  · cases h

theorem mark?_eq {sign : Char} {text lexeme : List Char} (h : mark? sign text = some lexeme) :
    lexeme = [sign] := by
  unfold mark? at h
  split at h
  · split at h
    · next hsign =>
        cases h
        rw [hsign]
    · cases h
  · cases h

/-! ## What is taken off is the match -/

def signs : LexemeRule → List Char
  | pair _ first second _ => [first, second]
  | mark _ sign _ => [sign]
  | _ => []

private theorem eq_signs_of_literal? {rule : LexemeRule} {text lexeme : List Char}
    {literal : String}
    (hliteral : rule.literal? = some literal) (h : rule.lexeme? text = some lexeme) :
    lexeme = rule.signs := by
  cases rule with
  | word | decimal | integer | blank | comment => cases hliteral
  | pair _ _ _ _ => exact pair?_eq h
  | mark _ _ _ => exact mark?_eq h

/-- Every mark of the table has the signs that its rule looks for as its literal. -/
theorem literal?_of_mem_table :
    ∀ rule ∈ table, ∀ literal ∈ rule.literal?, literal = String.ofList rule.signs := by
  decide

theorem taken_eq {rule : LexemeRule} {text lexeme : List Char} (hrule : rule ∈ table)
    (h : rule.lexeme? text = some lexeme) : rule.taken lexeme = lexeme := by
  unfold taken
  cases hliteral : rule.literal? with
  | none => rfl
  | some literal =>
      have hsigns := literal?_of_mem_table rule hrule literal hliteral
      rw [Option.map_some, Option.getD_some, hsigns, String.toList_ofList]
      exact (eq_signs_of_literal? hliteral h).symm

/-! ## The rule that counts -/

def first? (text : List Char) : Option (LexemeRule × List Char) :=
  table.findSome? fun rule => (rule.lexeme? text).map (rule, ·)

theorem mem_table_of_first? {text lexeme : List Char} {rule : LexemeRule}
    (h : first? text = some (rule, lexeme)) : rule ∈ table := by
  obtain ⟨candidate, hmem, hcandidate⟩ := List.exists_of_findSome?_eq_some h
  obtain ⟨found, -, hfound⟩ := Option.map_eq_some_iff.mp hcandidate
  cases hfound
  exact hmem

theorem lexeme?_of_first? {text lexeme : List Char} {rule : LexemeRule}
    (h : first? text = some (rule, lexeme)) : rule.lexeme? text = some lexeme := by
  obtain ⟨candidate, -, hcandidate⟩ := List.exists_of_findSome?_eq_some h
  simp only [Option.map_eq_some_iff, Prod.mk.injEq] at hcandidate
  obtain ⟨found, hfound, rfl, rfl⟩ := hcandidate
  exact hfound

theorem taken_of_first? {text lexeme : List Char} {rule : LexemeRule}
    (h : first? text = some (rule, lexeme)) : rule.taken lexeme = lexeme :=
  taken_eq (mem_table_of_first? h) (lexeme?_of_first? h)

end LexemeRule

end Assay
