import Assay.Tree

/-!
# Dialects

Parsing is driven by the kind of the token at hand: it opens an expression in some
form, continues the expression before it with some binding power, or opens a
statement in some form.  A dialect is the choice of these forms.  `standard` is
the language proper; other dialects arise from `empty` or `standard` by setting
single entries.
-/

namespace Assay

/-- How tightly an operator binds its operands, from loosest to tightest. -/
inductive Power where
  | lowest
  | ternary
  | logical
  | relational
  | additive
  | multiplicative
  | unary
  | primary
  deriving DecidableEq, Repr

namespace Power

def rank : Power → Nat
  | lowest => 0
  | ternary => 1
  | logical => 2
  | relational => 3
  | additive => 4
  | multiplicative => 5
  | unary => 6
  | primary => 7

instance : LT Power := ⟨fun left right => left.rank < right.rank⟩

instance (left right : Power) : Decidable (left < right) :=
  inferInstanceAs (Decidable (left.rank < right.rank))

end Power

inductive OpeningForm where
  | atom
  | unary
  | group
  | list
  deriving DecidableEq, Repr

inductive ContinuationForm where
  | ternary
  | chain (family : Family)
  | comparison
  deriving DecidableEq, Repr

inductive StatementForm where
  | declare
  | assign
  | branch
  | loop
  | doLoop
  deriving DecidableEq, Repr

/-- The power of a token that continues an expression, and the form in which it does, stand in
two tables.  Nothing keeps a dialect from having an entry in one of them only. -/
structure Dialect where
  opening? : TokenKind → Option OpeningForm
  power? : TokenKind → Option Power
  continuation? : TokenKind → Option ContinuationForm
  statement? : TokenKind → Option StatementForm

namespace Dialect

def empty : Dialect := ⟨fun _ => none, fun _ => none, fun _ => none, fun _ => none⟩

def standard : Dialect where
  opening?
    | .integer | .float | .trueWord | .falseWord | .identifier => some .atom
    | .openBracket => some .list
    | .openParen => some .group
    | .not | .dash => some .unary
    | _ => none
  power?
    | .question => some .ternary
    | .and | .or => some .logical
    | .less | .lessEquals | .greater | .greaterEquals | .equals | .notEquals => some .relational
    | .plus | .dash => some .additive
    | .star | .slash | .percent => some .multiplicative
    | _ => none
  continuation?
    | .question => some .ternary
    | .and | .or => some (.chain .logical)
    | .less | .lessEquals | .greater | .greaterEquals | .equals | .notEquals => some .comparison
    | .plus | .dash => some (.chain .additive)
    | .star | .slash | .percent => some (.chain .multiplicative)
    | _ => none
  statement?
    | .declareWord => some .declare
    | .identifier => some .assign
    | .ifWord => some .branch
    | .whileWord => some .loop
    | .doWord => some .doLoop
    | _ => none

/-- The binding power of a token; the lowest when it has none. -/
def power (dialect : Dialect) (kind : TokenKind) : Power := (dialect.power? kind).getD .lowest

/-- The two tables for continuations agree in the standard dialect: a token has a power above the
lowest if and only if it continues an expression in some form. -/
theorem lowest_lt_power_iff {kind : TokenKind} :
    .lowest < standard.power kind ↔ (standard.continuation? kind).isSome := by
  cases kind <;> decide

def setOpening (dialect : Dialect) (kind : TokenKind) (form : OpeningForm) : Dialect :=
  { dialect with opening? := fun k => if k = kind then some form else dialect.opening? k }

def setContinuation (dialect : Dialect) (kind : TokenKind) (power : Power)
    (form : ContinuationForm) : Dialect :=
  { dialect with
    power? := fun k => if k = kind then some power else dialect.power? k
    continuation? := fun k => if k = kind then some form else dialect.continuation? k }

def setStatement (dialect : Dialect) (kind : TokenKind) (form : StatementForm) : Dialect :=
  { dialect with statement? := fun k => if k = kind then some form else dialect.statement? k }

def keys {form : Type} (table : TokenKind → Option form) : List TokenKind :=
  TokenKind.all.filter fun kind => (table kind).isSome

end Dialect

end Assay
