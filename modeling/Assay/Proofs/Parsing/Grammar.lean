import Mathlib.Data.List.SplitBy
import Assay.Numeral.Decimal
import Assay.Numeral.Integer
import Assay.Tree

/-!
# The grammar of programs

The concrete syntax as relations between tokens and the trees they spell, with one
category for each nonterminal.  Which token stands for which operator is said here again, and not
taken from the parser.  Trees carry no spans here: every span is the null span.

```
program        := statement*
statement      := "declare" IDENT ":" IDENT ("=" expression)? ";"
                | IDENT "=" expression ";"
                | "if" guard block ("else" block)?
                | "while" guard block
                | "do" block "while" guard ";"
guard          := "(" expression ")"
block          := "{" statement* "}"
expression     := logical ("?" expression ":" expression)?
logical        := comparison (("&&" | "||") comparison)*
comparison     := additive (COMPARATOR additive)*
additive       := multiplicative (("+" | "-") multiplicative)*
multiplicative := unary (("*" | "/" | "%") unary)*
unary          := ("!" | "-") unary | primary
primary        := INTEGER | FLOAT | "true" | "false" | IDENT
                | "[" (expression ("," expression)* ","?)? "]" | "(" expression ")"
```

An expression has a nesting level.  Its first operand is on the same level; whatever
else it is made of (what stands in parentheses or brackets, what follows an operator,
the branches of a ternary) is one level deeper.  No expression lies deeper than a given
limit, and no more blocks than that are nested in one another.
-/

namespace Assay

/-! ## Signs

The kind of token that stands for an operator. -/

def UnaryOperator.sign : UnaryOperator → TokenKind
  | not => .not
  | neg => .dash

def Operator.sign {family : Family} : Operator family → TokenKind
  | and => .and
  | or => .or
  | add => .plus
  | sub => .dash
  | mul => .star
  | div => .slash
  | mod => .percent

def Comparator.sign : Comparator → TokenKind
  | less => .less
  | lessEquals => .lessEquals
  | greater => .greater
  | greaterEquals => .greaterEquals
  | equals => .equals
  | notEquals => .notEquals

namespace Grammar

/-- The nonterminals for expressions, from loosest to tightest. -/
inductive Category where
  | expression
  | logical
  | comparison
  | additive
  | multiplicative
  | unary
  | primary
  deriving DecidableEq, Repr

namespace Category

def tighter : Category → Category
  | expression => logical
  | logical => comparison
  | comparison => additive
  | additive => multiplicative
  | multiplicative => unary
  | unary => primary
  | primary => primary

def family? : Category → Option Family
  | logical => some .logical
  | additive => some .additive
  | multiplicative => some .multiplicative
  | _ => none

end Category

/-! ## Trees of linked operands -/

/-- One flat node over all operands of a family; a lone operand stands for itself. -/
def chained (family : Family) (first : Expr) : List (Operator family × Expr) → Expr
  | [] => first
  | link :: links =>
      .chain family (first :: (link :: links).map Prod.snd) ((link :: links).map Prod.fst) .null

def compared (first : Expr) : List (Comparator × Expr) → Expr
  | [] => first
  | (operator, operand) :: links =>
      .comparison operator (first :: operand :: links.map Prod.snd) .null

/-- Comparisons folded to the left: each maximal run of one operator is a chain, and its
first operand is the chain before it. -/
def comparedInRuns (first : Expr) (links : List (Comparator × Expr)) : Expr :=
  (links.splitBy fun left right => left.1 = right.1).foldl compared first

@[simp] theorem chained_nil (family : Family) (first : Expr) : chained family first [] = first :=
  rfl

@[simp] theorem comparedInRuns_nil (first : Expr) : comparedInRuns first [] = first := rfl

/-! ## Expressions -/

mutual

/-- The tokens are a phrase of the category, on the given level, with the given tree.  A
phrase of any category starts with a `unary` on the same level, so that is where the level
is held to the limit. -/
inductive Derives (limit : Nat) : Category → Nat → List Token → Expr → Prop where
  | plain {level : Nat} {tokens : List Token} {tree : Expr}
      (hlogical : Derives limit .logical level tokens tree) :
      Derives limit .expression level tokens tree
  | ternary {level : Nat} {question colon : Token} {first second third : List Token}
      {condition whenTrue whenFalse : Expr}
      (hquestion : question.kind = .question) (hcolon : colon.kind = .colon)
      (hcondition : Derives limit .logical level first condition)
      (hwhenTrue : Derives limit .expression (level + 1) second whenTrue)
      (hwhenFalse : Derives limit .expression (level + 1) third whenFalse) :
      Derives limit .expression level (first ++ question :: (second ++ colon :: third))
        (.ternary [condition, whenTrue, whenFalse] .null)
  -- The rule for `logical`, `additive` and `multiplicative`.
  | chain {category : Category} {family : Family} {level : Nat} {tokens more : List Token}
      {first : Expr} {links : List (Operator family × Expr)}
      (hfamily : category.family? = some family)
      (hfirst : Derives limit category.tighter level tokens first)
      (hlinks : Links limit Operator.sign category.tighter (level + 1) more links) :
      Derives limit category level (tokens ++ more) (chained family first links)
  | comparison {level : Nat} {tokens more : List Token} {first : Expr}
      {links : List (Comparator × Expr)}
      (hfirst : Derives limit .additive level tokens first)
      (hlinks : Links limit Comparator.sign .additive (level + 1) more links) :
      Derives limit .comparison level (tokens ++ more) (comparedInRuns first links)
  | unary {level : Nat} {sign : Token} {tokens : List Token} {operator : UnaryOperator}
      {operand : Expr} (hlevel : level ≤ limit)
      (hsign : sign.kind = operator.sign)
      (hoperand : Derives limit .unary (level + 1) tokens operand) :
      Derives limit .unary level (sign :: tokens) (.unary operator operand .null)
  | primary {level : Nat} {tokens : List Token} {tree : Expr} (hlevel : level ≤ limit)
      (hprimary : Derives limit .primary level tokens tree) :
      Derives limit .unary level tokens tree
  | integer {level : Nat} {token : Token} {value : Int64} (hkind : token.kind = .integer)
      (hvalue : Numeral.integer? token.text = some value) :
      Derives limit .primary level [token] (.integer value .null)
  | float {level : Nat} {token : Token} {value : Binary64} (hkind : token.kind = .float)
      (hvalue : Numeral.decimal? token.text = some value) :
      Derives limit .primary level [token] (.float value .null)
  | trueLiteral {level : Nat} {token : Token} (hkind : token.kind = .trueWord) :
      Derives limit .primary level [token] (.bool true .null)
  | falseLiteral {level : Nat} {token : Token} (hkind : token.kind = .falseWord) :
      Derives limit .primary level [token] (.bool false .null)
  | read {level : Nat} {token : Token} (hkind : token.kind = .identifier) :
      Derives limit .primary level [token] (.read ⟨token.text, .null⟩)
  | list {level : Nat} {opening closing : Token} {tokens : List Token} {elements : List Expr}
      (hopening : opening.kind = .openBracket) (hclosing : closing.kind = .closeBracket)
      (helements : Elements limit (level + 1) tokens elements) :
      Derives limit .primary level (opening :: (tokens ++ [closing])) (.list elements .null)
  | group {level : Nat} {opening closing : Token} {tokens : List Token} {tree : Expr}
      (hopening : opening.kind = .openParen) (hclosing : closing.kind = .closeParen)
      (hinner : Derives limit .expression (level + 1) tokens tree) :
      Derives limit .primary level (opening :: (tokens ++ [closing])) tree

/-- The tokens are any number of operators of one sort, each with the operand that follows
it. -/
inductive Links (limit : Nat) :
    {σ : Type} → (σ → TokenKind) → Category → Nat → List Token → List (σ × Expr) → Prop where
  | nil {σ : Type} {sign : σ → TokenKind} {category : Category} {level : Nat} :
      Links limit sign category level [] []
  | cons {σ : Type} {sign : σ → TokenKind} {category : Category} {level : Nat}
      {token : Token} {tokens more : List Token} {operator : σ} {operand : Expr}
      {links : List (σ × Expr)} (hsign : token.kind = sign operator)
      (hoperand : Derives limit category level tokens operand)
      (hlinks : Links limit sign category level more links) :
      Links limit sign category level (token :: (tokens ++ more)) ((operator, operand) :: links)

/-- The tokens are the elements of a list with the commas between them.  A comma may
follow the last element too. -/
inductive Elements (limit : Nat) : Nat → List Token → List Expr → Prop where
  | nil {level : Nat} : Elements limit level [] []
  | last {level : Nat} {tokens : List Token} {element : Expr}
      (helement : Derives limit .expression level tokens element) :
      Elements limit level tokens [element]
  | cons {level : Nat} {comma : Token} {tokens more : List Token} {element : Expr}
      {elements : List Expr} (hcomma : comma.kind = .comma)
      (helement : Derives limit .expression level tokens element)
      (helements : Elements limit level more elements) :
      Elements limit level (tokens ++ comma :: more) (element :: elements)

end

/-! ## Statements

Inside `blocks` blocks, an expression of a statement is on level `blocks + 1`. -/

inductive InitialValue (limit blocks : Nat) : List Token → Option Expr → Prop where
  | absent : InitialValue limit blocks [] none
  | present {equals : Token} {tokens : List Token} {tree : Expr}
      (hequals : equals.kind = .assignment)
      (hvalue : Derives limit .expression (blocks + 1) tokens tree) :
      InitialValue limit blocks (equals :: tokens) (some tree)

inductive Guard (limit blocks : Nat) : List Token → Condition → Prop where
  | mk {opening closing : Token} {tokens : List Token} {tree : Expr}
      (hopening : opening.kind = .openParen) (hclosing : closing.kind = .closeParen)
      (hexpr : Derives limit .expression (blocks + 1) tokens tree) :
      Guard limit blocks (opening :: (tokens ++ [closing])) ⟨some tree, .null⟩

mutual

inductive Statement (limit : Nat) : Nat → List Token → Stmt → Prop where
  | declare {blocks : Nat} {word name colon typeName semicolon : Token} {tokens : List Token}
      {value? : Option Expr} (hword : word.kind = .declareWord)
      (hname : name.kind = .identifier) (hcolon : colon.kind = .colon)
      (htypeName : typeName.kind = .identifier) (hsemicolon : semicolon.kind = .semicolon)
      (hvalue : InitialValue limit blocks tokens value?) :
      Statement limit blocks (word :: name :: colon :: typeName :: (tokens ++ [semicolon]))
        (.declare ⟨name.text, .null⟩ typeName.text value? .null)
  | assign {blocks : Nat} {name equals semicolon : Token} {tokens : List Token} {value : Expr}
      (hname : name.kind = .identifier) (hequals : equals.kind = .assignment)
      (hsemicolon : semicolon.kind = .semicolon)
      (hvalue : Derives limit .expression (blocks + 1) tokens value) :
      Statement limit blocks (name :: equals :: (tokens ++ [semicolon]))
        (.assign ⟨name.text, .null⟩ value .null)
  | branch {blocks : Nat} {word : Token} {first second third : List Token}
      {condition : Condition} {thenBody : Block} {elseBody? : Option Block}
      (hword : word.kind = .ifWord) (hcondition : Guard limit blocks first condition)
      (hthenBody : Braced limit blocks second thenBody)
      (helseBody : ElseBody limit blocks third elseBody?) :
      Statement limit blocks (word :: (first ++ (second ++ third)))
        (.branch condition thenBody elseBody? .null)
  | loop {blocks : Nat} {word : Token} {first second : List Token} {condition : Condition}
      {body : Block} (hword : word.kind = .whileWord)
      (hcondition : Guard limit blocks first condition)
      (hbody : Braced limit blocks second body) :
      Statement limit blocks (word :: (first ++ second)) (.loop condition body .null)
  | doLoop {blocks : Nat} {word while_ semicolon : Token} {first second : List Token}
      {body : Block} {condition : Condition} (hword : word.kind = .doWord)
      (hwhile : while_.kind = .whileWord) (hsemicolon : semicolon.kind = .semicolon)
      (hbody : Braced limit blocks first body)
      (hcondition : Guard limit blocks second condition) :
      Statement limit blocks (word :: (first ++ while_ :: (second ++ [semicolon])))
        (.doLoop body condition .null)

inductive Braced (limit : Nat) : Nat → List Token → Block → Prop where
  | mk {blocks : Nat} {opening closing : Token} {tokens : List Token} {body : List Stmt}
      (hlevel : blocks + 1 ≤ limit) (hopening : opening.kind = .openCurly)
      (hclosing : closing.kind = .closeCurly)
      (hbody : Statements limit (blocks + 1) tokens body) :
      Braced limit blocks (opening :: (tokens ++ [closing])) ⟨body, .null⟩

inductive ElseBody (limit : Nat) : Nat → List Token → Option Block → Prop where
  | absent {blocks : Nat} : ElseBody limit blocks [] none
  | present {blocks : Nat} {word : Token} {tokens : List Token} {body : Block}
      (hword : word.kind = .elseWord) (hbody : Braced limit blocks tokens body) :
      ElseBody limit blocks (word :: tokens) (some body)

inductive Statements (limit : Nat) : Nat → List Token → List Stmt → Prop where
  | nil {blocks : Nat} : Statements limit blocks [] []
  | cons {blocks : Nat} {tokens more : List Token} {stmt : Stmt} {stmts : List Stmt}
      (hstmt : Statement limit blocks tokens stmt)
      (hstmts : Statements limit blocks more stmts) :
      Statements limit blocks (tokens ++ more) (stmt :: stmts)

end

inductive Program (limit : Nat) : List Token → Block → Prop where
  | mk {tokens : List Token} {body : List Stmt} (hbody : Statements limit 0 tokens body) :
      Program limit tokens ⟨body, .null⟩

end Grammar

end Assay
