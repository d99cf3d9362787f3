import Assay.Proofs.Parsing.Grammar

/-!
# Tokens that are written

Most kinds of token have one text only, and each operator has one token that stands for it.
Tokens that are written, and not read, have no place in any source.
-/

namespace Assay

def TokenKind.text : TokenKind → String
  | endOfInput => "EOF"
  | integer | float | identifier => ""
  | openBracket => "["
  | closeBracket => "]"
  | openCurly => "\x7b"
  | closeCurly => "\x7d"
  | openParen => "("
  | closeParen => ")"
  | assignment => "="
  | equals => "=="
  | not => "!"
  | notEquals => "!="
  | less => "<"
  | lessEquals => "<="
  | greater => ">"
  | greaterEquals => ">="
  | or => "||"
  | and => "&&"
  | semicolon => ";"
  | colon => ":"
  | question => "?"
  | comma => ","
  | plus => "+"
  | dash => "-"
  | slash => "/"
  | star => "*"
  | percent => "%"
  | declareWord => "declare"
  | ifWord => "if"
  | elseWord => "else"
  | whileWord => "while"
  | doWord => "do"
  | trueWord => "true"
  | falseWord => "false"

/-- Whether a source has tokens of the kind, and all of them have one text. -/
def TokenKind.isFixed : TokenKind → Bool
  | endOfInput | integer | float | identifier => false
  | _ => true

namespace Token

def unplaced (kind : TokenKind) (text : String) : Token := ⟨kind, text, .null⟩

def fixed (kind : TokenKind) : Token := unplaced kind kind.text

@[simp] theorem kind_unplaced (kind : TokenKind) (text : String) :
    (unplaced kind text).kind = kind := rfl

@[simp] theorem kind_fixed (kind : TokenKind) : (fixed kind).kind = kind := rfl

end Token

def UnaryOperator.token (operator : UnaryOperator) : Token := .fixed operator.sign

def Operator.token {family : Family} (operator : Operator family) : Token := .fixed operator.sign

def Comparator.token (operator : Comparator) : Token := .fixed operator.sign

theorem Operator.kind_token {family : Family} (operator : Operator family) :
    operator.token.kind = operator.sign := rfl

theorem Comparator.kind_token (operator : Comparator) :
    operator.token.kind = operator.sign := rfl

end Assay
