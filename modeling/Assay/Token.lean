import Assay.Position

/-!
# Tokens

A token is a kind, the text it was read from, and the span of that text.  Words
that the language reserves have kinds of their own; every other word is an
identifier.
-/

namespace Assay

inductive TokenKind where
  | endOfInput
  | integer
  | float
  | identifier
  | openBracket
  | closeBracket
  | openCurly
  | closeCurly
  | openParen
  | closeParen
  | assignment
  | equals
  | not
  | notEquals
  | less
  | lessEquals
  | greater
  | greaterEquals
  | or
  | and
  | semicolon
  | colon
  | question
  | comma
  | plus
  | dash
  | slash
  | star
  | percent
  | declareWord
  | ifWord
  | elseWord
  | whileWord
  | doWord
  | trueWord
  | falseWord
  deriving DecidableEq, Repr

namespace TokenKind

def name : TokenKind → String
  | endOfInput => "EOF"
  | integer => "Integer"
  | float => "Float"
  | identifier => "Identifier"
  | openBracket => "OpenBracket"
  | closeBracket => "CloseBracket"
  | openCurly => "OpenCurly"
  | closeCurly => "CloseCurly"
  | openParen => "OpenParen"
  | closeParen => "CloseParen"
  | assignment => "Assignment"
  | equals => "Equals"
  | not => "Not"
  | notEquals => "NotEquals"
  | less => "Less"
  | lessEquals => "LessEquals"
  | greater => "Greater"
  | greaterEquals => "GreaterEquals"
  | or => "Or"
  | and => "And"
  | semicolon => "Semicolon"
  | colon => "Colon"
  | question => "Question"
  | comma => "Comma"
  | plus => "Plus"
  | dash => "Dash"
  | slash => "Slash"
  | star => "Star"
  | percent => "Percent"
  | declareWord => "Declare"
  | ifWord => "If"
  | elseWord => "Else"
  | whileWord => "While"
  | doWord => "Do"
  | trueWord => "True"
  | falseWord => "False"

def all : List TokenKind :=
  [endOfInput, integer, float, identifier, openBracket, closeBracket, openCurly,
   closeCurly, openParen, closeParen, assignment, equals, not, notEquals, less,
   lessEquals, greater, greaterEquals, or, and, semicolon, colon, question, comma,
   plus, dash, slash, star, percent, declareWord, ifWord, elseWord, whileWord, doWord,
   trueWord, falseWord]

def ofName? (name : String) : Option TokenKind := all.find? fun kind => kind.name == name

theorem ofName?_name (kind : TokenKind) : ofName? kind.name = some kind := by
  cases kind <;> decide

end TokenKind

def reservedWords : List (String × TokenKind) :=
  [("declare", .declareWord), ("if", .ifWord), ("else", .elseWord), ("while", .whileWord),
   ("do", .doWord), ("true", .trueWord), ("false", .falseWord)]

def reservedKind? (word : String) : Option TokenKind := reservedWords.lookup word

structure Token where
  kind : TokenKind
  text : String
  span : Span
  deriving DecidableEq, Repr

namespace Token

def endAt (position : Position) : Token := ⟨.endOfInput, "EOF", .empty position⟩

def display (token : Token) : String :=
  "Token \x7b\nkind: " ++ token.kind.name ++ ",\nvalue: " ++ token.text ++ "\x7d"

end Token

end Assay
