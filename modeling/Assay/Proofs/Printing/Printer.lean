import Assay.Proofs.Parsing.Precedence
import Assay.Proofs.Tree.Height
import Assay.Proofs.Tree.Sign

/-!
# Writing programs

A tree is written as the tokens of a phrase, and a program as the texts of its tokens with
single blanks between them.  Parentheses stand where the grammar asks for a tighter category
than that of the tree: around an operand that binds no tighter than its operator, around
what a sign applies to unless it is a sign or a primary phrase, around a condition that is
itself a ternary.  One exception is made: a comparison that is restarted by another operator
stands bare.
-/

namespace Assay

open Grammar (Category)

namespace Numeral

def IsPointed (text : String) : Prop :=
  ∃ whole fraction : List Char, whole ≠ [] ∧ fraction ≠ [] ∧ (∀ c ∈ whole, isDigit c) ∧
    (∀ c ∈ fraction, isDigit c) ∧ text = String.ofList (whole ++ '.' :: fraction)

/-- The text denotes the number, in the form in which a source has it. -/
def Denotes (text : String) (number : Binary64) : Prop :=
  IsPointed text ∧ decimal? text = some number

/-- A choice of a text for each number that has one. -/
structure Spelling where
  text : Binary64 → String
  denotes : ∀ {source number}, Denotes source number → Denotes (text number) number

private theorem exists_text (number : Binary64) :
    ∃ text, ∀ source, Denotes source number → Denotes text number := by
  by_cases h : ∃ source, Denotes source number
  · rcases h with ⟨source, hsource⟩
    exact ⟨source, fun _ _ => hsource⟩
  · exact ⟨"", fun source hsource => absurd ⟨source, hsource⟩ h⟩

instance : Nonempty Spelling := by
  rcases Classical.axiomOfChoice exists_text with ⟨text, htext⟩
  exact ⟨text, fun h => htext _ _ h⟩

end Numeral

open Numeral (Spelling)

/-! ## Expressions -/

namespace Expr

def category : Expr → Category
  | ternary _ _ => .expression
  | chain family _ _ _ => family.category
  | comparison _ _ _ => .comparison
  | unary _ _ _ => .unary
  | _ => .primary

def enclosed (category : Category) (tree : Expr) (tokens : List Token) : List Token :=
  if tree.category.rank < category.rank then
    .fixed .openParen :: (tokens ++ [.fixed .closeParen])
  else tokens

def enclosedFirst (operator : Comparator) (tree : Expr) (tokens : List Token) : List Token :=
  if tree.restartedBy operator then tokens else tree.enclosed .additive tokens

end Expr

mutual

def Expr.written (spelling : Spelling) : Expr → List Token
  | .integer number _ => [.unplaced .integer (toString number.toInt)]
  | .float number _ => [.unplaced .float (spelling.text number)]
  | .bool true _ => [.fixed .trueWord]
  | .bool false _ => [.fixed .falseWord]
  | .identifier name => [.unplaced .identifier name.name]
  | .hole _ => []
  | .value inner _ => inner.written spelling
  | .list elements _ =>
      .fixed .openBracket :: (Expr.writtenElements spelling elements ++ [.fixed .closeBracket])
  | .unary operator operand _ =>
      operator.token :: operand.enclosed .unary (operand.written spelling)
  | .chain family operands operators _ =>
      match operands with
      | [] => []
      | first :: others =>
          first.enclosed family.category.tighter (first.written spelling) ++
            Expr.writtenLinks spelling family.category.tighter others (operators.map Operator.token)
  | .comparison operator operands _ =>
      match operands with
      | [] => []
      | first :: others =>
          first.enclosedFirst operator (first.written spelling) ++
            Expr.writtenLinks spelling .additive others
              (List.replicate others.length operator.token)
  | .ternary operands _ =>
      match operands with
      | [condition, whenTrue, whenFalse] =>
          condition.enclosed .logical (condition.written spelling) ++
            .fixed .question :: (whenTrue.written spelling ++
              .fixed .colon :: whenFalse.written spelling)
      | _ => []

def Expr.writtenElements (spelling : Spelling) : List Expr → List Token
  | [] => []
  | [last] => last.written spelling
  | element :: elements =>
      element.written spelling ++ .fixed .comma :: Expr.writtenElements spelling elements

def Expr.writtenLinks (spelling : Spelling) (category : Category) :
    List Expr → List Token → List Token
  | operand :: operands, sign :: signs =>
      sign :: (operand.enclosed category (operand.written spelling) ++
        Expr.writtenLinks spelling category operands signs)
  | _, _ => []

end

@[simp] theorem Expr.writtenLinks_nil (spelling : Spelling) (category : Category)
    (signs : List Token) : Expr.writtenLinks spelling category [] signs = [] := by
  cases signs <;> rfl

/-! ## Statements -/

def Condition.written (spelling : Spelling) (condition : Condition) : List Token :=
  .fixed .openParen ::
    ((condition.expr?.map (Expr.written spelling)).getD [] ++ [.fixed .closeParen])

def Expr.writtenValue (spelling : Spelling) : Option Expr → List Token
  | none => []
  | some tree => .fixed .assignment :: tree.written spelling

mutual

def Stmt.written (spelling : Spelling) : Stmt → List Token
  | .declare name typeName value? _ =>
      .fixed .declareWord :: .unplaced .identifier name.name :: .fixed .colon ::
        .unplaced .identifier typeName ::
          (Expr.writtenValue spelling value? ++ [.fixed .semicolon])
  | .assign name value _ =>
      .unplaced .identifier name.name :: .fixed .assignment ::
        (value.written spelling ++ [.fixed .semicolon])
  | .branch condition thenBody elseBody? _ =>
      .fixed .ifWord :: (condition.written spelling ++
        (thenBody.written spelling ++ Block.writtenElse spelling elseBody?))
  | .loop condition body _ =>
      .fixed .whileWord :: (condition.written spelling ++ body.written spelling)
  | .doLoop body condition _ =>
      .fixed .doWord :: (body.written spelling ++
        .fixed .whileWord :: (condition.written spelling ++ [.fixed .semicolon]))

def Block.written (spelling : Spelling) : Block → List Token
  | .mk body _ => .fixed .openCurly :: (Stmt.writtenAll spelling body ++ [.fixed .closeCurly])

def Block.writtenElse (spelling : Spelling) : Option Block → List Token
  | none => []
  | some body => .fixed .elseWord :: body.written spelling

def Stmt.writtenAll (spelling : Spelling) : List Stmt → List Token
  | [] => []
  | stmt :: stmts => stmt.written spelling ++ Stmt.writtenAll spelling stmts

end

def Token.joined (tokens : List Token) : String := " ".intercalate (tokens.map Token.text)

def Block.print (spelling : Spelling) (program : Block) : String :=
  Token.joined (Stmt.writtenAll spelling program.body)

end Assay
