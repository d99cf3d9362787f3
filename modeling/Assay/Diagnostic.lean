import Assay.Position
import Assay.Text.Quoted

/-!
# Diagnostics

A diagnostic is a cause found at a position.  The cause fixes three texts: the
name of the fault, a one-line message, and a tip for the reader of the rendered
form.  Faults of meaning, which only the type checker finds, are set apart from
faults of form.
-/

namespace Assay

inductive Cause where
  | unrecognisedToken (token : String)
  | unexpectedToken (token : String)
  | unexpectedTokenDetailed (token message : String)
  | numberParse (token : String)
  | unknownType (name : String)
  | multipleDeclaration (name : String)
  | undeclaredVariable (name : String)
  | assignmentTypeMismatch (name : String)
  | invalidCondition
  | invalidExpressionType
  | malformedNode (node : String) (children : Nat)
  | stalled (token : String)
  deriving DecidableEq, Repr

structure Diagnostic where
  cause : Cause
  position : Position
  deriving DecidableEq, Repr

namespace Cause

def name : Cause → String
  | unrecognisedToken _ => "UnrecognisedToken"
  | unexpectedToken _ => "UnexpectedToken"
  | unexpectedTokenDetailed _ _ => "UnexpectedTokenDetailed"
  | numberParse _ => "NumberParseError"
  | unknownType _ => "UnknownType"
  | multipleDeclaration _ => "MultipleDeclaration"
  | undeclaredVariable _ => "UndeclaredVariable"
  | assignmentTypeMismatch _ => "AssignmentTypeMismatch"
  | invalidCondition => "InvalidCondition"
  | invalidExpressionType => "InvalidExpressionType"
  | malformedNode _ _ => "MalformedNode"
  | stalled _ => "Stalled"

def message : Cause → String
  | unrecognisedToken token => "unrecognised token: " ++ Text.quoted token
  | unexpectedToken token => "unexpected token: " ++ Text.quoted token
  | unexpectedTokenDetailed token message =>
      "unexpected token (" ++ Text.quoted message ++ "): " ++ Text.quoted token
  | numberParse token => "error parsing number: " ++ Text.quoted token
  | unknownType name => "Invalid use of undefined Identifier " ++ name
  | multipleDeclaration name => "Identifier " ++ name ++ " has multiple declarations"
  | undeclaredVariable name => "Variable " ++ name ++ " was not declared"
  | assignmentTypeMismatch name => "Invalid type in assignation of Identifier " ++ name
  | invalidCondition => "Invalid type in condition"
  | invalidExpressionType => "Invalid type in expression"
  | malformedNode node children => s!"malformed {node} node with {children} children"
  | stalled token => "no progress at token: " ++ Text.quoted token

def tip? : Cause → Option String
  | unrecognisedToken _ => none
  | unexpectedToken token => s!"Unexpected token: `{token}`, did you miss a semicolon?"
  | unexpectedTokenDetailed token message => s!"Unexpected token: `{token}`, {message}"
  | numberParse token => s!"Invalid number: `{token}`, is it above the integer limit?"
  | unknownType name =>
      s!"Unknown type `{name}`, expected one of `int`, `float`, `bool` or `list`"
  | multipleDeclaration name => s!"Variable `{name}` already declared in this scope"
  | undeclaredVariable name => s!"Variable `{name}` not declared"
  | assignmentTypeMismatch name => s!"Value does not match the declared type of `{name}`"
  | invalidCondition => "Conditions must be of type `bool`"
  | invalidExpressionType =>
      "Operand types are invalid for this operator, `int` and `float` never mix"
  | malformedNode node children =>
      s!"`{node}` node with {children} children cannot come out of the parser"
  | stalled _ => none

def isSemantic : Cause → Bool
  | unknownType _ | multipleDeclaration _ | undeclaredVariable _
  | assignmentTypeMismatch _ | invalidCondition | invalidExpressionType => true
  | _ => false

end Cause

end Assay
