import Assay.Diagnostic
import Assay.Text.Blank
import Assay.Text.Lines

/-!
# Rendered diagnostics

A diagnostic is shown as a header with its name and tip, the file, and, when its
position lies in the source, the line it points into with a caret below:

    Error: UndeclaredVariable (Variable `part` not declared)
    -> totals
      |
    3 | total = part;
      | --------^

The line is shown without the blanks around it.  The caret is set back by the
spaces removed at the front; it counts bytes, and removed blanks of other kinds
are not counted.
-/

namespace Assay

namespace Styled

def alert : String := "\x1b[1;31m"

def reset : String := "\x1b[0m"

/-- Writes a text in bold red.  A reset inside it would end the style early, so the
style is started again after each. -/
def alertText (text : String) : String :=
  alert ++ (reset ++ alert).intercalate (text.splitOn reset) ++ reset

def emphasise (color : Bool) (text : String) : String :=
  if color then alertText text else text

end Styled

namespace Diagnostic

def header (diagnostic : Diagnostic) : String :=
  match diagnostic.cause.tip? with
  | none => "Error: " ++ diagnostic.cause.name
  | some tip => "Error: " ++ diagnostic.cause.name ++ " (" ++ tip ++ ")"

def alignRight (fill : Char) (width : Nat) (text : String) : String :=
  String.ofList (List.replicate (width - text.length) fill) ++ text

def indentation (line : List Char) : Nat := (line.takeWhile (· = ' ')).length

def excerptText (line : List Char) : List Char := Text.trim (line.drop (indentation line))

/-- How far the caret stands from the margin: the column less the indentation. -/
def caretColumn (line : Text.Line) : Nat := line.column - indentation line.text.toList

def excerpt (line : Text.Line) : String :=
  let number := toString line.number
  let gutter := alignRight ' ' (number.length + 2) "|"
  gutter ++ "\n" ++
    number ++ " | " ++ String.ofList (excerptText line.text.toList) ++ "\n" ++
    gutter ++ " " ++ alignRight '-' (caretColumn line + 1) "^"

def render (color : Bool) (file source : String) (diagnostic : Diagnostic) : String :=
  let heading := Styled.emphasise color diagnostic.header ++ "\n-> " ++ file
  match Text.lineAt? source diagnostic.position.offset.toNat with
  | none => heading
  | some line => heading ++ "\n" ++ excerpt line

end Diagnostic

end Assay
