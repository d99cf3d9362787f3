import Assay.Text.Bytes

/-!
# Lines of a text

A line runs up to and including its newline; the last one may lack it.  A byte
offset is located by the line that holds it: the number of the line counted from
one, its text, and the offset inside it.
-/

namespace Assay.Text

def lines : List Char → List (List Char)
  | [] => []
  | c :: rest =>
      if c = '\n' then [c] :: lines rest
      else
        match lines rest with
        | [] => [[c]]
        | line :: others => (c :: line) :: others

structure Line where
  number : Nat
  text : String
  column : Nat
  deriving DecidableEq, Repr

/-- Walks down the lines until one holds `offset`; what is past all of them
belongs to the last. -/
def locate (number offset : Nat) : List (List Char) → Line
  | [] => ⟨number, "", offset⟩
  | [last] => ⟨number, String.ofList last, offset⟩
  | line :: next :: others =>
      if offset < byteLength line then ⟨number, String.ofList line, offset⟩
      else locate (number + 1) (offset - byteLength line) (next :: others)

/-- The line that holds a byte offset.  The end of the text lies on the last
line, and nothing lies beyond it. -/
def lineAt? (source : String) (offset : Nat) : Option Line :=
  let text := source.toList
  if byteLength text < offset then none else some (locate 1 offset (lines text))

end Assay.Text
