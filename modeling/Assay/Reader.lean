import Assay.Position
import Assay.Text.Bytes

/-!
# Readers

A reader is a source with a place in it, counted in bytes.  The place moves freely;
what lies ahead can be seen only from the boundary of a character.
-/

namespace Assay

structure Reader where
  source : String
  file : String
  offset : Nat
  deriving DecidableEq, Repr

namespace Reader

def ofSource (source file : String) : Reader := ⟨source, file, 0⟩

def advance (reader : Reader) (count : Nat) : Reader :=
  { reader with offset := reader.offset + count }

def position (reader : Reader) : Position := .ofBytes reader.file reader.offset

def spanOf (reader : Reader) (length : Nat) : Span := .ofBytes reader.file reader.offset length

def atEnd (reader : Reader) : Bool := Text.byteLength reader.source.toList ≤ reader.offset

/-- What lies ahead; `none` inside a character and beyond the end. -/
def remainder? (reader : Reader) : Option (List Char) :=
  Text.dropBytes? reader.offset reader.source.toList

end Reader

end Assay
