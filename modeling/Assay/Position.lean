/-!
# Positions and spans

A position is a byte offset into a named source, and offsets are 32-bit words.  A
span runs from the position of its first byte to the position after its last one.
-/

namespace Assay

structure Position where
  offset : UInt32
  file : String
  deriving DecidableEq, Repr

structure Span where
  start : Position
  stop : Position
  deriving DecidableEq, Repr

namespace Position

def null : Position := ⟨0, "<null>"⟩

def ofBytes (file : String) (count : Nat) : Position := ⟨count.toUInt32, file⟩

end Position

namespace Span

def null : Span := ⟨.null, .null⟩

def ofBytes (file : String) (count length : Nat) : Span :=
  ⟨.ofBytes file count, .ofBytes file (count + length)⟩

def empty (position : Position) : Span := ⟨position, position⟩

end Span

end Assay
