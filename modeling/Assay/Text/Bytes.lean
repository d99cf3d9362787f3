/-!
# Text measured in bytes

Offsets into a source count the bytes of its UTF-8 form.  A text is handled as
its list of characters, `byteLength` measures it, and `dropBytes?` cuts it at an
offset, which succeeds exactly at the boundary of a character.
-/

namespace Assay.Text

def byteLength : List Char → Nat
  | [] => 0
  | c :: rest => c.utf8Size + byteLength rest

@[simp] theorem byteLength_nil : byteLength [] = 0 := rfl

@[simp] theorem byteLength_cons (c : Char) (rest : List Char) :
    byteLength (c :: rest) = c.utf8Size + byteLength rest := rfl

@[simp] theorem byteLength_append (left right : List Char) :
    byteLength (left ++ right) = byteLength left + byteLength right := by
  induction left with
  | nil => simp
  | cons c left ih => simp [ih, Nat.add_assoc]

/-- What is left of a text after its first `count` bytes; `none` beyond its end
and inside a character. -/
def dropBytes? : Nat → List Char → Option (List Char)
  | 0, text => some text
  | _ + 1, [] => none
  | count + 1, c :: rest =>
      if c.utf8Size ≤ count + 1 then dropBytes? (count + 1 - c.utf8Size) rest else none

end Assay.Text
