import Assay.Diagnostic
import Assay.Text.Bytes
import Assay.Token.Lexeme

/-!
# Token streams

`tokenize` cuts a source into the stream of its tokens.  Lexemes are taken off the
front until nothing is left; those that separate tokens are passed over, and a
closing token marks the end.  A character that starts no lexeme is reported where
it stands.
-/

namespace Assay

namespace Token

def stream (file : String) (offset : Nat) (text : List Char) :
    Except Diagnostic (List Token) :=
  match text with
  | [] => .ok [endAt (.ofBytes file offset)]
  | c :: rest =>
      match _h : LexemeRule.first? (c :: rest) with
      | none => .error ⟨.unrecognisedToken c.toString, .ofBytes file offset⟩
      | some (rule, lexeme) => do
          let taken := rule.taken lexeme
          let width := Text.byteLength taken
          let tokens ← stream file (offset + width) ((c :: rest).drop taken.length)
          match rule.kind? lexeme with
          | none => .ok tokens
          | some kind =>
              .ok (⟨kind, String.ofList taken, .ofBytes file offset width⟩ :: tokens)
termination_by text.length
decreasing_by
  have nonempty := (LexemeRule.lexeme?_eq_some (LexemeRule.lexeme?_of_first? _h)).1
  have := List.length_pos_iff.mpr nonempty
  simp only [LexemeRule.taken_of_first? _h, List.length_drop, List.length_cons]
  omega

end Token

def interactiveFile : String := "shell"

def tokenize (source : String) (file? : Option String) : Except Diagnostic (List Token) :=
  Token.stream (file?.getD interactiveFile) 0 source.toList

end Assay
