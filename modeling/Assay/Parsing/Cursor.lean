import Assay.Diagnostic
import Assay.Token

/-!
# Cursors over tokens

A cursor stands on one token of a stream that ends in a closing token.  It moves
forward only, and stops on the last token.  Parsing steps are actions on a cursor
that yield a value or a diagnostic; in both cases they say where they left the
cursor.
-/

namespace Assay

structure Cursor where
  /-- The tokens passed, nearest first. -/
  passed : List Token
  current : Token
  ahead : List Token
  deriving DecidableEq, Repr

namespace Cursor

/-- A stream with a closing token.  One is added where the last token ends, or at the
start of the file, unless the stream has it already. -/
def closed (file : String) (tokens : List Token) : List Token :=
  match tokens.getLast? with
  | none => [.endAt ⟨0, file⟩]
  | some last =>
      if last.kind = .endOfInput then tokens else tokens ++ [.endAt last.span.stop]

def ofTokens (file : String) (tokens : List Token) : Cursor :=
  match closed file tokens with
  | [] => ⟨[], .endAt ⟨0, file⟩, []⟩
  | first :: others => ⟨[], first, others⟩

def tokens (cursor : Cursor) : List Token :=
  cursor.passed.reverse ++ cursor.current :: cursor.ahead

def kind (cursor : Cursor) : TokenKind := cursor.current.kind

def position (cursor : Cursor) : Position := cursor.current.span.start

def previousEnd (cursor : Cursor) : Position :=
  match cursor.passed with
  | [] => cursor.current.span.stop
  | last :: _ => last.span.stop

def hasTokens (cursor : Cursor) : Bool := cursor.kind ≠ .endOfInput

def next (cursor : Cursor) : Cursor :=
  match cursor.ahead with
  | [] => cursor
  | token :: others => ⟨cursor.current :: cursor.passed, token, others⟩

@[simp] theorem tokens_next (cursor : Cursor) : cursor.next.tokens = cursor.tokens := by
  unfold next
  split
  · rfl
  · next hahead => simp [tokens, hahead]

end Cursor

/-! ## Parsing steps -/

abbrev Parse := EStateM Diagnostic Cursor

namespace Parse

def kind : Parse TokenKind := fun cursor => .ok cursor.kind cursor

def previousEnd : Parse Position := fun cursor => .ok cursor.previousEnd cursor

def advance : Parse Token := fun cursor => .ok cursor.current cursor.next

def reject {α : Type} (cause : String → Cause) : Parse α := fun cursor =>
  .error ⟨cause cursor.current.text, cursor.position⟩ cursor

def unexpected {α : Type} : Parse α := reject .unexpectedToken

def unexpectedHere {α : Type} (message : String) : Parse α :=
  reject (.unexpectedTokenDetailed · message)

/-- Passes a token of the given kind; any other kind is handled by `otherwise`, with
the cursor where it was. -/
def expectOr (kind : TokenKind) (otherwise : Parse Token) : Parse Token := fun cursor =>
  if cursor.kind = kind then advance cursor else otherwise cursor

def expect (kind : TokenKind) : Parse Token := expectOr kind unexpected

def expectHere (kind : TokenKind) (message : String) : Parse Token :=
  expectOr kind (unexpectedHere message)

/-- The tokens that are left, the current one first.  A loop that passes a token in each
round is done within as many rounds, so it counts down this list. -/
def remaining : Parse (List Token) := fun cursor =>
  .ok (cursor.current :: cursor.ahead) cursor

def stalled {α : Type} : Parse α := reject .stalled

/-! ## Steps applied to a cursor -/

section

variable {α β : Type} (cursor : Cursor)

@[simp] theorem pure_apply (value : α) : (pure value : Parse α) cursor = .ok value cursor := rfl

@[simp] theorem kind_bind_apply (following : TokenKind → Parse β) :
    (kind >>= following) cursor = following cursor.kind cursor := rfl

@[simp] theorem advance_bind_apply (following : Token → Parse β) :
    (advance >>= following) cursor = following cursor.current cursor.next := rfl

@[simp] theorem previousEnd_bind_apply (following : Position → Parse β) :
    (previousEnd >>= following) cursor = following cursor.previousEnd cursor := rfl

end

end Parse

end Assay
