import Assay.Text.Printable

/-!
# Quoted text

Messages show a piece of source between double quotes, on one line and in
printable characters only: quotes, backslashes and the common controls have short
escapes, and every other character without a shape of its own is written by its
code point in lower-case hexadecimal.
-/

namespace Assay.Text

def codePointEscape (c : Char) : String :=
  "\\u\x7b" ++ String.ofList (Nat.toDigits 16 c.toNat) ++ "\x7d"

def escapeChar (c : Char) : String :=
  match c with
  | '"' => "\\\""
  | '\\' => "\\\\"
  | '\n' => "\\n"
  | '\r' => "\\r"
  | '\t' => "\\t"
  | '\x00' => "\\0"
  | c => if isPrintable c then c.toString else codePointEscape c

def quoted (text : String) : String :=
  "\"" ++ String.join (text.toList.map escapeChar) ++ "\""

end Assay.Text
