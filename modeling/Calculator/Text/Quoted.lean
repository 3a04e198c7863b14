import Calculator.Text.Basic
import Calculator.Text.Printable

/-!
# Quoted text

`quote` writes a text between double quotes, with a backslash escape for every character that
would end the quotation or not be seen in it.
-/

namespace Calculator.Text

/-- The escape with the code point of `c` in hexadecimal, `\u` and the digits in braces. -/
def codePointEscape (c : Char) : Text :=
  ['\\', 'u', '\x7b'] ++ Nat.toDigits 16 c.toNat ++ ['\x7d']

def escape (c : Char) : Text :=
  match c with
  | '"' => ['\\', '"']
  | '\\' => ['\\', '\\']
  | '\n' => ['\\', 'n']
  | '\r' => ['\\', 'r']
  | '\t' => ['\\', 't']
  | '\x00' => ['\\', '0']
  | c => if isPrintable c then [c] else codePointEscape c

def quote (t : Text) : Text :=
  '"' :: t.flatMap escape ++ ['"']

end Calculator.Text
