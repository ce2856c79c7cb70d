import FrontEnd.Text.Extending
import FrontEnd.Text.Unprintable

/-!
# Quoted texts

The printed form of a text: between double quotes, with an escape for every character that could not
be read back from the page. The escapes are `\0`, `\t`, `\r`, `\n`, `\"`, `\\` and, for a character
that is unprintable or extends its neighbour, its number in hexadecimal.
-/

namespace FrontEnd.Text.Quoted

/-- The digits of a number in base sixteen, lower case and without leading zeros. -/
def hexadecimal (n : Nat) : List Char :=
  Nat.toDigits 16 n

/-- Whether a character is shown by its number. -/
def isNumbered (c : Char) : Bool :=
  isUnprintable c || isExtending c

/-- The printed form of one character. -/
def encodeChar (c : Char) : List Char :=
  match c with
  | '\x00' => ['\\', '0']
  | '\t' => ['\\', 't']
  | '\r' => ['\\', 'r']
  | '\n' => ['\\', 'n']
  | '"' => ['\\', '"']
  | '\\' => ['\\', '\\']
  | c => if isNumbered c then '\\' :: 'u' :: '\x7b' :: hexadecimal c.toNat ++ ['\x7d'] else [c]

/-- The printed form of a text, quotes included. -/
def encode (s : String) : String :=
  String.ofList ('"' :: s.toList.flatMap encodeChar ++ ['"'])

end FrontEnd.Text.Quoted
