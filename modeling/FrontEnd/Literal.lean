/-!
# Literals

Reading the values of integer and boolean literals. Integers are those of sixty-four bits, written in
decimal with an optional sign; the digits are read from the left, and the first thing that is wrong is
the error.
-/

namespace FrontEnd.Literal

/-- Why a text is not the literal of an integer. -/
inductive IntegerError where
  | empty
  | invalidDigit
  | tooLarge
  | tooSmall
  deriving DecidableEq

/-- The least integer. -/
def minimum : Int := -9223372036854775808

/-- The greatest integer. -/
def maximum : Int := 9223372036854775807

/-- The value of a decimal digit. -/
def digit? (c : Char) : Option Nat :=
  if c.isDigit then some (c.toNat - '0'.toNat) else none

/-- Reads digits onto a value that has been read, upwards. -/
def readUp (value : Int) : List Char → Except IntegerError Int
  | [] => .ok value
  | c :: digits =>
    match digit? c with
    | none => .error .invalidDigit
    | some d =>
      if value * 10 + d ≤ maximum then readUp (value * 10 + d) digits else .error .tooLarge

/-- Reads digits onto a value that has been read, downwards. -/
def readDown (value : Int) : List Char → Except IntegerError Int
  | [] => .ok value
  | c :: digits =>
    match digit? c with
    | none => .error .invalidDigit
    | some d =>
      if minimum ≤ value * 10 - d then readDown (value * 10 - d) digits else .error .tooSmall

/-- Reads an integer: an optional sign and at least one digit. -/
def readInteger (text : String) : Except IntegerError Int :=
  match text.toList with
  | [] => .error .empty
  | ['+'] => .error .invalidDigit
  | ['-'] => .error .invalidDigit
  | '+' :: digits => readUp 0 digits
  | '-' :: digits => readDown 0 digits
  | digits => readUp 0 digits

/-- Reads a boolean. -/
def readBoolean? (text : String) : Option Bool :=
  if text = "true" then some true else if text = "false" then some false else none

end FrontEnd.Literal
