import FrontEnd.Literal
import FrontEnd.Token.Lexer
import FrontEnd.Tree

/-!
# Terminal symbols

What the grammar sees of a token: its kind and its literal. Most kinds have one spelling (`sign`); an
identifier, a number, a string, a boolean and an operator are spelled by the tree they belong to.
`Terminal.Lexical` says which terminals there are at all, and `Terminal.text` how one is written.
-/

namespace FrontEnd

/-- A token without its place. -/
structure Terminal where
  kind : TokenKind
  literal : String
  deriving DecidableEq

/-- What the grammar sees of a token. -/
def Token.terminal (t : Token) : Terminal :=
  ⟨t.kind, t.literal⟩

@[simp] theorem Token.kind_terminal (t : Token) : t.terminal.kind = t.kind := rfl

@[simp] theorem Token.literal_terminal (t : Token) : t.terminal.literal = t.literal := rfl

/-- How a kind of token is written that has one spelling only. -/
def TokenKind.spelling? : TokenKind → Option String
  | kwFun => some "fun"
  | kwDatatype => some "datatype"
  | kwIf => some "if"
  | kwElseIf => some "elseif"
  | kwElse => some "else"
  | kwLoop => some "loop"
  | kwBlock => some "block"
  | kwEnd => some "end"
  | kwReturn => some "return"
  | kwBreak => some "break"
  | kwContinue => some "continue"
  | kwListOf => some "listof"
  | kwInt => some "int"
  | kwString => some "string"
  | kwBool => some "bool"
  | lParen => some "("
  | rParen => some ")"
  | lBrace => some "\x7b"
  | rBrace => some "\x7d"
  | lBracket => some "["
  | rBracket => some "]"
  | comma => some ","
  | dot => some "."
  | colon => some ":"
  | doubleColon => some "::"
  | arrow => some "->"
  | operator | identifier | int | string | bool | whitespace | comment | illegal | eof => none

/-- Whether a text is a word of the language that is not reserved. -/
def IsName (text : String) : Prop :=
  TokenKind.ofReserved? text = none ∧
    ∃ c tail, text.toList = c :: tail ∧ Lexer.startsWord c = true ∧
      tail.all Lexer.continuesWord = true

/-- Whether a text consists of digits, with or without a minus sign before them. -/
def IsNumeral (text : String) : Prop :=
  ∃ digits, digits ≠ [] ∧ digits.all Char.isDigit = true ∧
    (text.toList = digits ∨ text.toList = '-' :: digits)

namespace Terminal

/-- The terminal of a kind with one spelling. -/
def sign (kind : TokenKind) : Terminal :=
  ⟨kind, kind.spelling?.getD ""⟩

@[simp] theorem kind_sign (kind : TokenKind) : (sign kind).kind = kind := rfl

/-- The operator `op`. -/
def ofOperator (op : Operator) : Terminal :=
  ⟨.operator, op.symbol⟩

/-- The sign of an assignment is the operator of equality. -/
def assign : Terminal := ofOperator .eq

/-- The sign of a subtraction. -/
def minus : Terminal := ofOperator .sub

/-- The boolean `value`. -/
def ofBool (value : Bool) : Terminal :=
  ⟨.bool, if value then "true" else "false"⟩

/-- Whether there is such a token: one that matters to the grammar, and spelled as its kind is. -/
def Lexical (t : Terminal) : Prop :=
  match t.kind with
  | .identifier => IsName t.literal
  | .int => IsNumeral t.literal
  | .string => '"' ∉ t.literal.toList
  | .bool => ∃ value, t = ofBool value
  | .operator => ∃ op, t = ofOperator op
  | .whitespace | .comment | .illegal | .eof => False
  | kind => t = sign kind

/-- How a terminal is written. -/
def text (t : Terminal) : List Char :=
  if t.kind = .string then '"' :: t.literal.toList ++ ['"'] else t.literal.toList

end Terminal

/-- The terminal of a name. -/
def Ident.terminal (ident : Ident) : Terminal :=
  ⟨.identifier, ident.name⟩

end FrontEnd
