import FrontEnd.Span
import FrontEnd.Text.Quoted

/-!
# Tokens

The kinds of tokens, the words that are reserved, and the token itself: a kind, the text it stands
for and its region.
-/

namespace FrontEnd

/-- The kinds of tokens. -/
inductive TokenKind where
  | kwFun | kwDatatype | kwIf | kwElseIf | kwElse | kwLoop | kwBlock | kwEnd
  | kwReturn | kwBreak | kwContinue | kwListOf | kwInt | kwString | kwBool
  | lParen | rParen | lBrace | rBrace | lBracket | rBracket
  | comma | dot | colon | doubleColon | arrow
  /-- Any of the operators, words and signs alike. -/
  | operator
  | identifier | int | string | bool
  | whitespace | comment
  /-- A character that starts no token. -/
  | illegal
  | eof
  deriving DecidableEq, Inhabited

namespace TokenKind

/-- The name of a kind, as token listings show it. -/
def name : TokenKind → String
  | kwFun => "Fun"
  | kwDatatype => "Datatype"
  | kwIf => "If"
  | kwElseIf => "ElseIf"
  | kwElse => "Else"
  | kwLoop => "Loop"
  | kwBlock => "Block"
  | kwEnd => "End"
  | kwReturn => "Return"
  | kwBreak => "Break"
  | kwContinue => "Continue"
  | kwListOf => "ListOf"
  | kwInt => "KwInt"
  | kwString => "KwString"
  | kwBool => "KwBool"
  | lParen => "LParen"
  | rParen => "RParen"
  | lBrace => "LBrace"
  | rBrace => "RBrace"
  | lBracket => "LBracket"
  | rBracket => "RBracket"
  | comma => "Comma"
  | dot => "Dot"
  | colon => "Colon"
  | doubleColon => "DoubleColon"
  | arrow => "Arrow"
  | operator => "Operator"
  | identifier => "Identifier"
  | int => "Int"
  | string => "String"
  | bool => "Bool"
  | whitespace => "Whitespace"
  | comment => "Comment"
  | illegal => "Illegal"
  | eof => "Eof"

/-- How a message refers to a kind. -/
def describe : TokenKind → String
  | kwFun => "`fun`"
  | kwDatatype => "`datatype`"
  | kwIf => "`if`"
  | kwElseIf => "`elseif`"
  | kwElse => "`else`"
  | kwLoop => "`loop`"
  | kwBlock => "`block`"
  | kwEnd => "`end`"
  | kwReturn => "`return`"
  | kwBreak => "`break`"
  | kwContinue => "`continue`"
  | kwListOf => "`listof`"
  | kwInt => "`int`"
  | kwString => "`string`"
  | kwBool => "`bool`"
  | lParen => "`(`"
  | rParen => "`)`"
  | lBrace => "`\x7b`"
  | rBrace => "`\x7d`"
  | lBracket => "`[`"
  | rBracket => "`]`"
  | comma => "`,`"
  | dot => "`.`"
  | colon => "`:`"
  | doubleColon => "`::`"
  | arrow => "`->`"
  | operator => "operator"
  | identifier => "identifier"
  | int => "integer"
  | string => "string"
  | bool => "boolean"
  | whitespace => "whitespace"
  | comment => "comment"
  | illegal => "illegal character"
  | eof => "end of input"

/-- Blanks and comments stand between the tokens that matter. -/
def isTrivia (kind : TokenKind) : Bool :=
  kind = whitespace || kind = comment

/-- Whether only a type can start with a token of this kind. -/
def startsType (kind : TokenKind) : Bool :=
  kind = kwListOf || kind = kwInt || kind = kwString || kind = kwBool

/-- The reserved words and what they are. -/
def reserved : List (String × TokenKind) :=
  [("fun", kwFun), ("datatype", kwDatatype), ("if", kwIf), ("elseif", kwElseIf),
   ("else", kwElse), ("loop", kwLoop), ("block", kwBlock), ("end", kwEnd),
   ("return", kwReturn), ("break", kwBreak), ("continue", kwContinue), ("listof", kwListOf),
   ("int", kwInt), ("string", kwString), ("bool", kwBool), ("true", bool), ("false", bool),
   ("and", operator), ("or", operator), ("not", operator), ("lt", operator), ("gt", operator),
   ("lte", operator), ("gte", operator)]

/-- What a word is if it is reserved. -/
def ofReserved? (word : String) : Option TokenKind :=
  reserved.lookup word

/-- What a word is: a reserved word or an identifier. -/
def ofWord (word : String) : TokenKind :=
  (ofReserved? word).getD identifier

end TokenKind

/-- A piece of the source text. -/
structure Token where
  kind : TokenKind
  /-- The content of a string without its quotes; for any other kind the text itself. -/
  literal : String
  span : Span
  deriving DecidableEq, Inhabited

namespace Token

/-- Whether the token marks the end of the text. -/
def isEof (t : Token) : Bool :=
  t.kind = .eof

/-- Kind, literal and place of a token. -/
def describe (t : Token) : String :=
  s!"Token({t.kind.name}, {Text.Quoted.encode t.literal}, {t.span.place})"

end Token

end FrontEnd
