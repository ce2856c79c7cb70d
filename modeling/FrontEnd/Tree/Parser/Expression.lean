import FrontEnd.Literal
import FrontEnd.Tree
import FrontEnd.Tree.Parser.State

/-!
# Parsing expressions

One production for each rule of the grammar of types and expressions. A production that contains
itself is written over its own occurrences (`expressionBody`) and closed by a depth that the number of
tokens ahead bounds, for an expression inside of another one starts behind at least one token.
-/

namespace FrontEnd.Parser

variable {α : Type}

/-- The region from the start of one to the end of another. Its length is counted in 32 bits. -/
def joined (first last : Span) : Parser Span := do
  ensure fun _ => (first.upTo last).len < UInt32.size
  return first.upTo last

/-- Items between separators, up to a closing token that is left in place, in at most `n` rounds. An
item that fails is skipped with the separator behind it, unless the list ends there: then it fails as
a whole. -/
def delimitedUpTo (close : TokenKind) (item : Parser α) : Nat → Parser (List α)
  | 0 => do
    ensure fun s => s.isAtEnd [close]
    return []
  | n + 1 => do
    if ← atEnd [close] then return []
    else
      match ← attempt item with
      | none =>
        if ← resync .comma [close] then delimitedUpTo close item n
        else fail
      | some first =>
        if ← take .comma then
          return first :: (← delimitedUpTo close item n)
        else if ← atEnd [close] then
          return [first]
        else
          let token ← peek
          report (.unexpectedAny token.kind [.comma, close]) token.span
          return first :: (← delimitedUpTo close item n)

/-- Items between separators, up to a closing token. Every round takes a token. -/
def delimited (close : TokenKind) (item : Parser α) : Parser (List α) := do
  ensure fun _ => close ≠ .comma
  let items ← delimitedUpTo close item (← left)
  ensure fun s => s.isAtEnd [close]
  return items

/-- One or more items between separators, in at most `n` rounds. -/
def separatedUpTo (item : Parser α) : Nat → Parser (List α)
  | 0 => unreachable
  | n + 1 => do
    let first ← item
    if ← take .comma then
      return first :: (← separatedUpTo item n)
    else
      return [first]

/-- One or more items between separators. Every round but the last takes a separator. -/
def separated (item : Parser α) : Parser (List α) := do
  separatedUpTo item ((← left) + 1)

/-- A name. -/
def ident : Parser Ident := do
  let token ← consume .identifier
  return ⟨token.literal, token.span⟩

/-- The kinds of tokens that name a scalar type. -/
def scalarKinds : List TokenKind := [.kwInt, .kwString, .kwBool, .identifier]

/-- The scalar type that a token names. -/
def scalarOf (token : Token) : Scalar :=
  match token.kind with
  | .kwInt => .int
  | .kwString => .string
  | .kwBool => .bool
  | _ => .datatype token.literal

/-- A type: a scalar, or a list of a scalar. -/
def typeName : Parser TypeName := do
  let start := (← peek).span
  let isList ← take .kwListOf
  let token ← consumeAny scalarKinds
  return ⟨scalarOf token, isList, ← joined start token.span⟩

/-- A type and a name. -/
def param : Parser Param := do
  let type ← typeName
  let name ← ident
  return ⟨type, name⟩

/-- The value of an integer token. One that has none is reported and counts as zero. -/
def integerValue (token : Token) : Parser Int := do
  ensure fun _ => token.kind = .int
  match Literal.readInteger token.literal with
  | .ok value => return value
  | .error _ =>
    report (.invalidInteger token.literal) token.span
    return 0

/-- The value of a boolean token. One that has none is reported and counts as false. -/
def booleanValue (token : Token) : Parser Bool := do
  ensure fun _ => token.kind = .bool
  match Literal.readBoolean? token.literal with
  | some value => return value
  | none =>
    report (.invalidBoolean token.literal) token.span
    return false

/-- Arguments in parentheses, and the region of the closing one. -/
def arguments (inner : Parser Expr) : Parser (List Expr × Span) := do
  let _ ← consume .lParen
  let args ← delimited .rParen inner
  let close ← consume .rParen
  return (args, close.span)

/-- A field of a record: its name and its value. -/
def fieldValue (inner : Parser Expr) : Parser FieldValue := do
  let name ← ident
  let _ ← consume .colon
  let value ← inner
  return ⟨name, value⟩

/-- What follows a name in an expression: arguments, a function of the library that the name is a space
of, the fields of a record where these are allowed, or nothing. -/
def afterName (inner : Parser Expr) (records : Bool) (name : Ident) : Parser Expr := do
  match (← peek).kind with
  | .lParen =>
    let (args, close) ← arguments inner
    return .call name args (← joined name.span close)
  | .doubleColon =>
    let _ ← advance
    let function ← ident
    let (args, close) ← arguments inner
    return .libraryCall name function args (← joined name.span close)
  | .lBrace =>
    if records then
      let _ ← advance
      let fields ← delimited .rBrace (fieldValue inner)
      let close ← consume .rBrace
      return .record name fields (← joined name.span close.span)
    else
      return .name name name.span
  | _ => return .name name name.span

/-- The kinds of tokens that an expression starts with. -/
def expressionKinds : List TokenKind :=
  [.int, .string, .bool, .identifier, .operator, .lBracket]

/-- An expression behind its first token. -/
def expressionFrom (inner : Parser Expr) (records : Bool) (token : Token) : Parser Expr := do
  match token.kind with
  | .int => return .int (← integerValue token) token.span
  | .string => return .string token.literal token.span
  | .bool => return .bool (← booleanValue token) token.span
  | .lBracket =>
    let items ← delimited .rBracket inner
    let close ← consume .rBracket
    return .list items (← joined token.span close.span)
  | .operator =>
    match Operator.ofSymbol? token.literal with
    | none => reject (.unknownOperator token.literal) token.span
    | some op =>
      let (operands, close) ← arguments inner
      return .operation op operands (← joined token.span close)
  | .identifier => afterName inner records ⟨token.literal, token.span⟩
  | _ => unreachable

/-- An expression, given how the expressions inside of it are parsed. Without `records`, a brace behind
a name is left to what follows. -/
def expressionBody (inner : Parser Expr) (records : Bool) : Parser Expr := do
  let found ← peek
  if found.kind ∈ expressionKinds then
    expressionFrom inner records (← advance)
  else
    reject (.expectedExpression found.kind) found.span

/-- An expression in which others nest less than `n` deep. -/
def expressionUpTo : Nat → Bool → Parser Expr
  | 0, _ => unreachable
  | n + 1, records => expressionBody (expressionUpTo n true) records

/-- An expression. Inside of brackets of any kind, records are always allowed. -/
def expression (records : Bool) : Parser Expr := do
  expressionUpTo ((← left) + 1) records

/-- The value of a declaration, of a reassignment or of a result. One that is missing right before what
should follow it is replaced, so that the statement survives. -/
def value : Parser Expr := do
  let start := (← peek).span
  match ← attempt (expression true) with
  | some e => return e
  | none =>
    let kind := (← peek).kind
    if kind = .dot ∨ kind = .comma then return .missing start
    else fail

/-- The condition of a conditional or a loop, where a brace opens the body. -/
def condition : Parser Expr :=
  expression false

end FrontEnd.Parser
