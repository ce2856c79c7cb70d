import FrontEnd.Tree.Parser.Expression

/-!
# Parsing statements and programs

A statement may leave more than one: a chain of declarations makes one for each name, and those before
an error in the chain stay. So an `Attempt` at a statement tells what it made and whether it was
complete. Where it was not, parsing is taken up again behind the next full stop, at the end of the
block or, at the top level, at the next declaration of a function or a datatype.
-/

namespace FrontEnd.Parser

/-- What is left of trying to parse a statement. -/
structure Attempt where
  made : List Statement
  complete : Bool

/-- An attempt that made nothing. -/
def Attempt.failed : Attempt := ⟨[], false⟩

/-- An attempt at a production that makes one statement. -/
def single (p : Parser Statement) : Parser Attempt := do
  match ← attempt p with
  | some s => return ⟨[s], true⟩
  | none => return .failed

/-- Statements up to the end mark or a token of one of the kinds `ends`, in at most `n` rounds. Behind an
error, skipping ends at the kinds `stops`. -/
def sequenceUpTo (ends stops : List TokenKind) (statement : Parser Attempt) :
    Nat → Parser (List Statement)
  | 0 => do
    ensure fun s => s.isAtEnd ends
    return []
  | n + 1 => do
    if ← atEnd ends then return []
    else
      let tried ← statement
      let _ ← if tried.complete then pure true else resync .dot stops
      return tried.made ++ (← sequenceUpTo ends stops statement n)

/-- Statements up to the end mark or a token of one of the kinds `ends`. Every round takes a token. -/
def sequence (ends stops : List TokenKind) (statement : Parser Attempt) :
    Parser (List Statement) := do
  sequenceUpTo ends stops statement (← left)

/-- The kinds of tokens that open a block. -/
def blockKinds : List TokenKind := [.lBrace, .kwBlock]

/-- The token that closes a block. -/
def closing (opening : TokenKind) : TokenKind :=
  if opening = .lBrace then .rBrace else .kwEnd

theorem closing_ne_eof (opening : TokenKind) : closing opening ≠ .eof := by
  rw [closing]
  split <;> simp

/-- A block, given how the statements inside of it are parsed. One that the end of input cuts short is
reported where it was opened, and kept. -/
def block (statement : Parser Attempt) : Parser Block := do
  let opening ← consumeAny blockKinds
  let close := closing opening.kind
  let statements ← sequence [close] [close] statement
  let token ← peek
  if token.kind = .eof then
    report (.unterminatedBlock close) opening.span
    return ⟨statements, ← joined opening.span token.span⟩
  else
    let last ← consume close
    return ⟨statements, ← joined opening.span last.span⟩

/-- The types that a function returns, behind an arrow. -/
def returnTypes : Parser (List TypeName) := do
  if ← take .arrow then separated typeName
  else return []

/-- The declaration of a function. -/
def functionDecl (body : Parser Block) : Parser Statement := do
  let start ← consume .kwFun
  let name ← ident
  let _ ← consume .lParen
  let params ← delimited .rParen param
  let _ ← consume .rParen
  let returns ← returnTypes
  let body ← body
  return .function ⟨name, params, returns, body⟩ (← joined start.span body.span)

/-- The declaration of a datatype. -/
def datatypeDecl : Parser Statement := do
  let start ← consume .kwDatatype
  let name ← ident
  let _ ← consume .lBrace
  let fields ← delimited .rBrace param
  let last ← consume .rBrace
  return .datatype ⟨name, fields⟩ (← joined start.span last.span)

/-- A name, the sign of an assignment and a value. -/
def assignment : Parser (Ident × Expr) := do
  let name ← ident
  let _ ← consumeAssign
  let value ← value
  return (name, value)

/-- The first declaration of a chain, and the type that the others share. -/
def firstDeclaration : Parser (TypeName × Statement) := do
  let type ← typeName
  let (name, value) ← assignment
  return (type, .declaration false ⟨type, name, value⟩ (← joined type.span value.span))

/-- A further declaration of a chain. -/
def chainedDeclaration (type : TypeName) : Parser Statement := do
  let (name, value) ← assignment
  return .declaration true ⟨type, name, value⟩ (← joined name.span value.span)

/-- The further declarations of a chain and the full stop behind them, in at most `n` rounds. -/
def chainUpTo (type : TypeName) : Nat → Parser Attempt
  | 0 => do
    ensure fun _ => False
    return .failed
  | n + 1 => do
    if ← take .comma then
      match ← attempt (chainedDeclaration type) with
      | some s =>
        let others ← chainUpTo type n
        return ⟨s :: others.made, others.complete⟩
      | none => return .failed
    else
      match ← attempt (consume .dot) with
      | some _ => return ⟨[], true⟩
      | none => return .failed

/-- One or more declarations of variables of one type. -/
def variableDecls : Parser Attempt := do
  match ← attempt firstDeclaration with
  | some (type, s) =>
    let others ← chainUpTo type ((← left) + 1)
    return ⟨s :: others.made, others.complete⟩
  | none => return .failed

/-- A reassignment. -/
def reassignment : Parser Statement := do
  let (target, value) ← assignment
  let last ← consume .dot
  return .reassignment target value (← joined target.span last.span)

/-- A condition and the block under it. -/
def branch (body : Parser Block) : Parser Branch := do
  let condition ← condition
  let body ← body
  return ⟨condition, body⟩

/-- The further branches of a conditional, in at most `n` rounds. -/
def branchesUpTo (body : Parser Block) : Nat → Parser (List Branch)
  | 0 => do
    ensure fun s => s.kind ≠ .kwElseIf
    return []
  | n + 1 => do
    if ← take .kwElseIf then
      let first ← branch body
      return first :: (← branchesUpTo body n)
    else
      return []

/-- The alternative of a conditional, if there is one. -/
def alternative (body : Parser Block) : Parser (Option Block) := do
  if ← take .kwElse then
    return some (← body)
  else
    return none

/-- The region of the last block of a conditional. -/
def lastRegion (first : Branch) (others : List Branch) (otherwise : Option Block) : Span :=
  match otherwise with
  | some body => body.span
  | none => (others.getLastD first).body.span

/-- A conditional with all of its branches. -/
def conditional (body : Parser Block) : Parser Statement := do
  let start ← consume .kwIf
  let first ← branch body
  let others ← branchesUpTo body (← left)
  let otherwise ← alternative body
  return .conditional (first :: others) otherwise
    (← joined start.span (lastRegion first others otherwise))

/-- The condition of a loop. Without one, the body of the loop follows at once. -/
def loopCondition : Parser (Option Expr) := do
  if (← peek).kind ∈ blockKinds then return none
  else return some (← condition)

/-- A loop. -/
def loop (body : Parser Block) : Parser Statement := do
  let start ← consume .kwLoop
  let condition ← loopCondition
  let body ← body
  return .loop condition body (← joined start.span body.span)

/-- The values that a function returns, which may be none. -/
def results : Parser (List Expr) := do
  if (← peek).kind = .dot then return []
  else separated value

/-- The results of a function. -/
def result : Parser Statement := do
  let start ← consume .kwReturn
  let values ← results
  let last ← consume .dot
  return .result values (← joined start.span last.span)

/-- A statement that leaves a loop or starts its next round. -/
def control : Parser Statement := do
  let keyword ← consumeAny [.kwBreak, .kwContinue]
  let last ← consume .dot
  let kind := if keyword.kind = .kwBreak then LoopControl.exit else .next
  return .control kind (← joined keyword.span last.span)

/-- A call for its effect. -/
def callStatement : Parser Statement := do
  let call ← expression true
  ensure fun _ => call.isCall
  let last ← consume .dot
  return .call call (← joined call.span last.span)

/-- A block as a statement. -/
def blockStatement (body : Parser Block) : Parser Statement := do
  let body ← body
  return .block body body.span

/-- A declaration where none is allowed. It is parsed all the same, so that parsing goes on behind its
body, and then dropped. -/
def nested (declaration : Parser Statement) : Parser Attempt := do
  let keyword ← peek
  match ← attempt declaration with
  | some _ =>
    report (.nestedDeclaration keyword.kind) keyword.span
    return ⟨[], true⟩
  | none => return .failed

/-- A declaration at the top level or, with an error, elsewhere. -/
def declaration (top : Bool) (p : Parser Statement) : Parser Attempt :=
  if top then single p else nested p

/-- A statement that starts with a name: the token behind the name tells which. -/
def namedStatement : Parser Attempt := do
  let second ← peekSecond
  match second.kind with
  | .identifier => variableDecls
  | .lParen | .doubleColon => single callStatement
  | found =>
    if found = .operator ∧ second.literal = "=" then
      single reassignment
    else
      single <| reject
        (.unexpectedAny found [.identifier, .operator, .lParen, .doubleColon]) second.span

/-- A statement, given how the blocks inside of it are parsed. -/
def statementBody (body : Parser Block) (top : Bool) : Parser Attempt := do
  let token ← peek
  match token.kind with
  | .kwFun => declaration top (functionDecl body)
  | .kwDatatype => declaration top datatypeDecl
  | .kwIf => single (conditional body)
  | .kwLoop => single (loop body)
  | .lBrace | .kwBlock => single (blockStatement body)
  | .kwReturn => single result
  | .kwBreak | .kwContinue => single control
  | .kwListOf | .kwInt | .kwString | .kwBool => variableDecls
  | .identifier => namedStatement
  | found => single (reject (.expectedStatement found) token.span)

/-- A statement in which others nest less than `n` deep. Declarations of functions and datatypes are
allowed at the top level only. -/
def statementUpTo : Nat → Bool → Parser Attempt
  | 0, _ => do
    ensure fun _ => False
    return .failed
  | n + 1, top => statementBody (block (statementUpTo n false)) top

/-- A statement at the top level. A statement inside of another one starts behind at least one token. -/
def statement : Parser Attempt := do
  statementUpTo ((← left) + 1) true

/-- All statements up to the end of input. -/
def program : Parser Program :=
  sequence [] [.kwFun, .kwDatatype] statement

end FrontEnd.Parser

namespace FrontEnd

/-- The program that a sequence of tokens makes up. Only from no tokens at all there is none. -/
def Program.parse (tokens : List Token) : Except Fault (Outcome Parser.Error Program) :=
  match Parser.State.ofTokens? tokens with
  | none => .error .emptyTokens
  | some start =>
    let (program, s) := Parser.program.run start
    .ok ⟨program.getD [], s.errors⟩

end FrontEnd
