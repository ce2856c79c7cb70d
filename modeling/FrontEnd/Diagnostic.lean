import FrontEnd.Span

/-!
# Diagnostics and faults

A stage never stops at a mistake of the program it reads: it goes on and reports it. `Outcome` is
what it leaves, a value with the errors in the order of their discovery. A `Fault` is different: there
is nothing to go on with.
-/

namespace FrontEnd

/-- The stages of the pipeline, in their order. -/
inductive Stage where
  | lexer
  | parser
  | analyzer
  deriving DecidableEq

/-- What an error of the stage is called. -/
def Stage.adjective : Stage → String
  | .lexer => "lexical"
  | .parser => "syntax"
  | .analyzer => "semantic"

/-- An error as it is shown to a user. -/
structure Diagnostic where
  stage : Stage
  code : String
  message : String
  span : Span
  deriving DecidableEq

/-- One line: the place, the stage, the code and the message. -/
def Diagnostic.describe (d : Diagnostic) : String :=
  s!"{d.span.place}: {d.stage.adjective} error {d.code}: {d.message}"

/-- The errors of a stage have a stable code and a message. -/
class Reportable (ε : Type) where
  stage : Stage
  code : ε → String
  message : ε → String

/-- The diagnostic that shows an error. -/
def Located.diagnostic {ε : Type} [Reportable ε] (e : Located ε) : Diagnostic where
  stage := Reportable.stage ε
  code := Reportable.code e.value
  message := Reportable.message e.value
  span := e.span

/-- The result of a stage. With errors, the value may be incomplete. -/
structure Outcome (ε α : Type) where
  value : α
  errors : List (Located ε)

namespace Outcome

variable {ε α : Type}

/-- Whether the stage found nothing to report. -/
def isClean (o : Outcome ε α) : Bool :=
  o.errors.isEmpty

/-- The errors, as they are shown. -/
def diagnostics [Reportable ε] (o : Outcome ε α) : List Diagnostic :=
  o.errors.map Located.diagnostic

end Outcome

/-- The kinds of named things. Each has names of its own. -/
inductive SymbolKind where
  | variable
  | function
  | datatype
  deriving DecidableEq

/-- The word for a kind. -/
def SymbolKind.word : SymbolKind → String
  | .variable => "variable"
  | .function => "function"
  | .datatype => "datatype"

/-- The conditions under which there is no result at all. -/
inductive Fault where
  /-- There is no source text to split into tokens. -/
  | emptySource
  /-- There are no tokens to parse. -/
  | emptyTokens
  /-- A name was declared although it was taken. -/
  | duplicateSymbol (kind : SymbolKind) (name : String) (depth : Nat)
  /-- The outermost scope was to be closed. -/
  | popGlobalScope
  /-- The declarations of the library are not well formed. -/
  | malformedLibrary (space reason : String)
  /-- A call statement holds an expression of another kind. -/
  | notACall (span : Span)
  /-- Scopes other than the global one were left open. -/
  | openScopes (count : Nat)
  deriving DecidableEq

/-- The text of a fault. -/
def Fault.message : Fault → String
  | .emptySource => "cannot lex an empty source text"
  | .emptyTokens => "the parser received an empty token stream"
  | .duplicateSymbol kind name depth =>
    s!"{kind.word} `{name}` was pushed twice into scope {depth}"
  | .popGlobalScope => "the global scope cannot be popped"
  | .malformedLibrary space reason =>
    s!"standard library header for `{space}` is malformed: {reason}"
  | .notACall span => s!"the statement at {span.place} is not a call"
  | .openScopes count => s!"{count} scopes were left open"

end FrontEnd
