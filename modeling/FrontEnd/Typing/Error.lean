import FrontEnd.Diagnostic
import FrontEnd.Tree

/-!
# Errors of names and types

What can be wrong with a program tree, and the vocabulary of the messages: the type an expression was
found to have, and the number of operands an operator takes.
-/

namespace FrontEnd.Typing

/-- The type that an expression was found to have. -/
inductive Inferred where
  | known (type : TypeTag)
  /-- The list without items, which is a list of any type. -/
  | emptyList
  /-- Not determined, because of an error that is reported elsewhere. It fits anything. -/
  | unknown
  deriving DecidableEq

/-- How a message refers to a type. -/
def Inferred.describe : Inferred → String
  | known type => type.text
  | emptyList => "list"
  | unknown => "<unknown>"

/-- Whether a value of the type found may stand where `expected` is required. -/
def Inferred.fits (actual : Inferred) (expected : TypeTag) : Bool :=
  match actual with
  | known type => type = expected
  | emptyList => expected.isList
  | unknown => true

/-- The number of operands an operator takes. -/
inductive Arity where
  | atLeastOne
  | one
  | two
  deriving DecidableEq

/-- Whether a number of operands is right. -/
def Arity.accepts (a : Arity) (count : Nat) : Bool :=
  match a with
  | atLeastOne => 1 ≤ count
  | one => count = 1
  | two => count = 2

/-- How a message refers to a number of operands. -/
def Arity.describe : Arity → String
  | atLeastOne => "at least one operand"
  | one => "exactly one operand"
  | two => "exactly two operands"

/-- What can be wrong with a program tree. -/
inductive Error where
  | duplicateFunction (name : String) (first : Span)
  | duplicateDatatype (name : String) (first : Span)
  | duplicateVariable (name : String) (first : Span)
  | duplicateField (datatype field : String)
  | undeclaredFunction (name : String)
  | undeclaredDatatype (name : String)
  | undeclaredVariable (name : String)
  | unknownSpace (space : String)
  | unknownField (datatype field : String)
  | missingField (datatype field : String)
  | typeMismatch (expected : TypeTag) (actual : Inferred)
  | argumentCount (function : String) (expected actual : Nat)
  | operatorArity (op : Operator) (expected : Arity) (actual : Nat)
  | resultCount (expected actual : Nat)
  | resultOutsideFunction
  | controlOutsideLoop (kind : LoopControl)
  | notSingleValue (function : String) (count : Nat)
  | nestedList
  deriving DecidableEq

instance : Reportable Error where
  stage := .analyzer
  code
    | .duplicateFunction .. => "A001"
    | .duplicateDatatype .. => "A002"
    | .duplicateVariable .. => "A003"
    | .duplicateField .. => "A004"
    | .undeclaredFunction .. => "A005"
    | .undeclaredDatatype .. => "A006"
    | .undeclaredVariable .. => "A007"
    | .unknownSpace .. => "A008"
    | .unknownField .. => "A009"
    | .missingField .. => "A010"
    | .typeMismatch .. => "A011"
    | .argumentCount .. => "A012"
    | .operatorArity .. => "A013"
    | .resultCount .. => "A014"
    | .resultOutsideFunction => "A015"
    | .controlOutsideLoop .. => "A016"
    | .notSingleValue .. => "A017"
    | .nestedList => "A018"
  message
    | .duplicateFunction name first => s!"function `{name}` is already declared at {first.place}"
    | .duplicateDatatype name first => s!"datatype `{name}` is already declared at {first.place}"
    | .duplicateVariable name first =>
      s!"variable `{name}` is already declared in this scope at {first.place}"
    | .duplicateField datatype field => s!"field `{field}` of `{datatype}` is given more than once"
    | .undeclaredFunction name => s!"function `{name}` is not declared"
    | .undeclaredDatatype name => s!"datatype `{name}` is not declared"
    | .undeclaredVariable name => s!"variable `{name}` is not declared"
    | .unknownSpace space => s!"unknown namespace `{space}`"
    | .unknownField datatype field => s!"datatype `{datatype}` has no field `{field}`"
    | .missingField datatype field => s!"missing field `{field}` of `{datatype}`"
    | .typeMismatch expected actual =>
      s!"expected `{expected.text}`, but got `{actual.describe}`"
    | .argumentCount function expected actual =>
      s!"`{function}` takes {expected} argument(s), but {actual} were given"
    | .operatorArity op expected actual =>
      s!"`{op.symbol}` takes {expected.describe}, but {actual} were given"
    | .resultCount expected actual => s!"expected {expected} return value(s), but got {actual}"
    | .resultOutsideFunction => "`return` outside of a function"
    | .controlOutsideLoop kind => s!"`{kind.word}` outside of a loop"
    | .notSingleValue function count =>
      s!"`{function}` returns {count} values, but a single value is expected"
    | .nestedList => "lists cannot be nested"

end FrontEnd.Typing
