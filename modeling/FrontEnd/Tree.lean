import FrontEnd.Span
import FrontEnd.TypeTag

/-!
# Program trees

A program is a list of statements. Every node carries the region it was read from. The statements,
blocks, branches and function declarations are defined together, and so are expressions and the
fields of a record.
-/

namespace FrontEnd

/-- A name where it is used or declared. -/
structure Ident where
  name : String
  span : Span
  deriving DecidableEq, Inhabited

/-- The operators. All are written before their operands. -/
inductive Operator where
  | add | sub | mul | div
  | eq
  | and | or | not
  | lt | gt | lte | gte
  deriving DecidableEq

namespace Operator

/-- How an operator is written. -/
def symbol : Operator → String
  | add => "+"
  | sub => "-"
  | mul => "*"
  | div => "/"
  | eq => "="
  | and => "and"
  | or => "or"
  | not => "not"
  | lt => "lt"
  | gt => "gt"
  | lte => "lte"
  | gte => "gte"

/-- All operators. -/
def all : List Operator :=
  [add, sub, mul, div, eq, and, or, not, lt, gt, lte, gte]

/-- The operator that is written so. -/
def ofSymbol? (text : String) : Option Operator :=
  all.find? fun op => op.symbol = text

end Operator

/-- A scalar type as it is written. -/
inductive Scalar where
  | int
  | string
  | bool
  | datatype (name : String)
  deriving DecidableEq

namespace Scalar

/-- The name of a scalar type. -/
def name : Scalar → String
  | int => "int"
  | string => "string"
  | bool => "bool"
  | datatype name => name

/-- The datatype a scalar type refers to. -/
def datatype? : Scalar → Option String
  | datatype name => some name
  | _ => none

end Scalar

/-- A type as it is written. -/
structure TypeName where
  scalar : Scalar
  isList : Bool
  span : Span
  deriving DecidableEq

namespace TypeName

/-- The tag of a written type. -/
def tag (t : TypeName) : TypeTag := ⟨t.isList, t.scalar.name⟩

/-- How a type is written. -/
def describe (t : TypeName) : String :=
  if t.isList then "listof " ++ t.scalar.name else t.scalar.name

end TypeName

/-- A typed name: a parameter of a function or a field of a datatype. -/
structure Param where
  type : TypeName
  name : Ident
  deriving DecidableEq

mutual

/-- An expression. -/
inductive Expr where
  | int (value : Int) (span : Span)
  | string (value : String) (span : Span)
  | bool (value : Bool) (span : Span)
  | name (ident : Ident) (span : Span)
  /-- A value of a datatype, given by its fields. -/
  | record (name : Ident) (fields : List FieldValue) (span : Span)
  | operation (op : Operator) (operands : List Expr) (span : Span)
  | call (function : Ident) (args : List Expr) (span : Span)
  /-- A call of a function of the library. -/
  | libraryCall (space function : Ident) (args : List Expr) (span : Span)
  | list (items : List Expr) (span : Span)
  /-- Stands where an expression could not be read. -/
  | missing (span : Span)

/-- A field of a record and its value. -/
structure FieldValue where
  name : Ident
  value : Expr

end

namespace Expr

/-- The region of an expression. -/
def span : Expr → Span
  | int _ span | string _ span | bool _ span | name _ span | record _ _ span
  | operation _ _ span | call _ _ span | libraryCall _ _ _ span | list _ span | missing span => span

/-- Whether an expression calls a function. -/
def isCall : Expr → Bool
  | call .. | libraryCall .. => true
  | _ => false

end Expr

/-- The declaration of a variable. -/
structure VariableDecl where
  type : TypeName
  name : Ident
  value : Expr

/-- The declaration of a datatype. -/
structure DatatypeDecl where
  name : Ident
  fields : List Param
  deriving DecidableEq

/-- The statements that leave a loop or start its next round. -/
inductive LoopControl where
  | exit
  | next
  deriving DecidableEq

/-- The word that such a statement consists of. -/
def LoopControl.word : LoopControl → String
  | exit => "break"
  | next => "continue"

mutual

/-- A statement. -/
inductive Statement where
  | function (decl : FunctionDecl) (span : Span)
  | datatype (decl : DatatypeDecl) (span : Span)
  /-- A `chained` declaration follows another one and shares its type. -/
  | declaration (chained : Bool) (decl : VariableDecl) (span : Span)
  | reassignment (target : Ident) (value : Expr) (span : Span)
  /-- The branches are those of `if` and of every `elseif`. -/
  | conditional (branches : List Branch) (otherwise : Option Block) (span : Span)
  | loop (condition : Option Expr) (body : Block) (span : Span)
  | block (body : Block) (span : Span)
  | result (values : List Expr) (span : Span)
  /-- A call for its effect. -/
  | call (call : Expr) (span : Span)
  | control (kind : LoopControl) (span : Span)

/-- A sequence of statements with a scope of its own. -/
structure Block where
  statements : List Statement
  span : Span

/-- A condition and what is done under it. -/
structure Branch where
  condition : Expr
  body : Block

/-- The declaration of a function. -/
structure FunctionDecl where
  name : Ident
  params : List Param
  returns : List TypeName
  body : Block

end

namespace Statement

/-- The region of a statement. -/
def span : Statement → Span
  | function _ span | datatype _ span | declaration _ _ span | reassignment _ _ span
  | conditional _ _ span | loop _ _ span | block _ span | result _ span | call _ span
  | control _ span => span

end Statement

/-- A program is a sequence of statements at the top level. -/
abbrev Program := List Statement

end FrontEnd
