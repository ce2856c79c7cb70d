import FrontEnd.Library
import FrontEnd.Scopes
import FrontEnd.Typing.Error

/-!
# Types of expressions

`Env.infer` finds the type of an expression and all that is wrong inside of it. It goes over the tree
once; what follows for a node from its parts is said by a rule of its own, on the `Judgement`s of the
parts. An expression declares nothing, so the names in scope are the same throughout.
-/

namespace FrontEnd.Typing

/-- The names that an expression may use. -/
structure Env where
  library : Library
  scopes : Scopes

/-- What is found out about an expression. -/
structure Judgement where
  span : Span
  type : Inferred
  errors : List (Located Error)

/-- The errors of requiring a type. -/
def require (expected : TypeTag) (actual : Inferred) (span : Span) : List (Located Error) :=
  if actual.fits expected then [] else [⟨.typeMismatch expected actual, span⟩]

/-- The errors of requiring a type of an expression. -/
def Judgement.require (j : Judgement) (expected : TypeTag) : List (Located Error) :=
  Typing.require expected j.type j.span

/-- The errors inside of some expressions. -/
def Judgement.allErrors (js : List Judgement) : List (Located Error) :=
  js.flatMap Judgement.errors

/-- The errors of requiring a type of each of some expressions. -/
def requireEach (expected : List TypeTag) (js : List Judgement) : List (Located Error) :=
  (List.zipWith (fun t j => j.require t) expected js).flatten

/-! ## Operators -/

/-- What an operator takes and gives. -/
structure OperatorRule where
  arity : Arity
  /-- The type of all operands; without one, they are only required to agree. -/
  operand : Option TypeTag
  result : TypeTag

/-- The rule of each operator. -/
def operatorRule : Operator → OperatorRule
  | .add | .sub | .mul | .div => ⟨.atLeastOne, some .int, .int⟩
  | .and | .or => ⟨.atLeastOne, some .bool, .bool⟩
  | .not => ⟨.one, some .bool, .bool⟩
  | .lt | .gt | .lte | .gte => ⟨.two, some .int, .bool⟩
  | .eq => ⟨.two, none, .bool⟩

/-- The errors of requiring that a second expression has the type of a first. -/
def agree (first second : Judgement) : List (Located Error) :=
  match first.type with
  | .known type => second.require type
  | _ => []

/-- The errors of applying an operator to operands. -/
def operandErrors (op : Operator) (operands : List Judgement) (span : Span) :
    List (Located Error) :=
  let rule := operatorRule op
  if rule.arity.accepts operands.length then
    match rule.operand, operands with
    | some type, operands => operands.flatMap fun j => j.require type
    | none, [first, second] => agree first second
    | none, _ => []
  else
    [⟨.operatorArity op rule.arity operands.length, span⟩]

/-- An operator applied to operands. Its type is known even if the operands are wrong. -/
def judgeOperation (op : Operator) (operands : List Judgement) (span : Span) : Judgement where
  span := span
  type := .known (operatorRule op).result
  errors := Judgement.allErrors operands ++ operandErrors op operands span

/-! ## Lists -/

/-- The type of an item that is no list itself. -/
def Judgement.element? (j : Judgement) : Option TypeTag :=
  match j.type with
  | .known type => if type.isList then none else some type
  | _ => none

/-- What is wrong with an item, given the type of the first that has one. -/
def Judgement.itemErrors (j : Judgement) (element : Option TypeTag) : List (Located Error) :=
  match j.type with
  | .unknown => []
  | .emptyList => [⟨.nestedList, j.span⟩]
  | .known type =>
    if type.isList then [⟨.nestedList, j.span⟩]
    else
      match element with
      | some expected => j.require expected
      | none => []

/-- A list. The first item of a scalar type gives the type of all. -/
def judgeList (items : List Judgement) (span : Span) : Judgement :=
  let element := items.findSome? Judgement.element?
  { span
    type :=
      match element with
      | some type => .known (.listOf type.scalar)
      | none => if items.any fun j => j.type = .unknown then .unknown else .emptyList
    errors := items.flatMap fun j => j.errors ++ j.itemErrors element }

/-! ## Calls -/

/-- The function that a call is resolved to, under the name it is called by. -/
structure Callee where
  name : String
  takes : List TypeTag
  returns : List TypeTag

/-- The function of the program that a name refers to. -/
def Env.callee (env : Env) (function : Ident) : Except (Located Error) Callee :=
  match env.scopes.getFunction? function.name with
  | some f => .ok ⟨function.name, f.takes, f.returns⟩
  | none => .error ⟨.undeclaredFunction function.name, function.span⟩

/-- The function of the library that a space and a name refer to. -/
def Env.libraryCallee (env : Env) (space function : Ident) : Except (Located Error) Callee :=
  let full := space.name ++ "::" ++ function.name
  if env.library.hasSpace space.name then
    match env.library.getFunction? space.name function.name with
    | some f => .ok ⟨full, f.takes, f.returns⟩
    | none => .error ⟨.undeclaredFunction full, function.span⟩
  else
    .error ⟨.unknownSpace space.name, space.span⟩

/-- The errors of giving arguments to a function. -/
def Callee.argumentErrors (f : Callee) (args : List Judgement) (span : Span) :
    List (Located Error) :=
  if f.takes.length = args.length then requireEach f.takes args
  else [⟨.argumentCount f.name f.takes.length args.length, span⟩]

/-- The errors of a call: that of its function, those inside of its arguments, and those of giving them
to the function. -/
def callErrors (callee : Except (Located Error) Callee) (args : List Judgement) (span : Span) :
    List (Located Error) :=
  match callee with
  | .error e => e :: Judgement.allErrors args
  | .ok f => Judgement.allErrors args ++ f.argumentErrors args span

/-- A call as a value: its function has to return exactly one. -/
def judgeCall (callee : Except (Located Error) Callee) (args : List Judgement) (span : Span) :
    Judgement :=
  let errors := callErrors callee args span
  match callee with
  | .error _ => ⟨span, .unknown, errors⟩
  | .ok f =>
    match f.returns with
    | [type] => ⟨span, .known type, errors⟩
    | returns => ⟨span, .unknown, errors ++ [⟨.notSingleValue f.name returns.length, span⟩]⟩

/-! ## Records -/

/-- What is wrong with a field, given the names of the fields before it. -/
def fieldErrors (d : DatatypeSymbol) (before : List String) (name : Ident) (value : Judgement) :
    List (Located Error) :=
  match d.field? name.name with
  | none => [⟨.unknownField d.name name.name, name.span⟩]
  | some type =>
    if name.name ∈ before then [⟨.duplicateField d.name name.name, name.span⟩]
    else value.require type

/-- The errors of some fields, given the names of the fields before them. -/
def fieldsErrors (d : DatatypeSymbol) (before : List String) :
    List (Ident × Judgement) → List (Located Error)
  | [] => []
  | (name, value) :: fields =>
    value.errors ++ fieldErrors d before name value ++
      fieldsErrors d (before ++ [name.name]) fields

/-- The errors of fields that a record lacks. -/
def missingErrors (d : DatatypeSymbol) (name : Ident) (given : List String) :
    List (Located Error) :=
  (d.fields.filter fun field => field.2 ∉ given).map fun field =>
    ⟨.missingField d.name field.2, name.span⟩

/-- A record of a datatype. -/
def judgeRecord (datatype : Option DatatypeSymbol) (name : Ident)
    (fields : List (Ident × Judgement)) (span : Span) : Judgement :=
  match datatype with
  | none =>
    ⟨span, .unknown,
      ⟨.undeclaredDatatype name.name, name.span⟩ :: Judgement.allErrors (fields.map Prod.snd)⟩
  | some d =>
    ⟨span, .known (.ofScalar d.name),
      fieldsErrors d [] fields ++
        missingErrors d name (fields.map fun field => field.1.name)⟩

/-! ## Expressions -/

/-- A name as a value. -/
def Env.judgeName (env : Env) (ident : Ident) (span : Span) : Judgement :=
  match env.scopes.getVariable? ident.name with
  | some v => ⟨span, .known v.type, []⟩
  | none => ⟨span, .unknown, [⟨.undeclaredVariable ident.name, ident.span⟩]⟩

mutual

/-- The type of an expression and the errors inside of it. -/
def Env.infer (env : Env) : Expr → Judgement
  | .int _ span => ⟨span, .known .int, []⟩
  | .string _ span => ⟨span, .known .string, []⟩
  | .bool _ span => ⟨span, .known .bool, []⟩
  | .name ident span => env.judgeName ident span
  | .record name fields span =>
    judgeRecord (env.scopes.getDatatype? name.name) name (env.inferFields fields) span
  | .operation op operands span => judgeOperation op (env.inferEach operands) span
  | .call function args span => judgeCall (env.callee function) (env.inferEach args) span
  | .libraryCall space function args span =>
    judgeCall (env.libraryCallee space function) (env.inferEach args) span
  | .list items span => judgeList (env.inferEach items) span
  | .missing span => ⟨span, .unknown, []⟩

/-- The judgements of some expressions. -/
def Env.inferEach (env : Env) : List Expr → List Judgement
  | [] => []
  | e :: es => env.infer e :: env.inferEach es

/-- The judgements of the fields of a record. -/
def Env.inferFields (env : Env) : List FieldValue → List (Ident × Judgement)
  | [] => []
  | ⟨name, value⟩ :: fields => (name, env.infer value) :: env.inferFields fields

end

end FrontEnd.Typing
