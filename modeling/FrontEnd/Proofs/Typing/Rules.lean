import FrontEnd.Proofs.Typing.Found

/-!
# Scoping and typing rules

When a program is well-typed, by rules on its tree. They know of no errors and no order of checking: an
expression has a type or it has none, and the empty list has every list type.
-/

namespace FrontEnd

/-! ## What a program declares -/

def Program.functions (p : Program) : List FunctionDecl :=
  p.filterMap fun
    | .function decl _ => some decl
    | _ => none

def Program.datatypes (p : Program) : List DatatypeDecl :=
  p.filterMap fun
    | .datatype decl _ => some decl
    | _ => none

def FunctionDecl.takes (decl : FunctionDecl) : List TypeTag :=
  decl.params.map fun p => p.type.tag

def FunctionDecl.gives (decl : FunctionDecl) : List TypeTag :=
  decl.returns.map TypeName.tag

namespace Typing

/-- A variable in a scope. -/
structure Binding where
  name : String
  type : TypeTag

def Binding.ofParam (p : Param) : Binding :=
  ⟨p.name.name, p.type.tag⟩

/-- In some scopes, the innermost first, a name refers to a variable of a type: that of the innermost
scope which has one of the name. -/
inductive Resolves (name : String) (type : TypeTag) : List (List Binding) → Prop where
  | here {scope : List Binding} {outer : List (List Binding)} (declared : ⟨name, type⟩ ∈ scope) :
    Resolves name type (scope :: outer)
  | further {scope : List Binding} {outer : List (List Binding)}
    (absent : ∀ b ∈ scope, b.name ≠ name) (resolves : Resolves name type outer) :
    Resolves name type (scope :: outer)

/-- What the rules know of the surroundings of an expression or a statement. -/
structure Context where
  library : Library
  functions : List FunctionDecl
  datatypes : List DatatypeDecl
  /-- The variables of the open scopes, the innermost scope first. -/
  scopes : List (List Binding)
  /-- The types that the function around returns, if there is one. -/
  returns : Option (List TypeTag)
  inLoop : Bool

/-! ## Expressions -/

namespace Context

mutual

inductive HasType (Γ : Context) : Expr → TypeTag → Prop where
  | int {value : Int} {span : Span} : HasType Γ (.int value span) .int
  | string {value : String} {span : Span} : HasType Γ (.string value span) .string
  | bool {value : Bool} {span : Span} : HasType Γ (.bool value span) .bool
  | name {ident : Ident} {span : Span} {type : TypeTag}
    (resolves : Resolves ident.name type Γ.scopes) : HasType Γ (.name ident span) type
  /-- A record gives every field of its datatype exactly once. -/
  | record {decl : DatatypeDecl} {name : Ident} {fields : List FieldValue} {span : Span}
    (declared : decl ∈ Γ.datatypes) (named : decl.name.name = name.name)
    (once : (fields.map fun f => f.name.name).Nodup)
    (every : ∀ p ∈ decl.fields, ∃ f ∈ fields, f.name.name = p.name.name)
    (values : FieldsHaveTypes Γ fields decl.fields) :
    HasType Γ (.record name fields span) (.ofScalar name.name)
  | arithmetic {op : Operator} {operands : List Expr} {span : Span}
    (isArithmetic : op ∈ [.add, .sub, .mul, .div]) (some : operands ≠ [])
    (each : EachHasType Γ operands .int) : HasType Γ (.operation op operands span) .int
  | connective {op : Operator} {operands : List Expr} {span : Span}
    (isConnective : op ∈ [.and, .or]) (some : operands ≠ [])
    (each : EachHasType Γ operands .bool) : HasType Γ (.operation op operands span) .bool
  | negation {operand : Expr} {span : Span} (typed : HasType Γ operand .bool) :
    HasType Γ (.operation .not [operand] span) .bool
  | comparison {op : Operator} {first second : Expr} {span : Span}
    (isComparison : op ∈ [.lt, .gt, .lte, .gte])
    (left : HasType Γ first .int) (right : HasType Γ second .int) :
    HasType Γ (.operation op [first, second] span) .bool
  | equality {first second : Expr} {span : Span} {type : TypeTag}
    (left : HasType Γ first type) (right : HasType Γ second type) :
    HasType Γ (.operation .eq [first, second] span) .bool
  /-- A call as a value gives exactly one. -/
  | call {decl : FunctionDecl} {function : Ident} {args : List Expr} {span : Span} {type : TypeTag}
    (declared : decl ∈ Γ.functions) (named : decl.name.name = function.name)
    (given : HaveTypes Γ args decl.takes) (single : decl.gives = [type]) :
    HasType Γ (.call function args span) type
  | libraryCall {f : FunctionSymbol} {space function : Ident} {args : List Expr} {span : Span}
    {type : TypeTag} (known : Γ.library.getFunction? space.name function.name = some f)
    (given : HaveTypes Γ args f.takes) (single : f.returns = [type]) :
    HasType Γ (.libraryCall space function args span) type
  /-- The items of a list are scalars of one type. -/
  | list {items : List Expr} {span : Span} {element : String}
    (each : EachHasType Γ items (.ofScalar element)) :
    HasType Γ (.list items span) (.listOf element)

inductive EachHasType (Γ : Context) : List Expr → TypeTag → Prop where
  | nil {type : TypeTag} : EachHasType Γ [] type
  | cons {e : Expr} {es : List Expr} {type : TypeTag} (first : HasType Γ e type)
    (rest : EachHasType Γ es type) : EachHasType Γ (e :: es) type

/-- Some expressions have some types, one each. -/
inductive HaveTypes (Γ : Context) : List Expr → List TypeTag → Prop where
  | nil : HaveTypes Γ [] []
  | cons {e : Expr} {es : List Expr} {type : TypeTag} {types : List TypeTag}
    (first : HasType Γ e type) (rest : HaveTypes Γ es types) :
    HaveTypes Γ (e :: es) (type :: types)

/-- The values of some fields have the types that are declared for the fields. -/
inductive FieldsHaveTypes (Γ : Context) : List FieldValue → List Param → Prop where
  | nil {declared : List Param} : FieldsHaveTypes Γ [] declared
  | cons {p : Param} {name : Ident} {value : Expr} {fields : List FieldValue}
    {declared : List Param} (field : p ∈ declared) (named : p.name.name = name.name)
    (typed : HasType Γ value p.type.tag) (rest : FieldsHaveTypes Γ fields declared) :
    FieldsHaveTypes Γ (⟨name, value⟩ :: fields) declared

end

/-! ## Statements -/

/-- A written type is builtin, a declared datatype, or a list of such. -/
def IsType (Γ : Context) (type : TypeName) : Prop :=
  ∀ name ∈ type.scalar.datatype?, ∃ decl ∈ Γ.datatypes, decl.name.name = name

/-- No variable of the innermost scope has the name. -/
def Fresh (Γ : Context) (name : String) : Prop :=
  ∀ scope ∈ Γ.scopes.head?, ∀ b ∈ scope, b.name ≠ name

/-- With one more variable in the innermost scope. -/
def declaring (Γ : Context) (b : Binding) : Context :=
  { Γ with scopes := (Γ.scopes.headD [] ++ [b]) :: Γ.scopes.tail }

def behind (Γ : Context) : Statement → Context
  | .declaration _ decl _ => Γ.declaring ⟨decl.name.name, decl.type.tag⟩
  | _ => Γ

def opened (Γ : Context) : Context :=
  { Γ with scopes := [] :: Γ.scopes }

/-- In the body of a function: its parameters share the scope of the body. -/
def ofFunction (Γ : Context) (params : List Param) (returns : List TypeName) : Context :=
  { Γ with
    scopes := params.map Binding.ofParam :: Γ.scopes
    returns := some (returns.map TypeName.tag)
    inLoop := false }

def ofLoop (Γ : Context) : Context :=
  { Γ with inLoop := true }

/-- A call may stand as a statement, whatever the number of values it gives. -/
inductive AcceptsCall (Γ : Context) : Expr → Prop where
  | call {decl : FunctionDecl} {function : Ident} {args : List Expr} {span : Span}
    (declared : decl ∈ Γ.functions) (named : decl.name.name = function.name)
    (given : HaveTypes Γ args decl.takes) : AcceptsCall Γ (.call function args span)
  | libraryCall {f : FunctionSymbol} {space function : Ident} {args : List Expr} {span : Span}
    (known : Γ.library.getFunction? space.name function.name = some f)
    (given : HaveTypes Γ args f.takes) : AcceptsCall Γ (.libraryCall space function args span)

mutual

inductive Accepts : Context → Statement → Prop where
  | function {Γ : Context} {name : Ident} {params : List Param} {returns : List TypeName}
    {body : List Statement} {region span : Span}
    (takes : ∀ p ∈ params, Γ.IsType p.type) (gives : ∀ type ∈ returns, Γ.IsType type)
    (distinct : (params.map fun p => p.name.name).Nodup)
    (inside : AcceptsEach (Γ.ofFunction params returns) body) :
    Accepts Γ (.function ⟨name, params, returns, ⟨body, region⟩⟩ span)
  | datatype {Γ : Context} {decl : DatatypeDecl} {span : Span}
    (types : ∀ p ∈ decl.fields, Γ.IsType p.type)
    (distinct : (decl.fields.map fun p => p.name.name).Nodup) : Accepts Γ (.datatype decl span)
  | declaration {Γ : Context} {chained : Bool} {decl : VariableDecl} {span : Span}
    (isType : Γ.IsType decl.type) (typed : Γ.HasType decl.value decl.type.tag)
    (fresh : Γ.Fresh decl.name.name) : Accepts Γ (.declaration chained decl span)
  | reassignment {Γ : Context} {target : Ident} {value : Expr} {span : Span} {type : TypeTag}
    (resolves : Resolves target.name type Γ.scopes) (typed : Γ.HasType value type) :
    Accepts Γ (.reassignment target value span)
  | conditional {Γ : Context} {branches : List Branch} {otherwise : Option Block} {span : Span}
    (each : AcceptsBranches Γ branches) (last : AcceptsOption Γ otherwise) :
    Accepts Γ (.conditional branches otherwise span)
  | loop {Γ : Context} {condition : Option Expr} {body : Block} {span : Span}
    (typed : ∀ e ∈ condition, Γ.HasType e .bool) (inside : AcceptsBlock Γ.ofLoop body) :
    Accepts Γ (.loop condition body span)
  | block {Γ : Context} {body : Block} {span : Span} (inside : AcceptsBlock Γ body) :
    Accepts Γ (.block body span)
  | result {Γ : Context} {values : List Expr} {span : Span} {types : List TypeTag}
    (inside : Γ.returns = some types) (given : Γ.HaveTypes values types) :
    Accepts Γ (.result values span)
  | call {Γ : Context} {call : Expr} {span : Span} (accepted : Γ.AcceptsCall call) :
    Accepts Γ (.call call span)
  | control {Γ : Context} {kind : LoopControl} {span : Span} (inside : Γ.inLoop = true) :
    Accepts Γ (.control kind span)

inductive AcceptsEach : Context → List Statement → Prop where
  | nil {Γ : Context} : AcceptsEach Γ []
  | cons {Γ : Context} {s : Statement} {rest : List Statement} (first : Accepts Γ s)
    (others : AcceptsEach (Γ.behind s) rest) : AcceptsEach Γ (s :: rest)

inductive AcceptsBlock : Context → Block → Prop where
  | intro {Γ : Context} {body : List Statement} {span : Span} (inside : AcceptsEach Γ.opened body) :
    AcceptsBlock Γ ⟨body, span⟩

inductive AcceptsBranches : Context → List Branch → Prop where
  | nil {Γ : Context} : AcceptsBranches Γ []
  | cons {Γ : Context} {condition : Expr} {body : Block} {rest : List Branch}
    (typed : Γ.HasType condition .bool) (inside : AcceptsBlock Γ body)
    (others : AcceptsBranches Γ rest) : AcceptsBranches Γ (⟨condition, body⟩ :: rest)

inductive AcceptsOption : Context → Option Block → Prop where
  | none {Γ : Context} : AcceptsOption Γ none
  | some {Γ : Context} {body : Block} (inside : AcceptsBlock Γ body) : AcceptsOption Γ (some body)

end

end Context

end Typing

/-! ## Programs -/

/-- What the rules know at the start of a program. -/
def Program.context (library : Library) (p : Program) : Typing.Context where
  library := library
  functions := p.functions
  datatypes := p.datatypes
  scopes := [[]]
  returns := none
  inLoop := false

structure Program.WellTyped (library : Library) (p : Program) : Prop where
  functions : (p.functions.map fun decl => decl.name.name).Nodup
  datatypes : (p.datatypes.map fun decl => decl.name.name).Nodup
  statements : (p.context library).AcceptsEach p

/-! ## The shape of programs -/

def Expr.isEmptyList : Expr → Bool
  | .list [] _ => true
  | _ => false

mutual

/-- No part of the expression is missing, and nothing is compared with an empty list written first. -/
def Expr.Regular : Expr → Prop
  | .int .. | .string .. | .bool .. | .name .. => True
  | .record _ fields _ => FieldValue.EachRegular fields
  | .operation op operands _ =>
    (op = .eq → ∀ first ∈ operands.head?, first.isEmptyList = false) ∧ Expr.EachRegular operands
  | .call _ args _ | .libraryCall _ _ args _ => Expr.EachRegular args
  | .list items _ => Expr.EachRegular items
  | .missing _ => False

def Expr.EachRegular : List Expr → Prop
  | [] => True
  | e :: es => e.Regular ∧ Expr.EachRegular es

def FieldValue.EachRegular : List FieldValue → Prop
  | [] => True
  | ⟨_, value⟩ :: fields => value.Regular ∧ FieldValue.EachRegular fields

end

mutual

/-- All expressions in the statement are regular, and a call statement holds a call. -/
def Statement.Regular : Statement → Prop
  | .function ⟨_, _, _, body⟩ _ => body.Regular
  | .datatype .. | .control .. => True
  | .declaration _ decl _ => decl.value.Regular
  | .reassignment _ value _ => value.Regular
  | .conditional branches otherwise _ =>
    Branch.EachRegular branches ∧ Block.OptionRegular otherwise
  | .loop condition body _ => (∀ e ∈ condition, e.Regular) ∧ body.Regular
  | .block body _ => body.Regular
  | .result values _ => Expr.EachRegular values
  | .call call _ => call.Regular ∧ call.isCall = true

def Statement.EachRegular : List Statement → Prop
  | [] => True
  | s :: rest => s.Regular ∧ Statement.EachRegular rest

def Block.Regular : Block → Prop
  | ⟨body, _⟩ => Statement.EachRegular body

def Branch.EachRegular : List Branch → Prop
  | [] => True
  | ⟨condition, body⟩ :: rest => condition.Regular ∧ body.Regular ∧ Branch.EachRegular rest

def Block.OptionRegular : Option Block → Prop
  | none => True
  | some body => body.Regular

end

end FrontEnd
