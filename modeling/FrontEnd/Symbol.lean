import FrontEnd.Tree

/-!
# Declared things

What a declaration makes known of a function, a datatype or a variable, and the table of all that is
declared in one scope. Functions, datatypes and variables have names of their own, and within its kind
a name is declared once: a table keeps the first declaration and refuses any other.
-/

namespace FrontEnd

/-- A function: its signature and its body. -/
structure FunctionSymbol where
  name : String
  takes : List TypeTag
  returns : List TypeTag
  body : Block
  span : Span

/-- What a declaration makes known of a function, under a name of choice. -/
def FunctionSymbol.ofDecl (name : String) (decl : FunctionDecl) (span : Span) : FunctionSymbol where
  name := name
  takes := decl.params.map fun p => p.type.tag
  returns := decl.returns.map TypeName.tag
  body := decl.body
  span := span

/-- A datatype: its fields in the order of their declaration. -/
structure DatatypeSymbol where
  name : String
  fields : List (TypeTag × String)
  span : Span
  deriving DecidableEq

namespace DatatypeSymbol

/-- What a declaration makes known of a datatype. -/
def ofDecl (decl : DatatypeDecl) (span : Span) : DatatypeSymbol where
  name := decl.name.name
  fields := decl.fields.map fun p => (p.type.tag, p.name.name)
  span := span

/-- The type of the first field of a name. -/
def field? (d : DatatypeSymbol) (name : String) : Option TypeTag :=
  d.fields.findSome? fun field => if field.2 = name then some field.1 else none

end DatatypeSymbol

/-- A variable. A parameter has no initial value. -/
structure VariableSymbol where
  name : String
  type : TypeTag
  value : Option Expr
  span : Span

namespace VariableSymbol

/-- What a declaration makes known of a variable. -/
def ofDecl (decl : VariableDecl) (span : Span) : VariableSymbol where
  name := decl.name.name
  type := decl.type.tag
  value := some decl.value
  span := span

/-- What a parameter makes known of a variable. -/
def ofParam (p : Param) : VariableSymbol where
  name := p.name.name
  type := p.type.tag
  value := none
  span := p.name.span

end VariableSymbol

/-- All that is declared in one scope, each list in the order of the declarations. -/
structure SymbolTable where
  functions : List FunctionSymbol
  datatypes : List DatatypeSymbol
  vars : List VariableSymbol

namespace SymbolTable

/-- The table without declarations. -/
def empty : SymbolTable := ⟨[], [], []⟩

/-- The function of a name. -/
def getFunction? (t : SymbolTable) (name : String) : Option FunctionSymbol :=
  t.functions.find? fun f => f.name = name

/-- The datatype of a name. -/
def getDatatype? (t : SymbolTable) (name : String) : Option DatatypeSymbol :=
  t.datatypes.find? fun d => d.name = name

/-- The variable of a name. -/
def getVariable? (t : SymbolTable) (name : String) : Option VariableSymbol :=
  t.vars.find? fun v => v.name = name

/-- Adds a function, unless its name is taken. -/
def insertFunction? (t : SymbolTable) (f : FunctionSymbol) : Option SymbolTable :=
  if (t.getFunction? f.name).isSome then none else some { t with functions := t.functions ++ [f] }

/-- Adds a datatype, unless its name is taken. -/
def insertDatatype? (t : SymbolTable) (d : DatatypeSymbol) : Option SymbolTable :=
  if (t.getDatatype? d.name).isSome then none else some { t with datatypes := t.datatypes ++ [d] }

/-- Adds a variable, unless its name is taken. -/
def insertVariable? (t : SymbolTable) (v : VariableSymbol) : Option SymbolTable :=
  if (t.getVariable? v.name).isSome then none else some { t with vars := t.vars ++ [v] }

end SymbolTable

end FrontEnd
