import FrontEnd.Diagnostic
import FrontEnd.Symbol

/-!
# Scopes

The open scopes, one inside of the other. The outermost is the global scope: it is always there, and
all functions and datatypes are declared in it. A variable is declared in the innermost scope, and
looked up from there outwards, so that it hides any other of its name further out.
-/

namespace FrontEnd

/-- The open scopes: those inside of the global one, the innermost first, and the global one. -/
structure Scopes where
  inner : List SymbolTable
  global : SymbolTable

namespace Scopes

/-- The global scope alone, without declarations. -/
def start : Scopes := ⟨[], .empty⟩

/-- The number of open scopes, the global one counted. -/
def depth (s : Scopes) : Nat :=
  s.inner.length + 1

/-- Opens a scope. -/
def push (s : Scopes) : Scopes :=
  { s with inner := .empty :: s.inner }

/-- Closes the innermost scope. The global one cannot be closed. -/
def pop (s : Scopes) : Except Fault Scopes :=
  match s.inner with
  | [] => .error .popGlobalScope
  | _ :: inner => .ok { s with inner }

/-- The innermost scope. -/
def current (s : Scopes) : SymbolTable :=
  s.inner.headD s.global

/-- Declares a function, in the global scope. -/
def declareFunction (s : Scopes) (f : FunctionSymbol) : Except Fault Scopes :=
  match s.global.insertFunction? f with
  | some global => .ok { s with global }
  | none => .error (.duplicateSymbol .function f.name 0)

/-- Declares a datatype, in the global scope. -/
def declareDatatype (s : Scopes) (d : DatatypeSymbol) : Except Fault Scopes :=
  match s.global.insertDatatype? d with
  | some global => .ok { s with global }
  | none => .error (.duplicateSymbol .datatype d.name 0)

/-- Declares a variable, in the innermost scope. -/
def declareVariable (s : Scopes) (v : VariableSymbol) : Except Fault Scopes :=
  match s.current.insertVariable? v with
  | none => .error (.duplicateSymbol .variable v.name s.inner.length)
  | some table =>
    match s.inner with
    | [] => .ok { s with global := table }
    | _ :: inner => .ok { s with inner := table :: inner }

/-- The function of a name. -/
def getFunction? (s : Scopes) (name : String) : Option FunctionSymbol :=
  s.global.getFunction? name

/-- The datatype of a name. -/
def getDatatype? (s : Scopes) (name : String) : Option DatatypeSymbol :=
  s.global.getDatatype? name

/-- The variable of a name: that of the innermost scope which has one. -/
def getVariable? (s : Scopes) (name : String) : Option VariableSymbol :=
  (s.inner.findSome? fun table => table.getVariable? name).or (s.global.getVariable? name)

/-- The declarations of the global scope, once all others are closed. -/
def close (s : Scopes) : Except Fault SymbolTable :=
  if s.inner.isEmpty then .ok s.global else .error (.openScopes s.inner.length)

end Scopes

end FrontEnd
