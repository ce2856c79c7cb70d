import FrontEnd.Scopes

/-!
# Changes of the scopes

The open scopes are changed in place, one change after the other. A change that is refused answers with a fault,
and whatever it did to the scopes until then stays: it is for the change itself to leave them alone.
-/

namespace FrontEnd

/-- Adds an entry in place unless there is one of its key, and tells whether it was added. -/
def insertNew {α : Type} (key : α → String) (entries : List α) (new : α) : Bool × List α :=
  if (entries.find? fun old => key old = key new).isSome then (false, entries) else (true, entries ++ [new])

namespace SymbolTable

/-- Adds a function in place unless its name is taken, and tells whether it was added. -/
def insertFunction (t : SymbolTable) (f : FunctionSymbol) : Bool × SymbolTable :=
  let (inserted, functions) := insertNew FunctionSymbol.name t.functions f
  (inserted, { t with functions })

/-- Adds a datatype in place unless its name is taken, and tells whether it was added. -/
def insertDatatype (t : SymbolTable) (d : DatatypeSymbol) : Bool × SymbolTable :=
  let (inserted, datatypes) := insertNew DatatypeSymbol.name t.datatypes d
  (inserted, { t with datatypes })

/-- Adds a variable in place unless its name is taken, and tells whether it was added. -/
def insertVariable (t : SymbolTable) (v : VariableSymbol) : Bool × SymbolTable :=
  let (inserted, vars) := insertNew VariableSymbol.name t.vars v
  (inserted, { t with vars })

end SymbolTable

namespace Scopes

/-- What is done to the open scopes. -/
inductive Change where
  | push
  | pop
  | declareVariable (v : VariableSymbol)
  | declareFunction (f : FunctionSymbol)
  | declareDatatype (d : DatatypeSymbol)

/-- With another table for the innermost scope. -/
def setCurrent (s : Scopes) (table : SymbolTable) : Scopes :=
  match s.inner with
  | [] => { s with global := table }
  | _ :: inner => { s with inner := table :: inner }

/-- The answer to a declaration: a fault unless it was inserted. -/
def declared (inserted : Bool) (kind : SymbolKind) (name : String) (depth : Nat) : Except Fault Unit :=
  if inserted then .ok () else .error (.duplicateSymbol kind name depth)

/-- Makes a change: the answer, and the scopes behind it. -/
def perform (s : Scopes) : Change → Except Fault Unit × Scopes
  | .push => (.ok (), s.push)
  | .pop =>
    match s.inner with
    | [] => (.error .popGlobalScope, s)
    | _ :: inner => (.ok (), { s with inner })
  | .declareVariable v =>
    let (inserted, table) := s.current.insertVariable v
    (declared inserted .variable v.name s.inner.length, s.setCurrent table)
  | .declareFunction f =>
    let (inserted, global) := s.global.insertFunction f
    (declared inserted .function f.name 0, { s with global })
  | .declareDatatype d =>
    let (inserted, global) := s.global.insertDatatype d
    (declared inserted .datatype d.name 0, { s with global })

/-- The scopes behind some changes. -/
def performAll (s : Scopes) (changes : List Change) : Scopes :=
  changes.foldl (fun s change => (s.perform change).2) s

end Scopes

end FrontEnd
