import FrontEnd.Typing.Inference

/-!
# Checking programs

A program is gone over twice. First its functions and datatypes are declared, so that they may be used
before they are written; then its statements are checked in their order, with a scope opened for each
function, branch, loop body and block and closed behind it. The errors of both come in the order of
their discovery.
-/

namespace FrontEnd.Typing

/-- Where in a program a statement stands: what it may use, and what is around it. -/
structure Site extends Env where
  /-- The types that the function around returns, if there is one. -/
  returns : Option (List TypeTag)
  /-- The number of loops around, up to the function. -/
  loopDepth : Nat

namespace Site

/-- In the body of a function, where no loop is around. -/
def inFunction (site : Site) (returns : List TypeName) : Site :=
  { site with returns := some (returns.map TypeName.tag), loopDepth := 0 }

/-- In the body of a loop. -/
def inLoop (site : Site) : Site :=
  { site with loopDepth := site.loopDepth + 1 }

/-- Behind the body of a loop. -/
def outOfLoop (site : Site) : Site :=
  { site with loopDepth := site.loopDepth - 1 }

end Site

/-- What is known between two statements. -/
structure Checker extends Site where
  errors : List (Located Error)

/-! ## Errors of single statements -/

/-- The errors of a written type: its datatype may not be declared. -/
def Env.typeErrors (env : Env) (type : TypeName) : List (Located Error) :=
  match type.scalar.datatype? with
  | none => []
  | some name =>
    if (env.scopes.getDatatype? name).isSome then []
    else [⟨.undeclaredDatatype name, type.span⟩]

/-- The errors of the declaration of a variable, but for the name. A value is not compared with a type
that is wrong itself. -/
def Env.declarationErrors (env : Env) (decl : VariableDecl) : List (Located Error) :=
  let typeErrors := env.typeErrors decl.type
  let value := env.infer decl.value
  let mismatch := if typeErrors.isEmpty then value.require decl.type.tag else []
  typeErrors ++ value.errors ++ mismatch

/-- The errors of the fields of a datatype, given the names of the fields before them. -/
def Env.fieldErrors (env : Env) (datatype : String) (before : List String) :
    List Param → List (Located Error)
  | [] => []
  | p :: ps =>
    env.typeErrors p.type ++
      (if p.name.name ∈ before then [⟨.duplicateField datatype p.name.name, p.name.span⟩] else []) ++
      env.fieldErrors datatype (before ++ [p.name.name]) ps

/-- The errors of the declaration of a datatype. -/
def Env.datatypeErrors (env : Env) (decl : DatatypeDecl) : List (Located Error) :=
  env.fieldErrors decl.name.name [] decl.fields

/-- The errors of a reassignment. -/
def Env.reassignmentErrors (env : Env) (target : Ident) (value : Expr) : List (Located Error) :=
  let j := env.infer value
  let errors :=
    match env.scopes.getVariable? target.name with
    | none => [⟨.undeclaredVariable target.name, target.span⟩]
    | some v => j.require v.type
  j.errors ++ errors

/-- The errors of the condition of a conditional or a loop. -/
def Env.conditionErrors (env : Env) (e : Expr) : List (Located Error) :=
  let j := env.infer e
  j.errors ++ j.require .bool

/-- The errors of the results of a function. -/
def Site.resultErrors (site : Site) (values : List Expr) (span : Span) : List (Located Error) :=
  let js := site.inferEach values
  let errors :=
    match site.returns with
    | none => [⟨.resultOutsideFunction, span⟩]
    | some types =>
      if types.length = js.length then requireEach types js
      else [⟨.resultCount types.length js.length, span⟩]
  Judgement.allErrors js ++ errors

/-- The errors of a statement that leaves a loop or starts its next round. -/
def Site.controlErrors (site : Site) (kind : LoopControl) (span : Span) : List (Located Error) :=
  if site.loopDepth = 0 then [⟨.controlOutsideLoop kind, span⟩] else []

/-- The error of declaring a name that is taken in the innermost scope. -/
def Env.duplicateErrors (env : Env) (name : Ident) : List (Located Error) :=
  match env.scopes.current.getVariable? name.name with
  | some first => [⟨.duplicateVariable name.name first.span, name.span⟩]
  | none => []

namespace Checker

/-- Before a program, with a library. -/
def start (library : Library) : Checker where
  library := library
  scopes := .start
  errors := []
  returns := none
  loopDepth := 0

/-- Adds errors. -/
def report (c : Checker) (errors : List (Located Error)) : Checker :=
  { c with errors := c.errors ++ errors }

/-! ## Scopes and declarations -/

/-- Opens a scope. -/
def openScope (c : Checker) : Checker :=
  { c with scopes := c.scopes.push }

/-- Closes the innermost scope. -/
def closeScope (c : Checker) : Except Fault Checker := do
  return { c with scopes := ← c.scopes.pop }

/-- Declares a variable in the innermost scope, or reports that its name is taken there. -/
def declare (c : Checker) (name : Ident) (v : VariableSymbol) : Except Fault Checker :=
  if (c.scopes.current.getVariable? v.name).isSome then
    return c.report (c.duplicateErrors name)
  else do
    return { c with scopes := ← c.scopes.declareVariable v }

/-- Declares the parameters of a function. -/
def params (c : Checker) : List Param → Except Fault Checker
  | [] => return c
  | p :: ps => do
    let c := c.report (c.typeErrors p.type)
    let c ← c.declare p.name (.ofParam p)
    c.params ps

/-- The declaration of a variable. Its value is checked before the name is in scope. -/
def variableDecl (c : Checker) (decl : VariableDecl) (span : Span) : Except Fault Checker :=
  (c.report (c.declarationErrors decl)).declare decl.name (.ofDecl decl span)

/-- A call for its effect: it may return any number of values. -/
def call (c : Checker) : Expr → Except Fault Checker
  | .call function args span =>
    return c.report (callErrors (c.callee function) (c.inferEach args) span)
  | .libraryCall space function args span =>
    return c.report (callErrors (c.libraryCallee space function) (c.inferEach args) span)
  | e => throw (.notACall e.span)

/-! ## Statements with parts -/

/-- Enters the body of a function. -/
def enterFunction (c : Checker) (returns : List TypeName) : Checker :=
  { c with toSite := c.toSite.inFunction returns }

/-- Enters the body of a loop. -/
def enterLoop (c : Checker) : Checker :=
  { c with toSite := c.toSite.inLoop }

/-- Leaves the body of a loop. -/
def leaveLoop (c : Checker) : Checker :=
  { c with toSite := c.toSite.outOfLoop }

/-- Leaves the body of a function for what was around it. -/
def leaveFunction (c outer : Checker) : Checker :=
  { c with returns := outer.returns, loopDepth := outer.loopDepth }

mutual

/-- Checks a statement. -/
def statement (c : Checker) : Statement → Except Fault Checker
  | .function ⟨_, params, returns, ⟨body, _⟩⟩ _ => do
    let c := c.report (returns.flatMap c.typeErrors)
    let inside ← c.openScope.params params
    let behind ← (inside.enterFunction returns).statements body
    (behind.leaveFunction c).closeScope
  | .datatype decl _ => return c.report (c.datatypeErrors decl)
  | .declaration _ decl span => c.variableDecl decl span
  | .reassignment target value _ => return c.report (c.reassignmentErrors target value)
  | .conditional branches otherwise _ => do
    let c ← c.branches branches
    c.otherwise otherwise
  | .loop condition body _ => do
    let c := c.report ((condition.map c.conditionErrors).getD [])
    let behind ← c.enterLoop.block body
    return behind.leaveLoop
  | .block body _ => c.block body
  | .result values span => return c.report (c.resultErrors values span)
  | .call call _ => c.call call
  | .control kind span => return c.report (c.controlErrors kind span)

/-- Checks statements in their order. -/
def statements (c : Checker) : List Statement → Except Fault Checker
  | [] => return c
  | s :: rest => do
    let c ← c.statement s
    c.statements rest

/-- Checks a block in a scope of its own. -/
def block (c : Checker) : Block → Except Fault Checker
  | ⟨body, _⟩ => do
    let c ← c.openScope.statements body
    c.closeScope

/-- Checks the branches of a conditional. -/
def branches (c : Checker) : List Branch → Except Fault Checker
  | [] => return c
  | ⟨condition, body⟩ :: rest => do
    let c ← (c.report (c.conditionErrors condition)).block body
    c.branches rest

/-- Checks the alternative of a conditional. -/
def otherwise (c : Checker) : Option Block → Except Fault Checker
  | none => return c
  | some body => c.block body

end

/-! ## Programs -/

/-- Declares what a statement at the top level declares for all of the program: a function or a
datatype. Of two with the same name the first counts. -/
def register (c : Checker) : Statement → Except Fault Checker
  | .function decl span =>
    match c.scopes.getFunction? decl.name.name with
    | some first => return c.report [⟨.duplicateFunction decl.name.name first.span, decl.name.span⟩]
    | none => do
      return { c with scopes := ← c.scopes.declareFunction (.ofDecl decl.name.name decl span) }
  | .datatype decl span =>
    match c.scopes.getDatatype? decl.name.name with
    | some first => return c.report [⟨.duplicateDatatype decl.name.name first.span, decl.name.span⟩]
    | none => do
      return { c with scopes := ← c.scopes.declareDatatype (.ofDecl decl span) }
  | _ => return c

/-- Goes over a program twice. -/
def program (c : Checker) (p : Program) : Except Fault Checker := do
  let c ← p.foldlM register c
  c.statements p

end Checker

end FrontEnd.Typing

namespace FrontEnd

/-- A checked program: its tree and all that it declares at the top level. -/
structure CheckedProgram where
  program : Program
  globals : SymbolTable

/-- Checks a program against a library. -/
def Program.check (library : Library) (p : Program) :
    Except Fault (Outcome Typing.Error CheckedProgram) := do
  let c ← (Typing.Checker.start library).program p
  return ⟨⟨p, ← c.scopes.close⟩, c.errors⟩

end FrontEnd
