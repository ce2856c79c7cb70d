import FrontEnd.Proofs.Grammar.Checkable
import FrontEnd.Proofs.Grammar.Grammatical
import FrontEnd.Typing.Checker

/-!
# What checking finds

A check goes through a checker that is handed on from statement to statement. But what it finds in a
statement depends on the site of the statement alone, and the only thing a statement changes, besides the
list of errors, is the innermost scope, where it may declare a variable. So the errors of a program are a
function on its tree (`Site.found`), and all that is said of them is said of that function.
-/

namespace FrontEnd

/-! ## Names that may be declared -/

/-- Names that are free and differ from each other. -/
def AllFree (free : String → Prop) (names : List String) : Prop :=
  (∀ name ∈ names, free name) ∧ names.Nodup

theorem allFree_nil (free : String → Prop) : AllFree free [] :=
  ⟨by simp, .nil⟩

/-- Behind the declaration of a name, it is no longer free. -/
theorem allFree_cons_iff {free freeBehind : String → Prop} {name : String} {names : List String}
    (taken : ∀ other, freeBehind other ↔ free other ∧ other ≠ name) :
    AllFree free (name :: names) ↔ free name ∧ AllFree freeBehind names := by
  simp only [AllFree, List.forall_mem_cons, List.nodup_cons, taken]
  constructor
  · intro holds
    obtain ⟨⟨first, others⟩, notAgain, distinct⟩ := holds
    refine ⟨first, ?_, distinct⟩
    intro other member
    exact ⟨others other member, fun same => notAgain (same ▸ member)⟩
  · intro holds
    obtain ⟨first, apart, distinct⟩ := holds
    exact ⟨⟨first, fun other member => (apart other member).1⟩,
      fun again => (apart name again).2 rfl, distinct⟩

/-! ## Scopes behind declarations -/

/-- With one more variable, unless its name is taken. -/
def SymbolTable.adding (t : SymbolTable) (v : VariableSymbol) : SymbolTable :=
  if (t.getVariable? v.name).isSome then t else { t with vars := t.vars ++ [v] }

namespace Scopes

/-- With one more variable in the innermost scope, unless its name is taken there. -/
def adding (s : Scopes) (v : VariableSymbol) : Scopes :=
  match s.inner with
  | [] => { s with global := s.global.adding v }
  | table :: inner => { s with inner := table.adding v :: inner }

/-- With some parameters in the innermost scope. -/
def addingParams (s : Scopes) : List Param → Scopes
  | [] => s
  | p :: ps => (s.adding (.ofParam p)).addingParams ps

/-- Behind a statement. -/
def behind (s : Scopes) : Statement → Scopes
  | .declaration _ decl span => s.adding (.ofDecl decl span)
  | _ => s

def behindEach (s : Scopes) : List Statement → Scopes
  | [] => s
  | statement :: rest => (s.behind statement).behindEach rest

/-- With what a statement at the top level declares for all of the program. -/
def registering (s : Scopes) : Statement → Scopes
  | .function decl span =>
    if (s.getFunction? decl.name.name).isSome then s
    else
      { s with global.functions := s.global.functions ++ [.ofDecl decl.name.name decl span] }
  | .datatype decl span =>
    if (s.getDatatype? decl.name.name).isSome then s
    else { s with global.datatypes := s.global.datatypes ++ [.ofDecl decl span] }
  | _ => s

def registeringEach (s : Scopes) : List Statement → Scopes
  | [] => s
  | statement :: rest => (s.registering statement).registeringEach rest

theorem adding_of_taken {s : Scopes} {v : VariableSymbol}
    (taken : (s.current.getVariable? v.name).isSome) : s.adding v = s := by
  obtain ⟨inner, global⟩ := s
  cases inner with
  | nil =>
    have same : global.adding v = global := if_pos taken
    simp [adding, same]
  | cons table inner =>
    have same : table.adding v = table := if_pos taken
    simp [adding, same]

theorem declareVariable_of_free {s : Scopes} {v : VariableSymbol}
    (free : (s.current.getVariable? v.name).isSome = false) :
    s.declareVariable v = .ok (s.adding v) := by
  simp only [declareVariable, SymbolTable.insertVariable?, free]
  obtain ⟨inner, global⟩ := s
  cases inner with
  | nil =>
    simp only [current, List.headD_nil] at free
    simp [adding, SymbolTable.adding, free, current]
  | cons table inner =>
    simp only [current, List.headD_cons] at free
    simp [adding, SymbolTable.adding, free, current]

/-- The tables of the open scopes, the innermost first. -/
def tables (s : Scopes) : List SymbolTable :=
  s.inner ++ [s.global]

theorem tables_adding (s : Scopes) (v : VariableSymbol) :
    ∃ others, s.tables = s.current :: others ∧
      (s.adding v).tables = s.current.adding v :: others := by
  obtain ⟨inner, global⟩ := s
  cases inner with
  | nil => exact ⟨[], rfl, rfl⟩
  | cons table inner => exact ⟨inner ++ [global], rfl, rfl⟩

theorem global_adding (s : Scopes) (v : VariableSymbol) :
    (s.adding v).global.functions = s.global.functions ∧
      (s.adding v).global.datatypes = s.global.datatypes := by
  obtain ⟨inner, global⟩ := s
  cases inner with
  | nil =>
    simp only [adding, SymbolTable.adding]
    split <;> exact ⟨rfl, rfl⟩
  | cons table inner => exact ⟨rfl, rfl⟩

theorem global_addingParams (s : Scopes) (ps : List Param) :
    (s.addingParams ps).global.functions = s.global.functions ∧
      (s.addingParams ps).global.datatypes = s.global.datatypes := by
  induction ps generalizing s with
  | nil => exact ⟨rfl, rfl⟩
  | cons p ps inductionHypothesis =>
    obtain ⟨functions, datatypes⟩ := s.global_adding (.ofParam p)
    obtain ⟨functionsRest, datatypesRest⟩ := inductionHypothesis (s.adding (.ofParam p))
    exact ⟨functionsRest.trans functions, datatypesRest.trans datatypes⟩

theorem getVariable?_eq_findSome? (s : Scopes) (name : String) :
    s.getVariable? name = s.tables.findSome? fun table => table.getVariable? name := by
  simp [getVariable?, tables, List.findSome?_append]

/-! Whatever is declared in the innermost scope, closing it leaves the others as they were. -/

@[simp] theorem pop_adding (s : Scopes) (v : VariableSymbol) : (s.adding v).pop = s.pop := by
  obtain ⟨inner, global⟩ := s
  cases inner <;> rfl

@[simp] theorem pop_addingParams (s : Scopes) (ps : List Param) :
    (s.addingParams ps).pop = s.pop := by
  induction ps generalizing s with
  | nil => rfl
  | cons p ps inductionHypothesis => rw [addingParams, inductionHypothesis, pop_adding]

@[simp] theorem pop_behind (s : Scopes) (statement : Statement) : (s.behind statement).pop = s.pop := by
  cases statement with
  | declaration => exact pop_adding ..
  | _ => rfl

@[simp] theorem pop_behindEach (s : Scopes) (statements : List Statement) :
    (s.behindEach statements).pop = s.pop := by
  induction statements generalizing s with
  | nil => rfl
  | cons statement rest inductionHypothesis => rw [behindEach, inductionHypothesis, pop_behind]

/-! What is declared for all of the program opens no scope and declares no variable. -/

theorem registering_keeps (s : Scopes) (statement : Statement) :
    (s.registering statement).inner = s.inner ∧
      (s.registering statement).global.vars = s.global.vars := by
  unfold registering
  split
  · split <;> exact ⟨rfl, rfl⟩
  · split <;> exact ⟨rfl, rfl⟩
  · exact ⟨rfl, rfl⟩

theorem registeringEach_keeps (s : Scopes) (statements : List Statement) :
    (s.registeringEach statements).inner = s.inner ∧
      (s.registeringEach statements).global.vars = s.global.vars := by
  induction statements generalizing s with
  | nil => exact ⟨rfl, rfl⟩
  | cons statement rest inductionHypothesis =>
    obtain ⟨inner, vars⟩ := inductionHypothesis (s.registering statement)
    obtain ⟨innerFirst, varsFirst⟩ := s.registering_keeps statement
    exact ⟨inner.trans innerFirst, vars.trans varsFirst⟩

theorem inner_adding {s : Scopes} (atGlobal : s.inner = []) (v : VariableSymbol) :
    (s.adding v).inner = [] := by
  rw [adding, atGlobal]

theorem inner_behindEach {s : Scopes} (atGlobal : s.inner = []) (statements : List Statement) :
    (s.behindEach statements).inner = [] := by
  induction statements generalizing s with
  | nil => exact atGlobal
  | cons statement rest inductionHypothesis =>
    have behind : (s.behind statement).inner = [] := by
      cases statement with
      | declaration => exact inner_adding atGlobal _
      | _ => exact atGlobal
    exact inductionHypothesis behind

end Scopes

namespace Typing

/-! ## Errors as a function of the site -/

theorem length_inferEach (env : Env) (es : List Expr) : (env.inferEach es).length = es.length := by
  induction es with
  | nil => rfl
  | cons e es inductionHypothesis => simp [Env.inferEach, inductionHypothesis]

def Env.paramErrors (env : Env) : List Param → List (Located Error)
  | [] => []
  | p :: ps =>
    env.typeErrors p.type ++ env.duplicateErrors p.name ++
      ({ env with scopes := env.scopes.adding (.ofParam p) } : Env).paramErrors ps

def Env.callErrors (env : Env) : Expr → List (Located Error)
  | .call function args span => Typing.callErrors (env.callee function) (env.inferEach args) span
  | .libraryCall space function args span =>
    Typing.callErrors (env.libraryCallee space function) (env.inferEach args) span
  | _ => []

namespace Site

/-- The same site with other names in scope. -/
def within (site : Site) (scopes : Scopes) : Site :=
  { site with scopes }

/-- The site of the body of a function. -/
def ofBody (site : Site) (params : List Param) (returns : List TypeName) : Site :=
  (site.within (site.scopes.push.addingParams params)).inFunction returns

def ofBlock (site : Site) : Site :=
  site.within site.scopes.push

mutual

/-- The errors of a statement. -/
def found (site : Site) : Statement → List (Located Error)
  | .function ⟨_, params, returns, ⟨body, _⟩⟩ _ =>
    returns.flatMap site.typeErrors ++ (site.within site.scopes.push).paramErrors params ++
      (site.ofBody params returns).foundEach body
  | .datatype decl _ => site.datatypeErrors decl
  | .declaration _ decl _ => site.declarationErrors decl ++ site.duplicateErrors decl.name
  | .reassignment target value _ => site.reassignmentErrors target value
  | .conditional branches otherwise _ => site.foundBranches branches ++ site.foundOption otherwise
  | .loop condition body _ =>
    (condition.map site.conditionErrors).getD [] ++ site.inLoop.foundBlock body
  | .block body _ => site.foundBlock body
  | .result values span => site.resultErrors values span
  | .call call _ => site.callErrors call
  | .control kind span => site.controlErrors kind span

def foundEach (site : Site) : List Statement → List (Located Error)
  | [] => []
  | s :: rest => site.found s ++ (site.within (site.scopes.behind s)).foundEach rest

def foundBlock (site : Site) : Block → List (Located Error)
  | ⟨body, _⟩ => site.ofBlock.foundEach body

def foundBranches (site : Site) : List Branch → List (Located Error)
  | [] => []
  | ⟨condition, body⟩ :: rest =>
    site.conditionErrors condition ++ site.foundBlock body ++ site.foundBranches rest

def foundOption (site : Site) : Option Block → List (Located Error)
  | none => []
  | some body => site.foundBlock body

end

end Site

end Typing

namespace Scopes

/-- The error of declaring a function or a datatype at the top level: its name may be taken. -/
def registerErrors (s : Scopes) : Statement → List (Located Typing.Error)
  | .function decl _ =>
    match s.getFunction? decl.name.name with
    | some first => [⟨.duplicateFunction decl.name.name first.span, decl.name.span⟩]
    | none => []
  | .datatype decl _ =>
    match s.getDatatype? decl.name.name with
    | some first => [⟨.duplicateDatatype decl.name.name first.span, decl.name.span⟩]
    | none => []
  | _ => []

def registerEachErrors (s : Scopes) : List Statement → List (Located Typing.Error)
  | [] => []
  | statement :: rest =>
    s.registerErrors statement ++ (s.registering statement).registerEachErrors rest

end Scopes

namespace Typing

namespace Checker

/-! ## The checker follows -/

/-- The checker with other names in scope and more errors. -/
def moved (c : Checker) (scopes : Scopes) (errors : List (Located Error)) : Checker :=
  { c with scopes, errors := c.errors ++ errors }

theorem report_eq_moved (c : Checker) (errors : List (Located Error)) :
    c.report errors = c.moved c.scopes errors := rfl

theorem moved_self (c : Checker) : c.moved c.scopes [] = c := by
  simp [moved]

@[simp] theorem moved_moved (c : Checker) (first second : Scopes)
    (errors more : List (Located Error)) :
    (c.moved first errors).moved second more = c.moved second (errors ++ more) := by
  simp [moved]

theorem declare_eq (c : Checker) {name : Ident} {v : VariableSymbol} (same : v.name = name.name) :
    c.declare name v = .ok (c.moved (c.scopes.adding v) (c.duplicateErrors name)) := by
  unfold declare
  split
  next taken =>
    rw [Scopes.adding_of_taken taken]
    rfl
  next notTaken =>
    have free : (c.scopes.current.getVariable? v.name).isSome = false := by simpa using notTaken
    have none : c.scopes.current.getVariable? name.name = none := by
      rw [same] at free
      simpa using free
    rw [Scopes.declareVariable_of_free free]
    simp [Env.duplicateErrors, none, moved, Bind.bind, Except.bind, pure, Except.pure]

theorem params_eq (c : Checker) (ps : List Param) :
    c.params ps = .ok (c.moved (c.scopes.addingParams ps) (c.paramErrors ps)) := by
  induction ps generalizing c with
  | nil => simp [params, Scopes.addingParams, Env.paramErrors, moved, pure, Except.pure]
  | cons p ps inductionHypothesis =>
    rw [params, report_eq_moved, declare_eq _ rfl]
    simp only [Bind.bind, Except.bind, inductionHypothesis, moved_moved, Env.paramErrors,
      List.append_assoc]
    rfl

end Checker

end Typing

/-! ## Statements -/

namespace Typing.Checker

theorem call_eq (c : Checker) {e : Expr} (isCall : e.isCall = true) :
    c.call e = .ok (c.moved c.scopes (c.callErrors e)) := by
  cases e with
  | call | libraryCall => rfl
  | _ => cases isCall

/-- Behind the body of a function, everything is as around it, but for the errors. -/
theorem closeScope_leaveFunction {inside c : Checker} (closes : inside.scopes.pop = .ok c.scopes)
    (sameLibrary : inside.library = c.library) :
    (inside.leaveFunction c).closeScope = .ok { c with errors := inside.errors } := by
  have popped : (inside.leaveFunction c).scopes.pop = .ok c.scopes := closes
  rw [closeScope, popped]
  show Except.ok { c with library := inside.library, errors := inside.errors } = _
  rw [sameLibrary]

theorem closeScope_eq {c : Checker} {scopes outer : Scopes} {errors : List (Located Error)}
    (closes : scopes.pop = .ok outer) :
    (c.moved scopes errors).closeScope = .ok (c.moved outer errors) := by
  have popped : (c.moved scopes errors).scopes.pop = .ok outer := closes
  rw [closeScope, popped]
  rfl

mutual

theorem statement_eq (c : Checker) (s : Statement) (calls : s.HoldsCalls) :
    c.statement s = .ok (c.moved (c.scopes.behind s) (c.toSite.found s)) := by
  match s with
  | .function ⟨name, params, returns, ⟨body, region⟩⟩ span =>
    -- the parameters share the scope that is opened for the body, and closing it drops both
    have closes : ((c.scopes.push.addingParams params).behindEach body).pop = .ok c.scopes := by
      rw [Scopes.pop_behindEach, Scopes.pop_addingParams]
      rfl
    rw [statement, report_eq_moved, params_eq]
    show Checker.statements _ body >>= _ = _
    rw [statements_eq _ body calls]
    refine Eq.trans (closeScope_leaveFunction ?closes ?sameLibrary) ?equal
    case closes => exact closes
    case sameLibrary => rfl
    case equal =>
      simp only [moved, openScope, enterFunction, Scopes.behind, Site.found, List.append_assoc]
      rfl
  | .datatype decl span => rfl
  | .declaration chained decl span =>
    rw [statement, variableDecl, report_eq_moved, declare_eq _ rfl, moved_moved]
    rfl
  | .reassignment target value span => rfl
  | .conditional branches otherwise span =>
    rw [statement, branches_eq c branches calls.1]
    show Checker.otherwise _ otherwise = _
    rw [otherwise_eq _ otherwise calls.2, moved_moved]
    rfl
  | .loop condition body span =>
    rw [statement, report_eq_moved]
    show Checker.block _ body >>= _ = _
    rw [block_eq _ body calls]
    simp only [moved, enterLoop, leaveLoop, Scopes.behind, Site.found, List.append_assoc]
    rfl
  | .block body span => exact block_eq c body calls
  | .result values span => rfl
  | .call call span => exact c.call_eq calls
  | .control kind span => rfl

theorem statements_eq (c : Checker) (statements : List Statement)
    (calls : Statement.EachHoldsCalls statements) :
    c.statements statements =
      .ok (c.moved (c.scopes.behindEach statements) (c.toSite.foundEach statements)) := by
  match statements with
  | [] => exact congrArg Except.ok c.moved_self.symm
  | s :: rest =>
    rw [Checker.statements, statement_eq c s calls.1]
    show Checker.statements _ rest = _
    rw [statements_eq _ rest calls.2, moved_moved]
    rfl

theorem block_eq (c : Checker) (body : Block) (calls : body.HoldsCalls) :
    c.block body = .ok (c.moved c.scopes (c.toSite.foundBlock body)) := by
  match body with
  | ⟨statements, span⟩ =>
    have closes : (c.openScope.scopes.behindEach statements).pop = .ok c.scopes := by
      rw [Scopes.pop_behindEach]
      rfl
    rw [block, statements_eq c.openScope statements calls]
    exact closeScope_eq closes

theorem branches_eq (c : Checker) (branches : List Branch) (calls : Branch.EachHoldsCalls branches) :
    c.branches branches = .ok (c.moved c.scopes (c.toSite.foundBranches branches)) := by
  match branches with
  | [] => exact congrArg Except.ok c.moved_self.symm
  | ⟨condition, body⟩ :: rest =>
    rw [Checker.branches, report_eq_moved, block_eq _ body calls.1]
    show Checker.branches _ rest = _
    rw [branches_eq _ rest calls.2, moved_moved, moved_moved, ← List.append_assoc]
    rfl

theorem otherwise_eq (c : Checker) (otherwise : Option Block)
    (calls : Block.OptionHoldsCalls otherwise) :
    c.otherwise otherwise = .ok (c.moved c.scopes (c.toSite.foundOption otherwise)) := by
  match otherwise with
  | none => exact congrArg Except.ok c.moved_self.symm
  | some body => exact block_eq c body calls

end

theorem register_eq (c : Checker) (s : Statement) :
    c.register s = .ok (c.moved (c.scopes.registering s) (c.scopes.registerErrors s)) := by
  cases s with
  | function decl span =>
    simp only [register, Scopes.registering, Scopes.registerErrors]
    cases taken : c.scopes.getFunction? decl.name.name with
    | some first => rfl
    | none =>
      have free : c.scopes.global.getFunction? decl.name.name = none := taken
      simp only [Scopes.declareFunction, SymbolTable.insertFunction?, FunctionSymbol.ofDecl, free]
      exact congrArg Except.ok (by simp [moved])
  | datatype decl span =>
    simp only [register, Scopes.registering, Scopes.registerErrors]
    cases taken : c.scopes.getDatatype? decl.name.name with
    | some first => rfl
    | none =>
      have free : c.scopes.global.getDatatype? decl.name.name = none := taken
      simp only [Scopes.declareDatatype, SymbolTable.insertDatatype?, DatatypeSymbol.ofDecl, free]
      exact congrArg Except.ok (by simp [moved])
  | _ => exact congrArg Except.ok c.moved_self.symm

theorem foldlM_register_eq (c : Checker) (statements : List Statement) :
    statements.foldlM register c =
      .ok (c.moved (c.scopes.registeringEach statements)
        (c.scopes.registerEachErrors statements)) := by
  induction statements generalizing c with
  | nil => exact congrArg Except.ok c.moved_self.symm
  | cons s rest inductionHypothesis =>
    rw [List.foldlM_cons, register_eq]
    show List.foldlM register _ rest = _
    rw [inductionHypothesis, moved_moved]
    rfl

/-! ## A check that comes to an end

The only fault that a statement can be is a call statement that holds no call. -/

/-- What comes first in a sequence of steps comes to an end if all do. -/
theorem exists_ok_of_bind {α β : Type} {x : Except Fault α} {f : α → Except Fault β} {b : β}
    (ran : (x >>= f) = .ok b) : ∃ a, x = .ok a ∧ f a = .ok b := by
  cases x with
  | error fault => cases ran
  | ok a => exact ⟨a, rfl, ran⟩

theorem isCall_of_ok {c d : Checker} {e : Expr} (ran : c.call e = .ok d) : e.isCall = true := by
  cases e with
  | call | libraryCall => rfl
  | _ => cases ran

mutual

/-- A call statement that holds no call is a fault, wherever it stands. -/
theorem holdsCalls_of_ok {c d : Checker} {s : Statement} (ran : c.statement s = .ok d) : s.HoldsCalls := by
  match s with
  | .function ⟨_, params, returns, ⟨body, _⟩⟩ _ =>
    rw [statement] at ran
    obtain ⟨inside, _, ranBody⟩ := exists_ok_of_bind ran
    obtain ⟨behind, ranEach, _⟩ := exists_ok_of_bind ranBody
    exact eachHoldsCalls_of_ok ranEach
  | .conditional branches otherwise _ =>
    rw [statement] at ran
    obtain ⟨between, ranBranches, ranOtherwise⟩ := exists_ok_of_bind ran
    exact ⟨branchesHoldCalls_of_ok ranBranches, optionHoldsCalls_of_ok ranOtherwise⟩
  | .loop condition body _ =>
    rw [statement] at ran
    obtain ⟨behind, ranBody, _⟩ := exists_ok_of_bind ran
    exact blockHoldsCalls_of_ok ranBody
  | .block body _ =>
    rw [statement] at ran
    exact blockHoldsCalls_of_ok ran
  | .call call _ =>
    rw [statement] at ran
    exact isCall_of_ok ran
  | .datatype .. | .declaration .. | .reassignment .. | .result .. | .control .. => exact trivial

theorem eachHoldsCalls_of_ok {c d : Checker} {statements : List Statement}
    (ran : c.statements statements = .ok d) : Statement.EachHoldsCalls statements := by
  match statements with
  | [] => exact trivial
  | s :: rest =>
    rw [Checker.statements] at ran
    obtain ⟨between, ranFirst, ranRest⟩ := exists_ok_of_bind ran
    exact ⟨holdsCalls_of_ok ranFirst, eachHoldsCalls_of_ok ranRest⟩

theorem blockHoldsCalls_of_ok {c d : Checker} {body : Block} (ran : c.block body = .ok d) :
    body.HoldsCalls := by
  match body with
  | ⟨statements, _⟩ =>
    rw [block] at ran
    obtain ⟨behind, ranEach, _⟩ := exists_ok_of_bind ran
    exact eachHoldsCalls_of_ok ranEach

theorem branchesHoldCalls_of_ok {c d : Checker} {branches : List Branch}
    (ran : c.branches branches = .ok d) : Branch.EachHoldsCalls branches := by
  match branches with
  | [] => exact trivial
  | ⟨condition, body⟩ :: rest =>
    rw [Checker.branches] at ran
    obtain ⟨between, ranFirst, ranRest⟩ := exists_ok_of_bind ran
    exact ⟨blockHoldsCalls_of_ok ranFirst, branchesHoldCalls_of_ok ranRest⟩

theorem optionHoldsCalls_of_ok {c d : Checker} {otherwise : Option Block}
    (ran : c.otherwise otherwise = .ok d) : Block.OptionHoldsCalls otherwise := by
  match otherwise with
  | none => exact trivial
  | some body => exact blockHoldsCalls_of_ok ran

end

end Typing.Checker

/-! ## Programs -/

namespace Program

/-- Where the statements of a program stand: its functions and datatypes are known already. -/
def site (library : Library) (p : Program) : Typing.Site where
  library := library
  scopes := Scopes.start.registeringEach p
  returns := none
  loopDepth := 0

/-- All that is found in a program. -/
def found (library : Library) (p : Program) : List (Located Typing.Error) :=
  Scopes.start.registerEachErrors p ++ (p.site library).foundEach p

/-- What a program declares at the top level: first its functions and datatypes, then its variables. -/
def globals (p : Program) : SymbolTable :=
  ((Scopes.start.registeringEach p).behindEach p).global

/-- Checking a program comes to an end, and finds what is to be found and what is declared. -/
theorem check_eq_globals (library : Library) {p : Program} (calls : Statement.EachHoldsCalls p) :
    p.check library = .ok ⟨⟨p, p.globals⟩, p.found library⟩ := by
  -- every scope that was opened has been closed, so only the global one is left
  have closed : ((Scopes.start.registeringEach p).behindEach p).inner = [] :=
    Scopes.inner_behindEach (Scopes.registeringEach_keeps .start p).1 p
  rw [check, Typing.Checker.program, Typing.Checker.foldlM_register_eq]
  show (Typing.Checker.statements _ p >>= _) = _
  rw [Typing.Checker.statements_eq _ p calls, Typing.Checker.moved_moved]
  show Scopes.close _ >>= _ = _
  rw [Scopes.close, if_pos (by exact List.isEmpty_iff.mpr closed)]
  rfl

theorem check_eq (library : Library) {p : Program} (calls : Statement.EachHoldsCalls p) :
    ∃ globals, p.check library = .ok ⟨⟨p, globals⟩, p.found library⟩ :=
  ⟨p.globals, check_eq_globals library calls⟩

/-- A check that comes to an end has met no fault. -/
theorem holdsCalls_of_check {library : Library} {p : Program} {o : Outcome Typing.Error CheckedProgram}
    (checked : p.check library = .ok o) : Statement.EachHoldsCalls p := by
  rw [check] at checked
  obtain ⟨c, ran, _⟩ := Typing.Checker.exists_ok_of_bind checked
  rw [Typing.Checker.program] at ran
  obtain ⟨registered, _, ranEach⟩ := Typing.Checker.exists_ok_of_bind ran
  exact Typing.Checker.eachHoldsCalls_of_ok ranEach

/-- A check finds nothing else, and it comes to an end for no other program. -/
theorem check_eq_ok_iff (library : Library) (p : Program) (o : Outcome Typing.Error CheckedProgram) :
    p.check library = .ok o ↔ Statement.EachHoldsCalls p ∧ o = ⟨⟨p, p.globals⟩, p.found library⟩ := by
  constructor
  · intro checked
    have calls := holdsCalls_of_check checked
    rw [check_eq_globals library calls] at checked
    exact ⟨calls, (Except.ok.inj checked).symm⟩
  · rintro ⟨calls, rfl⟩
    exact check_eq_globals library calls

end Program

end FrontEnd
