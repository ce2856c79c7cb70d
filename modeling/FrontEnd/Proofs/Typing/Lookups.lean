import Mathlib.Data.List.Forall2
import FrontEnd.Proofs.Typing.Exchange
import FrontEnd.Proofs.Typing.Surroundings

/-!
# What is looked up

The types that declarations write down are looked up again where what they declare is used: that of a variable
by its uses and reassignments, the signature of a function by its calls, the types of fields by records, and the
types of results by the statements that give them. Those that are looked up to be compared are listed here, on
the tree and by its scopes alone (`Context.consults`, `Context.consultsStatement`). Names may be declared more
than once, and then the first declaration counts; so does it for the tables of a check (`Context.Mirrors`).
-/

namespace FrontEnd

/-- The first field of a name. -/
def DatatypeDecl.field? (decl : DatatypeDecl) (name : String) : Option Param :=
  decl.fields.find? fun p => p.name.name = name

namespace Typing.Context

/-! ## What names refer to -/

/-- The variable that a name refers to: the first of the innermost scope which has one of the name. -/
def getVariable? (Γ : Context) (name : String) : Option Binding :=
  Γ.scopes.findSome? fun scope => scope.find? fun b => b.name = name

def getFunction? (Γ : Context) (name : String) : Option FunctionDecl :=
  Γ.functions.find? fun decl => decl.name.name = name

def getDatatype? (Γ : Context) (name : String) : Option DatatypeDecl :=
  Γ.datatypes.find? fun decl => decl.name.name = name

/-! ## Types that are looked up -/

/-- The type of the variable that a name refers to. -/
def consultsVariable (Γ : Context) (name : Ident) : List TypeTag :=
  (Γ.getVariable? name.name).toList.map Binding.type

/-- The type of the field of a record, if the datatype is known. -/
def consultsField (decl : Option DatatypeDecl) (name : Ident) : List TypeTag :=
  (decl.bind fun d => d.field? name.name).toList.map fun p => p.type.tag

/-- The types that are looked up for the type of an expression itself, apart from those of its parts: that of a
variable and those that a function returns. -/
def consultsType (Γ : Context) : Expr → List TypeTag
  | .name ident _ => Γ.consultsVariable ident
  | .call function _ _ => (Γ.getFunction? function.name).toList.flatMap FunctionDecl.gives
  | .libraryCall space function _ _ =>
    (Γ.library.getFunction? space.name function.name).toList.flatMap FunctionSymbol.returns
  | _ => []

mutual

/-- The types that are looked up inside of an expression. -/
def consultsInside (Γ : Context) : Expr → List TypeTag
  | .int .. | .string .. | .bool .. | .name .. | .missing .. => []
  | .record name fields _ => Γ.consultsFields (Γ.getDatatype? name.name) fields
  | .operation _ operands _ => Γ.consultsEach operands
  | .call function args _ =>
    (Γ.getFunction? function.name).toList.flatMap FunctionDecl.takes ++ Γ.consultsEach args
  | .libraryCall space function args _ =>
    (Γ.library.getFunction? space.name function.name).toList.flatMap FunctionSymbol.takes ++
      Γ.consultsEach args
  | .list items _ => Γ.consultsEach items

def consultsEach (Γ : Context) : List Expr → List TypeTag
  | [] => []
  | e :: es => (Γ.consultsInside e ++ Γ.consultsType e) ++ Γ.consultsEach es

/-- The types that are looked up for the fields of a record of a datatype. -/
def consultsFields (Γ : Context) (decl : Option DatatypeDecl) : List FieldValue → List TypeTag
  | [] => []
  | ⟨name, value⟩ :: fields =>
    (Γ.consultsInside value ++ Γ.consultsType value) ++ consultsField decl name ++ Γ.consultsFields decl fields

end

/-- The types that are looked up for an expression whose type is required. -/
def consults (Γ : Context) (e : Expr) : List TypeTag :=
  Γ.consultsInside e ++ Γ.consultsType e

/-- Whether a written type is builtin or declared. -/
def Knows (Γ : Context) (type : TypeName) : Prop :=
  ∀ name ∈ type.scalar.datatype?, Γ.getDatatype? name ≠ none

instance (Γ : Context) (type : TypeName) : Decidable (Γ.Knows type) :=
  inferInstanceAs (Decidable (∀ name ∈ type.scalar.datatype?, Γ.getDatatype? name ≠ none))

mutual

/-- The types that are looked up for a statement. The type of a value does not matter where it is not required:
in a declaration with a type that is wrong itself, and in a call that is made for its effect. -/
def consultsStatement (Γ : Context) : Statement → List TypeTag
  | .function ⟨_, params, returns, ⟨body, _⟩⟩ _ => (Γ.ofFunction params returns).consultsStatements body
  | .datatype .. | .control .. => []
  | .declaration _ decl _ =>
    Γ.consultsInside decl.value ++ if Γ.Knows decl.type then Γ.consultsType decl.value else []
  | .reassignment target value _ => Γ.consults value ++ Γ.consultsVariable target
  | .conditional branches otherwise _ => Γ.consultsBranches branches ++ Γ.consultsOption otherwise
  | .loop condition body _ => (condition.map Γ.consults).getD [] ++ Γ.ofLoop.consultsBlock body
  | .block body _ => Γ.consultsBlock body
  | .result values _ => Γ.consultsEach values ++ Γ.returns.getD []
  | .call call _ => Γ.consultsInside call

def consultsStatements (Γ : Context) : List Statement → List TypeTag
  | [] => []
  | s :: rest => Γ.consultsStatement s ++ (Γ.behind s).consultsStatements rest

def consultsBlock (Γ : Context) : Block → List TypeTag
  | ⟨body, _⟩ => Γ.opened.consultsStatements body

def consultsBranches (Γ : Context) : List Branch → List TypeTag
  | [] => []
  | ⟨condition, body⟩ :: rest => Γ.consults condition ++ Γ.consultsBlock body ++ Γ.consultsBranches rest

def consultsOption (Γ : Context) : Option Block → List TypeTag
  | none => []
  | some body => Γ.consultsBlock body

end

end Typing.Context

/-- All types that are looked up in a program to be compared. -/
def Program.consulted (library : Library) (p : Program) : List TypeTag :=
  (p.context library).consultsStatements p

/-! ## Tables with the first declarations -/

/-- Whether a table has of every name the first of some variables. -/
def SymbolTable.Lists (t : SymbolTable) (scope : List Typing.Binding) : Prop :=
  ∀ name, (t.getVariable? name).map VariableSymbol.binding = scope.find? fun b => b.name = name

/-- Whether the open scopes have them. -/
def Scopes.Lists (s : Scopes) (scopes : List (List Typing.Binding)) : Prop :=
  List.Forall₂ SymbolTable.Lists s.tables scopes

theorem SymbolTable.getVariable?_adding (t : SymbolTable) (v : VariableSymbol) (name : String) :
    (t.adding v).getVariable? name =
      (t.getVariable? name).or (if v.name = name then some v else none) := by
  have vars : (t.adding v).vars = keepFirst VariableSymbol.name t.vars (some v) :=
    apply_ite SymbolTable.vars _ _ _
  rw [SymbolTable.getVariable?, vars, find?_keepFirst, Option.toList_some]
  by_cases named : v.name = name <;> simp [named, SymbolTable.getVariable?]

theorem SymbolTable.Lists.adding {t : SymbolTable} {scope : List Typing.Binding} (lists : t.Lists scope)
    (v : VariableSymbol) : (t.adding v).Lists (scope ++ [v.binding]) := by
  -- the one that was there before is found first, in the table as in the list
  intro name
  rw [t.getVariable?_adding, Option.map_or, lists name, List.find?_append]
  by_cases named : v.name = name <;> simp [named, VariableSymbol.binding]

namespace Scopes

variable {s : Scopes} {scope : List Typing.Binding} {outer scopes : List (List Typing.Binding)}

theorem Lists.push (lists : s.Lists scopes) : s.push.Lists ([] :: scopes) :=
  .cons (fun _ => rfl) lists

theorem Lists.adding (lists : s.Lists (scope :: outer)) (v : VariableSymbol) :
    (s.adding v).Lists ((scope ++ [v.binding]) :: outer) := by
  obtain ⟨others, before, after⟩ := s.tables_adding v
  rw [Lists, before] at lists
  rw [Lists, after]
  cases lists with
  | cons innermost further => exact .cons (innermost.adding v) further

theorem Lists.addingParams (lists : s.Lists (scope :: outer)) (ps : List Param) :
    (s.addingParams ps).Lists ((scope ++ ps.map Typing.Binding.ofParam) :: outer) := by
  induction ps generalizing s scope with
  | nil => simpa [Scopes.addingParams] using lists
  | cons p ps inductionHypothesis =>
    have rest := inductionHypothesis (lists.adding (.ofParam p))
    rw [List.append_assoc] at rest
    exact rest

theorem Lists.getVariable? (lists : s.Lists scopes) (name : String) :
    (s.getVariable? name).map VariableSymbol.binding =
      scopes.findSome? fun scope => scope.find? fun b => b.name = name := by
  rw [getVariable?_eq_findSome?]
  unfold Lists at lists
  generalize s.tables = tables at lists ⊢
  induction lists with
  | nil => rfl
  | cons innermost _ inductionHypothesis =>
    have here := innermost name
    rw [List.findSome?_cons, List.findSome?_cons, ← here]
    cases found : SymbolTable.getVariable? _ name with
    | some v => rfl
    | none => exact inductionHypothesis

end Scopes

/-! ## Sites that look up the same -/

namespace Typing

/-- Whether the same is found for every name at a site as in a context, though names may be declared twice. -/
structure Context.Mirrors (Γ : Context) (site : Site) : Prop where
  library : site.library = Γ.library
  functions : ∀ name, (site.scopes.getFunction? name).map FunctionSymbol.signature =
    (Γ.getFunction? name).map FunctionDecl.signature
  datatypes : ∀ name, (site.scopes.getDatatype? name).map DatatypeSymbol.shape =
    (Γ.getDatatype? name).map DatatypeDecl.shape
  scopes : site.scopes.Lists Γ.scopes
  returns : site.returns = Γ.returns

namespace Context.Mirrors

variable {Γ : Context} {site : Site}

theorem getVariable? (mirrors : Γ.Mirrors site) (name : String) :
    (site.scopes.getVariable? name).map VariableSymbol.binding = Γ.getVariable? name :=
  mirrors.scopes.getVariable? name

theorem callee (mirrors : Γ.Mirrors site) {function : Ident} {f : Callee}
    (resolved : site.callee function = .ok f) :
    ∃ decl, Γ.getFunction? function.name = some decl ∧ f.takes = decl.takes ∧ f.returns = decl.gives := by
  have own := mirrors.functions function.name
  rw [Env.callee] at resolved
  split at resolved
  next symbol found =>
    cases resolved
    rw [found, Option.map_some, eq_comm, Option.map_eq_some_iff] at own
    obtain ⟨decl, first, same⟩ := own
    injection same with _ takes gives
    exact ⟨decl, first, takes.symm, gives.symm⟩
  next => cases resolved

theorem libraryCallee (mirrors : Γ.Mirrors site) {space function : Ident} {f : Callee}
    (resolved : site.libraryCallee space function = .ok f) :
    ∃ g, Γ.library.getFunction? space.name function.name = some g ∧
      f.takes = g.takes ∧ f.returns = g.returns := by
  rw [Env.libraryCallee, mirrors.library] at resolved
  split at resolved
  · split at resolved
    next g found =>
      cases resolved
      exact ⟨g, found, rfl, rfl⟩
    next => cases resolved
  · cases resolved

theorem datatype (mirrors : Γ.Mirrors site) {name : String} {d : DatatypeSymbol}
    (found : site.scopes.getDatatype? name = some d) :
    ∃ decl, Γ.getDatatype? name = some decl ∧ d.shape = decl.shape := by
  have own := mirrors.datatypes name
  rw [found, Option.map_some, eq_comm, Option.map_eq_some_iff] at own
  obtain ⟨decl, first, same⟩ := own
  exact ⟨decl, first, same.symm⟩

theorem opened (mirrors : Γ.Mirrors site) : Γ.opened.Mirrors site.ofBlock :=
  { mirrors with scopes := mirrors.scopes.push }

theorem ofLoop (mirrors : Γ.Mirrors site) : Γ.ofLoop.Mirrors site.inLoop :=
  { mirrors with }

/-- Whatever variables are declared, functions and datatypes stay as they are. -/
theorem within (mirrors : Γ.Mirrors site) {s : Scopes} {scopes : List (List Binding)}
    (sameFunctions : s.global.functions = site.scopes.global.functions)
    (sameDatatypes : s.global.datatypes = site.scopes.global.datatypes) (lists : s.Lists scopes) :
    ({ Γ with scopes } : Context).Mirrors (site.within s) :=
  { mirrors with
    functions := by
      intro name
      have same : s.getFunction? name = site.scopes.getFunction? name :=
        congrArg (List.find? fun f : FunctionSymbol => f.name = name) sameFunctions
      exact (congrArg _ same).trans (mirrors.functions name)
    datatypes := by
      intro name
      have same : s.getDatatype? name = site.scopes.getDatatype? name :=
        congrArg (List.find? fun d : DatatypeSymbol => d.name = name) sameDatatypes
      exact (congrArg _ same).trans (mirrors.datatypes name)
    scopes := lists }

theorem behind (mirrors : Γ.Mirrors site) (s : Statement) :
    (Γ.behind s).Mirrors (site.within (site.scopes.behind s)) := by
  cases s with
  | declaration chained decl span =>
    have lists := mirrors.scopes
    obtain ⟨functions, datatypes⟩ := site.scopes.global_adding (.ofDecl decl span)
    obtain ⟨others, tables, _⟩ := site.scopes.tables_adding (.ofDecl decl span)
    cases scopes : Γ.scopes with
    | nil =>
      -- a site always has an innermost scope
      rw [scopes, Scopes.Lists, tables] at lists
      cases lists
    | cons scope outer =>
      rw [scopes] at lists
      rw [Context.behind, Context.declaring, scopes]
      exact mirrors.within functions datatypes (lists.adding (.ofDecl decl span))
  | _ => exact mirrors

theorem ofFunction (mirrors : Γ.Mirrors site) (params : List Param) (returns : List TypeName) :
    (Γ.ofFunction params returns).Mirrors (site.ofBody params returns) := by
  obtain ⟨functions, datatypes⟩ := site.scopes.push.global_addingParams params
  have inside := mirrors.within functions datatypes (mirrors.scopes.push.addingParams params)
  exact { inside with returns := rfl }

end Context.Mirrors

end Typing

/-- The symbol that is found for a name is that of the first declaration. -/
theorem Registry.map_find? {α β γ : Type} (r : Registry α β) (empty : r.table .start = []) (p : Program)
    {view : β → γ} {viewDecl : α → γ} (same : ∀ d, view (r.symbol d) = viewDecl d.value) (name : String) :
    ((r.table (Scopes.start.registeringEach p)).find? fun x => r.name x = name).map view =
      (((p.filterMap r.declared?).map Located.value).find? fun d => (r.ident d).name = name).map viewDecl := by
  have views : view ∘ r.symbol = viewDecl ∘ Located.value := funext same
  rw [(r.keepsFirsts empty p).first name, List.find?_map, List.find?_map, Option.map_map, Option.map_map, views]
  simp only [Function.comp_def, r.name_symbol]

namespace Program

theorem functions_eq_map (p : Program) : p.functions = p.functionDecls.map Located.value := by
  rw [functionDecls, List.map_filterMap]
  exact List.filterMap_congr fun statement _ => by cases statement <;> rfl

theorem datatypes_eq_map (p : Program) : p.datatypes = p.datatypeDecls.map Located.value := by
  rw [datatypeDecls, List.map_filterMap]
  exact List.filterMap_congr fun statement _ => by cases statement <;> rfl

/-- At the start of the second pass, the same is found for a name as in the context of the program. -/
theorem mirrors_site (library : Library) (p : Program) : (p.context library).Mirrors (p.site library) where
  library := rfl
  functions := by
    intro name
    have context : (p.context library).functions = p.functionDecls.map Located.value := p.functions_eq_map
    rw [Typing.Context.getFunction?, context]
    exact Registry.functions.map_find? rfl p (fun _ => rfl) name
  datatypes := by
    intro name
    have context : (p.context library).datatypes = p.datatypeDecls.map Located.value := p.datatypes_eq_map
    rw [Typing.Context.getDatatype?, context]
    exact Registry.datatypes.map_find? rfl p (fun _ => rfl) name
  scopes := by
    obtain ⟨inner, vars⟩ := Scopes.registeringEach_keeps .start p
    have tables : (p.site library).scopes.tables = [(p.site library).scopes.global] :=
      congrArg (· ++ _) inner
    rw [Scopes.Lists, tables]
    refine .cons (fun name => ?_) .nil
    -- the first pass declares no variables
    have noVariable : (p.site library).scopes.global.getVariable? name = none :=
      congrArg (List.find? fun v : VariableSymbol => v.name = name) vars
    rw [noVariable]
    rfl
  returns := rfl

end Program

end FrontEnd
