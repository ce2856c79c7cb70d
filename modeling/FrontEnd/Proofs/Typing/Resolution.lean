import Mathlib.Data.List.Forall2
import FrontEnd.Proofs.Typing.Occurrences

/-!
# Name resolution

The errors about variables that a check reports are told by the occurrences of variables in the tree.
The invariant that carries this through a program is that the open scopes model the place: of every
name, each table has the first declaration that its scope has before the point.
-/

namespace FrontEnd

namespace Typing

/-! ## Errors about variables -/

def Error.isUndeclaredVariable : Error → Bool
  | .undeclaredVariable _ => true
  | _ => false

def Error.isDuplicateVariable : Error → Bool
  | .duplicateVariable .. => true
  | _ => false

/-- The errors about variables among some errors. -/
def variableErrors (errors : List (Located Error)) : List (Located Error) :=
  errors.filter fun e => e.value.isUndeclaredVariable || e.value.isDuplicateVariable

@[simp] theorem variableErrors_nil : variableErrors [] = [] := rfl

@[simp] theorem variableErrors_append (first second : List (Located Error)) :
    variableErrors (first ++ second) = variableErrors first ++ variableErrors second :=
  List.filter_append ..

theorem variableErrors_flatMap {α : Type} (xs : List α) (f : α → List (Located Error)) :
    variableErrors (xs.flatMap f) = xs.flatMap fun x => variableErrors (f x) :=
  List.filter_flatMap ..

theorem variableErrors_flatMap_of_nil {α : Type} {xs : List α} {f : α → List (Located Error)}
    (none : ∀ x, variableErrors (f x) = []) : variableErrors (xs.flatMap f) = [] := by
  simp [variableErrors_flatMap, none]

theorem filter_variableErrors {f : Located Error → Bool}
    (ofVariable : ∀ e, f e = true →
      (e.value.isUndeclaredVariable || e.value.isDuplicateVariable) = true)
    (errors : List (Located Error)) : (variableErrors errors).filter f = errors.filter f := by
  rw [variableErrors, List.filter_filter]
  apply List.filter_congr
  intro e _
  cases holds : f e with
  | false => rfl
  | true => simp [ofVariable e holds]

/-! Types, numbers and fields are no matter of variables. -/

@[simp] theorem variableErrors_require (expected : TypeTag) (actual : Inferred) (span : Span) :
    variableErrors (require expected actual span) = [] := by
  unfold require
  split <;> rfl

@[simp] theorem variableErrors_judgement_require (j : Judgement) (expected : TypeTag) :
    variableErrors (j.require expected) = [] :=
  variableErrors_require ..

@[simp] theorem variableErrors_requireEach (expected : List TypeTag) (js : List Judgement) :
    variableErrors (requireEach expected js) = [] := by
  induction expected generalizing js with
  | nil => rfl
  | cons type expected inductionHypothesis =>
    cases js with
    | nil => rfl
    | cons j js =>
      have rest := inductionHypothesis js
      simp only [requireEach] at rest
      simp [requireEach, rest]

@[simp] theorem variableErrors_agree (first second : Judgement) :
    variableErrors (agree first second) = [] := by
  unfold agree
  cases first.type <;> simp

@[simp] theorem variableErrors_operandErrors (op : Operator) (operands : List Judgement)
    (span : Span) : variableErrors (operandErrors op operands span) = [] := by
  simp only [operandErrors]
  split
  · split
    · exact variableErrors_flatMap_of_nil fun j => by simp
    · simp
    · rfl
  · rfl

@[simp] theorem variableErrors_itemErrors (j : Judgement) (element : Option TypeTag) :
    variableErrors (j.itemErrors element) = [] := by
  unfold Judgement.itemErrors
  cases j.type with
  | unknown | emptyList => rfl
  | known type =>
    by_cases isList : type.isList
    · simp [isList]
      rfl
    · cases element <;> simp [isList]

@[simp] theorem variableErrors_argumentErrors (f : Callee) (args : List Judgement) (span : Span) :
    variableErrors (f.argumentErrors args span) = [] := by
  unfold Callee.argumentErrors
  split
  · simp
  · rfl

@[simp] theorem variableErrors_fieldErrors (d : DatatypeSymbol) (before : List String) (name : Ident)
    (value : Judgement) : variableErrors (fieldErrors d before name value) = [] := by
  unfold fieldErrors
  split
  · rfl
  · split
    · rfl
    · simp

@[simp] theorem variableErrors_missingErrors (d : DatatypeSymbol) (name : Ident)
    (given : List String) : variableErrors (missingErrors d name given) = [] := by
  simp only [missingErrors, variableErrors, List.filter_map, List.map_eq_nil_iff]
  simp [Function.comp_def, Error.isUndeclaredVariable, Error.isDuplicateVariable]

@[simp] theorem variableErrors_typeErrors (env : Env) (type : TypeName) :
    variableErrors (env.typeErrors type) = [] := by
  unfold Env.typeErrors
  split
  · rfl
  · split <;> rfl

@[simp] theorem variableErrors_datatypeFields (env : Env) (datatype : String)
    (before : List String) (fields : List Param) :
    variableErrors (env.fieldErrors datatype before fields) = [] := by
  induction fields generalizing before with
  | nil => rfl
  | cons p ps inductionHypothesis =>
    simp only [Env.fieldErrors, variableErrors_append, variableErrors_typeErrors,
      inductionHypothesis]
    split <;> rfl

@[simp] theorem variableErrors_registerEachErrors (s : Scopes) (statements : List Statement) :
    variableErrors (s.registerEachErrors statements) = [] := by
  induction statements generalizing s with
  | nil => rfl
  | cons statement rest inductionHypothesis =>
    rw [Scopes.registerEachErrors, variableErrors_append, inductionHypothesis, List.append_nil]
    cases statement with
    | function | datatype =>
      simp only [Scopes.registerErrors]
      split <;> rfl
    | _ => rfl

/-! ## Uses in expressions -/

def Env.undeclared? (env : Env) (ident : Ident) : Option (Located Error) :=
  if (env.scopes.getVariable? ident.name).isSome then none
  else some ⟨.undeclaredVariable ident.name, ident.span⟩

theorem variableErrors_judgeName (env : Env) (ident : Ident) (span : Span) :
    variableErrors (env.judgeName ident span).errors = [ident].filterMap env.undeclared? := by
  unfold Env.judgeName Env.undeclared?
  cases found : env.scopes.getVariable? ident.name with
  | some v => simp [found]
  | none =>
    simp [found]
    rfl

theorem variableErrors_callErrors {callee : Except (Located Error) Callee}
    (notOfVariable : ∀ e, callee = .error e → variableErrors [e] = []) (args : List Judgement)
    (span : Span) :
    variableErrors (callErrors callee args span) = variableErrors (Judgement.allErrors args) := by
  cases callee with
  | error e =>
    show variableErrors ([e] ++ _) = _
    rw [variableErrors_append, notOfVariable e rfl]
    rfl
  | ok f => simp [callErrors]

theorem variableErrors_callee (env : Env) (function : Ident) (e : Located Error)
    (undeclared : env.callee function = .error e) : variableErrors [e] = [] := by
  unfold Env.callee at undeclared
  split at undeclared
  · cases undeclared
  · cases undeclared
    rfl

theorem variableErrors_libraryCallee (env : Env) (space function : Ident) (e : Located Error)
    (undeclared : env.libraryCallee space function = .error e) : variableErrors [e] = [] := by
  simp only [Env.libraryCallee] at undeclared
  split at undeclared
  · split at undeclared
    · cases undeclared
    · cases undeclared
      rfl
  · cases undeclared
    rfl

theorem variableErrors_judgeCall {callee : Except (Located Error) Callee}
    (notOfVariable : ∀ e, callee = .error e → variableErrors [e] = []) (args : List Judgement)
    (span : Span) :
    variableErrors (judgeCall callee args span).errors =
      variableErrors (Judgement.allErrors args) := by
  rw [← variableErrors_callErrors notOfVariable args span]
  cases callee with
  | error e => rfl
  | ok f =>
    -- a call for one of several values reports more, but nothing about variables
    simp only [judgeCall]
    split
    · rfl
    · simp only [variableErrors_append]
      exact List.append_nil _

theorem variableErrors_judgeList (items : List Judgement) (span : Span) :
    variableErrors (judgeList items span).errors = variableErrors (Judgement.allErrors items) := by
  simp [judgeList, Judgement.allErrors, variableErrors_flatMap]

theorem variableErrors_fieldsErrors (d : DatatypeSymbol) (before : List String)
    (fields : List (Ident × Judgement)) :
    variableErrors (fieldsErrors d before fields) =
      variableErrors (Judgement.allErrors (fields.map Prod.snd)) := by
  induction fields generalizing before with
  | nil => rfl
  | cons field fields inductionHypothesis =>
    simp [fieldsErrors, inductionHypothesis, Judgement.allErrors]

theorem variableErrors_judgeRecord (datatype : Option DatatypeSymbol) (name : Ident)
    (fields : List (Ident × Judgement)) (span : Span) :
    variableErrors (judgeRecord datatype name fields span).errors =
      variableErrors (Judgement.allErrors (fields.map Prod.snd)) := by
  cases datatype with
  | none => rfl
  | some d => simp [judgeRecord, variableErrors_fieldsErrors]

mutual

/-- Every name in an expression is looked up once, whatever else is wrong with the expression. -/
theorem variableErrors_infer (env : Env) (e : Expr) :
    variableErrors (env.infer e).errors = e.names.filterMap env.undeclared? := by
  match e with
  | .int .. | .string .. | .bool .. | .missing .. => rfl
  | .name ident span => exact variableErrors_judgeName env ident span
  | .record name fields span =>
    rw [Env.infer, variableErrors_judgeRecord, variableErrors_inferFields env fields, Expr.names]
  | .operation op operands span =>
    rw [Env.infer, judgeOperation, variableErrors_append, variableErrors_operandErrors,
      List.append_nil, variableErrors_inferEach env operands, Expr.names]
  | .call function args span =>
    rw [Env.infer, variableErrors_judgeCall (variableErrors_callee env function),
      variableErrors_inferEach env args, Expr.names]
  | .libraryCall space function args span =>
    rw [Env.infer, variableErrors_judgeCall (variableErrors_libraryCallee env space function),
      variableErrors_inferEach env args, Expr.names]
  | .list items span =>
    rw [Env.infer, variableErrors_judgeList, variableErrors_inferEach env items, Expr.names]

theorem variableErrors_inferEach (env : Env) (es : List Expr) :
    variableErrors (Judgement.allErrors (env.inferEach es)) =
      (Expr.namesEach es).filterMap env.undeclared? := by
  match es with
  | [] => rfl
  | e :: rest =>
    have inside := variableErrors_infer env e
    have others := variableErrors_inferEach env rest
    simp only [Judgement.allErrors] at others
    simp [Env.inferEach, Judgement.allErrors, Expr.namesEach, inside, others]

theorem variableErrors_inferFields (env : Env) (fields : List FieldValue) :
    variableErrors (Judgement.allErrors ((env.inferFields fields).map Prod.snd)) =
      (FieldValue.namesEach fields).filterMap env.undeclared? := by
  match fields with
  | [] => rfl
  | ⟨name, value⟩ :: rest =>
    have inside := variableErrors_infer env value
    have others := variableErrors_inferFields env rest
    simp only [Judgement.allErrors] at others
    simp [Env.inferFields, Judgement.allErrors, FieldValue.namesEach, inside, others]

end

end Typing

/-! ## Scopes and places -/

/-- Whether a table has of every name the first of some declarations. -/
def SymbolTable.Models (table : SymbolTable) (declared : List Declared) : Prop :=
  ∀ name, (table.getVariable? name).map VariableSymbol.span =
    (declared.find? fun d => d.name = name).map Declared.span

namespace SymbolTable

variable {table : SymbolTable} {declared : List Declared}

theorem Models.isSome_iff (models : table.Models declared) (name : String) :
    (table.getVariable? name).isSome ↔ ∃ d ∈ declared, d.name = name := by
  rw [← Option.isSome_map (f := VariableSymbol.span), models name]
  simp

theorem Models.adding (models : table.Models declared) (v : VariableSymbol) :
    (table.adding v).Models (declared ++ [⟨v.name, v.span⟩]) := by
  intro name
  have before := models name
  by_cases taken : (table.getVariable? v.name).isSome
  · rw [SymbolTable.adding, if_pos taken, before, List.find?_append]
    by_cases same : v.name = name
    · -- the declaration is not the first of its name
      have found : (declared.find? fun d => d.name = name).isSome := by
        simpa [same] using (models.isSome_iff v.name).mp taken
      rw [Option.or_of_isSome found]
    · simp [same]
  · rw [SymbolTable.adding, if_neg taken]
    simp only [getVariable?] at before ⊢
    rw [List.find?_append, List.find?_append, Option.map_or, Option.map_or, before]
    by_cases same : v.name = name <;> simp [same]

end SymbolTable

/-- Whether the open scopes are those of a place. -/
def Scopes.Models (s : Scopes) (place : Place) : Prop :=
  List.Forall₂ (fun table frame => table.Models frame.declared) s.tables place

namespace Scopes

variable {s : Scopes} {frame : Frame} {outer place : Place}

theorem Models.current (models : s.Models (frame :: outer)) :
    s.current.Models frame.declared := by
  obtain ⟨inner, global⟩ := s
  cases inner with
  | nil => exact (List.forall₂_cons.mp models).1
  | cons table inner => exact (List.forall₂_cons.mp models).1

theorem Models.congr (models : s.Models (frame :: outer)) {behind : Frame}
    (same : behind.declared = frame.declared) : s.Models (behind :: outer) := by
  unfold Models at models ⊢
  generalize s.tables = tables at models ⊢
  cases models with
  | cons innermost further => exact .cons (by rwa [same]) further

theorem Models.push (models : s.Models place) : s.push.Models (.start :: place) :=
  .cons (fun _ => rfl) models

theorem Models.adding (models : s.Models (frame :: outer)) (v : VariableSymbol) {behind : Frame}
    (declares : behind.declared = frame.declared ++ [⟨v.name, v.span⟩]) :
    (s.adding v).Models (behind :: outer) := by
  obtain ⟨others, before, after⟩ := s.tables_adding v
  rw [Models, before] at models
  cases models with
  | cons innermost further =>
    rw [Models, after]
    exact .cons (by simpa [declares] using innermost.adding v) further

theorem Models.addingParams (models : s.Models (frame :: outer)) (ps : List Param)
    (noStatement : frame.before = []) :
    (s.addingParams ps).Models (⟨frame.params ++ ps, []⟩ :: outer) := by
  induction ps generalizing s frame with
  | nil => simpa [Scopes.addingParams, ← noStatement] using models
  | cons p ps inductionHypothesis =>
    have declares : (frame.behindParam p).declared = frame.declared ++ [p.declared] := by
      simp [Frame.declared, Frame.behindParam, noStatement]
    have behind := models.adding (.ofParam p) declares
    simpa [Scopes.addingParams, Frame.behindParam] using inductionHypothesis behind noStatement

theorem Models.behind (models : s.Models (frame :: outer)) (statement : Statement) :
    (s.behind statement).Models (frame.behind statement :: outer) := by
  have declared : (frame.behind statement).declared =
      frame.declared ++ statement.declared?.toList := by
    simp [Frame.declared, Frame.behind, List.filterMap_cons]
    cases statement.declared? <;> rfl
  cases statement with
  | declaration chained decl span => exact models.adding (.ofDecl decl span) declared
  | _ => exact models.congr (by simpa [Statement.declared?] using declared)

/-- A name is looked up with success exactly where a declaration of it is in scope. -/
theorem Models.isSome_iff (models : s.Models place) (name : String) :
    (s.getVariable? name).isSome ↔ place.Declares name := by
  rw [getVariable?_eq_findSome?, Place.Declares]
  unfold Models at models
  generalize s.tables = tables at models ⊢
  induction models with
  | nil => simp
  | cons innermost _ inductionHypothesis =>
    rw [List.findSome?_cons]
    have here := innermost.isSome_iff name
    split
    · simp_all
    · simp_all

end Scopes

/-! ## Occurrences in statements -/

def Occurrence.error? (o : Occurrence) : Option (Located Typing.Error) :=
  o.undeclared?.or o.duplicate?

/-- An occurrence has one error at most, and its kind tells whether a use or a declaration is wrong. -/
theorem Occurrence.filter_error? (o : Occurrence) :
    o.error?.filter (fun e => e.value.isUndeclaredVariable) = o.undeclared? ∧
      o.error?.filter (fun e => e.value.isDuplicateVariable) = o.duplicate? := by
  cases o with
  | use ident place =>
    by_cases declares : place.Declares ident.name <;>
      simp [error?, undeclared?, duplicate?, declares, Typing.Error.isUndeclaredVariable,
        Typing.Error.isDuplicateVariable]
  | declaration ident frame =>
    cases found : frame.first? ident.name <;>
      simp [error?, undeclared?, duplicate?, found, Typing.Error.isUndeclaredVariable,
        Typing.Error.isDuplicateVariable]

namespace Typing

variable {frame : Frame} {outer place : Place}

theorem filterMap_undeclared? {env : Env} (models : env.scopes.Models place) (names : List Ident) :
    names.filterMap env.undeclared? = (place.uses names).filterMap Occurrence.error? := by
  have each : ∀ ident, env.undeclared? ident = Occurrence.error? (.use ident place) := by
    intro ident
    -- a name is looked up with success exactly where it is declared in scope
    have inScope := models.isSome_iff ident.name
    by_cases declares : place.Declares ident.name
    · simp [Env.undeclared?, Occurrence.error?, Occurrence.undeclared?, Occurrence.duplicate?,
        inScope.mpr declares, declares]
    · have notFound := mt inScope.mp declares
      simp [Env.undeclared?, Occurrence.error?, Occurrence.undeclared?, Occurrence.duplicate?,
        notFound, declares]
  rw [Place.uses, List.filterMap_map]
  exact congrArg (List.filterMap · names) (funext each)

theorem variableErrors_duplicateErrors {env : Env} (models : env.scopes.Models (frame :: outer))
    (name : Ident) :
    variableErrors (env.duplicateErrors name) =
      [Occurrence.declaration name frame].filterMap Occurrence.error? := by
  -- the table has the first declaration of the name, and so its region
  have first := models.current name.name
  simp only [Env.duplicateErrors, Occurrence.error?, Occurrence.undeclared?, Occurrence.duplicate?,
    Frame.first?, List.filterMap_cons, List.filterMap_nil, Option.none_or]
  cases taken : env.scopes.current.getVariable? name.name with
  | some v =>
    rw [taken] at first
    obtain ⟨d, found, sameSpan⟩ := Option.map_eq_some_iff.mp first.symm
    simp [found, sameSpan]
    rfl
  | none =>
    rw [taken] at first
    have found := Option.map_eq_none_iff.mp first.symm
    simp [found]

theorem variableErrors_paramErrors {env : Env} (models : env.scopes.Models (frame :: outer))
    (noStatement : frame.before = []) (ps : List Param) :
    variableErrors (env.paramErrors ps) =
      (frame.occurrences ps).filterMap Occurrence.error? := by
  induction ps generalizing env frame with
  | nil => rfl
  | cons p ps inductionHypothesis =>
    have declares : (frame.behindParam p).declared = frame.declared ++ [p.declared] := by
      simp [Frame.declared, Frame.behindParam, noStatement]
    let envBehind : Env := { env with scopes := env.scopes.adding (.ofParam p) }
    have behind : envBehind.scopes.Models (frame.behindParam p :: outer) :=
      models.adding (.ofParam p) declares
    rw [Env.paramErrors, variableErrors_append, variableErrors_append, variableErrors_typeErrors,
      variableErrors_duplicateErrors models, inductionHypothesis behind noStatement,
      List.nil_append, ← List.filterMap_append]
    rfl

theorem variableErrors_value {env : Env} (models : env.scopes.Models place) (e : Expr) :
    variableErrors (env.infer e).errors =
      (place.uses e.names).filterMap Occurrence.error? := by
  rw [variableErrors_infer, filterMap_undeclared? models]

theorem variableErrors_values {env : Env} (models : env.scopes.Models place) (es : List Expr) :
    variableErrors (Judgement.allErrors (env.inferEach es)) =
      (place.uses (Expr.namesEach es)).filterMap Occurrence.error? := by
  rw [variableErrors_inferEach, filterMap_undeclared? models]

theorem variableErrors_declarationErrors {env : Env} (models : env.scopes.Models place)
    (decl : VariableDecl) :
    variableErrors (env.declarationErrors decl) =
      (place.uses decl.value.names).filterMap Occurrence.error? := by
  simp only [Env.declarationErrors, variableErrors_append, variableErrors_typeErrors,
    variableErrors_value models]
  split <;> simp

theorem variableErrors_reassignmentErrors {env : Env} (models : env.scopes.Models place)
    (target : Ident) (value : Expr) :
    variableErrors (env.reassignmentErrors target value) =
      (place.uses (value.names ++ [target])).filterMap Occurrence.error? := by
  -- the target is looked up like a name that is used
  rw [← filterMap_undeclared? models, List.filterMap_append, ← variableErrors_infer]
  simp only [Env.reassignmentErrors, variableErrors_append]
  cases found : env.scopes.getVariable? target.name with
  | none =>
    simp [Env.undeclared?, found]
    rfl
  | some v => simp [Env.undeclared?, found]

theorem variableErrors_conditionErrors {env : Env} (models : env.scopes.Models place) (e : Expr) :
    variableErrors (env.conditionErrors e) =
      (place.uses e.names).filterMap Occurrence.error? := by
  simp [Env.conditionErrors, variableErrors_value models]

theorem variableErrors_resultErrors {site : Site} (models : site.scopes.Models place)
    (values : List Expr) (span : Span) :
    variableErrors (site.resultErrors values span) =
      (place.uses (Expr.namesEach values)).filterMap Occurrence.error? := by
  rw [Site.resultErrors, variableErrors_append, variableErrors_values models]
  cases site.returns with
  | none => exact List.append_nil _
  | some types =>
    by_cases count : types.length = (site.inferEach values).length
    · simp [count]
    · simp only [count, if_false]
      exact List.append_nil _

theorem variableErrors_call {env : Env} (models : env.scopes.Models place) {e : Expr}
    (isCall : e.isCall = true) :
    variableErrors (env.callErrors e) = (place.uses e.names).filterMap Occurrence.error? := by
  cases e with
  | call function args span =>
    rw [Env.callErrors, variableErrors_callErrors (variableErrors_callee env function),
      variableErrors_values models, Expr.names]
  | libraryCall space function args span =>
    rw [Env.callErrors, variableErrors_callErrors (variableErrors_libraryCallee env space function),
      variableErrors_values models, Expr.names]
  | _ => cases isCall

namespace Site

/-! The scopes of the body of a function are those around it and one more, with the parameters. -/

theorem models_ofBody {site : Site} (models : site.scopes.Models place) (params : List Param)
    (returns : List TypeName) :
    (site.ofBody params returns).scopes.Models (⟨params, []⟩ :: place) := by
  have inside := models.push.addingParams params rfl
  exact inside

mutual

theorem variableErrors_found {site : Site} {frame : Frame} {outer : Place}
    (models : site.scopes.Models (frame :: outer)) {s : Statement} (calls : s.HoldsCalls) :
    variableErrors (site.found s) = (s.occurrences outer frame).filterMap Occurrence.error? := by
  match s with
  | .function ⟨name, params, returns, ⟨body, region⟩⟩ span =>
    have ofTypes : variableErrors (returns.flatMap site.typeErrors) = [] :=
      variableErrors_flatMap_of_nil fun type => by simp
    have modelsParams : (site.within site.scopes.push).scopes.Models (.start :: frame :: outer) :=
      models.push
    have ofParams := variableErrors_paramErrors modelsParams rfl params
    have ofBody := variableErrors_foundEach (models_ofBody models params returns) calls
    rw [found, variableErrors_append, variableErrors_append, ofTypes, ofParams, ofBody,
      List.nil_append, ← List.filterMap_append, Statement.occurrences]
  | .datatype decl span => simp [found, Env.datatypeErrors, Statement.occurrences]
  | .declaration chained decl span =>
    rw [found, variableErrors_append, variableErrors_declarationErrors models,
      variableErrors_duplicateErrors models, ← List.filterMap_append, Statement.occurrences]
  | .reassignment target value span =>
    exact variableErrors_reassignmentErrors models target value
  | .conditional branches otherwise span =>
    rw [found, variableErrors_append, variableErrors_foundBranches models calls.1,
      variableErrors_foundOption models calls.2, ← List.filterMap_append, Statement.occurrences]
  | .loop condition body span =>
    have modelsLoop : site.inLoop.scopes.Models (frame :: outer) := models
    have ofBody := variableErrors_foundBlock modelsLoop calls
    rw [found, variableErrors_append, ofBody, Statement.occurrences, List.filterMap_append]
    cases condition with
    | none => rfl
    | some condition => simp [variableErrors_conditionErrors models]
  | .block body span => exact variableErrors_foundBlock models calls
  | .result values span => exact variableErrors_resultErrors models values span
  | .call call span => exact variableErrors_call models calls
  | .control kind span =>
    simp only [found, controlErrors, Statement.occurrences]
    split <;> rfl

theorem variableErrors_foundEach {site : Site} {frame : Frame} {outer : Place}
    (models : site.scopes.Models (frame :: outer))
    {statements : List Statement} (calls : Statement.EachHoldsCalls statements) :
    variableErrors (site.foundEach statements) =
      (Statement.occurrencesEach outer frame statements).filterMap Occurrence.error? := by
  match statements with
  | [] => rfl
  | s :: rest =>
    have modelsBehind :
        (site.within (site.scopes.behind s)).scopes.Models (frame.behind s :: outer) :=
      models.behind s
    have others := variableErrors_foundEach modelsBehind calls.2
    rw [foundEach, variableErrors_append, variableErrors_found models calls.1, others,
      ← List.filterMap_append, Statement.occurrencesEach]

theorem variableErrors_foundBlock {site : Site} {place : Place}
    (models : site.scopes.Models place)
    {body : Block} (calls : body.HoldsCalls) :
    variableErrors (site.foundBlock body) =
      (body.occurrences place).filterMap Occurrence.error? := by
  match body with
  | ⟨statements, region⟩ =>
    have modelsInside : site.ofBlock.scopes.Models (.start :: place) := models.push
    exact variableErrors_foundEach modelsInside calls

theorem variableErrors_foundBranches {site : Site} {place : Place}
    (models : site.scopes.Models place)
    {branches : List Branch} (calls : Branch.EachHoldsCalls branches) :
    variableErrors (site.foundBranches branches) =
      (Branch.occurrencesEach place branches).filterMap Occurrence.error? := by
  match branches with
  | [] => rfl
  | ⟨condition, body⟩ :: rest =>
    rw [foundBranches, variableErrors_append, variableErrors_append,
      variableErrors_conditionErrors models, variableErrors_foundBlock models calls.1,
      variableErrors_foundBranches models calls.2, ← List.filterMap_append,
      ← List.filterMap_append, Branch.occurrencesEach]

theorem variableErrors_foundOption {site : Site} {place : Place}
    (models : site.scopes.Models place)
    {otherwise : Option Block} (calls : Block.OptionHoldsCalls otherwise) :
    variableErrors (site.foundOption otherwise) =
      (Block.occurrencesOption place otherwise).filterMap Occurrence.error? := by
  match otherwise with
  | none => rfl
  | some body => exact variableErrors_foundBlock models calls

end

end Site

end Typing

/-! ## Programs -/

namespace Program

theorem models_site (library : Library) (p : Program) :
    (p.site library).scopes.Models [.start] := by
  obtain ⟨inner, vars⟩ := Scopes.registeringEach_keeps .start p
  -- what was registered are functions and datatypes, so no variable is in scope
  have noVariable : ((p.site library).scopes.global).Models [] := by
    intro name
    have empty : (p.site library).scopes.global.vars = [] := vars
    simp [SymbolTable.getVariable?, empty]
  rw [Scopes.Models, Scopes.tables, show (p.site library).scopes.inner = [] from inner]
  exact .cons noVariable .nil

theorem variableErrors_found (library : Library) {p : Program}
    (calls : Statement.EachHoldsCalls p) :
    Typing.variableErrors (p.found library) = p.occurrences.filterMap Occurrence.error? := by
  have ofStatements := Typing.Site.variableErrors_foundEach (p.models_site library) calls
  rw [found, Typing.variableErrors_append, Typing.variableErrors_registerEachErrors,
    List.nil_append, ofStatements]
  rfl

/-- Names are resolved exactly, whatever else is wrong with a program. Of the errors that a check
reports, those of undeclared variables are one for each use without a declaration in scope, and those
of duplicate variables are one for each declaration of a name that its scope has declared before, both
in the order of the program. -/
theorem check_names (library : Library) {p : Program} (calls : Statement.EachHoldsCalls p) :
    ∃ o, p.check library = .ok o ∧
      o.errors.filter (fun e => e.value.isUndeclaredVariable) =
        p.occurrences.filterMap Occurrence.undeclared? ∧
      o.errors.filter (fun e => e.value.isDuplicateVariable) =
        p.occurrences.filterMap Occurrence.duplicate? := by
  obtain ⟨globals, checked⟩ := check_eq library calls
  refine ⟨_, checked, ?undeclared, ?duplicate⟩
  -- the two kinds of errors are parts of the errors about variables
  case undeclared =>
    rw [← Typing.filter_variableErrors fun e undeclared => by simp [undeclared],
      variableErrors_found library calls, List.filter_filterMap]
    exact congrArg (List.filterMap · p.occurrences) (funext fun o => o.filter_error?.1)
  case duplicate =>
    rw [← Typing.filter_variableErrors fun e duplicate => by simp [duplicate],
      variableErrors_found library calls, List.filter_filterMap]
    exact congrArg (List.filterMap · p.occurrences) (funext fun o => o.filter_error?.2)

/-- A block declares a variable twice, the second time with a name that is unknown as its value, and
behind the block the variable is out of scope. -/
theorem check_names_block :
    let ident (name : String) : Ident := ⟨name, default⟩
    let declaration (name : String) (value : Expr) : Statement :=
      .declaration false ⟨⟨.int, false, default⟩, ident name, value⟩ default
    let p : Program :=
      [.block ⟨[declaration "x" (.int 1 default), declaration "x" (.name (ident "y") default)],
          default⟩ default,
        .reassignment (ident "x") (.int 2 default) default]
    Statement.EachHoldsCalls p ∧
      ∃ o, p.check .empty = .ok o ∧
        o.errors.filter (fun e => e.value.isUndeclaredVariable) =
          [⟨.undeclaredVariable "y", default⟩, ⟨.undeclaredVariable "x", default⟩] ∧
        o.errors.filter (fun e => e.value.isDuplicateVariable) =
          [⟨.duplicateVariable "x" default, default⟩] :=
  ⟨⟨⟨trivial, trivial, trivial⟩, trivial, trivial⟩,
    check_names .empty ⟨⟨trivial, trivial, trivial⟩, trivial, trivial⟩⟩

end Program

end FrontEnd
