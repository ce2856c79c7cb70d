import Mathlib.Logic.Equiv.Basic
import FrontEnd.Proofs.Grammar.Recast
import FrontEnd.Proofs.Typing.Found

/-!
# Checking trees that are recast

No rule of names and types looks at a region, and of the name of a variable it only matters which other variables have
the same. So if names that differ stay different, a check of a tree that is recast goes the same way, and finds what
is found in the tree itself, recast: the regions of the errors and those that they cite, the names in the errors about
variables, and in the same way what the program declares.

The names of functions, datatypes, fields and spaces are looked up elsewhere. Nothing is asked of how they compare
with the names of variables, new or old.
-/

namespace FrontEnd

variable (ρ : Recast)

/-! ## What is declared -/

def FunctionSymbol.recast (f : FunctionSymbol) : FunctionSymbol :=
  { f with body := f.body.recast ρ, span := ρ.place f.span }

def DatatypeSymbol.relocate (place : Span → Span) (d : DatatypeSymbol) : DatatypeSymbol :=
  { d with span := place d.span }

def VariableSymbol.recast (v : VariableSymbol) : VariableSymbol :=
  { v with name := ρ.name v.name, value := v.value.map (Expr.recast ρ), span := ρ.place v.span }

def SymbolTable.recast (t : SymbolTable) : SymbolTable where
  functions := t.functions.map (FunctionSymbol.recast ρ)
  datatypes := t.datatypes.map (DatatypeSymbol.relocate ρ.place)
  vars := t.vars.map (VariableSymbol.recast ρ)

def Scopes.recast (s : Scopes) : Scopes where
  inner := s.inner.map (SymbolTable.recast ρ)
  global := s.global.recast ρ

variable {ρ}

namespace SymbolTable

variable (t : SymbolTable)

@[simp] theorem getFunction?_recast (name : String) :
    (t.recast ρ).getFunction? name =
      (t.getFunction? name).map (FunctionSymbol.recast ρ) := by
  rw [getFunction?, recast, List.find?_map]
  rfl

@[simp] theorem getDatatype?_recast (name : String) :
    (t.recast ρ).getDatatype? name =
      (t.getDatatype? name).map (DatatypeSymbol.relocate ρ.place) := by
  rw [getDatatype?, recast, List.find?_map]
  rfl

/-- A new name is found where the old one is, as no other variable has it. -/
theorem getVariable?_recast (injective : ρ.name.Injective) (name : String) :
    (t.recast ρ).getVariable? (ρ.name name) = (t.getVariable? name).map (VariableSymbol.recast ρ) := by
  have sameName : ∀ v : VariableSymbol, (v.recast ρ).name = ρ.name name ↔ v.name = name :=
    fun v => injective.eq_iff
  rw [getVariable?, recast, List.find?_map]
  simp only [Function.comp_def, sameName]
  rfl

theorem adding_recast (injective : ρ.name.Injective) (v : VariableSymbol) :
    (t.recast ρ).adding (v.recast ρ) = (t.adding v).recast ρ := by
  have found : (t.recast ρ).getVariable? (v.recast ρ).name = _ := t.getVariable?_recast injective v.name
  rw [adding, found, Option.isSome_map, adding, apply_ite (recast ρ)]
  simp only [recast, List.map_append, List.map_singleton]

end SymbolTable

namespace Scopes

variable (s : Scopes)

@[simp] theorem getFunction?_recast (name : String) :
    (s.recast ρ).getFunction? name =
      (s.getFunction? name).map (FunctionSymbol.recast ρ) :=
  s.global.getFunction?_recast name

@[simp] theorem getDatatype?_recast (name : String) :
    (s.recast ρ).getDatatype? name =
      (s.getDatatype? name).map (DatatypeSymbol.relocate ρ.place) :=
  s.global.getDatatype?_recast name

theorem tables_recast : (s.recast ρ).tables = s.tables.map (SymbolTable.recast ρ) := by
  simp [tables, recast]

@[simp] theorem current_recast : (s.recast ρ).current = s.current.recast ρ := by
  obtain ⟨inner, global⟩ := s
  cases inner <;> rfl

theorem push_recast : (s.recast ρ).push = s.push.recast ρ := rfl

theorem registering_recast (statement : Statement) :
    (s.recast ρ).registering (statement.recast ρ) =
      (s.registering statement).recast ρ := by
  cases statement with
  | function decl span =>
    obtain ⟨name, params, returns, body⟩ := decl
    have symbol : (FunctionSymbol.ofDecl name.name ⟨name, params, returns, body⟩ span).recast ρ =
        .ofDecl name.name ⟨name.relocate ρ.place, params.map (Param.recast ρ),
          returns.map (TypeName.relocate ρ.place), body.recast ρ⟩ (ρ.place span) := by
      simp [FunctionSymbol.recast, FunctionSymbol.ofDecl, Function.comp_def, Param.recast,
        TypeName.relocate, TypeName.tag]
    simp only [registering, Statement.recast, Ident.relocate, getFunction?_recast,
      Option.isSome_map]
    split
    · rfl
    · simp only [recast, SymbolTable.recast, List.map_append, List.map_singleton, symbol]
      rfl
  | datatype decl span =>
    have symbol : (DatatypeSymbol.ofDecl decl span).relocate ρ.place =
        .ofDecl (decl.relocate ρ.place) (ρ.place span) := by
      simp [DatatypeSymbol.relocate, DatatypeSymbol.ofDecl, Function.comp_def, DatatypeDecl.relocate,
        Param.relocate, Ident.relocate, TypeName.relocate, TypeName.tag]
    simp only [registering, Statement.recast, DatatypeDecl.relocate, Ident.relocate,
      getDatatype?_recast, Option.isSome_map]
    split
    · rfl
    · simp only [recast, SymbolTable.recast, List.map_append, List.map_singleton, symbol]
      rfl
  | _ => rfl

theorem registeringEach_recast (s : Scopes) (statements : List Statement) :
    (s.recast ρ).registeringEach (statements.map (Statement.recast ρ)) =
      (s.registeringEach statements).recast ρ := by
  induction statements generalizing s with
  | nil => rfl
  | cons statement rest inductionHypothesis =>
    rw [List.map_cons, registeringEach, registeringEach, registering_recast, inductionHypothesis]

theorem getVariable?_recast (injective : ρ.name.Injective) (name : String) :
    (s.recast ρ).getVariable? (ρ.name name) = (s.getVariable? name).map (VariableSymbol.recast ρ) := by
  rw [getVariable?_eq_findSome?, getVariable?_eq_findSome?, tables_recast, List.findSome?_map,
    List.map_findSome?]
  simp only [Function.comp_def, SymbolTable.getVariable?_recast _ injective]

theorem adding_recast (injective : ρ.name.Injective) (v : VariableSymbol) :
    (s.recast ρ).adding (v.recast ρ) = (s.adding v).recast ρ := by
  obtain ⟨inner, global⟩ := s
  cases inner with
  | nil => simp only [adding, recast, List.map_nil, SymbolTable.adding_recast _ injective]
  | cons table inner => simp only [adding, recast, List.map_cons, SymbolTable.adding_recast _ injective]

theorem addingParams_recast (injective : ρ.name.Injective) (s : Scopes) (ps : List Param) :
    (s.recast ρ).addingParams (ps.map (Param.recast ρ)) =
      (s.addingParams ps).recast ρ := by
  induction ps generalizing s with
  | nil => rfl
  | cons p ps inductionHypothesis =>
    rw [List.map_cons, addingParams, addingParams, ← inductionHypothesis, ← adding_recast _ injective]
    rfl

theorem behind_recast (injective : ρ.name.Injective) (statement : Statement) :
    (s.recast ρ).behind (statement.recast ρ) = (s.behind statement).recast ρ := by
  cases statement with
  | function decl span =>
    cases decl
    rfl
  | declaration chained decl span => exact s.adding_recast injective (.ofDecl decl span)
  | _ => rfl

theorem behindEach_recast (injective : ρ.name.Injective) (s : Scopes) (statements : List Statement) :
    (s.recast ρ).behindEach (statements.map (Statement.recast ρ)) = (s.behindEach statements).recast ρ := by
  induction statements generalizing s with
  | nil => rfl
  | cons statement rest inductionHypothesis =>
    rw [List.map_cons, behindEach, behindEach, behind_recast _ injective, inductionHypothesis]

end Scopes

namespace Typing

/-! ## Errors and judgements -/

variable (ρ)

/-- An error that cites a declaration cites it where it is put. -/
def Error.recast : Error → Error
  | .duplicateFunction name first => .duplicateFunction name (ρ.place first)
  | .duplicateDatatype name first => .duplicateDatatype name (ρ.place first)
  | .duplicateVariable name first => .duplicateVariable (ρ.name name) (ρ.place first)
  | .undeclaredVariable name => .undeclaredVariable (ρ.name name)
  | e => e

def recastError (e : Located Error) : Located Error :=
  ⟨e.value.recast ρ, ρ.place e.span⟩

def recastErrors (errors : List (Located Error)) : List (Located Error) :=
  errors.map (recastError ρ)

def Judgement.recast (j : Judgement) : Judgement :=
  ⟨ρ.place j.span, j.type, recastErrors ρ j.errors⟩

/-- What a call is resolved to has no region, but a failure to resolve it has. -/
def recastCallee : Except (Located Error) Callee → Except (Located Error) Callee
  | .ok f => .ok f
  | .error e => .error (recastError ρ e)

def Env.recast (env : Env) : Env :=
  { env with scopes := env.scopes.recast ρ }

def Site.recast (site : Site) : Site :=
  { site with scopes := site.scopes.recast ρ }

variable {ρ}

@[simp] theorem recastErrors_nil : recastErrors ρ [] = [] := rfl

@[simp] theorem recastErrors_cons (e : Located Error) (errors : List (Located Error)) :
    recastErrors ρ (e :: errors) = recastError ρ e :: recastErrors ρ errors := rfl

@[simp] theorem recastErrors_append (first second : List (Located Error)) :
    recastErrors ρ (first ++ second) =
      recastErrors ρ first ++ recastErrors ρ second :=
  List.map_append

theorem recastErrors_flatMap {α : Type} (xs : List α) (f : α → List (Located Error)) :
    recastErrors ρ (xs.flatMap f) = xs.flatMap fun x => recastErrors ρ (f x) :=
  List.map_flatMap

theorem recastErrors_ite {c : Prop} [Decidable c] (first second : List (Located Error)) :
    recastErrors ρ (if c then first else second) =
      if c then recastErrors ρ first else recastErrors ρ second :=
  apply_ite (recastErrors ρ) c first second

@[simp] theorem isEmpty_recastErrors (errors : List (Located Error)) :
    (recastErrors ρ errors).isEmpty = errors.isEmpty :=
  List.isEmpty_map

/-! ## Rules -/

@[simp] theorem require_recast (expected : TypeTag) (actual : Inferred) (span : Span) :
    require expected actual (ρ.place span) = recastErrors ρ (require expected actual span) := by
  rw [require, require, recastErrors_ite]
  rfl

@[simp] theorem Judgement.require_recast (j : Judgement) (expected : TypeTag) :
    (j.recast ρ).require expected = recastErrors ρ (j.require expected) :=
  Typing.require_recast expected j.type j.span

theorem allErrors_recast (js : List Judgement) :
    Judgement.allErrors (js.map (Judgement.recast ρ)) =
      recastErrors ρ (Judgement.allErrors js) := by
  rw [Judgement.allErrors, List.flatMap_map, Judgement.allErrors, recastErrors_flatMap]
  rfl

theorem requireEach_recast (expected : List TypeTag) (js : List Judgement) :
    requireEach expected (js.map (Judgement.recast ρ)) =
      recastErrors ρ (requireEach expected js) := by
  induction expected generalizing js with
  | nil => rfl
  | cons type expected inductionHypothesis =>
    cases js with
    | nil => rfl
    | cons j js =>
      have rest := inductionHypothesis js
      simp only [requireEach] at rest
      simp [requireEach, rest]

theorem agree_recast (first second : Judgement) :
    agree (first.recast ρ) (second.recast ρ) = recastErrors ρ (agree first second) := by
  rw [agree, agree, show (first.recast ρ).type = first.type from rfl]
  cases first.type <;> simp

theorem operandErrors_recast (op : Operator) (operands : List Judgement) (span : Span) :
    operandErrors op (operands.map (Judgement.recast ρ)) (ρ.place span) =
      recastErrors ρ (operandErrors op operands span) := by
  simp only [operandErrors, List.length_map, recastErrors_ite]
  congr 1
  cases (operatorRule op).operand with
  | some type => simp [recastErrors_flatMap, List.flatMap_map]
  | none =>
    match operands with
    | [] | [_] | _ :: _ :: _ :: _ => rfl
    | [first, second] => exact agree_recast first second

theorem judgeOperation_recast (op : Operator) (operands : List Judgement) (span : Span) :
    judgeOperation op (operands.map (Judgement.recast ρ)) (ρ.place span) =
      (judgeOperation op operands span).recast ρ := by
  simp [judgeOperation, Judgement.recast, allErrors_recast, operandErrors_recast]

theorem itemErrors_recast (j : Judgement) (element : Option TypeTag) :
    (j.recast ρ).itemErrors element = recastErrors ρ (j.itemErrors element) := by
  unfold Judgement.itemErrors
  rw [show (j.recast ρ).type = j.type from rfl]
  cases j.type with
  | unknown | emptyList => rfl
  | known type =>
    cases element <;> simp only [recastErrors_ite, Judgement.require_recast] <;> rfl

theorem judgeList_recast (items : List Judgement) (span : Span) :
    judgeList (items.map (Judgement.recast ρ)) (ρ.place span) =
      (judgeList items span).recast ρ := by
  have element : (items.map (Judgement.recast ρ)).findSome? Judgement.element? =
      items.findSome? Judgement.element? := List.findSome?_map ..
  simp only [judgeList, element, Judgement.recast, List.any_map, List.flatMap_map,
    recastErrors_flatMap, recastErrors_append]
  congr 2
  funext j
  exact congrArg _ (itemErrors_recast j _)

theorem argumentErrors_recast (f : Callee) (args : List Judgement) (span : Span) :
    f.argumentErrors (args.map (Judgement.recast ρ)) (ρ.place span) =
      recastErrors ρ (f.argumentErrors args span) := by
  rw [Callee.argumentErrors, Callee.argumentErrors, List.length_map, requireEach_recast,
    recastErrors_ite]
  rfl

theorem callErrors_recast (callee : Except (Located Error) Callee) (args : List Judgement)
    (span : Span) :
    callErrors (recastCallee ρ callee) (args.map (Judgement.recast ρ)) (ρ.place span) =
      recastErrors ρ (callErrors callee args span) := by
  cases callee with
  | error e => simp [callErrors, recastCallee, allErrors_recast]
  | ok f => simp [callErrors, recastCallee, allErrors_recast, argumentErrors_recast]

theorem judgeCall_recast (callee : Except (Located Error) Callee) (args : List Judgement)
    (span : Span) :
    judgeCall (recastCallee ρ callee) (args.map (Judgement.recast ρ)) (ρ.place span) =
      (judgeCall callee args span).recast ρ := by
  cases callee with
  | error e => exact congrArg (Judgement.mk _ _) (callErrors_recast (.error e) args span)
  | ok f =>
    have errors : callErrors (.ok f) (args.map (Judgement.recast ρ)) (ρ.place span) =
        recastErrors ρ (callErrors (.ok f) args span) :=
      callErrors_recast (.ok f) args span
    simp only [judgeCall, recastCallee, errors]
    split
    · rfl
    · simp [Judgement.recast, recastError, Error.recast]

theorem fieldErrors_recast (d : DatatypeSymbol) (before : List String) (name : Ident)
    (value : Judgement) :
    fieldErrors (d.relocate ρ.place) before (name.relocate ρ.place) (value.recast ρ) =
      recastErrors ρ (fieldErrors d before name value) := by
  have field : (d.relocate ρ.place).field? name.name = d.field? name.name := rfl
  simp only [fieldErrors, Ident.relocate, field]
  cases d.field? name.name with
  | none => rfl
  | some type =>
    simp only [recastErrors_ite, Judgement.require_recast]
    rfl

theorem fieldsErrors_recast (d : DatatypeSymbol) (before : List String)
    (fields : List (Ident × Judgement)) :
    fieldsErrors (d.relocate ρ.place) before
        (fields.map (Prod.map (Ident.relocate ρ.place) (Judgement.recast ρ))) =
      recastErrors ρ (fieldsErrors d before fields) := by
  induction fields generalizing before with
  | nil => rfl
  | cons field fields inductionHypothesis =>
    simp only [List.map_cons, Prod.map, fieldsErrors, fieldErrors_recast, recastErrors_append]
    congr 1
    exact inductionHypothesis _

theorem missingErrors_recast (d : DatatypeSymbol) (name : Ident) (given : List String) :
    missingErrors (d.relocate ρ.place) (name.relocate ρ.place) given =
      recastErrors ρ (missingErrors d name given) := by
  simp [missingErrors, recastErrors, DatatypeSymbol.relocate, Function.comp_def, recastError,
    Error.recast, Ident.relocate]

theorem judgeRecord_recast (datatype : Option DatatypeSymbol) (name : Ident)
    (fields : List (Ident × Judgement)) (span : Span) :
    judgeRecord (datatype.map (DatatypeSymbol.relocate ρ.place)) (name.relocate ρ.place)
        (fields.map (Prod.map (Ident.relocate ρ.place) (Judgement.recast ρ))) (ρ.place span) =
      (judgeRecord datatype name fields span).recast ρ := by
  have values : (fields.map (Prod.map (Ident.relocate ρ.place) (Judgement.recast ρ))).map Prod.snd =
      (fields.map Prod.snd).map (Judgement.recast ρ) := by
    simp
  have names : (fields.map (Prod.map (Ident.relocate ρ.place) (Judgement.recast ρ))).map
      (fun field => field.1.name) = fields.map fun field => field.1.name := by
    simp [Function.comp_def, Ident.relocate]
  cases datatype with
  | none =>
    simp only [judgeRecord, Option.map_none, values, allErrors_recast]
    rfl
  | some d =>
    simp only [judgeRecord, Option.map_some, names, fieldsErrors_recast, missingErrors_recast,
      Judgement.recast, recastErrors_append]
    rfl

/-! ## Expressions -/

namespace Env

variable (env : Env)

theorem callee_recast (function : Ident) :
    (env.recast ρ).callee (function.relocate ρ.place) =
      recastCallee ρ (env.callee function) := by
  simp only [callee, recast, Ident.relocate, Scopes.getFunction?_recast]
  cases env.scopes.getFunction? function.name <;> rfl

theorem libraryCallee_recast (space function : Ident) :
    (env.recast ρ).libraryCallee (space.relocate ρ.place) (function.relocate ρ.place) =
      recastCallee ρ (env.libraryCallee space function) := by
  simp only [libraryCallee, recast, Ident.relocate]
  by_cases known : env.library.hasSpace space.name = true
  · simp only [known, if_true]
    cases env.library.getFunction? space.name function.name <;> rfl
  · simp only [known]
    rfl

theorem typeErrors_recast (type : TypeName) :
    (env.recast ρ).typeErrors (type.relocate ρ.place) =
      recastErrors ρ (env.typeErrors type) := by
  simp only [typeErrors, recast, TypeName.relocate, Scopes.getDatatype?_recast,
    Option.isSome_map]
  split
  · rfl
  · rw [recastErrors_ite]
    rfl

theorem flatMap_typeErrors_recast (types : List TypeName) :
    (types.map (TypeName.relocate ρ.place)).flatMap (env.recast ρ).typeErrors =
      recastErrors ρ (types.flatMap env.typeErrors) := by
  simp [recastErrors_flatMap, List.flatMap_map, typeErrors_recast]

theorem fieldErrors_recast (datatype : String) (before : List String) (ps : List Param) :
    (env.recast ρ).fieldErrors datatype before (ps.map (Param.relocate ρ.place)) =
      recastErrors ρ (env.fieldErrors datatype before ps) := by
  induction ps generalizing before with
  | nil => rfl
  | cons p ps inductionHypothesis =>
    simp only [List.map_cons, fieldErrors, Param.relocate, Ident.relocate, typeErrors_recast,
      recastErrors_append, recastErrors_ite, inductionHypothesis]
    rfl

theorem judgeName_recast (injective : ρ.name.Injective) (ident : Ident) (span : Span) :
    (env.recast ρ).judgeName (ident.recast ρ) (ρ.place span) =
      (env.judgeName ident span).recast ρ := by
  simp only [judgeName, recast, Ident.recast, env.scopes.getVariable?_recast injective]
  cases env.scopes.getVariable? ident.name <;> rfl

mutual

theorem infer_recast (injective : ρ.name.Injective) (e : Expr) :
    (env.recast ρ).infer (e.recast ρ) = (env.infer e).recast ρ := by
  match e with
  | .int .. | .string .. | .bool .. | .missing .. => rfl
  | .name ident span => exact env.judgeName_recast injective ident span
  | .record name fields span =>
    rw [Expr.recast, infer, inferFields_recast injective fields, infer, ← judgeRecord_recast]
    congr 1
    exact env.scopes.getDatatype?_recast name.name
  | .operation op operands span =>
    rw [Expr.recast, infer, inferEach_recast injective operands, infer, judgeOperation_recast]
  | .call function args span =>
    rw [Expr.recast, infer, inferEach_recast injective args, callee_recast, infer, judgeCall_recast]
  | .libraryCall space function args span =>
    rw [Expr.recast, infer, inferEach_recast injective args, libraryCallee_recast, infer,
      judgeCall_recast]
  | .list items span => rw [Expr.recast, infer, inferEach_recast injective items, infer, judgeList_recast]

theorem inferEach_recast (injective : ρ.name.Injective) (es : List Expr) :
    (env.recast ρ).inferEach (Expr.recastEach ρ es) =
      (env.inferEach es).map (Judgement.recast ρ) := by
  match es with
  | [] => rfl
  | e :: rest =>
    rw [Expr.recastEach, inferEach, infer_recast injective e, inferEach_recast injective rest, inferEach,
      List.map_cons]

theorem inferFields_recast (injective : ρ.name.Injective) (fields : List FieldValue) :
    (env.recast ρ).inferFields (FieldValue.recastEach ρ fields) =
      (env.inferFields fields).map (Prod.map (Ident.relocate ρ.place) (Judgement.recast ρ)) := by
  match fields with
  | [] => rfl
  | ⟨name, value⟩ :: rest =>
    rw [FieldValue.recastEach, inferFields, infer_recast injective value, inferFields_recast injective rest,
      inferFields, List.map_cons, Prod.map]

end

/-! ## Parts of statements -/

theorem declarationErrors_recast (injective : ρ.name.Injective) (decl : VariableDecl) :
    (env.recast ρ).declarationErrors (decl.recast ρ) =
      recastErrors ρ (env.declarationErrors decl) := by
  simp only [declarationErrors, VariableDecl.recast, typeErrors_recast, env.infer_recast injective,
    recastErrors_append, recastErrors_ite, isEmpty_recastErrors, Judgement.require_recast]
  rfl

theorem reassignmentErrors_recast (injective : ρ.name.Injective) (target : Ident) (value : Expr) :
    (env.recast ρ).reassignmentErrors (target.recast ρ) (value.recast ρ) =
      recastErrors ρ (env.reassignmentErrors target value) := by
  have found : (env.recast ρ).scopes.getVariable? (target.recast ρ).name = _ :=
    env.scopes.getVariable?_recast injective target.name
  simp only [reassignmentErrors, env.infer_recast injective, recastErrors_append]
  congr 1
  rw [found]
  cases env.scopes.getVariable? target.name with
  | none => rfl
  | some v => exact Judgement.require_recast _ v.type

theorem conditionErrors_recast (injective : ρ.name.Injective) (e : Expr) :
    (env.recast ρ).conditionErrors (e.recast ρ) =
      recastErrors ρ (env.conditionErrors e) := by
  simp only [conditionErrors, env.infer_recast injective, recastErrors_append, Judgement.require_recast]
  rfl

theorem duplicateErrors_recast (injective : ρ.name.Injective) (name : Ident) :
    (env.recast ρ).duplicateErrors (name.recast ρ) =
      recastErrors ρ (env.duplicateErrors name) := by
  simp only [duplicateErrors, recast, Ident.recast, Scopes.current_recast,
    SymbolTable.getVariable?_recast _ injective]
  cases env.scopes.current.getVariable? name.name <;> rfl

theorem paramErrors_recast (injective : ρ.name.Injective) (env : Env) (ps : List Param) :
    (env.recast ρ).paramErrors (ps.map (Param.recast ρ)) =
      recastErrors ρ (env.paramErrors ps) := by
  induction ps generalizing env with
  | nil => rfl
  | cons p ps inductionHypothesis =>
    have behind := inductionHypothesis { env with scopes := env.scopes.adding (.ofParam p) }
    rw [recast, ← Scopes.adding_recast _ injective] at behind
    rw [List.map_cons, paramErrors, paramErrors, recastErrors_append, recastErrors_append,
      ← behind, ← typeErrors_recast, ← duplicateErrors_recast _ injective]
    rfl

theorem callErrors_recast (injective : ρ.name.Injective) (e : Expr) :
    (env.recast ρ).callErrors (e.recast ρ) = recastErrors ρ (env.callErrors e) := by
  cases e with
  | call function args span =>
    rw [Expr.recast, callErrors, callErrors, callee_recast, env.inferEach_recast injective,
      Typing.callErrors_recast]
  | libraryCall space function args span =>
    rw [Expr.recast, callErrors, callErrors, libraryCallee_recast, env.inferEach_recast injective,
      Typing.callErrors_recast]
  | _ => rfl

end Env

/-! ## Statements -/

namespace Site

theorem resultErrors_recast (injective : ρ.name.Injective) (site : Site) (values : List Expr) (span : Span) :
    (site.recast ρ).resultErrors (Expr.recastEach ρ values) (ρ.place span) =
      recastErrors ρ (site.resultErrors values span) := by
  have judged : (site.recast ρ).inferEach (Expr.recastEach ρ values) =
      (site.inferEach values).map (Judgement.recast ρ) :=
    site.toEnv.inferEach_recast injective values
  simp only [resultErrors, judged, allErrors_recast, recastErrors_append, List.length_map]
  congr 1
  have returns : (site.recast ρ).returns = site.returns := rfl
  rw [returns]
  cases site.returns with
  | none => rfl
  | some types =>
    simp only [requireEach_recast, recastErrors_ite]
    rfl

theorem controlErrors_recast (site : Site) (kind : LoopControl) (span : Span) :
    (site.recast ρ).controlErrors kind (ρ.place span) =
      recastErrors ρ (site.controlErrors kind span) := by
  rw [controlErrors, controlErrors, recastErrors_ite]
  rfl

theorem ofBody_recast (injective : ρ.name.Injective) (site : Site) (params : List Param) (returns : List TypeName) :
    (site.recast ρ).ofBody (params.map (Param.recast ρ))
        (returns.map (TypeName.relocate ρ.place)) =
      (site.ofBody params returns).recast ρ := by
  have scopes := site.scopes.push.addingParams_recast injective params
  simp only [ofBody, within, inFunction, recast, Scopes.push_recast, scopes, List.map_map]
  rfl

mutual

theorem found_recast (injective : ρ.name.Injective) (site : Site) (s : Statement) :
    (site.recast ρ).found (s.recast ρ) = recastErrors ρ (site.found s) := by
  match s with
  | .function ⟨name, params, returns, ⟨body, span⟩⟩ region =>
    rw [Statement.recast, Block.recast, found, found, ofBody_recast injective, foundEach_recast injective _ body,
      recastErrors_append, recastErrors_append, ← Env.paramErrors_recast injective,
      ← Env.flatMap_typeErrors_recast]
    rfl
  | .datatype decl span => exact site.toEnv.fieldErrors_recast decl.name.name [] decl.fields
  | .declaration chained decl span =>
    rw [Statement.recast, found, found, recastErrors_append, ← Env.declarationErrors_recast _ injective,
      ← Env.duplicateErrors_recast _ injective]
    rfl
  | .reassignment target value span => exact site.toEnv.reassignmentErrors_recast injective target value
  | .conditional branches otherwise span =>
    rw [Statement.recast, found, found, foundBranches_recast injective site branches,
      foundOption_recast injective site otherwise, recastErrors_append]
  | .loop condition body span =>
    rw [Statement.recast, found, found, recastErrors_append, ← foundBlock_recast injective site.inLoop body]
    cases condition with
    | none => rfl
    | some e => exact congrArg (· ++ _) (site.toEnv.conditionErrors_recast injective e)
  | .block body span => exact foundBlock_recast injective site body
  | .result values span => exact site.resultErrors_recast injective values span
  | .call call span => exact site.toEnv.callErrors_recast injective call
  | .control kind span => exact site.controlErrors_recast kind span

theorem foundEach_recast (injective : ρ.name.Injective) (site : Site) (statements : List Statement) :
    (site.recast ρ).foundEach (Statement.recastEach ρ statements) =
      recastErrors ρ (site.foundEach statements) := by
  match statements with
  | [] => rfl
  | s :: rest =>
    rw [Statement.recastEach, foundEach, foundEach, found_recast injective site s, recastErrors_append,
      ← foundEach_recast injective (site.within (site.scopes.behind s)) rest]
    congr 2
    exact congrArg (site.recast ρ).within (site.scopes.behind_recast injective s)

theorem foundBlock_recast (injective : ρ.name.Injective) (site : Site) (b : Block) :
    (site.recast ρ).foundBlock (b.recast ρ) =
      recastErrors ρ (site.foundBlock b) := by
  match b with
  | ⟨body, span⟩ => exact foundEach_recast injective site.ofBlock body

theorem foundBranches_recast (injective : ρ.name.Injective) (site : Site) (branches : List Branch) :
    (site.recast ρ).foundBranches (Branch.recastEach ρ branches) =
      recastErrors ρ (site.foundBranches branches) := by
  match branches with
  | [] => rfl
  | ⟨condition, body⟩ :: rest =>
    rw [Branch.recastEach, foundBranches, foundBranches, foundBlock_recast injective site body,
      foundBranches_recast injective site rest, recastErrors_append, recastErrors_append,
      ← Env.conditionErrors_recast _ injective]
    rfl

theorem foundOption_recast (injective : ρ.name.Injective) (site : Site) (otherwise : Option Block) :
    (site.recast ρ).foundOption (Block.recastOption ρ otherwise) =
      recastErrors ρ (site.foundOption otherwise) := by
  match otherwise with
  | none => rfl
  | some body => exact foundBlock_recast injective site body

end

end Site

end Typing

/-! ## Programs -/

namespace Scopes

theorem registerErrors_recast (s : Scopes) (statement : Statement) :
    (s.recast ρ).registerErrors (statement.recast ρ) =
      Typing.recastErrors ρ (s.registerErrors statement) := by
  cases statement with
  | function decl span =>
    obtain ⟨name, params, returns, body⟩ := decl
    simp only [Statement.recast, registerErrors, Ident.relocate, getFunction?_recast]
    cases s.getFunction? name.name <;> rfl
  | datatype decl span =>
    simp only [Statement.recast, registerErrors, DatatypeDecl.relocate, Ident.relocate,
      getDatatype?_recast]
    cases s.getDatatype? decl.name.name <;> rfl
  | _ => rfl

theorem registerEachErrors_recast (s : Scopes) (statements : List Statement) :
    (s.recast ρ).registerEachErrors (statements.map (Statement.recast ρ)) =
      Typing.recastErrors ρ (s.registerEachErrors statements) := by
  induction statements generalizing s with
  | nil => rfl
  | cons statement rest inductionHypothesis =>
    rw [List.map_cons, registerEachErrors, registerEachErrors, registerErrors_recast,
      registering_recast, inductionHypothesis, Typing.recastErrors_append]

end Scopes

namespace Program

theorem found_recast (injective : ρ.name.Injective) (library : Library) (p : Program) :
    (p.recast ρ).found library = Typing.recastErrors ρ (p.found library) := by
  have scopes : Scopes.start.registeringEach (p.recast ρ) =
      (Scopes.start.registeringEach p).recast ρ :=
    Scopes.registeringEach_recast .start p
  have site : (p.recast ρ).site library = (p.site library).recast ρ := by
    rw [Program.site, scopes]
    rfl
  have second := (p.site library).foundEach_recast injective p
  rw [Statement.recastEach_eq_map] at second
  rw [found, found, Typing.recastErrors_append, site, ← second,
    ← Scopes.registerEachErrors_recast]
  rfl

theorem globals_recast (injective : ρ.name.Injective) (p : Program) :
    (p.recast ρ).globals = p.globals.recast ρ := by
  have registered : Scopes.start.registeringEach (p.recast ρ) =
      (Scopes.start.registeringEach p).recast ρ :=
    Scopes.registeringEach_recast .start p
  rw [globals, registered]
  exact congrArg Scopes.global (Scopes.behindEach_recast injective _ p)

end Program

/-! Whether every call statement holds a call is seen without regions. -/

mutual

theorem Statement.holdsCalls_recast (s : Statement) :
    (s.recast ρ).HoldsCalls ↔ s.HoldsCalls := by
  match s with
  | .function ⟨_, _, _, body⟩ _ => exact Block.holdsCalls_recast body
  | .datatype .. | .declaration .. | .reassignment .. | .result .. | .control .. => exact Iff.rfl
  | .conditional branches otherwise _ =>
    exact and_congr (Branch.eachHoldsCalls_recast branches) (Block.optionHoldsCalls_recast otherwise)
  | .loop _ body _ => exact Block.holdsCalls_recast body
  | .block body _ => exact Block.holdsCalls_recast body
  | .call call _ =>
    rw [Statement.recast, Statement.HoldsCalls, Expr.isCall_recast, Statement.HoldsCalls]

theorem Statement.eachHoldsCalls_recast (statements : List Statement) :
    Statement.EachHoldsCalls (Statement.recastEach ρ statements) ↔
      Statement.EachHoldsCalls statements := by
  match statements with
  | [] => exact Iff.rfl
  | s :: rest =>
    exact and_congr (Statement.holdsCalls_recast s) (Statement.eachHoldsCalls_recast rest)

theorem Block.holdsCalls_recast (b : Block) : (b.recast ρ).HoldsCalls ↔ b.HoldsCalls := by
  match b with
  | ⟨statements, _⟩ => exact Statement.eachHoldsCalls_recast statements

theorem Branch.eachHoldsCalls_recast (branches : List Branch) :
    Branch.EachHoldsCalls (Branch.recastEach ρ branches) ↔ Branch.EachHoldsCalls branches := by
  match branches with
  | [] => exact Iff.rfl
  | ⟨_, body⟩ :: rest =>
    exact and_congr (Block.holdsCalls_recast body) (Branch.eachHoldsCalls_recast rest)

theorem Block.optionHoldsCalls_recast (otherwise : Option Block) :
    Block.OptionHoldsCalls (Block.recastOption ρ otherwise) ↔
      Block.OptionHoldsCalls otherwise := by
  match otherwise with
  | none => exact Iff.rfl
  | some body => exact Block.holdsCalls_recast body

end

/-- A program that is recast is checked with the same result, recast. -/
theorem Program.check_recast (library : Library) (injective : ρ.name.Injective) {p : Program}
    (calls : Statement.EachHoldsCalls p) :
    ∃ o, p.check library = .ok o ∧
      (p.recast ρ).check library =
        .ok ⟨⟨p.recast ρ, o.value.globals.recast ρ⟩, Typing.recastErrors ρ o.errors⟩ := by
  have recastCalls : Statement.EachHoldsCalls (p.recast ρ) := by
    rw [recast, ← Statement.recastEach_eq_map]
    exact (Statement.eachHoldsCalls_recast p).mpr calls
  have checked := check_eq_globals library recastCalls
  rw [globals_recast injective, found_recast injective] at checked
  exact ⟨_, check_eq_globals library calls, checked⟩

/-! ## Where no name changes -/

abbrev SymbolTable.relocate (place : Span → Span) : SymbolTable → SymbolTable :=
  SymbolTable.recast (.placing place)

abbrev Typing.Error.relocate (place : Span → Span) : Typing.Error → Typing.Error :=
  Typing.Error.recast (.placing place)

/-! ## Where no region changes -/

abbrev SymbolTable.rename (r : String → String) : SymbolTable → SymbolTable :=
  SymbolTable.recast (.naming r)

abbrev Typing.renameErrors (r : String → String) : List (Located Typing.Error) → List (Located Typing.Error) :=
  Typing.recastErrors (.naming r)

namespace Program

/-- The names of variables matter only up to renaming, whatever functions, datatypes, fields and spaces are
called. If the variables of a program get other names, and different names stay different, a check reports the
same errors in the same order, with the new names, and it declares the same functions and datatypes and, under
the new names, the same variables. -/
theorem check_rename {r : String → String} (library : Library) (injective : r.Injective) {p : Program}
    (calls : Statement.EachHoldsCalls p) :
    ∃ o, p.check library = .ok o ∧
      (p.rename r).check library =
        .ok ⟨⟨p.rename r, o.value.globals.rename r⟩, Typing.renameErrors r o.errors⟩ :=
  check_recast library injective calls

/-- A variable becomes the namesake of a function that its own value calls. Before, it has the name of a datatype
and of its field. -/
theorem check_rename_namesake :
    let ident (name : String) : Ident := ⟨name, default⟩
    let int : TypeName := ⟨.int, false, default⟩
    let use (name : String) : Expr := .name (ident name) default
    let program (x : String) : Program :=
      [.function ⟨ident "f", [⟨int, ident x⟩], [int], ⟨[.result [use x] default], default⟩⟩ default,
        .datatype ⟨ident "x", [⟨int, ident "x"⟩]⟩ default,
        .declaration false ⟨int, ident x, .call (ident "f") [use x] default⟩ default,
        .declaration false ⟨⟨.datatype "x", false, default⟩, ident x,
          .record (ident "x") [⟨ident "x", use x⟩] default⟩ default]
    let swap : String → String := Equiv.swap "x" "f"
    swap.Injective ∧ Statement.EachHoldsCalls (program "x") ∧ (program "x").rename swap = program "f" ∧
      ∃ o, (program "x").check .empty = .ok o ∧
        o.errors = [⟨.undeclaredVariable "x", default⟩, ⟨.duplicateVariable "x" default, default⟩] ∧
        (program "f").check .empty = .ok ⟨⟨program "f", o.value.globals.rename swap⟩,
          [⟨.undeclaredVariable "f", default⟩, ⟨.duplicateVariable "f" default, default⟩]⟩ := by
  intro ident int use program swap
  have injective : swap.Injective := (Equiv.swap "x" "f").injective
  have calls : Statement.EachHoldsCalls (program "x") :=
    ⟨⟨trivial, trivial⟩, trivial, trivial, trivial, trivial⟩
  have toNamesake : (program "x").rename swap = program "f" := rfl
  obtain ⟨o, checked, renamed⟩ := check_rename .empty injective calls
  have same := Except.ok.inj (checked.symm.trans (check_eq_globals .empty calls))
  have errors : o.errors = [⟨.undeclaredVariable "x", default⟩, ⟨.duplicateVariable "x" default, default⟩] := by
    rw [same]
    decide +kernel
  rw [toNamesake, errors] at renamed
  exact ⟨injective, calls, toNamesake, o, checked, errors, renamed⟩

end Program

end FrontEnd
