import FrontEnd.Proofs.Typing.Found

/-!
# Which errors are found where

The errors of an expression are of names, of types and of numbers of operands, arguments and fields, and so
are those of a written type. Only a statement may declare a variable twice, give results or leave a loop in
the wrong place, and only at the top level a function or a datatype is declared twice.
-/

namespace FrontEnd

namespace Typing

/-- Whether the error may be one of an expression or a written type. -/
def Error.isOfExpression : Error → Bool
  | .duplicateFunction .. | .duplicateDatatype .. | .duplicateVariable .. | .resultCount ..
  | .resultOutsideFunction | .controlOutsideLoop .. => false
  | _ => true

/-- The name of a function that is declared twice. -/
def Error.duplicateFunction? : Error → Option String
  | .duplicateFunction name _ => some name
  | _ => none

/-- The name of a datatype that is declared twice. -/
def Error.duplicateDatatype? : Error → Option String
  | .duplicateDatatype name _ => some name
  | _ => none

/-- Whether the error may be one of a statement, wherever it stands. -/
def Error.isOfStatement (e : Error) : Bool :=
  e.duplicateFunction?.isNone && e.duplicateDatatype?.isNone

theorem Error.isOfStatement_of_isOfExpression (e : Error) (ofExpression : e.isOfExpression = true) :
    e.isOfStatement = true := by
  cases e with
  | duplicateFunction | duplicateDatatype => cases ofExpression
  | _ => rfl

/-- Whether some errors are of certain kinds only. -/
def Only (kinds : Error → Bool) (errors : List (Located Error)) : Prop :=
  ∀ e ∈ errors, kinds e.value = true

section

variable {kinds : Error → Bool} {first second errors : List (Located Error)}

@[simp] theorem only_nil : Only kinds [] := by
  simp [Only]

@[simp] theorem only_singleton {e : Located Error} : Only kinds [e] ↔ kinds e.value = true := by
  simp [Only]

@[simp] theorem only_append : Only kinds (first ++ second) ↔ Only kinds first ∧ Only kinds second :=
  List.forall_mem_append

theorem only_flatMap {α : Type} {xs : List α} {f : α → List (Located Error)} :
    Only kinds (xs.flatMap f) ↔ ∀ x ∈ xs, Only kinds (f x) := by
  simp only [Only, List.mem_flatMap]
  grind

theorem Only.imp {more : Error → Bool} (only : Only kinds errors)
    (imp : ∀ e, kinds e = true → more e = true) : Only more errors :=
  fun e member => imp e.value (only e member)

theorem Only.filter_eq_nil (only : Only kinds errors) {f : Error → Bool}
    (apart : ∀ e, kinds e = true → f e = false) : errors.filter (fun e => f e.value) = [] := by
  rw [List.filter_eq_nil_iff]
  intro e member
  simp [apart e.value (only e member)]

end

/-! ## Errors of declarations and names

What is found about a name or a written type is of few kinds, so these lemmas are for all properties of errors
that hold of those. -/

section

variable {kinds : Error → Bool}

theorem only_callee (ofFunction : ∀ name, kinds (.undeclaredFunction name) = true) (env : Env)
    (function : Ident) (e : Located Error) (undeclared : env.callee function = .error e) :
    kinds e.value = true := by
  unfold Env.callee at undeclared
  split at undeclared
  · cases undeclared
  · cases undeclared
    exact ofFunction _

theorem only_libraryCallee (ofFunction : ∀ name, kinds (.undeclaredFunction name) = true)
    (ofSpace : ∀ name, kinds (.unknownSpace name) = true) (env : Env) (space function : Ident)
    (e : Located Error) (undeclared : env.libraryCallee space function = .error e) :
    kinds e.value = true := by
  simp only [Env.libraryCallee] at undeclared
  split at undeclared
  · split at undeclared
    · cases undeclared
    · cases undeclared
      exact ofFunction _
  · cases undeclared
    exact ofSpace _

theorem only_duplicateErrors (ofVariable : ∀ name first, kinds (.duplicateVariable name first) = true)
    (env : Env) (name : Ident) : Only kinds (env.duplicateErrors name) := by
  unfold Env.duplicateErrors
  split
  · exact only_singleton.mpr (ofVariable _ _)
  · exact only_nil

theorem only_controlErrors (ofControl : ∀ kind, kinds (.controlOutsideLoop kind) = true) (site : Site)
    (kind : LoopControl) (span : Span) : Only kinds (site.controlErrors kind span) := by
  rw [Site.controlErrors]
  split
  · exact only_singleton.mpr (ofControl kind)
  · exact only_nil

variable (ofDatatype : ∀ name, kinds (.undeclaredDatatype name) = true)

include ofDatatype

theorem only_typeErrors (env : Env) (type : TypeName) : Only kinds (env.typeErrors type) := by
  unfold Env.typeErrors
  split
  · exact only_nil
  · split
    · exact only_nil
    · exact only_singleton.mpr (ofDatatype _)

theorem only_datatypeErrors (ofField : ∀ datatype field, kinds (.duplicateField datatype field) = true)
    (env : Env) (datatype : String) (before : List String) (fields : List Param) :
    Only kinds (env.fieldErrors datatype before fields) := by
  induction fields generalizing before with
  | nil => exact only_nil
  | cons p ps inductionHypothesis =>
    have ofType := only_typeErrors ofDatatype env p.type
    refine only_append.mpr ⟨only_append.mpr ⟨ofType, ?_⟩, inductionHypothesis _⟩
    split
    · exact only_singleton.mpr (ofField _ _)
    · exact only_nil

theorem only_paramErrors (ofVariable : ∀ name first, kinds (.duplicateVariable name first) = true)
    (env : Env) (ps : List Param) : Only kinds (env.paramErrors ps) := by
  induction ps generalizing env with
  | nil => exact only_nil
  | cons p ps inductionHypothesis =>
    have ofType := only_typeErrors ofDatatype env p.type
    have ofName := only_duplicateErrors ofVariable env p.name
    exact only_append.mpr ⟨only_append.mpr ⟨ofType, ofName⟩, inductionHypothesis _⟩

end

/-! ## Expressions -/

/-- Whether all errors inside of an expression may be errors of expressions. -/
def Judgement.OfExpression (j : Judgement) : Prop :=
  Only Error.isOfExpression j.errors

@[simp] theorem only_require (expected : TypeTag) (actual : Inferred) (span : Span) :
    Only Error.isOfExpression (require expected actual span) := by
  unfold require
  split
  · exact only_nil
  · exact only_singleton.mpr rfl

@[simp] theorem only_judgement_require (j : Judgement) (expected : TypeTag) :
    Only Error.isOfExpression (j.require expected) :=
  only_require expected j.type j.span

@[simp] theorem only_requireEach (expected : List TypeTag) (js : List Judgement) :
    Only Error.isOfExpression (requireEach expected js) := by
  induction expected generalizing js with
  | nil => exact only_nil
  | cons type expected inductionHypothesis =>
    cases js with
    | nil => exact only_nil
    | cons j js => exact only_append.mpr ⟨only_judgement_require j type, inductionHypothesis js⟩

theorem only_operandErrors (op : Operator) (operands : List Judgement) (span : Span) :
    Only Error.isOfExpression (operandErrors op operands span) := by
  simp only [operandErrors]
  split
  · split
    · exact only_flatMap.mpr fun j _ => only_judgement_require j _
    · unfold agree
      split <;> simp
    · exact only_nil
  · exact only_singleton.mpr rfl

theorem only_itemErrors (j : Judgement) (element : Option TypeTag) :
    Only Error.isOfExpression (j.itemErrors element) := by
  unfold Judgement.itemErrors
  split
  · exact only_nil
  · exact only_singleton.mpr rfl
  · split
    · exact only_singleton.mpr rfl
    · split <;> simp

theorem only_allErrors {js : List Judgement} (each : ∀ j ∈ js, j.OfExpression) :
    Only Error.isOfExpression (Judgement.allErrors js) :=
  only_flatMap.mpr each

theorem only_callErrors {callee : Except (Located Error) Callee}
    (ofCallee : ∀ e, callee = .error e → e.value.isOfExpression = true) {args : List Judgement}
    (each : ∀ j ∈ args, j.OfExpression) (span : Span) :
    Only Error.isOfExpression (callErrors callee args span) := by
  cases callee with
  | error e => exact List.forall_mem_cons.mpr ⟨ofCallee e rfl, only_allErrors each⟩
  | ok f =>
    refine only_append.mpr ⟨only_allErrors each, ?_⟩
    unfold Callee.argumentErrors
    split
    · exact only_requireEach _ _
    · exact only_singleton.mpr rfl

theorem only_judgeCall {callee : Except (Located Error) Callee}
    (ofCallee : ∀ e, callee = .error e → e.value.isOfExpression = true) {args : List Judgement}
    (each : ∀ j ∈ args, j.OfExpression) (span : Span) :
    (judgeCall callee args span).OfExpression := by
  have errors := only_callErrors ofCallee each span
  unfold judgeCall
  split
  · exact errors
  · split
    · exact errors
    · exact only_append.mpr ⟨errors, only_singleton.mpr rfl⟩

theorem only_fieldsErrors (d : DatatypeSymbol) (before : List String)
    {fields : List (Ident × Judgement)} (each : ∀ field ∈ fields, field.2.OfExpression) :
    Only Error.isOfExpression (fieldsErrors d before fields) := by
  induction fields generalizing before with
  | nil => exact only_nil
  | cons field fields inductionHypothesis =>
    obtain ⟨first, others⟩ := List.forall_mem_cons.mp each
    have ofField : Only Error.isOfExpression (fieldErrors d before field.1 field.2) := by
      unfold fieldErrors
      split
      · exact only_singleton.mpr rfl
      · split
        · exact only_singleton.mpr rfl
        · exact only_judgement_require _ _
    exact only_append.mpr ⟨only_append.mpr ⟨first, ofField⟩, inductionHypothesis _ others⟩

theorem only_judgeRecord (datatype : Option DatatypeSymbol) (name : Ident)
    {fields : List (Ident × Judgement)} (each : ∀ field ∈ fields, field.2.OfExpression)
    (span : Span) : (judgeRecord datatype name fields span).OfExpression := by
  cases datatype with
  | none =>
    refine List.forall_mem_cons.mpr ⟨rfl, only_allErrors ?_⟩
    simpa using fun j ident member => each (ident, j) member
  | some d =>
    refine only_append.mpr ⟨only_fieldsErrors d [] each, ?_⟩
    unfold missingErrors
    exact List.forall_mem_map.mpr fun _ _ => rfl

mutual

theorem only_infer (env : Env) (e : Expr) : (env.infer e).OfExpression := by
  match e with
  | .int .. | .string .. | .bool .. | .missing .. => exact only_nil
  | .name ident span =>
    rw [Env.infer, Env.judgeName]
    split
    · exact only_nil
    · exact only_singleton.mpr rfl
  | .record name fields span => exact only_judgeRecord _ name (only_inferFields env fields) span
  | .operation op operands span =>
    exact only_append.mpr ⟨only_allErrors (only_inferEach env operands), only_operandErrors _ _ _⟩
  | .call function args span =>
    refine only_judgeCall ?_ (only_inferEach env args) span
    exact only_callee (fun _ => rfl) env function
  | .libraryCall space function args span =>
    refine only_judgeCall ?_ (only_inferEach env args) span
    exact only_libraryCallee (fun _ => rfl) (fun _ => rfl) env space function
  | .list items span =>
    have inside := only_inferEach env items
    exact only_flatMap.mpr fun j member =>
      only_append.mpr ⟨inside j member, only_itemErrors j _⟩

theorem only_inferEach (env : Env) (es : List Expr) : ∀ j ∈ env.inferEach es, j.OfExpression := by
  match es with
  | [] => simp [Env.inferEach]
  | e :: rest => exact List.forall_mem_cons.mpr ⟨only_infer env e, only_inferEach env rest⟩

theorem only_inferFields (env : Env) (fields : List FieldValue) :
    ∀ field ∈ env.inferFields fields, field.2.OfExpression := by
  match fields with
  | [] => simp [Env.inferFields]
  | ⟨name, value⟩ :: rest =>
    exact List.forall_mem_cons.mpr ⟨only_infer env value, only_inferFields env rest⟩

end

theorem only_conditionErrors (env : Env) (e : Expr) :
    Only Error.isOfExpression (env.conditionErrors e) :=
  only_append.mpr ⟨only_infer env e, only_judgement_require _ _⟩

theorem only_declarationErrors (env : Env) (decl : VariableDecl) :
    Only Error.isOfExpression (env.declarationErrors decl) := by
  have ofType : Only Error.isOfExpression (env.typeErrors decl.type) :=
    only_typeErrors (fun _ => rfl) env decl.type
  refine only_append.mpr ⟨only_append.mpr ⟨ofType, only_infer env decl.value⟩, ?_⟩
  split <;> simp

theorem only_reassignmentErrors (env : Env) (target : Ident) (value : Expr) :
    Only Error.isOfExpression (env.reassignmentErrors target value) := by
  refine only_append.mpr ⟨only_infer env value, ?_⟩
  split
  · exact only_singleton.mpr rfl
  · exact only_judgement_require _ _

theorem only_call (env : Env) (e : Expr) : Only Error.isOfExpression (env.callErrors e) := by
  cases e with
  | call function args span =>
    refine only_callErrors ?_ (only_inferEach env args) span
    exact only_callee (fun _ => rfl) env function
  | libraryCall space function args span =>
    refine only_callErrors ?_ (only_inferEach env args) span
    exact only_libraryCallee (fun _ => rfl) (fun _ => rfl) env space function
  | _ => exact only_nil

/-! ## Statements -/

theorem only_resultErrors (site : Site) (values : List Expr) (span : Span) :
    Only Error.isOfStatement (site.resultErrors values span) := by
  have ofValues := only_allErrors (only_inferEach site.toEnv values)
  refine only_append.mpr ⟨ofValues.imp Error.isOfStatement_of_isOfExpression, ?_⟩
  split
  · exact only_singleton.mpr rfl
  · split
    · exact (only_requireEach _ _).imp Error.isOfStatement_of_isOfExpression
    · exact only_singleton.mpr rfl

namespace Site

mutual

theorem only_found (site : Site) (s : Statement) : Only Error.isOfStatement (site.found s) := by
  have ofStatement := Error.isOfStatement_of_isOfExpression
  match s with
  | .function ⟨_, params, returns, ⟨body, _⟩⟩ _ =>
    have ofReturns : Only Error.isOfStatement (returns.flatMap site.typeErrors) :=
      only_flatMap.mpr fun type _ => only_typeErrors (fun _ => rfl) site.toEnv type
    refine only_append.mpr ⟨only_append.mpr ⟨ofReturns, ?_⟩, only_foundEach _ body⟩
    exact only_paramErrors (fun _ => rfl) (fun _ _ => rfl) _ params
  | .datatype decl _ => exact only_datatypeErrors (fun _ => rfl) (fun _ _ => rfl) site.toEnv _ _ _
  | .declaration _ decl _ =>
    refine only_append.mpr ⟨(only_declarationErrors site.toEnv decl).imp ofStatement, ?_⟩
    exact only_duplicateErrors (fun _ _ => rfl) site.toEnv decl.name
  | .reassignment target value _ => exact (only_reassignmentErrors site.toEnv target value).imp ofStatement
  | .conditional branches otherwise _ =>
    exact only_append.mpr ⟨only_foundBranches site branches, only_foundOption site otherwise⟩
  | .loop condition body _ =>
    refine only_append.mpr ⟨?_, only_foundBlock site.inLoop body⟩
    cases condition with
    | none => exact only_nil
    | some e => exact (only_conditionErrors site.toEnv e).imp ofStatement
  | .block body _ => exact only_foundBlock site body
  | .result values span => exact only_resultErrors site values span
  | .call call _ => exact (only_call site.toEnv call).imp ofStatement
  | .control kind span => exact only_controlErrors (fun _ => rfl) site kind span

theorem only_foundEach (site : Site) (statements : List Statement) :
    Only Error.isOfStatement (site.foundEach statements) := by
  match statements with
  | [] => exact only_nil
  | s :: rest => exact only_append.mpr ⟨only_found site s, only_foundEach _ rest⟩

theorem only_foundBlock (site : Site) (b : Block) : Only Error.isOfStatement (site.foundBlock b) := by
  match b with
  | ⟨body, _⟩ => exact only_foundEach site.ofBlock body

theorem only_foundBranches (site : Site) (branches : List Branch) :
    Only Error.isOfStatement (site.foundBranches branches) := by
  match branches with
  | [] => exact only_nil
  | ⟨condition, body⟩ :: rest =>
    have ofCondition := (only_conditionErrors site.toEnv condition).imp
      Error.isOfStatement_of_isOfExpression
    exact only_append.mpr
      ⟨only_append.mpr ⟨ofCondition, only_foundBlock site body⟩, only_foundBranches site rest⟩

theorem only_foundOption (site : Site) (otherwise : Option Block) :
    Only Error.isOfStatement (site.foundOption otherwise) := by
  match otherwise with
  | none => exact only_nil
  | some body => exact only_foundBlock site body

end

end Site

end Typing

/-! ## Programs -/

/-- That a function or a datatype is declared twice is found in no statement. -/
theorem Scopes.only_registerEachErrors (scopes : Scopes) (statements : List Statement) :
    Typing.Only (fun e => !e.isOfStatement) (scopes.registerEachErrors statements) := by
  induction statements generalizing scopes with
  | nil => exact Typing.only_nil
  | cons s rest inductionHypothesis =>
    refine Typing.only_append.mpr ⟨?_, inductionHypothesis (scopes.registering s)⟩
    unfold registerErrors
    split
    · split
      · exact Typing.only_singleton.mpr rfl
      · exact Typing.only_nil
    · split
      · exact Typing.only_singleton.mpr rfl
      · exact Typing.only_nil
    · exact Typing.only_nil

end FrontEnd
