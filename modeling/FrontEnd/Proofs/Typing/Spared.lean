import FrontEnd.Proofs.Typing.ErrorKinds
import FrontEnd.Proofs.Typing.Judgements
import FrontEnd.Proofs.Typing.Lookups

/-!
# Types that no error compares

An error that compares two types is about types that are builtin, declared as datatypes, or looked up. So a
scalar that is neither builtin nor declared may be written all over a program: as long as no type of it is
looked up, no error compares one (`spares_found`). This goes by the rules of inference. What they require of
the parts of an expression is builtin, declared or looked up, and so is what they give for the whole.
-/

namespace FrontEnd.Typing

/-- The scalar of the type that was found, if it is known. -/
def Inferred.scalar? : Inferred → Option String
  | .known type => some type.scalar
  | _ => none

/-- The scalars of the types that an error compares. -/
def Error.scalars : Error → List String
  | .typeMismatch expected actual => expected.scalar :: actual.scalar?.toList
  | _ => []

/-- Whether an error compares no type of a scalar. -/
def Error.spares (D : String) (e : Error) : Bool :=
  D ∉ e.scalars

/-- Whether some types are all of other scalars. -/
def Apart (D : String) (types : List TypeTag) : Prop :=
  ∀ type ∈ types, type.scalar ≠ D

theorem apart_append {D : String} {first second : List TypeTag} :
    Apart D (first ++ second) ↔ Apart D first ∧ Apart D second :=
  List.forall_mem_append

/-! ## Judgements -/

/-- Whether neither the type that was found nor an error inside is of a scalar. -/
structure Judgement.Spares (D : String) (j : Judgement) : Prop where
  type : j.type.scalar? ≠ some D
  errors : Only (Error.spares D) j.errors

section

variable {D : String}

theorem spares_require {expected : TypeTag} {actual : Inferred} (apart : expected.scalar ≠ D)
    (other : actual.scalar? ≠ some D) (span : Span) :
    Only (Error.spares D) (require expected actual span) := by
  rw [require]
  split
  · exact only_nil
  · rw [only_singleton]
    simpa [Error.spares, Error.scalars, apart.symm] using other

theorem Judgement.Spares.require {j : Judgement} (spares : j.Spares D) {expected : TypeTag}
    (apart : expected.scalar ≠ D) : Only (Error.spares D) (j.require expected) :=
  spares_require apart spares.type j.span

theorem spares_allErrors {js : List Judgement} (each : ∀ j ∈ js, j.Spares D) :
    Only (Error.spares D) (Judgement.allErrors js) :=
  only_flatMap.mpr fun j member => (each j member).errors

theorem spares_requireEach {types : List TypeTag} (apart : Apart D types) {js : List Judgement}
    (each : ∀ j ∈ js, j.Spares D) : Only (Error.spares D) (requireEach types js) := by
  induction types generalizing js with
  | nil => exact only_nil
  | cons type types inductionHypothesis =>
    cases js with
    | nil => exact only_nil
    | cons j js =>
      obtain ⟨apartFirst, apartRest⟩ := List.forall_mem_cons.mp apart
      obtain ⟨first, rest⟩ := List.forall_mem_cons.mp each
      rw [requireEach_cons]
      exact only_append.mpr ⟨first.require apartFirst, inductionHypothesis apartRest rest⟩

theorem spares_agree {first second : Judgement} (left : first.Spares D) (right : second.Spares D) :
    Only (Error.spares D) (agree first second) := by
  rw [agree.eq_def]
  split
  next type known =>
    have apart : type.scalar ≠ D := by simpa [known, Inferred.scalar?] using left.type
    exact right.require apart
  next => exact only_nil

/-- The scalars that every program has. -/
def builtins : List String := ["int", "string", "bool"]

theorem operatorRule_builtin (op : Operator) :
    (∀ type ∈ (operatorRule op).operand, type.scalar ∈ builtins) ∧
      (operatorRule op).result.scalar ∈ builtins := by
  cases op <;> decide

section

variable (builtin : D ∉ builtins) {js : List Judgement} (each : ∀ j ∈ js, j.Spares D) (span : Span)

include builtin each

theorem spares_operandErrors (op : Operator) : Only (Error.spares D) (operandErrors op js span) := by
  simp only [operandErrors]
  split
  · split
    next type required _ =>
      have apart : type.scalar ≠ D := fun same => builtin (same ▸ (operatorRule_builtin op).1 type required)
      exact only_flatMap.mpr fun j member => (each j member).require apart
    next first second _ _ => exact spares_agree (each first (by simp)) (each second (by simp))
    next => exact only_nil
  · exact only_singleton.mpr rfl

theorem spares_judgeOperation (op : Operator) : (judgeOperation op js span).Spares D where
  type := fun same => builtin (Option.some.inj same ▸ (operatorRule_builtin op).2)
  errors := only_append.mpr ⟨spares_allErrors each, spares_operandErrors builtin each span op⟩

end

theorem spares_judgeList {js : List Judgement} (each : ∀ j ∈ js, j.Spares D) (span : Span) :
    (judgeList js span).Spares D := by
  -- the type of the items is that of the first which has one
  have element : ∀ type, js.findSome? Judgement.element? = some type → type.scalar ≠ D := by
    intro type found
    obtain ⟨j, member, own⟩ := List.exists_of_findSome?_eq_some found
    have known := ((j.element?_eq_some_iff type).mp own).1
    simpa [known, Inferred.scalar?] using (each j member).type
  constructor
  · rw [judgeList]
    cases found : js.findSome? Judgement.element? with
    | some type => simpa [Inferred.scalar?, TypeTag.listOf] using element type found
    | none =>
      simp only
      split <;> simp [Inferred.scalar?]
  · refine only_flatMap.mpr fun j member => only_append.mpr ⟨(each j member).errors, ?_⟩
    rw [Judgement.itemErrors.eq_def]
    split
    · exact only_nil
    · exact only_singleton.mpr rfl
    · split
      · exact only_singleton.mpr rfl
      · split
        next expected found => exact (each j member).require (element expected found)
        next => exact only_nil

/-! ## Calls -/

theorem spares_callErrors {callee : Except (Located Error) Callee}
    (unresolved : ∀ e, callee = .error e → e.value.spares D = true)
    (takes : ∀ f, callee = .ok f → Apart D f.takes) {args : List Judgement} (each : ∀ j ∈ args, j.Spares D)
    (span : Span) : Only (Error.spares D) (callErrors callee args span) := by
  cases callee with
  | error e => exact List.forall_mem_cons.mpr ⟨unresolved e rfl, spares_allErrors each⟩
  | ok f =>
    refine only_append.mpr ⟨spares_allErrors each, ?_⟩
    rw [Callee.argumentErrors]
    split
    · exact spares_requireEach (takes f rfl) each
    · exact only_singleton.mpr rfl

theorem spares_judgeCall {callee : Except (Located Error) Callee}
    (unresolved : ∀ e, callee = .error e → e.value.spares D = true)
    (takes : ∀ f, callee = .ok f → Apart D f.takes) {args : List Judgement} (each : ∀ j ∈ args, j.Spares D)
    (span : Span) : Only (Error.spares D) (judgeCall callee args span).errors := by
  have inside := spares_callErrors unresolved takes each span
  cases callee with
  | error e => exact inside
  | ok f =>
    rw [judgeCall]
    split
    · exact inside
    · exact only_append.mpr ⟨inside, only_singleton.mpr rfl⟩

theorem scalar?_judgeCall {callee : Except (Located Error) Callee}
    (returns : ∀ f, callee = .ok f → Apart D f.returns) (args : List Judgement) (span : Span) :
    (judgeCall callee args span).type.scalar? ≠ some D := by
  cases callee with
  | error e => simp [judgeCall, Inferred.scalar?]
  | ok f =>
    rw [judgeCall]
    split
    next type single => simpa [Inferred.scalar?] using returns f rfl type (by simp [single])
    next => simp [Inferred.scalar?]

/-! ## Records -/

theorem spares_fieldsErrors {d : DatatypeSymbol} (before : List String) {fields : List (Ident × Judgement)}
    (each : ∀ f ∈ fields, f.2.Spares D)
    (apart : ∀ f ∈ fields, ∀ type ∈ d.field? f.1.name, type.scalar ≠ D) :
    Only (Error.spares D) (fieldsErrors d before fields) := by
  induction fields generalizing before with
  | nil => exact only_nil
  | cons field fields inductionHypothesis =>
    obtain ⟨name, value⟩ := field
    obtain ⟨first, others⟩ := List.forall_mem_cons.mp each
    obtain ⟨apartFirst, apartRest⟩ := List.forall_mem_cons.mp apart
    rw [fieldsErrors, only_append, only_append]
    refine ⟨⟨first.errors, ?_⟩, inductionHypothesis _ others apartRest⟩
    rw [fieldErrors.eq_def]
    split
    next => exact only_singleton.mpr rfl
    next type declared =>
      split
      · exact only_singleton.mpr rfl
      · exact first.require (apartFirst type declared)

theorem spares_missingErrors (d : DatatypeSymbol) (name : Ident) (given : List String) :
    Only (Error.spares D) (missingErrors d name given) :=
  List.forall_mem_map.mpr fun _ _ => rfl

theorem spares_judgeRecord {datatype : Option DatatypeSymbol} {name : Ident}
    {fields : List (Ident × Judgement)} (each : ∀ f ∈ fields, f.2.Spares D)
    (other : ∀ d ∈ datatype, d.name ≠ D)
    (apart : ∀ d ∈ datatype, ∀ f ∈ fields, ∀ type ∈ d.field? f.1.name, type.scalar ≠ D) (span : Span) :
    (judgeRecord datatype name fields span).Spares D := by
  cases datatype with
  | none =>
    refine ⟨by simp [judgeRecord, Inferred.scalar?], List.forall_mem_cons.mpr ⟨rfl, spares_allErrors ?_⟩⟩
    exact List.forall_mem_map.mpr each
  | some d =>
    refine ⟨by simpa [judgeRecord, Inferred.scalar?, TypeTag.ofScalar] using other d rfl, ?_⟩
    exact only_append.mpr ⟨spares_fieldsErrors [] each (apart d rfl), spares_missingErrors d name _⟩

end

/-! ## Expressions -/

/-- Whether a scalar is neither builtin nor declared by some datatypes. -/
structure Lacks (datatypes : List DatatypeDecl) (D : String) : Prop where
  builtin : D ∉ builtins
  undeclared : ∀ decl ∈ datatypes, decl.name.name ≠ D

variable {D : String} {Γ : Context} {site : Site}

theorem spares_field {d : DatatypeSymbol} {decl : DatatypeDecl} (same : d.shape = decl.shape)
    {fields : List FieldValue} (apart : Apart D (Γ.consultsFields (some decl) fields)) :
    ∀ f ∈ site.inferFields fields, ∀ type ∈ d.field? f.1.name, type.scalar ≠ D := by
  induction fields with
  | nil => exact List.forall_mem_nil _
  | cons field fields inductionHypothesis =>
    obtain ⟨name, value⟩ := field
    obtain ⟨apartFirst, apartRest⟩ := apart_append.mp apart
    refine List.forall_mem_cons.mpr ⟨fun type found => ?_, inductionHypothesis apartRest⟩
    rw [d.field?_of_shape same] at found
    have own : type ∈ Context.consultsField (some decl) name := by
      simpa [Context.consultsField, DatatypeDecl.field?] using found
    exact (apart_append.mp apartFirst).2 type own

section

variable (mirrors : Γ.Mirrors site)

include mirrors

theorem takes_callee {function : Ident}
    (apart : Apart D ((Γ.getFunction? function.name).toList.flatMap FunctionDecl.takes)) (f : Callee)
    (resolved : site.callee function = .ok f) : Apart D f.takes := by
  obtain ⟨decl, first, takes, _⟩ := mirrors.callee resolved
  simpa [first, takes] using apart

theorem takes_libraryCallee {space function : Ident}
    (apart : Apart D ((Γ.library.getFunction? space.name function.name).toList.flatMap FunctionSymbol.takes))
    (f : Callee) (resolved : site.libraryCallee space function = .ok f) : Apart D f.takes := by
  obtain ⟨g, found, takes, _⟩ := mirrors.libraryCallee resolved
  simpa [found, takes] using apart

theorem apart_variable {ident : Ident} (apart : Apart D (Γ.consultsVariable ident)) {v : VariableSymbol}
    (found : site.scopes.getVariable? ident.name = some v) : v.type.scalar ≠ D := by
  have own := mirrors.getVariable? ident.name
  rw [found] at own
  exact apart v.type (by simp [Context.consultsVariable, ← own, VariableSymbol.binding])

theorem scalar?_judgeName {ident : Ident} (apart : Apart D (Γ.consultsVariable ident)) (span : Span) :
    (site.judgeName ident span).type.scalar? ≠ some D := by
  rw [Env.judgeName]
  split
  next v found => simpa [Inferred.scalar?] using apart_variable mirrors apart found
  next => simp [Inferred.scalar?]

end

theorem spares_judgeName (env : Env) (ident : Ident) (span : Span) :
    Only (Error.spares D) (env.judgeName ident span).errors := by
  rw [Env.judgeName]
  split
  · exact only_nil
  · exact only_singleton.mpr rfl

mutual

/-- If no type of the scalar is looked up inside of an expression, no error inside compares one. If none is
looked up for its own type either, that is of another scalar. -/
theorem spares_infer (mirrors : Γ.Mirrors site) (lacks : Lacks Γ.datatypes D) (e : Expr)
    (apart : Apart D (Γ.consultsInside e)) :
    Only (Error.spares D) (site.infer e).errors ∧
      (Apart D (Γ.consultsType e) → (site.infer e).type.scalar? ≠ some D) := by
  match e with
  | .int .. | .string .. | .bool .. =>
    refine ⟨only_nil, fun _ same => lacks.builtin (Option.some.inj same ▸ ?_)⟩
    decide
  | .missing .. => exact ⟨only_nil, fun _ => by simp [Env.infer, Inferred.scalar?]⟩
  | .name ident span =>
    exact ⟨spares_judgeName site.toEnv ident span, fun own => scalar?_judgeName mirrors own span⟩
  | .record name fields span =>
    -- whatever else has its name, a record is of the first datatype that was declared so
    have each := spares_inferFields mirrors lacks (Γ.getDatatype? name.name) fields apart
    have whole : (site.infer (.record name fields span)).Spares D := by
      rw [Env.infer]
      refine spares_judgeRecord each ?_ ?_ span
      · intro d found
        obtain ⟨decl, first, same⟩ := mirrors.datatype found
        have named : d.name = decl.name.name := (Prod.mk.inj same).1
        rw [named]
        exact lacks.undeclared decl (List.mem_of_find?_eq_some first)
      · intro d found
        obtain ⟨decl, first, same⟩ := mirrors.datatype found
        rw [Context.consultsInside, first] at apart
        exact spares_field same apart
    exact ⟨whole.errors, fun _ => whole.type⟩
  | .operation op operands span =>
    have whole := spares_judgeOperation lacks.builtin (spares_inferEach mirrors lacks operands apart) span op
    exact ⟨whole.errors, fun _ => whole.type⟩
  | .call function args span =>
    obtain ⟨apartCallee, apartArgs⟩ := apart_append.mp apart
    have each := spares_inferEach mirrors lacks args apartArgs
    refine ⟨spares_judgeCall ?_ ?_ each span, fun own => scalar?_judgeCall ?_ _ span⟩
    · exact only_callee (fun _ => rfl) site.toEnv function
    · exact takes_callee mirrors apartCallee
    · intro f resolved
      obtain ⟨decl, first, _, returns⟩ := mirrors.callee resolved
      simpa [Context.consultsType, first, returns] using own
  | .libraryCall space function args span =>
    obtain ⟨apartCallee, apartArgs⟩ := apart_append.mp apart
    have each := spares_inferEach mirrors lacks args apartArgs
    refine ⟨spares_judgeCall ?_ ?_ each span, fun own => scalar?_judgeCall ?_ _ span⟩
    · exact only_libraryCallee (fun _ => rfl) (fun _ => rfl) site.toEnv space function
    · exact takes_libraryCallee mirrors apartCallee
    · intro f resolved
      obtain ⟨g, found, _, returns⟩ := mirrors.libraryCallee resolved
      simpa [Context.consultsType, found, returns] using own
  | .list items span =>
    have whole := spares_judgeList (spares_inferEach mirrors lacks items apart) span
    exact ⟨whole.errors, fun _ => whole.type⟩

theorem spares_inferEach (mirrors : Γ.Mirrors site) (lacks : Lacks Γ.datatypes D) (es : List Expr)
    (apart : Apart D (Γ.consultsEach es)) : ∀ j ∈ site.inferEach es, j.Spares D := by
  match es with
  | [] => exact List.forall_mem_nil _
  | e :: rest =>
    obtain ⟨apartFirst, apartRest⟩ := apart_append.mp apart
    obtain ⟨inside, own⟩ := apart_append.mp apartFirst
    obtain ⟨errors, type⟩ := spares_infer mirrors lacks e inside
    exact List.forall_mem_cons.mpr ⟨⟨type own, errors⟩, spares_inferEach mirrors lacks rest apartRest⟩

theorem spares_inferFields (mirrors : Γ.Mirrors site) (lacks : Lacks Γ.datatypes D)
    (decl : Option DatatypeDecl) (fields : List FieldValue) (apart : Apart D (Γ.consultsFields decl fields)) :
    ∀ f ∈ site.inferFields fields, f.2.Spares D := by
  match fields with
  | [] => exact List.forall_mem_nil _
  | ⟨name, value⟩ :: rest =>
    obtain ⟨apartFirst, apartRest⟩ := apart_append.mp apart
    obtain ⟨inside, own⟩ := apart_append.mp (apart_append.mp apartFirst).1
    obtain ⟨errors, type⟩ := spares_infer mirrors lacks value inside
    exact List.forall_mem_cons.mpr
      ⟨⟨type own, errors⟩, spares_inferFields mirrors lacks decl rest apartRest⟩

end

/-- An expression whose type is required. -/
theorem spares_required (mirrors : Γ.Mirrors site) (lacks : Lacks Γ.datatypes D) (e : Expr)
    (apart : Apart D (Γ.consults e)) : (site.infer e).Spares D := by
  obtain ⟨inside, own⟩ := apart_append.mp apart
  obtain ⟨errors, type⟩ := spares_infer mirrors lacks e inside
  exact ⟨type own, errors⟩

/-! ## Written types -/

theorem getDatatype?_of_lacks (mirrors : Γ.Mirrors site) (lacks : Lacks Γ.datatypes D) :
    site.scopes.getDatatype? D = none := by
  by_contra declared
  obtain ⟨d, found⟩ := Option.ne_none_iff_exists'.mp declared
  obtain ⟨decl, first, _⟩ := mirrors.datatype found
  exact lacks.undeclared decl (List.mem_of_find?_eq_some first) (by simpa using List.find?_some first)

theorem knows_of_typeErrors (mirrors : Γ.Mirrors site) {type : TypeName} (right : site.typeErrors type = []) :
    Γ.Knows type := by
  intro name named undeclared
  have none : site.scopes.getDatatype? name = none := by
    simpa [undeclared] using mirrors.datatypes name
  rw [Option.mem_def] at named
  simp [Env.typeErrors, named, none] at right

/-- A written type that is right itself is builtin or declared. -/
theorem apart_of_typeErrors (mirrors : Γ.Mirrors site) (lacks : Lacks Γ.datatypes D) {type : TypeName}
    (right : site.typeErrors type = []) : type.tag.scalar ≠ D := by
  obtain ⟨scalar, isList, span⟩ := type
  rintro rfl
  cases scalar with
  | datatype name =>
    have undeclared : site.scopes.getDatatype? name = none := getDatatype?_of_lacks mirrors lacks
    simp [Env.typeErrors, Scalar.datatype?, undeclared] at right
  | _ => exact lacks.builtin (by simp [builtins, TypeName.tag, Scalar.name])

/-! ## Statements -/

section

variable (mirrors : Γ.Mirrors site) (lacks : Lacks Γ.datatypes D)

include mirrors lacks

theorem spares_conditionErrors {e : Expr} (apart : Apart D (Γ.consults e)) :
    Only (Error.spares D) (site.conditionErrors e) := by
  have inside := spares_required mirrors lacks e apart
  have other : TypeTag.bool.scalar ≠ D := fun same => lacks.builtin (same ▸ by decide)
  exact only_append.mpr ⟨inside.errors, inside.require other⟩

/-- The value is compared only with a type that is right itself. -/
theorem spares_declarationErrors {decl : VariableDecl}
    (apart : Apart D (Γ.consultsInside decl.value ++
      if Γ.Knows decl.type then Γ.consultsType decl.value else [])) :
    Only (Error.spares D) (site.declarationErrors decl) := by
  obtain ⟨inside, own⟩ := apart_append.mp apart
  obtain ⟨errors, type⟩ := spares_infer mirrors lacks decl.value inside
  have ofType : Only (Error.spares D) (site.typeErrors decl.type) :=
    only_typeErrors (fun _ => rfl) site.toEnv decl.type
  refine only_append.mpr ⟨only_append.mpr ⟨ofType, errors⟩, ?_⟩
  split
  -- this is where an undeclared datatype goes no further: its declaration compares nothing with it
  next right =>
    have clean := List.isEmpty_iff.mp right
    rw [if_pos (knows_of_typeErrors mirrors clean)] at own
    exact spares_require (apart_of_typeErrors mirrors lacks clean) (type own) _
  next => exact only_nil

theorem spares_reassignmentErrors {target : Ident} {value : Expr}
    (apart : Apart D (Γ.consults value ++ Γ.consultsVariable target)) :
    Only (Error.spares D) (site.reassignmentErrors target value) := by
  obtain ⟨apartValue, apartTarget⟩ := apart_append.mp apart
  have inside := spares_required mirrors lacks value apartValue
  refine only_append.mpr ⟨inside.errors, ?_⟩
  split
  next => exact only_singleton.mpr rfl
  next v found => exact inside.require (apart_variable mirrors apartTarget found)

theorem spares_resultErrors {values : List Expr}
    (apart : Apart D (Γ.consultsEach values ++ Γ.returns.getD [])) (span : Span) :
    Only (Error.spares D) (site.resultErrors values span) := by
  obtain ⟨apartValues, apartReturns⟩ := apart_append.mp apart
  have each := spares_inferEach mirrors lacks values apartValues
  refine only_append.mpr ⟨spares_allErrors each, ?_⟩
  rw [mirrors.returns]
  split
  next => exact only_singleton.mpr rfl
  next types returns =>
    split
    · rw [returns] at apartReturns
      exact spares_requireEach apartReturns each
    · exact only_singleton.mpr rfl

theorem spares_call {e : Expr} (apart : Apart D (Γ.consultsInside e)) :
    Only (Error.spares D) (site.callErrors e) := by
  cases e with
  | call function args span =>
    obtain ⟨apartCallee, apartArgs⟩ := apart_append.mp apart
    have each := spares_inferEach mirrors lacks args apartArgs
    refine spares_callErrors ?_ (takes_callee mirrors apartCallee) each span
    exact only_callee (fun _ => rfl) site.toEnv function
  | libraryCall space function args span =>
    obtain ⟨apartCallee, apartArgs⟩ := apart_append.mp apart
    have each := spares_inferEach mirrors lacks args apartArgs
    refine spares_callErrors ?_ (takes_libraryCallee mirrors apartCallee) each span
    exact only_libraryCallee (fun _ => rfl) (fun _ => rfl) site.toEnv space function
  | _ => exact only_nil

end

theorem spares_registerEachErrors (s : Scopes) (statements : List Statement) :
    Only (Error.spares D) (s.registerEachErrors statements) := by
  refine (s.only_registerEachErrors statements).imp fun e ofRegistry => ?_
  cases e with
  | duplicateFunction | duplicateDatatype => rfl
  | _ => cases ofRegistry

theorem Context.datatypes_behind (Γ : Context) (s : Statement) : (Γ.behind s).datatypes = Γ.datatypes := by
  cases s <;> rfl

mutual

/-- If no type of the scalar is looked up for a statement, no error of it compares one. The context follows
the site from scope to scope and from statement to statement. -/
theorem spares_found {Γ : Context} {site : Site} (mirrors : Γ.Mirrors site) (lacks : Lacks Γ.datatypes D)
    (s : Statement) (apart : Apart D (Γ.consultsStatement s)) : Only (Error.spares D) (site.found s) := by
  match s with
  | .function ⟨_, params, returns, ⟨body, _⟩⟩ _ =>
    have ofReturns : Only (Error.spares D) (returns.flatMap site.typeErrors) :=
      only_flatMap.mpr fun type _ => only_typeErrors (fun _ => rfl) site.toEnv type
    have inside := mirrors.ofFunction params returns
    have ofBody := spares_foundEach inside lacks body apart
    refine only_append.mpr ⟨only_append.mpr ⟨ofReturns, ?_⟩, ofBody⟩
    exact only_paramErrors (fun _ => rfl) (fun _ _ => rfl) _ params
  | .datatype decl _ => exact only_datatypeErrors (fun _ => rfl) (fun _ _ => rfl) site.toEnv _ _ _
  | .declaration _ decl _ =>
    refine only_append.mpr ⟨spares_declarationErrors mirrors lacks apart, ?_⟩
    exact only_duplicateErrors (fun _ _ => rfl) site.toEnv decl.name
  | .reassignment target value _ => exact spares_reassignmentErrors mirrors lacks apart
  | .conditional branches otherwise _ =>
    obtain ⟨apartBranches, apartOtherwise⟩ := apart_append.mp apart
    exact only_append.mpr
      ⟨spares_foundBranches mirrors lacks branches apartBranches,
        spares_foundOption mirrors lacks otherwise apartOtherwise⟩
  | .loop condition body _ =>
    obtain ⟨apartCondition, apartBody⟩ := apart_append.mp apart
    have ofBody := spares_foundBlock mirrors.ofLoop lacks body apartBody
    refine only_append.mpr ⟨?_, ofBody⟩
    cases condition with
    | none => exact only_nil
    | some e => exact spares_conditionErrors mirrors lacks apartCondition
  | .block body _ => exact spares_foundBlock mirrors lacks body apart
  | .result values span => exact spares_resultErrors mirrors lacks apart span
  | .call call _ => exact spares_call mirrors lacks apart
  | .control kind span => exact only_controlErrors (fun _ => rfl) site kind span

theorem spares_foundEach {Γ : Context} {site : Site} (mirrors : Γ.Mirrors site) (lacks : Lacks Γ.datatypes D)
    (statements : List Statement) (apart : Apart D (Γ.consultsStatements statements)) :
    Only (Error.spares D) (site.foundEach statements) := by
  match statements with
  | [] => exact only_nil
  | s :: rest =>
    obtain ⟨apartFirst, apartRest⟩ := apart_append.mp apart
    exact only_append.mpr
      ⟨spares_found mirrors lacks s apartFirst,
        spares_foundEach (mirrors.behind s) (Γ.datatypes_behind s ▸ lacks) rest apartRest⟩

theorem spares_foundBlock {Γ : Context} {site : Site} (mirrors : Γ.Mirrors site) (lacks : Lacks Γ.datatypes D)
    (b : Block) (apart : Apart D (Γ.consultsBlock b)) : Only (Error.spares D) (site.foundBlock b) := by
  match b with
  | ⟨body, _⟩ => exact spares_foundEach mirrors.opened lacks body apart

theorem spares_foundBranches {Γ : Context} {site : Site} (mirrors : Γ.Mirrors site)
    (lacks : Lacks Γ.datatypes D) (branches : List Branch) (apart : Apart D (Γ.consultsBranches branches)) :
    Only (Error.spares D) (site.foundBranches branches) := by
  match branches with
  | [] => exact only_nil
  | ⟨condition, body⟩ :: rest =>
    obtain ⟨apartFirst, apartRest⟩ := apart_append.mp apart
    obtain ⟨apartCondition, apartBody⟩ := apart_append.mp apartFirst
    have ofBranch := only_append.mpr
      ⟨spares_conditionErrors mirrors lacks apartCondition, spares_foundBlock mirrors lacks body apartBody⟩
    exact only_append.mpr ⟨ofBranch, spares_foundBranches mirrors lacks rest apartRest⟩

theorem spares_foundOption {Γ : Context} {site : Site} (mirrors : Γ.Mirrors site) (lacks : Lacks Γ.datatypes D)
    (otherwise : Option Block) (apart : Apart D (Γ.consultsOption otherwise)) :
    Only (Error.spares D) (site.foundOption otherwise) := by
  match otherwise with
  | none => exact only_nil
  | some body => exact spares_foundBlock mirrors lacks body apart

end

end FrontEnd.Typing
