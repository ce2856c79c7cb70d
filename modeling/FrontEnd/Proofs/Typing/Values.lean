import FrontEnd.Proofs.Typing.Judgements
import FrontEnd.Proofs.Typing.Surroundings

/-!
# Types of values

Inference decides the typing rules: an expression has a type exactly if nothing is found to be wrong
inside of it and the type that is inferred fits. This is an induction over the expression, and for each
rule its own lemma takes the parts for granted.
-/

namespace FrontEnd.Typing

variable {Γ : Context} {site : Site}

/-! ## What is inferred without an error -/

theorem judgeCall_known {callee : Except (Located Error) Callee} {args : List Judgement}
    {span : Span} (clean : (judgeCall callee args span).errors = []) :
    ∃ type, (judgeCall callee args span).type = .known type := by
  cases callee with
  | error e => cases clean
  | ok f =>
    simp only [judgeCall] at clean ⊢
    split
    · exact ⟨_, rfl⟩
    · next notSingle =>
      split at clean
      · next single => exact absurd single (notSingle _)
      · simp at clean

theorem judgeList_known {first : Judgement} {rest : List Judgement} {span : Span}
    (determined : first.errors = [] → first.type ≠ .unknown)
    (clean : (judgeList (first :: rest) span).errors = []) :
    ∃ type, (judgeList (first :: rest) span).type = .known type := by
  have each := List.flatMap_eq_nil_iff.mp clean
  obtain ⟨scalar, known⟩ := scalar_of_clean determined (each first (by simp))
  exact ⟨.listOf scalar, judgeList_type known⟩

mutual

/-- Without an error, the type of an expression is known, or it is the list without items. -/
theorem known_or_empty (env : Env) (e : Expr) (regular : e.Regular)
    (clean : (env.infer e).errors = []) :
    (∃ type, (env.infer e).type = .known type) ∨
      (env.infer e).type = .emptyList ∧ e.isEmptyList = true := by
  match e with
  | .int .. | .string .. | .bool .. => exact .inl ⟨_, rfl⟩
  | .name ident span =>
    simp only [Env.infer, Env.judgeName] at clean ⊢
    cases found : env.scopes.getVariable? ident.name with
    | none => simp [found] at clean
    | some v => exact .inl ⟨v.type, rfl⟩
  | .record name fields span =>
    simp only [Env.infer] at clean ⊢
    cases found : env.scopes.getDatatype? name.name with
    | none => simp [found, judgeRecord] at clean
    | some d => exact .inl ⟨_, rfl⟩
  | .operation op operands span => exact .inl ⟨_, rfl⟩
  | .call function args span => exact .inl (judgeCall_known clean)
  | .libraryCall space function args span => exact .inl (judgeCall_known clean)
  | .list [] span => exact .inr ⟨rfl, rfl⟩
  | .list (first :: rest) span =>
    exact .inl (judgeList_known (determined env first regular.1) clean)
  | .missing span => cases regular

theorem determined (env : Env) (e : Expr) (regular : e.Regular)
    (clean : (env.infer e).errors = []) : (env.infer e).type ≠ .unknown := by
  intro unknown
  rcases known_or_empty env e regular clean with ⟨type, known⟩ | ⟨empty, _⟩
  · rw [known] at unknown
    cases unknown
  · rw [empty] at unknown
    cases unknown

end

/-! ## Rules on several expressions -/

section Several

variable {types : List TypeTag} {es : List Expr}

theorem eachHasType_iff
    (each : ∀ e ∈ es, ∀ type, Γ.HasType e type ↔ (site.infer e).Has type) (type : TypeTag) :
    Γ.EachHasType es type ↔ ∀ j ∈ site.inferEach es, j.Has type := by
  induction es with
  | nil =>
    constructor
    · intro _ j member
      cases member
    · intro _
      exact .nil
  | cons e es inductionHypothesis =>
    have rest := inductionHypothesis fun e member => each e (by simp [member])
    rw [Env.inferEach, List.forall_mem_cons, ← rest, ← each e (by simp)]
    constructor
    · intro typed
      cases typed with
      | cons first rest => exact ⟨first, rest⟩
    · intro holds
      obtain ⟨first, rest⟩ := holds
      exact .cons first rest

theorem haveTypes_iff
    (each : ∀ e ∈ es, ∀ type, Γ.HasType e type ↔ (site.infer e).Has type) (types : List TypeTag) :
    Γ.HaveTypes es types ↔ List.Forall₂ Judgement.Has (site.inferEach es) types := by
  induction es generalizing types with
  | nil =>
    rw [Env.inferEach, List.forall₂_nil_left_iff]
    constructor
    · intro typed
      cases typed
      rfl
    · intro none
      subst none
      exact .nil
  | cons e es inductionHypothesis =>
    have first := each e (by simp)
    have rest := inductionHypothesis fun e member => each e (by simp [member])
    rw [Env.inferEach]
    constructor
    · intro typed
      cases typed with
      | cons typed others => exact .cons ((first _).mp typed) ((rest _).mp others)
    · intro has
      cases has with
      | cons typed others => exact .cons ((first _).mpr typed) ((rest _).mpr others)

theorem fieldsHaveTypes_iff {fields : List FieldValue}
    (each : ∀ f ∈ fields, ∀ type, Γ.HasType f.value type ↔ (site.infer f.value).Has type)
    (declared : List Param) :
    Γ.FieldsHaveTypes fields declared ↔
      ∀ f ∈ site.inferFields fields,
        ∃ p ∈ declared, p.name.name = f.1.name ∧ f.2.Has p.type.tag := by
  induction fields with
  | nil =>
    constructor
    · intro _ f member
      cases member
    · intro _
      exact .nil
  | cons field fields inductionHypothesis =>
    obtain ⟨name, value⟩ := field
    have first := each ⟨name, value⟩ (by simp)
    have rest := inductionHypothesis fun f member => each f (by simp [member])
    rw [Env.inferFields, List.forall_mem_cons, ← rest]
    constructor
    · intro typed
      cases typed with
      | cons member named typed rest => exact ⟨⟨_, member, named, (first _).mp typed⟩, rest⟩
    · intro holds
      obtain ⟨⟨p, member, named, typed⟩, rest⟩ := holds
      exact .cons member named ((first _).mpr typed) rest

theorem map_inferFields (env : Env) (fields : List FieldValue) :
    (env.inferFields fields).map (fun f => f.1.name) = fields.map fun f => f.name.name := by
  induction fields with
  | nil => rfl
  | cons field fields inductionHypothesis =>
    obtain ⟨name, value⟩ := field
    simp [Env.inferFields, inductionHypothesis]

theorem exists_inferFields_iff (env : Env) (fields : List FieldValue) (name : String) :
    (∃ f ∈ env.inferFields fields, f.1.name = name) ↔ ∃ f ∈ fields, f.name.name = name := by
  have names := map_inferFields env fields
  rw [← List.mem_map (f := fun f : Ident × Judgement => f.1.name), names, List.mem_map]

end Several

/-! ## Rules on single expressions -/

section Single

variable (describes : Γ.Describes site)

include describes

theorem hasType_name_iff (ident : Ident) (span : Span) (type : TypeTag) :
    Γ.HasType (.name ident span) type ↔ (site.infer (.name ident span)).Has type := by
  have resolves := describes.getVariable?_iff ident.name type
  have rule : Γ.HasType (.name ident span) type ↔ Resolves ident.name type Γ.scopes := by
    constructor
    · intro typed
      cases typed with
      | name resolves => exact resolves
    · exact .name
  rw [rule, ← resolves, Env.infer, Env.judgeName]
  cases found : site.scopes.getVariable? ident.name <;> simp [Judgement.Has, fits_known]

theorem called_iff {args : List Expr}
    (each : ∀ e ∈ args, ∀ type, Γ.HasType e type ↔ (site.infer e).Has type) (function : Ident)
    (asked : List TypeTag → Prop) :
    (∃ f, site.callee function = .ok f ∧
      List.Forall₂ Judgement.Has (site.inferEach args) f.takes ∧ asked f.returns) ↔
      ∃ decl ∈ Γ.functions, decl.name.name = function.name ∧ Γ.HaveTypes args decl.takes ∧
        asked decl.gives := by
  constructor
  · intro holds
    obtain ⟨f, called, given, returns⟩ := holds
    obtain ⟨decl, declared, named, same⟩ := (describes.callee_iff function f).mp called
    subst same
    exact ⟨decl, declared, named, (haveTypes_iff each _).mpr given, returns⟩
  -- a declared function is what its name is resolved to
  · intro holds
    obtain ⟨decl, declared, named, given, returns⟩ := holds
    have called := (describes.callee_iff function _).mpr ⟨decl, declared, named, rfl⟩
    exact ⟨decl.signature, called, (haveTypes_iff each _).mp given, returns⟩

theorem libraryCalled_iff {args : List Expr}
    (each : ∀ e ∈ args, ∀ type, Γ.HasType e type ↔ (site.infer e).Has type)
    (space function : Ident) (asked : List TypeTag → Prop) :
    (∃ f, site.libraryCallee space function = .ok f ∧
      List.Forall₂ Judgement.Has (site.inferEach args) f.takes ∧ asked f.returns) ↔
      ∃ symbol, Γ.library.getFunction? space.name function.name = some symbol ∧
        Γ.HaveTypes args symbol.takes ∧ asked symbol.returns := by
  constructor
  · intro holds
    obtain ⟨f, called, given, returns⟩ := holds
    obtain ⟨symbol, known, same⟩ := (describes.libraryCallee_iff space function f).mp called
    subst same
    exact ⟨symbol, known, (haveTypes_iff each _).mpr given, returns⟩
  · intro holds
    obtain ⟨symbol, known, given, returns⟩ := holds
    have called := (describes.libraryCallee_iff space function _).mpr ⟨symbol, known, rfl⟩
    exact ⟨_, called, (haveTypes_iff each _).mp given, returns⟩

theorem hasType_record_iff {fields : List FieldValue}
    (each : ∀ f ∈ fields, ∀ type, Γ.HasType f.value type ↔ (site.infer f.value).Has type)
    (name : Ident) (span : Span) (type : TypeTag) :
    Γ.HasType (.record name fields span) type ↔
      (site.infer (.record name fields span)).Has type := by
  rw [Env.infer, judgeRecord_has_iff]
  simp only [map_inferFields, exists_inferFields_iff]
  constructor
  · intro typed
    cases typed with
    | @record decl _ _ _ declared named once every values =>
      -- the fields of the datatype are those of its declaration, by name and by type
      obtain ⟨d, found, same⟩ := Option.map_eq_some_iff.mp
        ((describes.getDatatype?_iff name.name decl.shape).mpr ⟨decl, declared, named, rfl⟩)
      obtain ⟨sameName, sameFields⟩ := Prod.mk.inj same
      refine ⟨d, found, by rw [sameName, named], ?_, once, ?_⟩
      · intro f member
        obtain ⟨p, field, fieldNamed, typed⟩ := (fieldsHaveTypes_iff each _).mp values f member
        exact ⟨p.type.tag, (describes.field?_iff declared same _ _).mpr ⟨p, field, fieldNamed, rfl⟩,
          typed⟩
      · intro field member
        rw [sameFields] at member
        obtain ⟨p, declaredField, same⟩ := List.mem_map.mp member
        subst same
        exact every p declaredField
  · intro holds
    obtain ⟨d, found, sameType, typed, once, every⟩ := holds
    have known : (site.scopes.getDatatype? name.name).map DatatypeSymbol.shape = some d.shape := by
      rw [found]
      rfl
    obtain ⟨decl, declared, named, same⟩ := (describes.getDatatype?_iff name.name _).mp known
    obtain ⟨sameName, sameFields⟩ := Prod.mk.inj same
    rw [sameType, ← sameName, named]
    refine .record declared named once ?_ ((fieldsHaveTypes_iff each _).mpr ?_)
    · intro p field
      apply every (p.type.tag, p.name.name)
      rw [← sameFields]
      exact List.mem_map_of_mem field
    · intro f member
      obtain ⟨type, fieldType, has⟩ := typed f member
      obtain ⟨p, field, fieldNamed, sameTag⟩ :=
        (describes.field?_iff declared same.symm _ _).mp fieldType
      subst sameTag
      exact ⟨p, field, fieldNamed, has⟩

end Single

section Compound

theorem noUnknown {es : List Expr} (env : Env) (regular : Expr.EachRegular es) :
    ∀ j ∈ env.inferEach es, j.errors = [] → j.type ≠ .unknown := by
  induction es with
  | nil =>
    intro j member
    cases member
  | cons e es inductionHypothesis =>
    rw [Env.inferEach, List.forall_mem_cons]
    exact ⟨determined env e regular.1, inductionHypothesis regular.2⟩

theorem hasType_list_iff {items : List Expr} (regular : Expr.EachRegular items)
    (each : ∀ e ∈ items, ∀ type, Γ.HasType e type ↔ (site.infer e).Has type) (span : Span)
    (type : TypeTag) :
    Γ.HasType (.list items span) type ↔ (site.infer (.list items span)).Has type := by
  rw [Env.infer, judgeList_has_iff (noUnknown _ regular)]
  constructor
  · intro typed
    cases typed with
    | @list _ _ element typed => exact ⟨element, rfl, (eachHasType_iff each _).mp typed⟩
  · intro holds
    obtain ⟨element, same, typed⟩ := holds
    subst same
    exact .list ((eachHasType_iff each _).mpr typed)

/-- The operators whose operands have a type of their own. -/
theorem hasType_operation_iff {operands : List Expr} {op : Operator} (notEq : op ≠ .eq)
    (each : ∀ e ∈ operands, ∀ type, Γ.HasType e type ↔ (site.infer e).Has type) (span : Span)
    (type : TypeTag) :
    Γ.HasType (.operation op operands span) type ↔
      (site.infer (.operation op operands span)).Has type := by
  -- each rule asks for as many operands as the table of operators does
  have atLeastOne : Arity.atLeastOne.accepts operands.length = true ↔ operands ≠ [] := by
    cases operands <;> simp
  rw [Env.infer]
  cases op with
  | add | sub | mul | div =>
    rw [Context.arithmetic_iff (by simp), judgeOperation_has_iff rfl, ← eachHasType_iff each,
      length_inferEach, eq_comm (a := type), ← atLeastOne]
    rfl
  | and | or =>
    rw [Context.connective_iff (by simp), judgeOperation_has_iff rfl, ← eachHasType_iff each,
      length_inferEach, eq_comm (a := type), ← atLeastOne]
    rfl
  | not =>
    rw [Context.negation_iff, judgeOperation_has_iff rfl, ← eachHasType_iff each,
      length_inferEach, eq_comm (a := type), ← accepts_one]
    rfl
  | lt | gt | lte | gte =>
    rw [Context.comparison_iff (by simp), judgeOperation_has_iff rfl, ← eachHasType_iff each,
      length_inferEach, eq_comm (a := type), ← accepts_two]
    rfl
  | eq => exact absurd rfl notEq

theorem hasType_equality_iff {operands : List Expr} (regular : Expr.EachRegular operands)
    (notEmptyList : ∀ first ∈ operands.head?, first.isEmptyList = false)
    (each : ∀ e ∈ operands, ∀ type, Γ.HasType e type ↔ (site.infer e).Has type) (span : Span)
    (type : TypeTag) :
    Γ.HasType (.operation .eq operands span) type ↔
      (site.infer (.operation .eq operands span)).Has type := by
  -- Only of an empty list there is no type without an error, and that is not the first operand.
  have known : ∀ first ∈ (site.inferEach operands).head?,
      first.errors = [] → ∃ type, first.type = .known type := by
    cases operands with
    | nil => simp [Env.inferEach]
    | cons e es =>
      intro first isFirst clean
      cases isFirst
      rcases known_or_empty site.toEnv e regular.1 clean with known | ⟨_, isEmptyList⟩
      · exact known
      · rw [notEmptyList e rfl] at isEmptyList
        cases isEmptyList
  rw [Env.infer, judgeOperation_eq_has_iff known, Context.equality_iff]
  constructor
  · intro holds
    obtain ⟨first, second, shared, two, left, right, same⟩ := holds
    subst two
    have hasLeft := (each first (by simp) shared).mp left
    have hasRight := (each second (by simp) shared).mp right
    exact ⟨⟨_, _, shared, rfl, hasLeft, hasRight⟩, same⟩
  · intro holds
    obtain ⟨⟨_, _, shared, two, hasLeft, hasRight⟩, same⟩ := holds
    have count : operands.length = 2 := by
      rw [← length_inferEach site.toEnv, two]
      rfl
    obtain ⟨first, second, pair⟩ := List.length_eq_two.mp count
    subst pair
    cases two
    have left := (each first (by simp) shared).mpr hasLeft
    have right := (each second (by simp) shared).mpr hasRight
    exact ⟨first, second, shared, rfl, left, right, same⟩

end Compound

mutual

/-- An expression has a type exactly if it is inferred, without an error. -/
theorem hasType_iff (describes : Γ.Describes site) (e : Expr) (regular : e.Regular) :
    ∀ type, Γ.HasType e type ↔ (site.infer e).Has type := by
  match e with
  | .int value span | .string value span | .bool value span =>
    intro type
    constructor
    · intro typed
      cases typed
      exact ⟨rfl, by simp [Env.infer, fits_known]⟩
    · intro holds
      obtain ⟨_, fits⟩ := holds
      have same := (fits_known _ _).mp fits
      subst same
      constructor
  | .name ident span => exact hasType_name_iff describes ident span
  | .record name fields span =>
    exact hasType_record_iff describes (hasType_iff_fields describes fields regular) name span
  | .operation op operands span =>
    have each := hasType_iff_each describes operands regular.2
    by_cases isEq : op = .eq
    · subst isEq
      exact hasType_equality_iff regular.2 (regular.1 rfl) each span
    · exact hasType_operation_iff isEq each span
  | .call function args span =>
    intro type
    have each := hasType_iff_each describes args regular
    rw [Context.hasType_call_iff, Env.infer, judgeCall_has_iff,
      called_iff describes each function (· = [type])]
  | .libraryCall space function args span =>
    intro type
    have each := hasType_iff_each describes args regular
    rw [Context.hasType_libraryCall_iff, Env.infer, judgeCall_has_iff,
      libraryCalled_iff describes each space function (· = [type])]
  | .list items span =>
    exact hasType_list_iff regular (hasType_iff_each describes items regular) span
  | .missing span => cases regular

theorem hasType_iff_each (describes : Γ.Describes site) (es : List Expr)
    (regular : Expr.EachRegular es) :
    ∀ e ∈ es, ∀ type, Γ.HasType e type ↔ (site.infer e).Has type := by
  match es with
  | [] =>
    intro e member
    cases member
  | first :: rest =>
    rw [List.forall_mem_cons]
    exact ⟨hasType_iff describes first regular.1, hasType_iff_each describes rest regular.2⟩

theorem hasType_iff_fields (describes : Γ.Describes site) (fields : List FieldValue)
    (regular : FieldValue.EachRegular fields) :
    ∀ f ∈ fields, ∀ type, Γ.HasType f.value type ↔ (site.infer f.value).Has type := by
  match fields with
  | [] =>
    intro f member
    cases member
  | ⟨name, value⟩ :: rest =>
    rw [List.forall_mem_cons]
    exact ⟨hasType_iff describes value regular.1, hasType_iff_fields describes rest regular.2⟩

end

end FrontEnd.Typing
