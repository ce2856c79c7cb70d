import Mathlib.Data.List.Forall2
import Mathlib.Tactic.Tauto
import FrontEnd.Proofs.Typing.Rules

/-!
# What judgements amount to

A judgement is right for a type if nothing is wrong inside of the expression and the type that was
found fits. For each kind of expression, this comes down to the same about the judgements of its parts.
-/

namespace FrontEnd.Typing

/-! ## Clean judgements -/

/-- The judgement finds the expression to be right where the type is required. -/
def Judgement.Has (j : Judgement) (type : TypeTag) : Prop :=
  j.errors = [] ∧ j.type.fits type = true

theorem Judgement.require_eq_nil_iff (j : Judgement) (type : TypeTag) :
    j.require type = [] ↔ j.type.fits type = true := by
  simp only [Judgement.require, Typing.require]
  by_cases fits : j.type.fits type = true <;> simp [fits]

theorem fits_known (actual expected : TypeTag) :
    (Inferred.known actual).fits expected = true ↔ actual = expected := by
  simp [Inferred.fits]

theorem each_has_iff (js : List Judgement) (type : TypeTag) :
    (∀ j ∈ js, j.Has type) ↔
      Judgement.allErrors js = [] ∧ (js.flatMap fun j => j.require type) = [] := by
  simp only [Judgement.Has, Judgement.allErrors, List.flatMap_eq_nil_iff,
    Judgement.require_eq_nil_iff]
  constructor
  · intro has
    exact ⟨fun j member => (has j member).1, fun j member => (has j member).2⟩
  · intro holds
    obtain ⟨clean, fits⟩ := holds
    intro j member
    exact ⟨clean j member, fits j member⟩

theorem requireEach_cons (type : TypeTag) (types : List TypeTag) (j : Judgement)
    (js : List Judgement) :
    requireEach (type :: types) (j :: js) = j.require type ++ requireEach types js := rfl

theorem forall₂_has_iff (js : List Judgement) (types : List TypeTag) :
    List.Forall₂ Judgement.Has js types ↔
      Judgement.allErrors js = [] ∧ types.length = js.length ∧ requireEach types js = [] := by
  induction js generalizing types with
  | nil => cases types <;> simp [Judgement.allErrors, requireEach]
  | cons j js inductionHypothesis =>
    cases types with
    | nil => simp
    | cons type types =>
      have rest := inductionHypothesis types
      simp only [Judgement.allErrors] at rest
      simp only [List.forall₂_cons, rest, Judgement.Has, Judgement.allErrors, requireEach_cons,
        List.flatMap_cons, List.append_eq_nil_iff, Judgement.require_eq_nil_iff,
        List.length_cons, Nat.add_right_cancel_iff]
      tauto

theorem allErrors_cons (j : Judgement) (js : List Judgement) :
    Judgement.allErrors (j :: js) = j.errors ++ Judgement.allErrors js := rfl

/-! ## Operators -/

@[simp] theorem accepts_atLeastOne (count : Nat) :
    Arity.atLeastOne.accepts count = true ↔ 1 ≤ count := by
  simp [Arity.accepts]

@[simp] theorem accepts_one (count : Nat) : Arity.one.accepts count = true ↔ count = 1 := by
  simp [Arity.accepts]

@[simp] theorem accepts_two (count : Nat) : Arity.two.accepts count = true ↔ count = 2 := by
  simp [Arity.accepts]

theorem accepts_of_operandErrors {op : Operator} {js : List Judgement} {span : Span}
    (clean : operandErrors op js span = []) :
    (operatorRule op).arity.accepts js.length = true := by
  by_cases count : (operatorRule op).arity.accepts js.length = true
  · exact count
  · simp [operandErrors, count] at clean

theorem judgeOperation_has_iff {op : Operator} {operand : TypeTag}
    (rule : (operatorRule op).operand = some operand) (js : List Judgement) (span : Span)
    (type : TypeTag) :
    (judgeOperation op js span).Has type ↔
      (operatorRule op).arity.accepts js.length = true ∧ (∀ j ∈ js, j.Has operand) ∧
        (operatorRule op).result = type := by
  simp only [judgeOperation, Judgement.Has, List.append_eq_nil_iff, fits_known]
  by_cases count : (operatorRule op).arity.accepts js.length = true
  · have each := each_has_iff js operand
    simp only [Judgement.Has] at each
    simp [operandErrors, count, rule, each, and_assoc]
  · simp [operandErrors, count]

/-- Two expressions are compared at the type of the first, if it is known. -/
theorem judgeOperation_eq_has_iff {js : List Judgement}
    (known : ∀ first ∈ js.head?, first.errors = [] → ∃ type, first.type = .known type)
    (span : Span) (type : TypeTag) :
    (judgeOperation .eq js span).Has type ↔
      (∃ first second shared, js = [first, second] ∧ first.Has shared ∧ second.Has shared) ∧
        type = .bool := by
  simp only [judgeOperation, Judgement.Has, List.append_eq_nil_iff, fits_known]
  have result : (operatorRule .eq).result = type ↔ type = .bool := eq_comm
  rw [result]
  apply and_congr_left
  intro _
  constructor
  · intro holds
    obtain ⟨clean, compared⟩ := holds
    have count : js.length = 2 := by exact (accepts_two _).mp (accepts_of_operandErrors compared)
    obtain ⟨first, second, two⟩ := List.length_eq_two.mp count
    subst two
    simp only [allErrors_cons, List.append_eq_nil_iff] at clean
    obtain ⟨shared, firstKnown⟩ := known first rfl clean.1
    -- the second operand is compared with what is known of the first
    have fits : second.type.fits shared = true := by
      simpa [operandErrors, operatorRule, Arity.accepts, agree, firstKnown,
        Judgement.require_eq_nil_iff] using compared
    exact ⟨first, second, shared, rfl, ⟨clean.1, by simp [firstKnown, fits_known]⟩,
      clean.2.1, fits⟩
  · intro holds
    obtain ⟨first, second, shared, two, ⟨cleanFirst, fitsFirst⟩, cleanSecond, fitsSecond⟩ := holds
    subst two
    obtain ⟨actual, firstKnown⟩ := known first rfl cleanFirst
    rw [firstKnown, fits_known] at fitsFirst
    subst fitsFirst
    constructor
    · simp [Judgement.allErrors, cleanFirst, cleanSecond]
    · simp [operandErrors, operatorRule, Arity.accepts, agree, firstKnown,
        Judgement.require_eq_nil_iff, fitsSecond]

/-! ## Calls -/

theorem callErrors_eq_nil_iff (callee : Except (Located Error) Callee) (args : List Judgement)
    (span : Span) :
    callErrors callee args span = [] ↔
      ∃ f, callee = .ok f ∧ List.Forall₂ Judgement.Has args f.takes := by
  cases callee with
  | error e => simp [callErrors]
  | ok f =>
    by_cases count : f.takes.length = args.length
    · simp [callErrors, Callee.argumentErrors, count, forall₂_has_iff]
    · simp [callErrors, Callee.argumentErrors, count, forall₂_has_iff]

theorem judgeCall_has_iff (callee : Except (Located Error) Callee) (args : List Judgement)
    (span : Span) (type : TypeTag) :
    (judgeCall callee args span).Has type ↔
      ∃ f, callee = .ok f ∧ List.Forall₂ Judgement.Has args f.takes ∧ f.returns = [type] := by
  have called := callErrors_eq_nil_iff callee args span
  cases callee with
  | error e => simp [judgeCall, callErrors, Judgement.Has]
  | ok f =>
    simp only [Except.ok.injEq, exists_eq_left'] at called ⊢
    simp only [judgeCall, ← called]
    split
    · next single => simp [Judgement.Has, fits_known, single]
    · next notSingle =>
      have other : f.returns ≠ [type] := notSingle type
      simp [Judgement.Has, other]

/-! ## Lists -/

theorem has_ofScalar_iff {j : Judgement} (determined : j.errors = [] → j.type ≠ .unknown)
    (scalar : String) :
    j.Has (.ofScalar scalar) ↔ j.errors = [] ∧ j.type = .known (.ofScalar scalar) := by
  simp only [Judgement.Has]
  apply and_congr_right
  intro clean
  cases found : j.type with
  | known type => simp [fits_known]
  | emptyList => simp [Inferred.fits, TypeTag.ofScalar]
  | unknown => exact absurd found (determined clean)

/-- The type of an item that is no list, and so can be that of all items. -/
theorem Judgement.element?_eq_some_iff (j : Judgement) (type : TypeTag) :
    j.element? = some type ↔ j.type = .known type ∧ type.isList = false := by
  cases found : j.type with
  | known other => cases isList : other.isList <;> grind [Judgement.element?]
  | emptyList | unknown => simp [Judgement.element?, found]

/-- An item that is right on its own has a scalar type. -/
theorem scalar_of_clean {j : Judgement} (determined : j.errors = [] → j.type ≠ .unknown)
    {element : Option TypeTag} (clean : j.errors ++ j.itemErrors element = []) :
    ∃ scalar, j.type = .known (.ofScalar scalar) := by
  obtain ⟨noErrors, noItemErrors⟩ := List.append_eq_nil_iff.mp clean
  simp only [Judgement.itemErrors] at noItemErrors
  cases found : j.type with
  | unknown => exact absurd found (determined noErrors)
  | emptyList => simp [found] at noItemErrors
  | known type =>
    obtain ⟨isList, scalar⟩ := type
    cases isList with
    | true => simp [found] at noItemErrors
    | false => exact ⟨scalar, rfl⟩

theorem item_clean_iff {j : Judgement} (determined : j.errors = [] → j.type ≠ .unknown)
    (scalar : String) :
    j.errors ++ j.itemErrors (some (.ofScalar scalar)) = [] ↔ j.Has (.ofScalar scalar) := by
  constructor
  · intro clean
    obtain ⟨found, known⟩ := scalar_of_clean determined clean
    obtain ⟨noErrors, noItemErrors⟩ := List.append_eq_nil_iff.mp clean
    simp only [Judgement.itemErrors, known, TypeTag.ofScalar] at noItemErrors
    exact ⟨noErrors, (j.require_eq_nil_iff _).mp (by simpa [TypeTag.ofScalar] using noItemErrors)⟩
  · intro has
    obtain ⟨noErrors, known⟩ := (has_ofScalar_iff determined scalar).mp has
    have noMismatch := (j.require_eq_nil_iff _).mpr has.2
    rw [TypeTag.ofScalar] at known noMismatch
    simp [noErrors, Judgement.itemErrors, known, TypeTag.ofScalar, noMismatch]

section

variable {first : Judgement} {rest : List Judgement} {span : Span} {scalar : String}

theorem judgeList_type (known : first.type = .known (.ofScalar scalar)) :
    (judgeList (first :: rest) span).type = .known (.listOf scalar) := by
  simp [judgeList, Judgement.element?, known, TypeTag.ofScalar]

theorem judgeList_errors (known : first.type = .known (.ofScalar scalar)) :
    (judgeList (first :: rest) span).errors =
      (first :: rest).flatMap fun j => j.errors ++ j.itemErrors (some (.ofScalar scalar)) := by
  simp [judgeList, Judgement.element?, known, TypeTag.ofScalar]

end

theorem judgeList_has_iff {items : List Judgement}
    (determined : ∀ j ∈ items, j.errors = [] → j.type ≠ .unknown) (span : Span) (type : TypeTag) :
    (judgeList items span).Has type ↔
      ∃ element, type = .listOf element ∧ ∀ j ∈ items, j.Has (.ofScalar element) := by
  cases items with
  | nil =>
    constructor
    · intro has
      have isList : type.isList = true := has.2
      exact ⟨type.scalar, by rw [TypeTag.listOf, ← isList], by simp⟩
    · intro holds
      obtain ⟨element, same, _⟩ := holds
      subst same
      exact ⟨rfl, rfl⟩
  | cons first rest =>
    constructor
    · intro has
      obtain ⟨clean, fits⟩ := has
      have cleanFirst := List.flatMap_eq_nil_iff.mp clean first (by simp)
      obtain ⟨scalar, known⟩ := scalar_of_clean (determined first (by simp)) cleanFirst
      rw [judgeList_type known, fits_known] at fits
      rw [judgeList_errors known, List.flatMap_eq_nil_iff] at clean
      refine ⟨scalar, fits.symm, ?_⟩
      intro j member
      exact (item_clean_iff (determined j member) scalar).mp (clean j member)
    · intro holds
      obtain ⟨scalar, same, each⟩ := holds
      subst same
      -- the first item fixes the type of all, so it has that type itself
      have hasFirst := each first (by simp)
      have known := ((has_ofScalar_iff (determined first (by simp)) scalar).mp hasFirst).2
      constructor
      · rw [judgeList_errors known, List.flatMap_eq_nil_iff]
        intro j member
        exact (item_clean_iff (determined j member) scalar).mpr (each j member)
      · rw [judgeList_type known, fits_known]

/-! ## Records -/

theorem fieldsErrors_eq_nil_iff (d : DatatypeSymbol) (before : List String)
    (fields : List (Ident × Judgement)) :
    fieldsErrors d before fields = [] ↔
      (∀ f ∈ fields, ∃ type, d.field? f.1.name = some type ∧ f.2.Has type) ∧
        AllFree (· ∉ before) (fields.map fun f => f.1.name) := by
  induction fields generalizing before with
  | nil => simp [fieldsErrors, allFree_nil]
  | cons field fields inductionHypothesis =>
    obtain ⟨name, value⟩ := field
    have first : value.errors ++ fieldErrors d before name value = [] ↔
        (∃ type, d.field? name.name = some type ∧ value.Has type) ∧ name.name ∉ before := by
      simp only [fieldErrors, Judgement.Has]
      cases found : d.field? name.name with
      | none => simp
      | some type =>
        by_cases given : name.name ∈ before
        · simp [given]
        · simp [given, Judgement.require_eq_nil_iff]
    have taken : ∀ other, other ∉ before ++ [name.name] ↔ other ∉ before ∧ other ≠ name.name := by
      simp
    rw [fieldsErrors, List.append_eq_nil_iff, first, inductionHypothesis, List.forall_mem_cons,
      List.map_cons, allFree_cons_iff taken]
    tauto

theorem judgeRecord_has_iff (datatype : Option DatatypeSymbol) (name : Ident)
    (fields : List (Ident × Judgement)) (span : Span) (type : TypeTag) :
    (judgeRecord datatype name fields span).Has type ↔
      ∃ d, datatype = some d ∧ type = .ofScalar d.name ∧
        (∀ f ∈ fields, ∃ type, d.field? f.1.name = some type ∧ f.2.Has type) ∧
        (fields.map fun f => f.1.name).Nodup ∧
        ∀ field ∈ d.fields, ∃ f ∈ fields, f.1.name = field.2 := by
  cases datatype with
  | none => simp [judgeRecord, Judgement.Has]
  | some d =>
    simp only [judgeRecord, Judgement.Has, List.append_eq_nil_iff, fieldsErrors_eq_nil_iff,
      fits_known, missingErrors, List.map_eq_nil_iff, List.filter_eq_nil_iff]
    simp only [AllFree, List.not_mem_nil, not_false_eq_true, implies_true, true_and,
      Option.some.injEq, exists_eq_left', decide_not, Bool.not_eq_true', decide_eq_false_iff_not, not_not,
      List.mem_map]
    rw [eq_comm (a := type)]
    tauto

/-! ## Errors inside of a part are errors of the whole -/

theorem allErrors_subset_callErrors (callee : Except (Located Error) Callee) (args : List Judgement)
    (span : Span) : Judgement.allErrors args ⊆ callErrors callee args span := by
  cases callee with
  | error e => exact List.subset_cons_self ..
  | ok f => exact List.subset_append_left ..

theorem callErrors_subset_judgeCall (callee : Except (Located Error) Callee) (args : List Judgement)
    (span : Span) : callErrors callee args span ⊆ (judgeCall callee args span).errors := by
  cases callee with
  | error e => exact List.Subset.refl _
  | ok f =>
    rw [judgeCall]
    split
    · exact List.Subset.refl _
    · exact List.subset_append_left ..

theorem allErrors_subset_judgeList (items : List Judgement) (span : Span) :
    Judgement.allErrors items ⊆ (judgeList items span).errors := by
  intro e member
  obtain ⟨j, item, inside⟩ := List.mem_flatMap.mp member
  exact List.mem_flatMap.mpr ⟨j, item, List.mem_append_left _ inside⟩

theorem allErrors_subset_fieldsErrors (d : DatatypeSymbol) (before : List String)
    (fields : List (Ident × Judgement)) :
    Judgement.allErrors (fields.map Prod.snd) ⊆ fieldsErrors d before fields := by
  induction fields generalizing before with
  | nil => exact List.Subset.refl _
  | cons field fields inductionHypothesis =>
    intro e member
    rcases List.mem_append.mp member with first | others
    · exact List.mem_append_left _ (List.mem_append_left _ first)
    · exact List.mem_append_right _ (inductionHypothesis _ others)

theorem allErrors_subset_judgeRecord (datatype : Option DatatypeSymbol) (name : Ident)
    (fields : List (Ident × Judgement)) (span : Span) :
    Judgement.allErrors (fields.map Prod.snd) ⊆ (judgeRecord datatype name fields span).errors := by
  cases datatype with
  | none => exact List.subset_cons_self ..
  | some d =>
    exact List.subset_append_of_subset_left _ (allErrors_subset_fieldsErrors d [] fields)

end FrontEnd.Typing
