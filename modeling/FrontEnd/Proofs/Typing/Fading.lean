import FrontEnd.Proofs.Typing.Judgements

/-!
# Types that are no longer known

A type that is not known fits anything. So where nothing is wrong, some parts of an expression may be exchanged
for ones of unknown type: each rule finds no more than what is wrong inside of the parts, and gives the type
that it gave before, or none either. This is said here of the rules, of the judgements of parts alone.
-/

namespace FrontEnd.Typing

/-- The second judgement is of the same type as the first, or of an unknown one. -/
def Judgement.Fades (j k : Judgement) : Prop :=
  k.type = j.type ∨ k.type = .unknown

namespace Judgement.Fades

variable {j k first second firstFaded secondFaded : Judgement} {type : TypeTag}

theorem of_same (same : k.type = j.type) : j.Fades k := .inl same

theorem of_unknown (unknown : k.type = .unknown) : j.Fades k := .inr unknown

theorem fits (fades : j.Fades k) (fits : j.type.fits type = true) : k.type.fits type = true := by
  rcases fades with same | unknown
  · rwa [same]
  · rw [unknown]
    rfl

theorem require (fades : j.Fades k) (clean : j.require type = []) : k.require type = [] :=
  (k.require_eq_nil_iff type).mpr (fades.fits ((j.require_eq_nil_iff type).mp clean))

theorem agree (left : first.Fades firstFaded) (right : second.Fades secondFaded)
    (clean : Typing.agree first second = []) : Typing.agree firstFaded secondFaded = [] := by
  rcases left with same | unknown
  · -- the second expression is still required to be of the type of the first
    rw [Typing.agree] at clean ⊢
    rw [same]
    cases known : first.type with
    | known type =>
      rw [known] at clean
      exact right.require clean
    | emptyList | unknown => rfl
  · rw [Typing.agree, unknown]

end Judgement.Fades

section

variable {js ks : List Judgement} {span : Span}

theorem requireEach_of_fades {types : List TypeTag} (fade : List.Forall₂ Judgement.Fades js ks)
    (clean : requireEach types js = []) : requireEach types ks = [] := by
  induction fade generalizing types with
  | nil => exact clean
  | cons first _ inductionHypothesis =>
    cases types with
    | nil => rfl
    | cons type types =>
      rw [requireEach_cons, List.append_eq_nil_iff] at clean ⊢
      exact ⟨first.require clean.1, inductionHypothesis clean.2⟩

theorem requireSame_of_fades {type : TypeTag} (fade : List.Forall₂ Judgement.Fades js ks)
    (clean : (js.flatMap fun j => j.require type) = []) : (ks.flatMap fun k => k.require type) = [] := by
  induction fade with
  | nil => rfl
  | cons first _ inductionHypothesis =>
    rw [List.flatMap_cons, List.append_eq_nil_iff] at clean ⊢
    exact ⟨first.require clean.1, inductionHypothesis clean.2⟩

theorem operandErrors_of_fades {op : Operator} (fade : List.Forall₂ Judgement.Fades js ks)
    (clean : operandErrors op js span = []) : operandErrors op ks span = [] := by
  have count := accepts_of_operandErrors clean
  have stillCount : (operatorRule op).arity.accepts ks.length = true := by rwa [← fade.length_eq]
  simp only [operandErrors, count, stillCount, if_true] at clean ⊢
  cases required : (operatorRule op).operand with
  | some type =>
    simp only [required] at clean ⊢
    exact requireSame_of_fades fade clean
  | none =>
    -- only two operands are ever compared with each other
    simp only [required] at clean ⊢
    cases fade with
    | nil => rfl
    | cons left others =>
      cases others with
      | nil => rfl
      | cons right others =>
        cases others with
        | nil => exact left.agree right clean
        | cons => rfl

/-- What may be unknown stays allowed. -/
theorem allowed_of_fades (allowed : Inferred → Prop) (fade : List.Forall₂ Judgement.Fades js ks)
    (unknown : allowed .unknown) (each : ∀ j ∈ js, allowed j.type) : ∀ k ∈ ks, allowed k.type := by
  induction fade with
  | nil => exact each
  | cons first _ inductionHypothesis =>
    rw [List.forall_mem_cons] at each ⊢
    refine ⟨?_, inductionHypothesis each.2⟩
    rcases first with same | none
    · exact same ▸ each.1
    · exact none ▸ unknown

/-! ## Operations -/

/-- An operation has the type of its operator, whatever its operands are. -/
theorem judgeOperation_of_fades {op : Operator} (fade : List.Forall₂ Judgement.Fades js ks)
    (clean : (judgeOperation op js span).errors = []) :
    (judgeOperation op js span).Fades (judgeOperation op ks span) ∧
      (judgeOperation op ks span).errors = Judgement.allErrors ks := by
  have stillClean := operandErrors_of_fades fade (List.append_eq_nil_iff.mp clean).2
  refine ⟨.of_same rfl, ?_⟩
  rw [judgeOperation, stillClean, List.append_nil]

/-! ## Lists -/

/-- Whether all items are of one scalar type, as far as their types are known. -/
structure Uniform (type : TypeTag) (items : List Judgement) : Prop where
  scalar : type.isList = false
  each : ∀ j ∈ items, j.type = .unknown ∨ j.type = .known type

/-- An item that is right has a scalar type, unless its type is not known. -/
theorem Judgement.item_of_clean {j : Judgement} {element : Option TypeTag}
    (clean : j.itemErrors element = []) :
    j.type = .unknown ∨ ∃ type, j.element? = some type ∧ ∀ expected ∈ element, type = expected := by
  obtain ⟨_, found, _⟩ := j
  cases found with
  | unknown => exact .inl rfl
  | emptyList => simp [Judgement.itemErrors] at clean
  | known type =>
    cases isList : type.isList with
    | true => simp [Judgement.itemErrors, isList] at clean
    | false =>
      refine .inr ⟨type, by simp [Judgement.element?, isList], ?_⟩
      rintro expected ⟨⟩
      simpa [Judgement.itemErrors, isList, Judgement.require_eq_nil_iff, fits_known] using clean

theorem uniform_of_clean (clean : (judgeList js span).errors = []) : ∃ type, Uniform type js := by
  have item : ∀ j ∈ js, j.type = .unknown ∨ ∃ type, j.element? = some type ∧
      ∀ expected ∈ js.findSome? Judgement.element?, type = expected := fun j member =>
    Judgement.item_of_clean (List.append_eq_nil_iff.mp (List.flatMap_eq_nil_iff.mp clean j member)).2
  cases first : js.findSome? Judgement.element? with
  | none =>
    -- no item has a type that is known, so one scalar type is as good as another
    refine ⟨.int, rfl, fun j member => .inl ?_⟩
    rcases item j member with unknown | ⟨type, own, _⟩
    · exact unknown
    · rw [List.findSome?_eq_none_iff.mp first j member] at own
      cases own
  | some type =>
    obtain ⟨j, _, own⟩ := List.exists_of_findSome?_eq_some first
    refine ⟨type, ((j.element?_eq_some_iff type).mp own).2, fun j member => ?_⟩
    rcases item j member with unknown | ⟨other, own, same⟩
    · exact .inl unknown
    · rw [same type (by rw [first]; rfl)] at own
      exact .inr ((j.element?_eq_some_iff type).mp own).1

namespace Uniform

variable {type : TypeTag}

theorem fades (uniform : Uniform type js) (fade : List.Forall₂ Judgement.Fades js ks) :
    Uniform type ks :=
  ⟨uniform.scalar,
    allowed_of_fades (fun t => t = .unknown ∨ t = .known type) fade (.inl rfl) uniform.each⟩

/-- The first item with a type gives it, if there is one. -/
theorem element (uniform : Uniform type js) :
    js.findSome? Judgement.element? = some type ∨
      js.findSome? Judgement.element? = none ∧ ∀ j ∈ js, j.type = .unknown := by
  cases first : js.findSome? Judgement.element? with
  | none =>
    refine .inr ⟨rfl, fun j member => (uniform.each j member).resolve_right fun known => ?_⟩
    have own := (j.element?_eq_some_iff type).mpr ⟨known, uniform.scalar⟩
    rw [List.findSome?_eq_none_iff.mp first j member] at own
    cases own
  | some other =>
    obtain ⟨j, member, own⟩ := List.exists_of_findSome?_eq_some first
    have known := ((j.element?_eq_some_iff other).mp own).1
    rcases uniform.each j member with unknown | same
    · rw [known] at unknown
      cases unknown
    · rw [known] at same
      exact .inl (congrArg some (Inferred.known.inj same))

theorem errors_judgeList (uniform : Uniform type js) :
    (judgeList js span).errors = Judgement.allErrors js := by
  have itemsClean : ∀ j ∈ js, j.itemErrors (js.findSome? Judgement.element?) = [] := by
    intro j member
    rcases uniform.each j member with unknown | known
    · simp [Judgement.itemErrors, unknown]
    · rcases uniform.element with first | ⟨_, unknown⟩
      · have fits : j.require type = [] := by rw [j.require_eq_nil_iff, known, fits_known]
        simp [Judgement.itemErrors, known, uniform.scalar, first, fits]
      · rw [unknown j member] at known
        cases known
  exact List.flatMap_congr fun j member => by rw [itemsClean j member, List.append_nil]

end Uniform

/-- Without an item of a known type, a list with items is not of a known type. -/
theorem judgeList_of_unknown (span : Span) (unknown : ∀ j ∈ js, j.type = .unknown) :
    js.findSome? Judgement.element? = none ∧ (js ≠ [] → (judgeList js span).type = .unknown) := by
  have none : js.findSome? Judgement.element? = none := by
    rw [List.findSome?_eq_none_iff]
    intro j member
    rw [Judgement.element?, unknown j member]
  refine ⟨none, fun nonempty => ?_⟩
  obtain ⟨j, rest, rfl⟩ := List.exists_cons_of_ne_nil nonempty
  rw [judgeList, none]
  simp [unknown j (by simp)]

/-- A list is of the type of those items that are still known, and of an unknown one if none is. -/
theorem judgeList_of_fades (fade : List.Forall₂ Judgement.Fades js ks)
    (clean : (judgeList js span).errors = []) :
    (judgeList js span).Fades (judgeList ks span) ∧
      (judgeList ks span).errors = Judgement.allErrors ks := by
  obtain ⟨type, uniform⟩ := uniform_of_clean clean
  have still := uniform.fades fade
  refine ⟨?_, still.errors_judgeList⟩
  rcases still.element with first | ⟨_, unknown⟩
  · -- what is known now was known before
    have before : js.findSome? Judgement.element? = some type := by
      rcases uniform.element with before | ⟨_, unknown⟩
      · exact before
      · have still := allowed_of_fades (· = .unknown) fade rfl unknown
        have none := (judgeList_of_unknown span still).1
        rw [first] at none
        cases none
    exact .of_same (by rw [judgeList, judgeList, before, first])
  · cases fade with
    | nil => exact .of_same rfl
    | cons => exact .of_unknown ((judgeList_of_unknown span unknown).2 (List.cons_ne_nil _ _))

/-! ## Calls -/

theorem callErrors_of_fades {callee : Except (Located Error) Callee}
    (fade : List.Forall₂ Judgement.Fades js ks) (clean : callErrors callee js span = []) :
    callErrors callee ks span = Judgement.allErrors ks := by
  cases callee with
  | error e => cases clean
  | ok f =>
    have given := (List.append_eq_nil_iff.mp clean).2
    have stillGiven : f.argumentErrors ks span = [] := by
      rw [Callee.argumentErrors, ← fade.length_eq]
      rw [Callee.argumentErrors] at given
      split at given
      next count => rw [if_pos count, requireEach_of_fades fade given]
      next => cases given
    rw [callErrors, stillGiven, List.append_nil]

/-- A call has the type that its function returns, whatever its arguments are. -/
theorem judgeCall_of_fades {callee : Except (Located Error) Callee}
    (fade : List.Forall₂ Judgement.Fades js ks) (clean : (judgeCall callee js span).errors = []) :
    (judgeCall callee js span).Fades (judgeCall callee ks span) ∧
      (judgeCall callee ks span).errors = Judgement.allErrors ks := by
  cases callee with
  | error e => cases clean
  | ok f =>
    rw [judgeCall] at clean ⊢
    rw [judgeCall]
    split at clean
    next =>
      have given : callErrors (.ok f) js span = [] := clean
      exact ⟨.of_same rfl, callErrors_of_fades fade given⟩
    next => simp at clean

/-! ## Records -/

section

variable {fields others : List (Ident × Judgement)}

/-- The same fields, with values of the same types or of unknown ones. -/
def FieldsFade (fields others : List (Ident × Judgement)) : Prop :=
  List.Forall₂ (fun field other => other.1 = field.1 ∧ field.2.Fades other.2) fields others

theorem FieldsFade.names (fade : FieldsFade fields others) :
    (others.map fun field => field.1.name) = fields.map fun field => field.1.name := by
  induction fade with
  | nil => rfl
  | cons first _ inductionHypothesis => rw [List.map_cons, List.map_cons, first.1, inductionHypothesis]

theorem fieldErrors_of_fades {d : DatatypeSymbol} {before : List String} {name : Ident} {j k : Judgement}
    (fades : j.Fades k) (clean : fieldErrors d before name j = []) : fieldErrors d before name k = [] := by
  rw [fieldErrors] at clean ⊢
  split at clean
  next => cases clean
  next type declared =>
    split at clean
    next => cases clean
    next free =>
      simp only [if_neg free]
      exact fades.require clean

theorem fieldsErrors_of_fades {d : DatatypeSymbol} {before : List String} (fade : FieldsFade fields others)
    (clean : fieldsErrors d before fields = []) :
    fieldsErrors d before others = Judgement.allErrors (others.map Prod.snd) := by
  induction fade generalizing before with
  | nil => rfl
  | @cons field other _ _ first _ inductionHypothesis =>
    obtain ⟨name, j⟩ := field
    obtain ⟨otherName, k⟩ := other
    obtain ⟨rfl, fades⟩ := first
    rw [fieldsErrors, List.append_eq_nil_iff, List.append_eq_nil_iff] at clean
    obtain ⟨⟨_, cleanField⟩, cleanRest⟩ := clean
    rw [fieldsErrors, fieldErrors_of_fades fades cleanField, List.append_nil, inductionHypothesis cleanRest]
    rfl

/-- A record is of its datatype, whatever the values of its fields are. -/
theorem judgeRecord_of_fades {datatype : Option DatatypeSymbol} {name : Ident}
    (fade : FieldsFade fields others) (clean : (judgeRecord datatype name fields span).errors = []) :
    (judgeRecord datatype name fields span).Fades (judgeRecord datatype name others span) ∧
      (judgeRecord datatype name others span).errors = Judgement.allErrors (others.map Prod.snd) := by
  cases datatype with
  | none => cases clean
  | some d =>
    obtain ⟨cleanFields, complete⟩ := List.append_eq_nil_iff.mp clean
    refine ⟨.of_same rfl, ?_⟩
    rw [judgeRecord, fieldsErrors_of_fades fade cleanFields, fade.names, complete, List.append_nil]

end

end

end FrontEnd.Typing
