import FrontEnd.Proofs.Typing.Judgements

/-!
# The operands of an equality

Two expressions may be compared if there is a type that both can have. The check requires of the second what
it knows of the first, and so it makes no difference which of the two comes first (`equality_symmetric`). There
is one exception: of what stands behind a list without items nothing is required, although a single value does
not fit where a list is required (`equality_emptyList`).
-/

namespace FrontEnd.Typing

namespace Inferred

/-- Whether there is a type that both can have. -/
def Meets (a b : Inferred) : Prop :=
  ∃ type, a.fits type = true ∧ b.fits type = true

/-- Whether the first is the list without items, and the second a single value. -/
def Overlooks (a b : Inferred) : Prop :=
  a = .emptyList ∧ ∃ type, b = .known type ∧ type.isList = false

/-- Whether one is the list without items and the other a single value. -/
def Lopsided (a b : Inferred) : Prop :=
  a.Overlooks b ∨ b.Overlooks a

theorem meets_comm {a b : Inferred} : a.Meets b ↔ b.Meets a :=
  exists_congr fun _ => and_comm

theorem meets_known_iff {type : TypeTag} {b : Inferred} : (known type).Meets b ↔ b.fits type = true := by
  constructor
  · rintro ⟨shared, fitsFirst, fitsSecond⟩
    rwa [(fits_known type shared).mp fitsFirst]
  · exact fun fits => ⟨type, (fits_known type type).mpr rfl, fits⟩

/-- What is not known can have any type. -/
theorem meets_unknown (b : Inferred) : unknown.Meets b := by
  cases b with
  | known type => exact ⟨type, rfl, (fits_known type type).mpr rfl⟩
  | emptyList => exact ⟨.listOf "int", rfl, rfl⟩
  | unknown => exact ⟨.int, rfl, rfl⟩

/-- A list without items meets all but the single values. -/
theorem meets_emptyList_iff {b : Inferred} : emptyList.Meets b ↔ ¬ emptyList.Overlooks b := by
  cases b with
  | known type =>
    have overlooks : emptyList.Overlooks (.known type) ↔ type.isList = false := by simp [Overlooks]
    rw [meets_comm, meets_known_iff, overlooks, Bool.not_eq_false, fits]
  | emptyList =>
    have meets : emptyList.Meets .emptyList := ⟨.listOf "int", rfl, rfl⟩
    simpa [Overlooks] using meets
  | unknown => simpa [Overlooks] using meets_comm.mp (meets_unknown .emptyList)

end Inferred

/-- A second expression is not reported if it can have a type of the first, or stands behind a list without
items. -/
theorem agree_eq_nil_iff (first second : Judgement) :
    agree first second = [] ↔ first.type.Meets second.type ∨ first.type.Overlooks second.type := by
  unfold agree
  split
  next type known =>
    have notEmpty : ¬ (Inferred.known type).Overlooks second.type := fun overlooks => by cases overlooks.1
    rw [known, Judgement.require_eq_nil_iff, Inferred.meets_known_iff, or_iff_left notEmpty]
  next notKnown =>
    cases inferred : first.type with
    | known type => exact absurd inferred (notKnown type)
    | emptyList =>
      rw [Inferred.meets_emptyList_iff]
      exact iff_of_true rfl (Classical.em _).symm
    | unknown => exact iff_of_true rfl (.inl (Inferred.meets_unknown _))

/-- If it is reported, it is so once, as one of another type. -/
theorem agree_of_ne_nil {first second : Judgement} (reported : agree first second ≠ []) :
    ∃ expected actual region, agree first second = [⟨.typeMismatch expected actual, region⟩] := by
  unfold agree at reported ⊢
  split at reported
  next type _ =>
    simp only [Judgement.require, require] at reported ⊢
    split at reported
    · exact absurd rfl reported
    · exact ⟨type, second.type, second.span, by simp_all⟩
  next => exact absurd rfl reported

namespace Env

variable (env : Env) (a b : Expr)

theorem errors_equality (span : Span) :
    (env.infer (.operation .eq [a, b] span)).errors =
      (env.infer a).errors ++ (env.infer b).errors ++ agree (env.infer a) (env.infer b) := by
  simp [infer, inferEach, judgeOperation, Judgement.allErrors, operandErrors, operatorRule, Arity.accepts]

/-- Whether an equality gets a mismatch of its operands, beyond the errors inside of them. -/
def Mismatches (span : Span) : Prop :=
  ∃ expected actual region, (env.infer (.operation .eq [a, b] span)).errors =
    (env.infer a).errors ++ (env.infer b).errors ++ [⟨.typeMismatch expected actual, region⟩]

/-- Whether nothing is wrong with an equality, beyond the errors inside of its operands. -/
def Compares (span : Span) : Prop :=
  (env.infer (.operation .eq [a, b] span)).errors = (env.infer a).errors ++ (env.infer b).errors

variable {env a b} {span : Span}

theorem compares_iff :
    env.Compares a b span ↔
      (env.infer a).type.Meets (env.infer b).type ∨ (env.infer a).type.Overlooks (env.infer b).type := by
  rw [Compares, errors_equality, List.append_right_eq_self, agree_eq_nil_iff]

theorem mismatches_iff : env.Mismatches a b span ↔ ¬ env.Compares a b span := by
  have errors := env.errors_equality a b span
  rw [Compares, errors, List.append_right_eq_self]
  constructor
  · rintro ⟨expected, actual, region, reported⟩ none
    rw [errors, none, List.append_nil] at reported
    simp at reported
  · intro reported
    obtain ⟨expected, actual, region, same⟩ := agree_of_ne_nil reported
    exact ⟨expected, actual, region, by rw [errors, same]⟩

end Env

/-- Which operand of an equality comes first makes no difference: there is a mismatch unless they can have the
same type, except where a list without items and a single value are compared. -/
theorem equality_symmetric (env : Env) (a b : Expr) (span other : Span)
    (even : ¬ (env.infer a).type.Lopsided (env.infer b).type) :
    (env.Mismatches a b span ↔ env.Mismatches b a other) ∧
      (env.Compares a b span ↔ (env.infer a).type.Meets (env.infer b).type) ∧
        (env.Mismatches a b span ↔ ¬ env.Compares a b span) := by
  obtain ⟨notFirst, notSecond⟩ := not_or.mp even
  have compares : env.Compares a b span ↔ (env.infer a).type.Meets (env.infer b).type :=
    Env.compares_iff.trans (or_iff_left notFirst)
  have comparesOther : env.Compares b a other ↔ (env.infer b).type.Meets (env.infer a).type :=
    Env.compares_iff.trans (or_iff_left notSecond)
  refine ⟨?_, compares, Env.mismatches_iff⟩
  rw [Env.mismatches_iff, Env.mismatches_iff, compares, comparesOther, Inferred.meets_comm]

/-- A list of integers is not compared with a text, in either order. -/
theorem equality_symmetric_lists :
    let env : Env := ⟨.empty, Scopes.start.adding ⟨"xs", .listOf "int", none, default⟩⟩
    let a : Expr := .name ⟨"xs", default⟩ default
    let b : Expr := .operation .eq [.list [] default, .string "text" default] default
    ¬ (env.infer a).type.Lopsided (env.infer b).type ∧
      (env.Mismatches a b default ↔ env.Mismatches b a default) ∧
        (env.Compares a b default ↔ (env.infer a).type.Meets (env.infer b).type) ∧
          (env.Mismatches a b default ↔ ¬ env.Compares a b default) := by
  intro env a b
  have even : ¬ (env.infer a).type.Lopsided (env.infer b).type := by
    rintro (⟨known, -⟩ | ⟨known, -⟩) <;> cases known
  exact ⟨even, equality_symmetric env a b default default even⟩

/-- An integer behind a list without items is not reported, but the list is behind the integer. -/
theorem equality_emptyList :
    let env : Env := ⟨.empty, .start⟩
    let a : Expr := .list [] default
    let b : Expr := .int 1 default
    ¬ env.Mismatches a b default ∧ env.Mismatches b a default ∧
      ¬ (env.infer a).type.Meets (env.infer b).type := by
  intro env a b
  have overlooks : (env.infer a).type.Overlooks (env.infer b).type := ⟨rfl, .int, rfl, rfl⟩
  have apart : ¬ (env.infer a).type.Meets (env.infer b).type := by
    rw [show (env.infer a).type = .emptyList from rfl, Inferred.meets_emptyList_iff, not_not]
    exact overlooks
  refine ⟨?_, ?_, apart⟩
  · rw [Env.mismatches_iff, Env.compares_iff, not_not]
    exact .inr overlooks
  · rw [Env.mismatches_iff, Env.compares_iff, Inferred.meets_comm]
    exact not_or.mpr ⟨apart, fun known => by cases known.1⟩

end FrontEnd.Typing
