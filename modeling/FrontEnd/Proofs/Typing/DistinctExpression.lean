import FrontEnd.Proofs.Typing.Distinct
import FrontEnd.Proofs.Typing.Values
import Mathlib.Data.List.Perm.Basic

/-!
# What is found in an expression differs

No two errors inside of an expression are shown alike if its regions nest and are solid, but for fields that a
record lacks: each of those is reported as often as the datatype declares it.
-/

namespace FrontEnd

/-- The names of the fields that a record lacks, as often as the datatype declares them. -/
def DatatypeSymbol.missing (d : DatatypeSymbol) (given : List String) : List String :=
  (d.fields.filter fun field => field.2 ∉ given).map Prod.snd

/-- The names of the fields that are given. -/
def FieldValue.names (fields : List FieldValue) : List String :=
  fields.map fun field => field.name.name

mutual

/-- The records in an expression: the name of the datatype, and the names of the fields that are given. -/
def Expr.records : Expr → List (String × List String)
  | .int .. | .string .. | .bool .. | .name .. | .missing .. => []
  | .record name fields _ => (name.name, FieldValue.names fields) :: FieldValue.recordsEach fields
  | .operation _ operands _ => Expr.recordsEach operands
  | .call _ args _ | .libraryCall _ _ args _ => Expr.recordsEach args
  | .list items _ => Expr.recordsEach items

def Expr.recordsEach : List Expr → List (String × List String)
  | [] => []
  | e :: es => e.records ++ Expr.recordsEach es

def FieldValue.recordsEach : List FieldValue → List (String × List String)
  | [] => []
  | ⟨_, value⟩ :: fields => value.records ++ FieldValue.recordsEach fields

end

namespace Typing

/-- Whether a record lacks no field more than once, as far as its datatype is found. -/
def LacksOnce (find : String → Option DatatypeSymbol) (record : String × List String) : Prop :=
  ∀ d ∈ find record.1, (d.missing record.2).Nodup

variable {first last : Nat} {span : Span} {js : List Judgement}

/-! ## Names, operators and lists -/

theorem distinct_leaf {j : Judgement} (silent : j.errors = []) : j.Distinct where
  distinct := silent ▸ distinct_nil
  misfits := by simp [silent]

theorem distinct_judgeName (env : Env) {ident : Ident} (same : ident.span = span) (solid : span.Solid) :
    (env.judgeName ident span).Distinct := by
  subst same
  unfold Env.judgeName
  split
  · exact distinct_leaf rfl
  · exact Judgement.distinct_of (.refl _) (distinct_at solid) distinct_nil solid (Nat.le_refl _)
      (by simp [Error.isMisfit])

/-- A rule that only refuses parts has no errors of its own. -/
theorem distinct_of_parts {j : Judgement} (solid : j.span.Solid)
    (distinct : Distinct (j.span.lo + 1) j.span.hi j.errors) : j.Distinct :=
  Judgement.distinct_of (.refl _) distinct_nil distinct (Nat.lt_succ_self _) solid (List.forall_mem_nil _)

theorem distinct_judgeOperation (op : Operator) (solid : span.Solid)
    (row : Span.Row (span.lo + 1) span.hi (js.map Judgement.span)) (each : ∀ j ∈ js, j.Distinct) :
    (judgeOperation op js span).Distinct := by
  -- either the number of operands is wrong and no more is said, or some of them are refused
  have inside : operandErrors op js span = [⟨.operatorArity op (operatorRule op).arity js.length, span⟩] ∨
      Distinct (span.lo + 1) span.hi (Judgement.allErrors js ++ operandErrors op js span) := by
    simp only [operandErrors]
    split
    · right
      split
      next type _ _ =>
        have refused := distinct_refused row each fun j _ => refuses_require j type
        exact refused.perm (List.flatMap_append_perm _ _ _).symm
      next first second _ _ =>
        rw [List.forall_mem_cons, List.forall_mem_singleton] at each
        obtain ⟨ofFirst, ofSecond⟩ := each
        have refused := ofSecond.append row.2.2.2.1 (refuses_agree first second)
        have both := ofFirst.distinct.append_row row (refused.append_row row.2.2 distinct_nil)
        simpa [Judgement.allErrors] using both
      next =>
        rw [List.append_nil]
        exact distinct_allErrors row each
    · exact .inl rfl
  obtain count | inside := inside
  · have own : Distinct span.lo (span.lo + 1) (operandErrors op js span) :=
      count ▸ distinct_singleton (Nat.le_refl _) (Nat.lt_succ_self _)
    exact Judgement.distinct_of List.perm_append_comm own (distinct_allErrors row each) (Nat.lt_succ_self _) solid
      (by simp [count, Error.isMisfit])
  · exact distinct_of_parts solid inside

theorem distinct_judgeList (solid : span.Solid)
    (row : Span.Row (span.lo + 1) span.hi (js.map Judgement.span)) (each : ∀ j ∈ js, j.Distinct) :
    (judgeList js span).Distinct :=
  distinct_of_parts solid (distinct_refused row each fun j _ => refuses_itemErrors j _)

/-! ## Calls -/

/-- Whether the error is that a function is not known, or takes another number of arguments. -/
def Error.isOfCall : Error → Bool
  | .undeclaredFunction .. | .unknownSpace .. | .argumentCount .. => true
  | _ => false

theorem Error.isMisfit_of_isOfCall {e : Error} (ofCall : e.isOfCall = true) : e.isMisfit = false := by
  cases e <;> simp_all [isOfCall, isMisfit]

/-- The errors of a call: those of its arguments, which are behind some byte, and its own before it. -/
structure CallErrors (first : Nat) (span : Span) (own inner errors : List (Located Error)) : Prop where
  starts : span.lo < first
  ends : first ≤ span.hi
  same : (own ++ inner).Perm errors
  ofCall : Distinct span.lo first own
  ofArgs : Distinct first span.hi inner
  only : Only Error.isOfCall own

/-- An error of the name of the function is before the arguments. -/
theorem exists_callErrors {callee : Except (Located Error) Callee} (starts : span.lo < first)
    (ofCallee : ∀ e, callee = .error e →
      (span.lo ≤ e.span.lo ∧ e.span.lo < first) ∧ e.value.isOfCall = true)
    (row : Span.Row first span.hi (js.map Judgement.span)) (each : ∀ j ∈ js, j.Distinct) :
    ∃ own inner, CallErrors first span own inner (callErrors callee js span) := by
  cases callee with
  | error e =>
    obtain ⟨inside, ofCall⟩ := ofCallee e rfl
    exact ⟨[e], Judgement.allErrors js, starts, row.le, .refl _, distinct_singleton inside.1 inside.2,
      distinct_allErrors row each, only_singleton.mpr ofCall⟩
  | ok f =>
    rw [callErrors, Callee.argumentErrors]
    split
    · exact ⟨[], _, starts, row.le, .refl _, distinct_nil, distinct_requireEach row each f.takes, only_nil⟩
    · exact ⟨_, Judgement.allErrors js, starts, row.le, List.perm_append_comm,
        distinct_singleton (Nat.le_refl _) starts, distinct_allErrors row each, only_singleton.mpr rfl⟩

section

variable {own inner errors : List (Located Error)} (split : CallErrors first span own inner errors)

include split

theorem CallErrors.distinct (type : Inferred) : (⟨span, type, errors⟩ : Judgement).Distinct :=
  Judgement.distinct_of split.same split.ofCall split.ofArgs split.starts split.ends
    fun e member => Error.isMisfit_of_isOfCall (split.only e member)

/-- A call as a value may return another number of values as well. -/
theorem CallErrors.concat (function : String) (count : Nat) (type : Inferred) :
    (⟨span, type, errors ++ [⟨.notSingleValue function count, span⟩]⟩ : Judgement).Distinct := by
  have last : Distinct span.lo first [(⟨.notSingleValue function count, span⟩ : Located Error)] :=
    distinct_singleton (Nat.le_refl _) split.starts
  refine Judgement.distinct_of ?same (split.ofCall.append last fun e member e' single => ?apart) split.ofArgs
    split.starts split.ends fun e member => ?plain
  case same =>
    refine List.Perm.trans ?_ (split.same.append_right _)
    rw [List.append_assoc, List.append_assoc]
    exact List.perm_append_comm.append_left own
  case apart =>
    rw [List.mem_singleton.mp single]
    refine diagnostic_ne_of_code fun code => ?_
    have ofCall := split.only e member
    cases value : e.value <;> simp_all [Error.isOfCall, Reportable.code]
  case plain =>
    obtain isOwn | single := List.mem_append.mp member
    · exact Error.isMisfit_of_isOfCall (split.only e isOwn)
    · rw [List.mem_singleton.mp single]
      rfl

end

theorem distinct_judgeCall {callee : Except (Located Error) Callee} {own inner : List (Located Error)}
    (split : CallErrors first span own inner (callErrors callee js span)) :
    (judgeCall callee js span).Distinct := by
  unfold judgeCall
  split
  · exact split.distinct _
  · split
    · exact split.distinct _
    · exact split.concat _ _ _

/-! ## Records -/

/-- The regions of the names and the values of some fields. -/
def fieldRegions (fields : List (Ident × Judgement)) : List Span :=
  fields.flatMap fun field => [field.1.span, field.2.span]

theorem row_values {fields : List (Ident × Judgement)} (row : Span.Row first last (fieldRegions fields)) :
    Span.Row first last ((fields.map Prod.snd).map Judgement.span) := by
  induction fields generalizing first with
  | nil => exact row
  | cons field fields inductionHypothesis =>
    obtain ⟨starts, solid, behind, solidValue, rest⟩ := row
    exact ⟨Nat.le_trans starts (Nat.le_trans (Nat.le_of_lt solid) behind), solidValue, inductionHypothesis rest⟩

theorem fieldErrors_cases (d : DatatypeSymbol) (before : List String) (name : Ident) (value : Judgement) :
    (∃ e : Error, fieldErrors d before name value = [⟨e, name.span⟩]) ∨
      value.Refuses (fieldErrors d before name value) := by
  unfold fieldErrors
  split
  · exact .inl ⟨_, rfl⟩
  · split
    · exact .inl ⟨_, rfl⟩
    · exact .inr (refuses_require value _)

theorem distinct_fieldsErrors (d : DatatypeSymbol) (before : List String) {fields : List (Ident × Judgement)}
    (row : Span.Row first last (fieldRegions fields)) (each : ∀ field ∈ fields, field.2.Distinct) :
    Distinct first last (fieldsErrors d before fields) := by
  induction fields generalizing first before with
  | nil => exact distinct_nil
  | cons field fields inductionHypothesis =>
    obtain ⟨name, value⟩ := field
    obtain ⟨ofValue, others⟩ := List.forall_mem_cons.mp each
    have rest := inductionHypothesis (before ++ [name.name]) row.2.2.2.2 others
    show Distinct first last (value.errors ++ fieldErrors d before name value ++ _)
    obtain ⟨e, own⟩ | refuses := fieldErrors_cases d before name value
    · have ofName : Distinct name.span.lo name.span.hi [(⟨e, name.span⟩ : Located Error)] := distinct_at row.2.1
      -- an error of the name is found behind those of the value, but stands before them
      rw [own]
      refine (ofName.append_row row (ofValue.distinct.append_row row.2.2 rest)).perm ?_
      rw [← List.append_assoc]
      exact List.perm_append_comm.append_right _
    · have refused := ofValue.append row.2.2.2.1 refuses
      exact distinct_nil.append_row row (refused.append_row row.2.2 rest)

theorem missingField_injective {datatype field other : String}
    (same : Reportable.message (Error.missingField datatype field) =
      Reportable.message (Error.missingField datatype other)) : field = other := by
  have texts := congrArg String.toList same
  simp only [Reportable.message, String.toList_append, List.append_assoc, List.append_cancel_left_eq,
    List.append_cancel_right_eq] at texts
  exact String.toList_injective texts

theorem distinct_missingErrors (d : DatatypeSymbol) {name : Ident} (solid : name.span.Solid) {given : List String}
    (once : (d.missing given).Nodup) :
    Distinct name.span.lo name.span.hi (missingErrors d name given) := by
  refine ⟨?_, List.forall_mem_map.mpr fun _ _ => ⟨Nat.le_refl _, solid⟩⟩
  rw [DatatypeSymbol.missing, List.Nodup, List.pairwise_map] at once
  rw [missingErrors, List.map_map, List.Nodup, List.pairwise_map]
  refine once.imp fun {field other} apart same => apart ?_
  exact missingField_injective (congrArg Diagnostic.message same)

theorem distinct_judgeRecord {datatype : Option DatatypeSymbol} {name : Ident} {fields : List (Ident × Judgement)}
    (starts : span.lo ≤ name.span.lo) (solid : name.span.Solid)
    (row : Span.Row name.span.hi span.hi (fieldRegions fields)) (each : ∀ field ∈ fields, field.2.Distinct)
    (once : ∀ d ∈ datatype, (d.missing (fields.map fun field => field.1.name)).Nodup) :
    (judgeRecord datatype name fields span).Distinct := by
  have begins : span.lo < name.span.hi := Nat.lt_of_le_of_lt starts solid
  cases datatype with
  | none =>
    have ofName : Distinct span.lo name.span.hi [(⟨.undeclaredDatatype name.name, name.span⟩ : Located Error)] :=
      distinct_singleton starts solid
    have ofValues := distinct_allErrors (row_values row) (by simpa using fun j ident member => each (ident, j) member)
    exact Judgement.distinct_of (.refl _) ofName ofValues begins row.le (by simp [Error.isMisfit])
  | some d =>
    have lacks := (distinct_missingErrors d solid (once d rfl)).mono starts (Nat.le_refl _)
    refine Judgement.distinct_of List.perm_append_comm lacks (distinct_fieldsErrors d [] row each) begins row.le ?_
    exact List.forall_mem_map.mpr fun _ _ => rfl

/-! ## Expressions -/

theorem span_infer (env : Env) (e : Expr) : (env.infer e).span = e.span := by
  cases e with
  | name =>
    rw [Env.infer, Env.judgeName]
    split <;> rfl
  | record =>
    rw [Env.infer]
    unfold judgeRecord
    split <;> rfl
  | call | libraryCall =>
    rw [Env.infer]
    unfold judgeCall
    split
    · rfl
    · split <;> rfl
  | _ => rfl

theorem map_span_inferEach (env : Env) (es : List Expr) :
    (env.inferEach es).map Judgement.span = es.map Expr.span := by
  induction es with
  | nil => rfl
  | cons e es inductionHypothesis =>
    rw [Env.inferEach, List.map_cons, List.map_cons, span_infer, inductionHypothesis]

theorem fieldRegions_inferFields (env : Env) (fields : List FieldValue) :
    fieldRegions (env.inferFields fields) = FieldValue.regions fields := by
  induction fields with
  | nil => rfl
  | cons field fields inductionHypothesis =>
    obtain ⟨name, value⟩ := field
    rw [Env.inferFields]
    simp only [fieldRegions, FieldValue.regions, List.flatMap_cons, span_infer]
    rw [← FieldValue.regions, ← inductionHypothesis, fieldRegions]

theorem span_callee {env : Env} {function : Ident} {e : Located Error} (undeclared : env.callee function = .error e) :
    e.span = function.span := by
  unfold Env.callee at undeclared
  split at undeclared <;> cases undeclared
  rfl

theorem span_libraryCallee {env : Env} {space function : Ident} {e : Located Error}
    (undeclared : env.libraryCallee space function = .error e) : e.span = space.span ∨ e.span = function.span := by
  simp only [Env.libraryCallee] at undeclared
  split at undeclared
  · split at undeclared <;> cases undeclared
    exact .inr rfl
  · cases undeclared
    exact .inl rfl

/-- The name of a function is before its arguments. -/
theorem exists_callErrors_call (env : Env) {function : Ident} {args : List Expr}
    (row : Span.Row span.lo span.hi (function.span :: args.map Expr.span))
    (each : ∀ j ∈ env.inferEach args, j.Distinct) :
    ∃ own inner, CallErrors function.span.hi span own inner
      (callErrors (env.callee function) (env.inferEach args) span) := by
  obtain ⟨starts, solid, rowArgs⟩ := row
  rw [← map_span_inferEach env] at rowArgs
  refine exists_callErrors (Nat.lt_of_le_of_lt starts solid) (fun e undeclared => ?_) rowArgs each
  rw [span_callee undeclared]
  exact ⟨⟨starts, solid⟩, only_callee (fun _ => rfl) env function e undeclared⟩

theorem exists_callErrors_libraryCall (env : Env) {space function : Ident} {args : List Expr}
    (row : Span.Row span.lo span.hi (space.span :: function.span :: args.map Expr.span))
    (each : ∀ j ∈ env.inferEach args, j.Distinct) :
    ∃ own inner, CallErrors function.span.hi span own inner
      (callErrors (env.libraryCallee space function) (env.inferEach args) span) := by
  obtain ⟨starts, solidSpace, behind, solid, rowArgs⟩ := row
  rw [← map_span_inferEach env] at rowArgs
  refine exists_callErrors (by omega) (fun e undeclared => ?_) rowArgs each
  refine ⟨?_, only_libraryCallee (fun _ => rfl) (fun _ => rfl) env space function e undeclared⟩
  obtain here | here := span_libraryCallee undeclared <;> rw [here] <;> omega

section

variable {marked : Span → Prop}

mutual

/-- No two errors inside of an expression are shown alike. -/
theorem distinct_infer (env : Env) (e : Expr) (nests : e.outline.Nests marked) (solid : e.Solid)
    (once : ∀ record ∈ e.records, LacksOnce env.scopes.getDatatype? record) : (env.infer e).Distinct := by
  match e with
  | .int .. | .string .. | .bool .. | .missing .. => exact distinct_leaf rfl
  | .name ident span => exact distinct_judgeName env solid.1 solid.2
  | .record name fields span =>
    obtain ⟨-, ofName, ofFields⟩ := solid
    obtain ⟨lacks, others⟩ := List.forall_mem_cons.mp once
    have row := nests.row_self (List.forall_mem_cons.mpr ⟨ofName, FieldValue.solid_outlines ofFields⟩)
    have nestsFields := (List.forall_mem_cons.mp nests.each).2
    have rowFields := FieldValue.row_regions row.2.2 nestsFields ofFields
    rw [← fieldRegions_inferFields env] at rowFields
    refine distinct_judgeRecord row.1 ofName rowFields (distinct_inferFields env fields nestsFields ofFields others) ?_
    rw [map_inferFields]
    exact lacks
  | .operation op operands span =>
    have row := Expr.row_of_brackets nests solid.1 solid.2
    rw [← map_span_inferEach env] at row
    exact distinct_judgeOperation op solid.1 row (distinct_inferEach env operands nests.each solid.2.each once)
  | .list items span =>
    have row := Expr.row_of_brackets nests solid.1 solid.2
    rw [← map_span_inferEach env] at row
    exact distinct_judgeList solid.1 row (distinct_inferEach env items nests.each solid.2.each once)
  | .call function args span =>
    obtain ⟨-, ofName, ofArgs⟩ := solid
    have row := Expr.row_of_call nests ofName ofArgs
    have each := distinct_inferEach env args (List.forall_mem_cons.mp nests.each).2 ofArgs.each once
    obtain ⟨own, inner, split⟩ := exists_callErrors_call env row each
    exact distinct_judgeCall split
  | .libraryCall space function args span =>
    obtain ⟨-, ofNames, ofArgs⟩ := solid
    have row := Expr.row_of_libraryCall nests ofNames ofArgs
    have nestsArgs := (List.forall_mem_cons.mp (List.forall_mem_cons.mp nests.each).2).2
    obtain ⟨own, inner, split⟩ :=
      exists_callErrors_libraryCall env row (distinct_inferEach env args nestsArgs ofArgs.each once)
    exact distinct_judgeCall split

theorem distinct_inferEach (env : Env) (es : List Expr) (nests : ∀ o ∈ Expr.outlines es, o.Nests marked)
    (solid : ∀ e ∈ es, e.Solid)
    (once : ∀ record ∈ Expr.recordsEach es, LacksOnce env.scopes.getDatatype? record) :
    ∀ j ∈ env.inferEach es, j.Distinct := by
  match es with
  | [] => exact List.forall_mem_nil _
  | e :: es =>
    rw [Expr.outlines, List.forall_mem_cons] at nests
    rw [Expr.recordsEach, List.forall_mem_append] at once
    rw [List.forall_mem_cons] at solid
    exact List.forall_mem_cons.mpr ⟨distinct_infer env e nests.1 solid.1 once.1,
      distinct_inferEach env es nests.2 solid.2 once.2⟩

theorem distinct_inferFields (env : Env) (fields : List FieldValue)
    (nests : ∀ o ∈ FieldValue.outlines fields, o.Nests marked) (solid : FieldValue.EachSolid fields)
    (once : ∀ record ∈ FieldValue.recordsEach fields, LacksOnce env.scopes.getDatatype? record) :
    ∀ field ∈ env.inferFields fields, field.2.Distinct := by
  match fields with
  | [] => exact List.forall_mem_nil _
  | ⟨name, value⟩ :: fields =>
    rw [FieldValue.outlines, List.forall_mem_cons] at nests
    rw [FieldValue.recordsEach, List.forall_mem_append] at once
    have ofValue := nests.1.each value.outline (by simp)
    exact List.forall_mem_cons.mpr ⟨distinct_infer env value ofValue solid.1.2 once.1,
      distinct_inferFields env fields nests.2 solid.2 once.2⟩

end

end

end Typing

end FrontEnd
