import FrontEnd.Proofs.Grammar.Solid
import FrontEnd.Proofs.Typing.ErrorKinds

/-!
# Errors that differ

Two errors are shown alike if they have the same code, the same message and the same region. Those of parts that
are apart differ in where they are, and those at one region in what they say: a type that is not the one required
is reported at the first byte of an expression by what is around it, and never by the expression itself
(`Judgement.Distinct`). So a rule is given by the errors of the parts, which are behind some byte, and those of its
own before it (`Judgement.distinct_of`).
-/

namespace FrontEnd.Typing

/-- Whether no two errors are shown alike, and each is at a byte from one on and before another. -/
structure Distinct (first last : Nat) (errors : List (Located Error)) : Prop where
  nodup : (errors.map Located.diagnostic).Nodup
  inside : ∀ e ∈ errors, first ≤ e.span.lo ∧ e.span.lo < last

/-! ## Composition -/

section

variable {first middle last : Nat} {errors others : List (Located Error)} {e e' : Located Error}

theorem distinct_nil : Distinct first last [] :=
  ⟨.nil, List.forall_mem_nil _⟩

theorem distinct_singleton (starts : first ≤ e.span.lo) (ends : e.span.lo < last) : Distinct first last [e] :=
  ⟨List.pairwise_singleton _ _, List.forall_mem_singleton.mpr ⟨starts, ends⟩⟩

theorem Distinct.mono (distinct : Distinct first last errors) {start stop : Nat} (starts : start ≤ first)
    (ends : last ≤ stop) : Distinct start stop errors where
  nodup := distinct.nodup
  inside e member := by
    have := distinct.inside e member
    omega

theorem Distinct.perm (distinct : Distinct first last errors) (same : errors.Perm others) :
    Distinct first last others where
  nodup := (same.map _).nodup_iff.mp distinct.nodup
  inside e member := distinct.inside e (same.mem_iff.mpr member)

theorem diagnostic_ne_of_lo (apart : e.span.lo ≠ e'.span.lo) : e.diagnostic ≠ e'.diagnostic := by
  intro same
  exact apart (congrArg (fun d : Diagnostic => d.span.lo) same)

theorem diagnostic_ne_of_code (apart : Reportable.code e.value ≠ Reportable.code e'.value) :
    e.diagnostic ≠ e'.diagnostic := by
  intro same
  exact apart (congrArg Diagnostic.code same)

theorem Distinct.append (distinct : Distinct first last errors) (more : Distinct first last others)
    (apart : ∀ e ∈ errors, ∀ e' ∈ others, e.diagnostic ≠ e'.diagnostic) :
    Distinct first last (errors ++ others) := by
  refine ⟨?_, List.forall_mem_append.mpr ⟨distinct.inside, more.inside⟩⟩
  rw [List.map_append, List.nodup_append]
  refine ⟨distinct.nodup, more.nodup, ?_⟩
  intro d member d' memberAgain
  obtain ⟨e, first, rfl⟩ := List.mem_map.mp member
  obtain ⟨e', second, rfl⟩ := List.mem_map.mp memberAgain
  exact apart e first e' second

/-- Errors before a byte and errors from there on. -/
theorem Distinct.append_behind (distinct : Distinct first middle errors) (more : Distinct middle last others)
    (le : first ≤ middle) (le' : middle ≤ last) : Distinct first last (errors ++ others) := by
  refine (distinct.mono (Nat.le_refl _) le').append (more.mono le (Nat.le_refl _)) fun e member e' behind => ?_
  refine diagnostic_ne_of_lo (Nat.ne_of_lt ?_)
  exact Nat.lt_of_lt_of_le (distinct.inside e member).2 (more.inside e' behind).1

/-- Errors inside of a region at the head of a row and errors behind it. -/
theorem Distinct.append_row {span : Span} {rest : List Span} (distinct : Distinct span.lo span.hi errors)
    (row : Span.Row first last (span :: rest)) (more : Distinct span.hi last others) :
    Distinct first last (errors ++ others) :=
  (distinct.mono row.1 (Nat.le_refl _)).append_behind more
    (Nat.le_trans row.1 (Nat.le_of_lt row.2.1)) row.2.2.le

/-- Errors that are inside of the regions of a row. -/
theorem distinct_flatMap {α : Type} {xs : List α} {region : α → Span} {own : α → List (Located Error)}
    (row : Span.Row first last (xs.map region))
    (each : ∀ x ∈ xs, Distinct (region x).lo (region x).hi (own x)) :
    Distinct first last (xs.flatMap own) := by
  induction xs generalizing first with
  | nil => exact distinct_nil
  | cons x xs inductionHypothesis =>
    rw [List.forall_mem_cons] at each
    exact each.1.append_row row (inductionHypothesis row.2.2 each.2)

/-- What is said of a token at its first byte. -/
theorem distinct_at {error : Error} {span : Span} (solid : span.Solid) :
    Distinct span.lo span.hi [⟨error, span⟩] :=
  distinct_singleton (Nat.le_refl _) solid

end

/-! ## Requirements -/

/-- Whether the error is that an expression is not as required by what is around it. -/
def Error.isMisfit : Error → Bool
  | .typeMismatch .. | .nestedList => true
  | _ => false

theorem Error.isMisfit_eq_of_code {e e' : Error} (same : Reportable.code e = Reportable.code e') :
    e.isMisfit = e'.isMisfit := by
  have byCode : ∀ e : Error, e.isMisfit = decide (Reportable.code e ∈ ["A011", "A018"]) := by
    intro e
    cases e <;> rfl
  rw [byCode, byCode, same]

/-- Whether some errors are nothing, or one of a requirement of an expression. -/
def Judgement.Refuses (j : Judgement) (own : List (Located Error)) : Prop :=
  own = [] ∨ ∃ e : Error, e.isMisfit = true ∧ own = [⟨e, j.span⟩]

theorem refuses_require (j : Judgement) (expected : TypeTag) : j.Refuses (j.require expected) := by
  rw [Judgement.require, Typing.require]
  split
  · exact .inl rfl
  · exact .inr ⟨_, rfl, rfl⟩

theorem refuses_agree (first second : Judgement) : second.Refuses (agree first second) := by
  unfold agree
  split
  · exact refuses_require second _
  · exact .inl rfl

theorem refuses_itemErrors (j : Judgement) (element : Option TypeTag) : j.Refuses (j.itemErrors element) := by
  unfold Judgement.itemErrors
  split
  · exact .inl rfl
  · exact .inr ⟨_, rfl, rfl⟩
  · split
    · exact .inr ⟨_, rfl, rfl⟩
    · split
      · exact refuses_require j _
      · exact .inl rfl

/-! ## Judgements -/

/-- Whether the errors inside of an expression differ, are in its region, and leave it to what is around to refuse
it. -/
structure Judgement.Distinct (j : Judgement) : Prop where
  distinct : Typing.Distinct j.span.lo j.span.hi j.errors
  misfits : ∀ e ∈ j.errors, e.value.isMisfit = true → j.span.lo < e.span.lo

theorem Judgement.Distinct.append {j : Judgement} (distinct : j.Distinct) (solid : j.span.Solid)
    {own : List (Located Error)} (refuses : j.Refuses own) :
    Typing.Distinct j.span.lo j.span.hi (j.errors ++ own) := by
  obtain rfl | ⟨error, misfit, rfl⟩ := refuses
  · rw [List.append_nil]
    exact distinct.distinct
  · refine distinct.distinct.append (distinct_at solid) fun e member e' here => ?_
    rw [List.mem_singleton.mp here]
    by_cases atStart : e.span.lo = j.span.lo
    · refine diagnostic_ne_of_code fun same => ?_
      have isMisfit := (Error.isMisfit_eq_of_code same).trans misfit
      exact Nat.lt_irrefl _ (atStart ▸ distinct.misfits e member isMisfit)
    · exact diagnostic_ne_of_lo atStart

/-- The errors of a rule: those of the parts, which are behind some byte, and its own before it, which are no
refusals. -/
theorem Judgement.distinct_of {j : Judgement} {first : Nat} {inner own : List (Located Error)}
    (same : (own ++ inner).Perm j.errors) (ofOwn : Typing.Distinct j.span.lo first own)
    (ofInner : Typing.Distinct first j.span.hi inner) (starts : j.span.lo < first) (ends : first ≤ j.span.hi)
    (plain : ∀ e ∈ own, e.value.isMisfit = false) : j.Distinct where
  distinct := (ofOwn.append_behind ofInner (Nat.le_of_lt starts) ends).perm same
  misfits e member misfit := by
    obtain isOwn | isInner := List.mem_append.mp (same.mem_iff.mpr member)
    · exact absurd misfit (by rw [plain e isOwn]; exact Bool.false_ne_true)
    · exact Nat.lt_of_lt_of_le starts (ofInner.inside e isInner).1

section

variable {first last : Nat} {js : List Judgement}

/-- Expressions in a row that are required, each in its way. -/
theorem distinct_refused (row : Span.Row first last (js.map Judgement.span)) (each : ∀ j ∈ js, j.Distinct)
    {own : Judgement → List (Located Error)} (refuses : ∀ j ∈ js, j.Refuses (own j)) :
    Distinct first last (js.flatMap fun j => j.errors ++ own j) := by
  refine distinct_flatMap row fun j member => (each j member).append ?_ (refuses j member)
  exact row.covers j.span (List.mem_map_of_mem member)

theorem distinct_allErrors (row : Span.Row first last (js.map Judgement.span)) (each : ∀ j ∈ js, j.Distinct) :
    Distinct first last (Judgement.allErrors js) :=
  distinct_flatMap row fun j member => (each j member).distinct

/-- Expressions in a row that have to be of certain types. -/
theorem distinct_requireEach (row : Span.Row first last (js.map Judgement.span)) (each : ∀ j ∈ js, j.Distinct)
    (expected : List TypeTag) : Distinct first last (Judgement.allErrors js ++ requireEach expected js) := by
  induction js generalizing first expected with
  | nil =>
    cases expected <;> exact distinct_nil
  | cons j js inductionHypothesis =>
    cases expected with
    | nil => simpa [requireEach] using distinct_allErrors row each
    | cons type expected =>
      rw [List.forall_mem_cons] at each
      have ofFirst := each.1.append row.2.1 (refuses_require j type)
      refine (ofFirst.append_row row (inductionHypothesis row.2.2 each.2 expected)).perm ?_
      -- what is required of the first comes behind the errors of all
      show (j.errors ++ j.require type ++ (Judgement.allErrors js ++ requireEach expected js)).Perm
        (j.errors ++ Judgement.allErrors js ++ (j.require type ++ requireEach expected js))
      simp only [List.append_assoc]
      exact ((List.perm_append_comm_assoc _ _ _).append_left _)

end

end FrontEnd.Typing
