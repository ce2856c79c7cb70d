import Mathlib.Algebra.GroupWithZero.Nat
import FrontEnd.Proofs.Grammar.Grammatical

/-!
# Well-formed trees

What the shape of a tree has to be like, whether or not its names and literals belong to the surface
language. Functions and datatypes are declared at the top level only, a chained declaration follows another
one of its type at once, a conditional has a branch, a condition is no record and a call statement calls. A
part may be missing (`gaps` counts such parts), but only where a whole value of a declaration, of a
reassignment or of a result would stand.
-/

namespace FrontEnd

/-! ## Missing parts -/

mutual

/-- Number of parts that are missing. -/
def Expr.gaps : Expr → Nat
  | .int .. | .string .. | .bool .. | .name .. => 0
  | .record _ fields _ => FieldValue.eachGaps fields
  | .operation _ items _ | .call _ items _ | .libraryCall _ _ items _ | .list items _ =>
    Expr.eachGaps items
  | .missing _ => 1

def Expr.eachGaps : List Expr → Nat
  | [] => 0
  | e :: es => e.gaps + Expr.eachGaps es

def FieldValue.eachGaps : List FieldValue → Nat
  | [] => 0
  | ⟨_, value⟩ :: fields => value.gaps + FieldValue.eachGaps fields

end

mutual

/-- Number of parts that are missing. -/
def Statement.gaps : Statement → Nat
  | .function ⟨_, _, _, body⟩ _ => body.gaps
  | .datatype .. | .control .. => 0
  | .declaration _ decl _ => decl.value.gaps
  | .reassignment _ value _ => value.gaps
  | .conditional branches otherwise _ => Branch.eachGaps branches + Block.optionGaps otherwise
  | .loop condition body _ => (condition.map Expr.gaps).getD 0 + body.gaps
  | .block body _ => body.gaps
  | .result values _ => Expr.eachGaps values
  | .call call _ => call.gaps

def Statement.eachGaps : List Statement → Nat
  | [] => 0
  | s :: rest => s.gaps + Statement.eachGaps rest

def Block.gaps : Block → Nat
  | ⟨statements, _⟩ => Statement.eachGaps statements

def Branch.eachGaps : List Branch → Nat
  | [] => 0
  | ⟨condition, body⟩ :: rest => condition.gaps + body.gaps + Branch.eachGaps rest

def Block.optionGaps : Option Block → Nat
  | none => 0
  | some body => body.gaps

end

theorem Expr.eachGaps_eq_sum (es : List Expr) : Expr.eachGaps es = (es.map Expr.gaps).sum := by
  induction es with
  | nil => rfl
  | cons e es inductionHypothesis => simp [eachGaps, inductionHypothesis]

theorem Expr.eachGaps_eq_zero {es : List Expr} (complete : ∀ e ∈ es, e.gaps = 0) :
    Expr.eachGaps es = 0 := by
  rw [eachGaps_eq_sum, List.sum_eq_zero_iff_forall_eq_nat]
  simpa using complete

theorem FieldValue.eachGaps_eq_zero {fields : List FieldValue}
    (complete : ∀ field ∈ fields, field.value.gaps = 0) : FieldValue.eachGaps fields = 0 := by
  induction fields with
  | nil => rfl
  | cons field fields inductionHypothesis =>
    rw [List.forall_mem_cons] at complete
    cases field
    simp_all [eachGaps]

theorem Statement.eachGaps_append (first second : List Statement) :
    Statement.eachGaps (first ++ second) = Statement.eachGaps first + Statement.eachGaps second := by
  induction first with
  | nil => simp [eachGaps]
  | cons s rest inductionHypothesis =>
    simp only [List.cons_append, eachGaps, inductionHypothesis]
    omega

@[simp] theorem Branch.eachGaps_cons (branch : Branch) (rest : List Branch) :
    Branch.eachGaps (branch :: rest) =
      branch.condition.gaps + branch.body.gaps + Branch.eachGaps rest := by
  cases branch
  rfl

/-! ## Shape -/

/-- A value is complete, or it is missing as a whole. -/
def Expr.IsValue (e : Expr) : Prop :=
  e.gaps = 0 ∨ ∃ span, e = .missing span

/-- A condition is complete, and no record. -/
def Expr.Decides (e : Expr) : Prop :=
  e.gaps = 0 ∧ e.isRecord = false

/-- Whether a statement may stand behind a declaration of just the type `before`, or behind none. -/
def Statement.Chains (before : Option TypeName) : Statement → Prop
  | .declaration true decl _ => before = some decl.type
  | _ => True

mutual

/-- At the `top` level, functions and datatypes may be declared. -/
def Statement.WellFormed (top : Bool) : Statement → Prop
  | .function ⟨_, _, _, body⟩ _ => top = true ∧ body.WellFormed
  | .datatype .. => top = true
  | .declaration _ decl _ => decl.value.IsValue
  | .reassignment _ value _ => value.IsValue
  | .conditional branches otherwise _ =>
    branches ≠ [] ∧ Branch.EachWellFormed branches ∧ Block.OptionWellFormed otherwise
  | .loop condition body _ => (∀ e ∈ condition, e.Decides) ∧ body.WellFormed
  | .block body _ => body.WellFormed
  | .result values _ => ∀ e ∈ values, e.IsValue
  | .call call _ => call.isCall = true ∧ call.gaps = 0
  | .control .. => True

/-- Statements behind a declaration of type `before`, or behind none. -/
def Statement.EachWellFormed (top : Bool) (before : Option TypeName) : List Statement → Prop
  | [] => True
  | s :: rest =>
    s.Chains before ∧ s.WellFormed top ∧ Statement.EachWellFormed top s.chainType? rest

def Block.WellFormed : Block → Prop
  | ⟨statements, _⟩ => Statement.EachWellFormed false none statements

def Branch.EachWellFormed : List Branch → Prop
  | [] => True
  | ⟨condition, body⟩ :: rest =>
    condition.Decides ∧ body.WellFormed ∧ Branch.EachWellFormed rest

def Block.OptionWellFormed : Option Block → Prop
  | none => True
  | some body => body.WellFormed

end

@[simp] theorem Branch.eachWellFormed_cons (branch : Branch) (rest : List Branch) :
    Branch.EachWellFormed (branch :: rest) ↔
      branch.condition.Decides ∧ branch.body.WellFormed ∧ Branch.EachWellFormed rest := by
  cases branch
  rfl

/-- A statement that may stand behind none is not chained. -/
theorem Statement.Chains.anywhere {made : Statement} (chains : made.Chains none)
    (before : Option TypeName) : made.Chains before := by
  cases made with
  | declaration chained decl span =>
    cases chained with
    | false => trivial
    | true => cases chains
  | _ => trivial

/-- Statements that may stand anywhere may stand behind any others. -/
theorem Statement.EachWellFormed.append {top : Bool} {before : Option TypeName}
    {first second : List Statement} (inside : Statement.EachWellFormed top before first)
    (behind : ∀ before, Statement.EachWellFormed top before second) :
    Statement.EachWellFormed top before (first ++ second) := by
  induction first generalizing before with
  | nil => exact behind before
  | cons s rest inductionHypothesis =>
    obtain ⟨chains, wellFormed, tail⟩ := inside
    exact ⟨chains, wellFormed, inductionHypothesis tail⟩

/-- The statements of a program are at the top level, and the first of them is behind none. -/
def Program.WellFormed (p : Program) : Prop :=
  Statement.EachWellFormed true none p

def Program.gaps (p : Program) : Nat :=
  Statement.eachGaps p

end FrontEnd
