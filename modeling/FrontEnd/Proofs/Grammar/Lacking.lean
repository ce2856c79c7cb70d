import FrontEnd.Tree

/-!
# Trees that lack a value

A declaration, a reassignment and a result keep their places where a value of theirs is missing: a missing expression
stands for it. `s.HasValue e lacking` says that `e` is such a value somewhere in the statement `s`, however deep, and
that `lacking place` is `s` with an expression missing at `place` instead of it. All else is the same, but for the
region of a declaration, which ends where its value does. A `Hole` says so of anything that has a value.
-/

namespace FrontEnd

mutual

/-- Whether `e` is a value in a statement, and how the statement is without it. Of the values of a result there have to
be two at least, for without its only value a result has none. -/
inductive Statement.HasValue (e : Expr) : Statement → (Span → Statement) → Prop
  | declaration {chained : Bool} {type : TypeName} {name : Ident} {region : Span} :
    Statement.HasValue e (.declaration chained ⟨type, name, e⟩ region) fun place =>
      .declaration chained ⟨type, name, .missing place⟩ ((if chained then name.span else type.span).upTo place)
  | reassignment {target : Ident} {region : Span} :
    Statement.HasValue e (.reassignment target e region) fun place => .reassignment target (.missing place) region
  | result {front back : List Expr} {region : Span} (plural : front ≠ [] ∨ back ≠ []) :
    Statement.HasValue e (.result (front ++ e :: back) region) fun place =>
      .result (front ++ .missing place :: back) region
  | function {name : Ident} {params : List Param} {returns : List TypeName} {body : Block} {region : Span}
    {lacking : Span → Block} (inside : body.HasValue e lacking) :
    Statement.HasValue e (.function ⟨name, params, returns, body⟩ region) fun place =>
      .function ⟨name, params, returns, lacking place⟩ region
  | branch {front back : List Branch} {condition : Expr} {body : Block} {otherwise : Option Block} {region : Span}
    {lacking : Span → Block} (inside : body.HasValue e lacking) :
    Statement.HasValue e (.conditional (front ++ ⟨condition, body⟩ :: back) otherwise region) fun place =>
      .conditional (front ++ ⟨condition, lacking place⟩ :: back) otherwise region
  | otherwise {branches : List Branch} {body : Block} {region : Span}
    {lacking : Span → Block} (inside : body.HasValue e lacking) :
    Statement.HasValue e (.conditional branches (some body) region) fun place =>
      .conditional branches (some (lacking place)) region
  | loop {condition : Option Expr} {body : Block} {region : Span}
    {lacking : Span → Block} (inside : body.HasValue e lacking) :
    Statement.HasValue e (.loop condition body region) fun place => .loop condition (lacking place) region
  | block {body : Block} {region : Span} {lacking : Span → Block} (inside : body.HasValue e lacking) :
    Statement.HasValue e (.block body region) fun place => .block (lacking place) region

/-- Whether `e` is a value in a statement of a block. -/
inductive Block.HasValue (e : Expr) : Block → (Span → Block) → Prop
  | statement {front back : List Statement} {s : Statement} {region : Span} {lacking : Span → Statement}
    (inside : s.HasValue e lacking) :
    Block.HasValue e ⟨front ++ s :: back, region⟩ fun place => ⟨front ++ lacking place :: back, region⟩

end

/-! ## Holes -/

/-- What has a value somewhere, and how it is without it. -/
abbrev Hole (α : Type) : Type :=
  α → (Span → α) → Prop

namespace Hole

variable {α β : Type} {hole : Hole α} {front back : List α} {x : α}

/-- What has no value. -/
def none : Hole α :=
  fun _ _ => False

/-- The value by itself. -/
def value (e : Expr) : Hole Expr :=
  fun x lacking => x = e ∧ lacking = .missing

/-- The first or the second of a pair has the value. -/
def either (first : Hole α) (second : Hole β) : Hole (α × β) :=
  fun x lacking => (∃ inner, first x.1 inner ∧ lacking = fun place => (inner place, x.2)) ∨
    ∃ inner, second x.2 inner ∧ lacking = fun place => (x.1, inner place)

/-- The second of a pair has the value. -/
def second (hole : Hole β) : Hole (α × β) :=
  fun x lacking => ∃ inner, hole x.2 inner ∧ lacking = fun place => (x.1, inner place)

/-- What is there has the value. -/
def some (hole : Hole α) : Hole (Option α) :=
  fun x lacking => ∃ y inner, x = .some y ∧ hole y inner ∧ lacking = fun place => .some (inner place)

/-- One item of a list has the value. -/
inductive Within (hole : Hole α) : Hole (List α)
  | head {x : α} {rest : List α} {lacking : Span → α} (has : hole x lacking) :
    Within hole (x :: rest) fun place => lacking place :: rest
  | tail {x : α} {rest : List α} {lacking : Span → List α} (has : Within hole rest lacking) :
    Within hole (x :: rest) fun place => x :: lacking place

theorem Within.append {lacking : Span → α} (has : hole x lacking) (front back : List α) :
    hole.Within (front ++ x :: back) fun place => front ++ lacking place :: back := by
  induction front with
  | nil => exact .head has
  | cons first front inductionHypothesis => exact .tail inductionHypothesis

theorem within_append {lacking : Span → List α} (within : hole.Within (front ++ back) lacking) :
    (∃ inner, hole.Within front inner ∧ lacking = fun place => inner place ++ back) ∨
      ∃ inner, hole.Within back inner ∧ lacking = fun place => front ++ inner place := by
  induction front generalizing lacking with
  | nil => exact .inr ⟨lacking, within, rfl⟩
  | cons y front inductionHypothesis =>
    cases within with
    | head has => exact .inl ⟨_, .head has, rfl⟩
    | tail has =>
      obtain ⟨first, inFirst, rfl⟩ | ⟨second, inSecond, rfl⟩ := inductionHypothesis has
      · exact .inl ⟨_, .tail inFirst, rfl⟩
      · exact .inr ⟨second, inSecond, rfl⟩

theorem within_cons {rest : List α} {lacking : Span → List α} (within : hole.Within (x :: rest) lacking) :
    (∃ inner, hole x inner ∧ lacking = fun place => inner place :: rest) ∨
      ∃ inner, hole.Within rest inner ∧ lacking = fun place => x :: inner place := by
  cases within with
  | head has => exact .inl ⟨_, has, rfl⟩
  | tail has => exact .inr ⟨_, has, rfl⟩

theorem not_within_nil {lacking : Span → List α} : ¬ hole.Within [] lacking :=
  nofun

end Hole

/-! ## Statements with blocks -/

variable {e : Expr}

namespace Block

variable {body : Block} {lacking : Span → Block}

/-- A block has a value where its statements have one. -/
theorem HasValue.exists_within (has : body.HasValue e lacking) :
    ∃ inner, Hole.Within (Statement.HasValue e) body.statements inner ∧
      lacking = fun place => ⟨inner place, body.span⟩ := by
  cases has with
  | statement inside => exact ⟨_, .append inside _ _, rfl⟩

/-- Without a value, a block has the region that it has. -/
theorem HasValue.span_eq (has : body.HasValue e lacking) (place : Span) : (lacking place).span = body.span := by
  cases has
  rfl

end Block

/-- The block of a branch has the value. -/
def Branch.HasValue (e : Expr) : Hole Branch :=
  fun branch lacking => ∃ inner, branch.body.HasValue e inner ∧ lacking = fun place => ⟨branch.condition, inner place⟩

theorem Branch.HasValue.span_eq {branch : Branch} {lacking : Span → Branch} (has : branch.HasValue e lacking)
    (place : Span) : (lacking place).body.span = branch.body.span := by
  obtain ⟨inner, has, rfl⟩ := has
  exact has.span_eq place

/-- A conditional has a value where one of its branches has one or the alternative. -/
theorem Statement.HasValue.exists_conditional {branches : List Branch} {otherwise : Option Block} {region : Span}
    {lacking : Span → Statement} (has : Statement.HasValue e (.conditional branches otherwise region) lacking) :
    (∃ inner, Hole.Within (Branch.HasValue e) branches inner ∧
        lacking = fun place => .conditional (inner place) otherwise region) ∨
      ∃ inner, Hole.some (Block.HasValue e) otherwise inner ∧
        lacking = fun place => .conditional branches (inner place) region := by
  cases has with
  | branch inside => exact .inl ⟨_, .append ⟨_, inside, rfl⟩ _ _, rfl⟩
  | otherwise inside => exact .inr ⟨_, ⟨_, _, rfl, inside, rfl⟩, rfl⟩

end FrontEnd
