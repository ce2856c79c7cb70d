import FrontEnd.Proofs.Grammar.Recast
import FrontEnd.Proofs.Grammar.Terminal

/-!
# Grammatical trees

Which trees belong to the surface language. Names are words that are not reserved, integers are those
of sixty-four bits, no string holds a quote, and no part is missing. Besides this, a few things that
the types of the tree permit are not in the grammar: a record as a condition, a conditional without
branches, a statement that is an expression but no call, a function or a datatype inside of another
statement, and a chained declaration that does not follow another declaration of its type.
-/

namespace FrontEnd

def Expr.isRecord : Expr → Bool
  | .record .. => true
  | _ => false

def TypeName.Grammatical (type : TypeName) : Prop :=
  ∀ name ∈ type.scalar.datatype?, IsName name

def Param.Grammatical (param : Param) : Prop :=
  param.type.Grammatical ∧ IsName param.name.name

mutual

def Expr.Grammatical : Expr → Prop
  | .int value _ => Literal.minimum ≤ value ∧ value ≤ Literal.maximum
  | .string value _ => '"' ∉ value.toList
  | .bool _ _ => True
  | .name ident _ => IsName ident.name
  | .record name fields _ => IsName name.name ∧ FieldValue.EachGrammatical fields
  | .operation _ operands _ => Expr.EachGrammatical operands
  | .call function args _ => IsName function.name ∧ Expr.EachGrammatical args
  | .libraryCall space function args _ =>
    IsName space.name ∧ IsName function.name ∧ Expr.EachGrammatical args
  | .list items _ => Expr.EachGrammatical items
  | .missing _ => False

def Expr.EachGrammatical : List Expr → Prop
  | [] => True
  | e :: es => e.Grammatical ∧ Expr.EachGrammatical es

def FieldValue.EachGrammatical : List FieldValue → Prop
  | [] => True
  | ⟨name, value⟩ :: fields =>
    IsName name.name ∧ value.Grammatical ∧ FieldValue.EachGrammatical fields

end

/-- A condition is no record, for a brace behind it opens the body. -/
def Expr.IsCondition (e : Expr) : Prop :=
  e.Grammatical ∧ e.isRecord = false

def VariableDecl.Grammatical (decl : VariableDecl) : Prop :=
  decl.type.Grammatical ∧ IsName decl.name.name ∧ decl.value.Grammatical

/-- The type that a chained declaration behind the statement has, if there may be one. -/
def Statement.chainType? : Statement → Option TypeName
  | .declaration _ decl _ => some decl.type
  | _ => none

/-- Whether the statement may stand behind a declaration of type `type`, or behind none. -/
def Statement.Follows (type : Option TypeName) : Statement → Prop
  | .declaration true decl _ => type.map TypeName.bare = some decl.type.bare
  | _ => True

mutual

/-- At the `top` level, functions and datatypes may be declared. -/
def Statement.Grammatical (top : Bool) : Statement → Prop
  | .function ⟨name, params, returns, body⟩ _ =>
    top = true ∧ IsName name.name ∧ (∀ p ∈ params, p.Grammatical) ∧
      (∀ type ∈ returns, type.Grammatical) ∧ body.Grammatical
  | .datatype decl _ => top = true ∧ IsName decl.name.name ∧ ∀ p ∈ decl.fields, p.Grammatical
  | .declaration _ decl _ => decl.Grammatical
  | .reassignment target value _ => IsName target.name ∧ value.Grammatical
  | .conditional branches otherwise _ =>
    branches ≠ [] ∧ Branch.EachGrammatical branches ∧ Block.OptionGrammatical otherwise
  | .loop condition body _ => (∀ e ∈ condition, e.IsCondition) ∧ body.Grammatical
  | .block body _ => body.Grammatical
  | .result values _ => Expr.EachGrammatical values
  | .call call _ => call.Grammatical ∧ call.isCall = true
  | .control _ _ => True

/-- Statements behind a declaration of type `type`, or behind none. -/
def Statement.EachGrammatical (top : Bool) (type : Option TypeName) : List Statement → Prop
  | [] => True
  | s :: rest =>
    s.Follows type ∧ s.Grammatical top ∧ Statement.EachGrammatical top s.chainType? rest

def Block.Grammatical : Block → Prop
  | ⟨statements, _⟩ => Statement.EachGrammatical false none statements

def Branch.EachGrammatical : List Branch → Prop
  | [] => True
  | ⟨condition, body⟩ :: rest =>
    condition.IsCondition ∧ body.Grammatical ∧ Branch.EachGrammatical rest

def Block.OptionGrammatical : Option Block → Prop
  | none => True
  | some body => body.Grammatical

end

theorem Statement.eachGrammatical_append {top : Bool} {type : Option TypeName}
    {first second : List Statement} (h : Statement.EachGrammatical top type (first ++ second)) :
    Statement.EachGrammatical top type first ∧
      ∃ before, Statement.EachGrammatical top before second := by
  induction first generalizing type with
  | nil => exact ⟨trivial, type, h⟩
  | cons s rest inductionHypothesis =>
    obtain ⟨follows, grammatical, tail⟩ := h
    obtain ⟨inside, before, behind⟩ := inductionHypothesis tail
    exact ⟨⟨follows, grammatical, inside⟩, before, behind⟩

/-- Statements that may stand anywhere may stand behind any others. -/
theorem Statement.EachGrammatical.append {top : Bool} {type : Option TypeName}
    {first second : List Statement} (inside : Statement.EachGrammatical top type first)
    (behind : ∀ type, Statement.EachGrammatical top type second) :
    Statement.EachGrammatical top type (first ++ second) := by
  induction first generalizing type with
  | nil => exact behind type
  | cons s rest inductionHypothesis =>
    obtain ⟨follows, grammatical, tail⟩ := inside
    exact ⟨follows, grammatical, inductionHypothesis tail⟩

def Program.Grammatical (p : Program) : Prop :=
  Statement.EachGrammatical true none p

end FrontEnd
