import FrontEnd.Tree

/-!
# The names in a tree

Whether all names in a tree are names of some sort: those that are declared, those that are used and those of the
datatypes that types refer to. Whatever else may be wrong with the tree does not matter.
-/

namespace FrontEnd

/-- Whether the datatype that a type refers to has a name of the sort. -/
def TypeName.Plain (isName : String → Prop) (type : TypeName) : Prop :=
  ∀ name ∈ type.scalar.datatype?, isName name

def Param.Named (isName : String → Prop) (param : Param) : Prop :=
  param.type.Plain isName ∧ isName param.name.name

mutual

def Expr.Named (isName : String → Prop) : Expr → Prop
  | .name ident _ => isName ident.name
  | .record name fields _ => isName name.name ∧ FieldValue.EachNamed isName fields
  | .operation _ operands _ => Expr.EachNamed isName operands
  | .call function args _ => isName function.name ∧ Expr.EachNamed isName args
  | .libraryCall space function args _ =>
    isName space.name ∧ isName function.name ∧ Expr.EachNamed isName args
  | .list items _ => Expr.EachNamed isName items
  | .int .. | .string .. | .bool .. | .missing .. => True

def Expr.EachNamed (isName : String → Prop) : List Expr → Prop
  | [] => True
  | e :: es => e.Named isName ∧ Expr.EachNamed isName es

def FieldValue.EachNamed (isName : String → Prop) : List FieldValue → Prop
  | [] => True
  | ⟨name, value⟩ :: fields =>
    (isName name.name ∧ value.Named isName) ∧ FieldValue.EachNamed isName fields

end

def FieldValue.Named (isName : String → Prop) (field : FieldValue) : Prop :=
  isName field.name.name ∧ field.value.Named isName

def VariableDecl.Named (isName : String → Prop) (decl : VariableDecl) : Prop :=
  decl.type.Plain isName ∧ isName decl.name.name ∧ decl.value.Named isName

mutual

def Statement.Named (isName : String → Prop) : Statement → Prop
  | .function ⟨name, params, returns, body⟩ _ =>
    isName name.name ∧ (∀ p ∈ params, p.Named isName) ∧ (∀ type ∈ returns, type.Plain isName) ∧
      body.Named isName
  | .datatype decl _ => isName decl.name.name ∧ ∀ p ∈ decl.fields, p.Named isName
  | .declaration _ decl _ => decl.Named isName
  | .reassignment target value _ => isName target.name ∧ value.Named isName
  | .conditional branches otherwise _ =>
    Branch.EachNamed isName branches ∧ Block.OptionNamed isName otherwise
  | .loop condition body _ => (∀ e ∈ condition, e.Named isName) ∧ body.Named isName
  | .block body _ => body.Named isName
  | .result values _ => Expr.EachNamed isName values
  | .call call _ => call.Named isName
  | .control .. => True

def Statement.EachNamed (isName : String → Prop) : List Statement → Prop
  | [] => True
  | s :: rest => s.Named isName ∧ Statement.EachNamed isName rest

def Block.Named (isName : String → Prop) : Block → Prop
  | ⟨statements, _⟩ => Statement.EachNamed isName statements

def Branch.EachNamed (isName : String → Prop) : List Branch → Prop
  | [] => True
  | ⟨condition, body⟩ :: rest =>
    (condition.Named isName ∧ body.Named isName) ∧ Branch.EachNamed isName rest

def Block.OptionNamed (isName : String → Prop) : Option Block → Prop
  | none => True
  | some body => body.Named isName

end

def Branch.Named (isName : String → Prop) (branch : Branch) : Prop :=
  branch.condition.Named isName ∧ branch.body.Named isName

variable {isName : String → Prop}

theorem Expr.eachNamed_iff {es : List Expr} : Expr.EachNamed isName es ↔ ∀ e ∈ es, e.Named isName := by
  induction es with
  | nil => simp [Expr.EachNamed]
  | cons e es inductionHypothesis => simp [Expr.EachNamed, inductionHypothesis]

theorem FieldValue.eachNamed_iff {fields : List FieldValue} :
    FieldValue.EachNamed isName fields ↔ ∀ field ∈ fields, field.Named isName := by
  induction fields with
  | nil => simp [FieldValue.EachNamed]
  | cons field fields inductionHypothesis =>
    cases field
    simp [FieldValue.EachNamed, FieldValue.Named, inductionHypothesis]

theorem Statement.eachNamed_iff {statements : List Statement} :
    Statement.EachNamed isName statements ↔ ∀ s ∈ statements, s.Named isName := by
  induction statements with
  | nil => simp [Statement.EachNamed]
  | cons s rest inductionHypothesis => simp [Statement.EachNamed, inductionHypothesis]

theorem Branch.eachNamed_iff {branches : List Branch} :
    Branch.EachNamed isName branches ↔ ∀ b ∈ branches, b.Named isName := by
  induction branches with
  | nil => simp [Branch.EachNamed]
  | cons b rest inductionHypothesis =>
    cases b
    simp [Branch.EachNamed, Branch.Named, inductionHypothesis]

end FrontEnd
