import FrontEnd.Tree
import FrontEnd.Token

/-!
# Trees with other regions and other names

To recast a tree is to put its parts elsewhere and to give its variables other names, where they are declared and
where they are used. The names of functions, datatypes, fields and spaces stay, also where they are spelled like a
variable. Where no name changes, the tree is relocated (`relocate`); where no region does, it is renamed
(`Program.rename`). With all of its regions in one place it is bare, and two trees say the same if they are equal
when they are bare.
-/

namespace FrontEnd

/-- Where the parts of a tree are put, and what its variables are called. -/
structure Recast where
  place : Span → Span
  name : String → String

namespace Recast

/-- Puts the parts of a tree elsewhere. -/
def placing (place : Span → Span) : Recast :=
  ⟨place, id⟩

/-- Gives the variables of a tree other names. -/
def naming (name : String → String) : Recast :=
  ⟨id, name⟩

@[simp] theorem place_placing (place : Span → Span) : (placing place).place = place := rfl

@[simp] theorem place_naming (name : String → String) : (naming name).place = id := rfl

@[simp] theorem name_placing (place : Span → Span) : (placing place).name = id := rfl

@[simp] theorem name_naming (name : String → String) : (naming name).name = name := rfl

end Recast

/-! ## Parts that have no variables -/

section

variable (place : Span → Span)

def Located.relocate {α : Type} (x : Located α) : Located α :=
  ⟨x.value, place x.span⟩

def Token.relocate (t : Token) : Token :=
  { t with span := place t.span }

@[simp] theorem Token.kind_relocate (t : Token) : (t.relocate place).kind = t.kind := rfl

@[simp] theorem Token.literal_relocate (t : Token) : (t.relocate place).literal = t.literal := rfl

def Ident.relocate (ident : Ident) : Ident :=
  { ident with span := place ident.span }

def TypeName.relocate (type : TypeName) : TypeName :=
  { type with span := place type.span }

/-- A field of a datatype has the form of a parameter, but declares no variable. -/
def Param.relocate (param : Param) : Param :=
  ⟨param.type.relocate place, param.name.relocate place⟩

def DatatypeDecl.relocate (decl : DatatypeDecl) : DatatypeDecl :=
  ⟨decl.name.relocate place, decl.fields.map (Param.relocate place)⟩

end

/-! ## Parts that have variables -/

variable (ρ : Recast)

/-- The name of a variable. -/
def Ident.recast (ident : Ident) : Ident :=
  ⟨ρ.name ident.name, ρ.place ident.span⟩

def Param.recast (param : Param) : Param :=
  ⟨param.type.relocate ρ.place, param.name.recast ρ⟩

mutual

def Expr.recast : Expr → Expr
  | .int value span => .int value (ρ.place span)
  | .string value span => .string value (ρ.place span)
  | .bool value span => .bool value (ρ.place span)
  | .name ident span => .name (ident.recast ρ) (ρ.place span)
  | .record name fields span =>
    .record (name.relocate ρ.place) (FieldValue.recastEach fields) (ρ.place span)
  | .operation op operands span => .operation op (Expr.recastEach operands) (ρ.place span)
  | .call function args span =>
    .call (function.relocate ρ.place) (Expr.recastEach args) (ρ.place span)
  | .libraryCall space function args span =>
    .libraryCall (space.relocate ρ.place) (function.relocate ρ.place) (Expr.recastEach args) (ρ.place span)
  | .list items span => .list (Expr.recastEach items) (ρ.place span)
  | .missing span => .missing (ρ.place span)

def Expr.recastEach : List Expr → List Expr
  | [] => []
  | e :: es => e.recast :: Expr.recastEach es

def FieldValue.recastEach : List FieldValue → List FieldValue
  | [] => []
  | ⟨name, value⟩ :: fields => ⟨name.relocate ρ.place, value.recast⟩ :: FieldValue.recastEach fields

end

def FieldValue.recast (field : FieldValue) : FieldValue :=
  ⟨field.name.relocate ρ.place, field.value.recast ρ⟩

def VariableDecl.recast (decl : VariableDecl) : VariableDecl :=
  ⟨decl.type.relocate ρ.place, decl.name.recast ρ, decl.value.recast ρ⟩

mutual

def Statement.recast : Statement → Statement
  | .function ⟨name, params, returns, body⟩ span =>
    .function ⟨name.relocate ρ.place, params.map (Param.recast ρ), returns.map (TypeName.relocate ρ.place),
      body.recast⟩ (ρ.place span)
  | .datatype decl span => .datatype (decl.relocate ρ.place) (ρ.place span)
  | .declaration chained decl span => .declaration chained (decl.recast ρ) (ρ.place span)
  | .reassignment target value span => .reassignment (target.recast ρ) (value.recast ρ) (ρ.place span)
  | .conditional branches otherwise span =>
    .conditional (Branch.recastEach branches) (Block.recastOption otherwise) (ρ.place span)
  | .loop condition body span => .loop (condition.map (Expr.recast ρ)) body.recast (ρ.place span)
  | .block body span => .block body.recast (ρ.place span)
  | .result values span => .result (Expr.recastEach ρ values) (ρ.place span)
  | .call call span => .call (call.recast ρ) (ρ.place span)
  | .control kind span => .control kind (ρ.place span)

def Statement.recastEach : List Statement → List Statement
  | [] => []
  | s :: rest => s.recast :: Statement.recastEach rest

def Block.recast : Block → Block
  | ⟨statements, span⟩ => ⟨Statement.recastEach statements, ρ.place span⟩

def Branch.recastEach : List Branch → List Branch
  | [] => []
  | ⟨condition, body⟩ :: rest => ⟨condition.recast ρ, body.recast⟩ :: Branch.recastEach rest

def Block.recastOption : Option Block → Option Block
  | none => none
  | some body => some body.recast

end

def Branch.recast (branch : Branch) : Branch :=
  ⟨branch.condition.recast ρ, branch.body.recast ρ⟩

def Program.recast (p : Program) : Program :=
  p.map (Statement.recast ρ)

theorem Expr.recastEach_eq_map (es : List Expr) : Expr.recastEach ρ es = es.map (Expr.recast ρ) := by
  induction es with
  | nil => rfl
  | cons e es inductionHypothesis => simp only [recastEach, inductionHypothesis, List.map_cons]

theorem FieldValue.recastEach_eq_map (fields : List FieldValue) :
    FieldValue.recastEach ρ fields = fields.map (FieldValue.recast ρ) := by
  induction fields with
  | nil => rfl
  | cons field fields inductionHypothesis =>
    cases field
    simp only [recastEach, inductionHypothesis, List.map_cons, recast]

theorem Statement.recastEach_eq_map (statements : List Statement) :
    Statement.recastEach ρ statements = statements.map (Statement.recast ρ) := by
  induction statements with
  | nil => rfl
  | cons s rest inductionHypothesis => simp only [recastEach, inductionHypothesis, List.map_cons]

theorem Branch.recastEach_eq_map (branches : List Branch) :
    Branch.recastEach ρ branches = branches.map (Branch.recast ρ) := by
  induction branches with
  | nil => rfl
  | cons branch rest inductionHypothesis =>
    cases branch
    simp only [recastEach, inductionHypothesis, List.map_cons, recast]

@[simp] theorem Branch.recastEach_cons (branch : Branch) (rest : List Branch) :
    Branch.recastEach ρ (branch :: rest) = branch.recast ρ :: Branch.recastEach ρ rest := by
  cases branch
  rfl

theorem Statement.recastEach_append (first second : List Statement) :
    Statement.recastEach ρ (first ++ second) = Statement.recastEach ρ first ++ Statement.recastEach ρ second := by
  rw [recastEach_eq_map, List.map_append, ← recastEach_eq_map, ← recastEach_eq_map]

theorem Block.recastOption_eq_map (otherwise : Option Block) :
    Block.recastOption ρ otherwise = otherwise.map (Block.recast ρ) := by
  cases otherwise <;> rfl

@[simp] theorem Expr.span_recast (e : Expr) : (e.recast ρ).span = ρ.place e.span := by
  cases e <;> rfl

@[simp] theorem Expr.isCall_recast (e : Expr) : (e.recast ρ).isCall = e.isCall := by
  cases e <;> rfl

@[simp] theorem Block.span_recast (b : Block) : (b.recast ρ).span = ρ.place b.span := by
  cases b
  rfl

/-! ## Where no name changes -/

section

variable (place : Span → Span)

abbrev Expr.relocate : Expr → Expr :=
  Expr.recast (.placing place)

abbrev FieldValue.relocate : FieldValue → FieldValue :=
  FieldValue.recast (.placing place)

abbrev Statement.relocate : Statement → Statement :=
  Statement.recast (.placing place)

abbrev Block.relocate : Block → Block :=
  Block.recast (.placing place)

abbrev Branch.relocate : Branch → Branch :=
  Branch.recast (.placing place)

abbrev Program.relocate : Program → Program :=
  Program.recast (.placing place)

end

/-- The same place for every region. -/
def Span.blank (_ : Span) : Span :=
  default

/-- Puts all parts of a tree in one place. -/
abbrev Recast.blank : Recast :=
  .placing Span.blank

abbrev Ident.bare : Ident → Ident :=
  Ident.relocate Span.blank

theorem Ident.bare_of_name {ident other : Ident} (same : ident.name = other.name) : ident.bare = other.bare :=
  congrArg (Ident.mk · default) same

abbrev TypeName.bare : TypeName → TypeName :=
  TypeName.relocate Span.blank

abbrev Param.bare : Param → Param :=
  Param.relocate Span.blank

abbrev FieldValue.bare : FieldValue → FieldValue :=
  FieldValue.recast .blank

abbrev Expr.bare : Expr → Expr :=
  Expr.recast .blank

abbrev VariableDecl.bare : VariableDecl → VariableDecl :=
  VariableDecl.recast .blank

abbrev Statement.bare : Statement → Statement :=
  Statement.recast .blank

abbrev Block.bare : Block → Block :=
  Block.recast .blank

abbrev Program.bare : Program → Program :=
  Program.recast .blank

/-! ## Where no region changes -/

abbrev Program.rename (r : String → String) : Program → Program :=
  Program.recast (.naming r)

end FrontEnd
