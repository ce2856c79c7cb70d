import FrontEnd.Proofs.Typing.Found

/-!
# Occurrences of variables

Where a name of a variable is in scope is a matter of the tree alone. The scope of a declaration is the
innermost function, branch, loop body or block around it, or the program, from behind the declaration to
its end, with all that is nested inside; the parameters of a function are in the scope of its body. So a
point of a program is told by what stands before it in each of the scopes around it, and every use and
every declaration of a variable is listed here together with its point.
-/

namespace FrontEnd

/-- A declaration of a variable as others see it: the name, and the region that errors refer to. -/
structure Declared where
  name : String
  span : Span

/-- What a parameter declares. -/
def Param.declared (p : Param) : Declared :=
  ⟨p.name.name, p.name.span⟩

/-- What a statement declares in the scope it stands in. -/
def Statement.declared? : Statement → Option Declared
  | .declaration _ decl span => some ⟨decl.name.name, span⟩
  | _ => none

/-- A scope up to some point in it: the parameters, if it is that of a function, and the statements
before the point. -/
structure Frame where
  params : List Param
  before : List Statement

namespace Frame

/-- The frame at the start of a scope without parameters. -/
def start : Frame := ⟨[], []⟩

/-- The frame behind one more parameter. -/
def behindParam (frame : Frame) (p : Param) : Frame :=
  { frame with params := frame.params ++ [p] }

/-- The frame behind one more statement. -/
def behind (frame : Frame) (s : Statement) : Frame :=
  { frame with before := frame.before ++ [s] }

/-- All that is declared in a scope before the point. -/
def declared (frame : Frame) : List Declared :=
  frame.params.map Param.declared ++ frame.before.filterMap Statement.declared?

/-- The first declaration of a name in a scope before the point. -/
def first? (frame : Frame) (name : String) : Option Declared :=
  frame.declared.find? fun d => d.name = name

end Frame

/-- A point of a program: the scopes around it, the innermost first. -/
abbrev Place := List Frame

/-- Whether a declaration of the name is in scope at the place. -/
def Place.Declares (place : Place) (name : String) : Prop :=
  ∃ frame ∈ place, ∃ d ∈ frame.declared, d.name = name

instance (place : Place) (name : String) : Decidable (place.Declares name) :=
  inferInstanceAs (Decidable (∃ frame ∈ place, ∃ d ∈ frame.declared, d.name = name))

/-- An occurrence of the name of a variable. -/
inductive Occurrence where
  /-- A use at a place: an expression that is a name, or the target of a reassignment. -/
  | use (ident : Ident) (place : Place)
  /-- A declaration behind a part of its scope. -/
  | declaration (ident : Ident) (frame : Frame)

namespace Occurrence

/-- The error of a use for which no declaration is in scope. -/
def undeclared? : Occurrence → Option (Located Typing.Error)
  | use ident place =>
    if place.Declares ident.name then none
    else some ⟨.undeclaredVariable ident.name, ident.span⟩
  | declaration .. => none

/-- The error of a declaration of a name that was declared before in the same scope. -/
def duplicate? : Occurrence → Option (Located Typing.Error)
  | use .. => none
  | declaration ident frame =>
    (frame.first? ident.name).map fun first =>
      ⟨.duplicateVariable ident.name first.span, ident.span⟩

end Occurrence

mutual

/-- The names that an expression uses, from left to right. -/
def Expr.names : Expr → List Ident
  | .int .. | .string .. | .bool .. | .missing .. => []
  | .name ident _ => [ident]
  | .record _ fields _ => FieldValue.namesEach fields
  | .operation _ operands _ => Expr.namesEach operands
  | .call _ args _ | .libraryCall _ _ args _ => Expr.namesEach args
  | .list items _ => Expr.namesEach items

def Expr.namesEach : List Expr → List Ident
  | [] => []
  | e :: es => e.names ++ Expr.namesEach es

def FieldValue.namesEach : List FieldValue → List Ident
  | [] => []
  | ⟨_, value⟩ :: fields => value.names ++ FieldValue.namesEach fields

end

/-- The use of names at a place. -/
def Place.uses (place : Place) (names : List Ident) : List Occurrence :=
  names.map fun ident => .use ident place

/-- The parameters of a function, behind a part of its scope. -/
def Frame.occurrences (frame : Frame) : List Param → List Occurrence
  | [] => []
  | p :: ps => .declaration p.name frame :: (frame.behindParam p).occurrences ps

mutual

/-- The occurrences in a statement, behind `frame` in its scope and inside of the scopes `outer`. The
value of a declaration or a reassignment comes before the name. -/
def Statement.occurrences (outer : Place) (frame : Frame) : Statement → List Occurrence
  | .function ⟨_, params, _, ⟨body, _⟩⟩ _ =>
    Frame.start.occurrences params ++ Statement.occurrencesEach (frame :: outer) ⟨params, []⟩ body
  | .datatype .. | .control .. => []
  | .declaration _ decl _ =>
    Place.uses (frame :: outer) decl.value.names ++ [.declaration decl.name frame]
  | .reassignment target value _ => Place.uses (frame :: outer) (value.names ++ [target])
  | .conditional branches otherwise _ =>
    Branch.occurrencesEach (frame :: outer) branches ++
      Block.occurrencesOption (frame :: outer) otherwise
  | .loop condition body _ =>
    Place.uses (frame :: outer) ((condition.map Expr.names).getD []) ++
      body.occurrences (frame :: outer)
  | .block body _ => body.occurrences (frame :: outer)
  | .result values _ => Place.uses (frame :: outer) (Expr.namesEach values)
  | .call call _ => Place.uses (frame :: outer) call.names

/-- The occurrences in some statements. What one declares is in scope behind it. -/
def Statement.occurrencesEach (outer : Place) (frame : Frame) : List Statement → List Occurrence
  | [] => []
  | s :: rest => s.occurrences outer frame ++ Statement.occurrencesEach outer (frame.behind s) rest

def Block.occurrences (outer : Place) : Block → List Occurrence
  | ⟨body, _⟩ => Statement.occurrencesEach outer .start body

def Branch.occurrencesEach (outer : Place) : List Branch → List Occurrence
  | [] => []
  | ⟨condition, body⟩ :: rest =>
    outer.uses condition.names ++ body.occurrences outer ++ Branch.occurrencesEach outer rest

def Block.occurrencesOption (outer : Place) : Option Block → List Occurrence
  | none => []
  | some body => body.occurrences outer

end

/-- All occurrences of variables in a program. -/
def Program.occurrences (p : Program) : List Occurrence :=
  Statement.occurrencesEach [] .start p

end FrontEnd
