import FrontEnd.Proofs.Typing.ErrorKinds
import Mathlib.Data.List.Basic

/-!
# What statements are inside of

Whether a statement may leave a loop or give results is a matter of what it stands inside of. A program is
taken apart here into all that is checked by itself, in its order, with the constructs around each
(`Program.points`). Errors about control are told by these alone: a function ends the loops around it, and hides
the functions around it. For the checker this is a number of loops and a list of results which it puts in and
takes out again around every body; the invariant is that they are those of the constructs around
(`Site.Stands`).
-/

namespace FrontEnd

/-- A construct with statements inside. -/
inductive Enclosure where
  | function (decl : FunctionDecl)
  | loop
  /-- A branch of a conditional or a block, neither of which matters to control. -/
  | block

namespace Enclosure

def function? : Enclosure → Option FunctionDecl
  | function decl => some decl
  | _ => none

def isLoop : Enclosure → Bool
  | loop => true
  | _ => false

/-- The innermost function among the constructs around, which stand the innermost first. -/
def innermost? (around : List Enclosure) : Option FunctionDecl :=
  around.findSome? function?

/-- Whether there is a loop between a statement and the innermost function around it, or the top level. -/
def inLoop (around : List Enclosure) : Bool :=
  (around.takeWhile fun enclosure => enclosure.function?.isNone).any isLoop

end Enclosure

/-- What is checked by itself: the header of a function, a condition, or a statement with no others inside. -/
inductive Subject where
  | header (params : List Param) (returns : List TypeName)
  | datatype (decl : DatatypeDecl)
  | declaration (decl : VariableDecl)
  | reassignment (target : Ident) (value : Expr)
  | condition (e : Expr)
  | result (values : List Expr) (span : Span)
  | call (e : Expr)
  | control (kind : LoopControl) (span : Span)

/-- Whether it matters what is around. -/
def Subject.isControl : Subject → Bool
  | result .. | control .. => true
  | _ => false

/-- Something that is checked by itself, in its place in a program. -/
structure Point where
  /-- The constructs around, the innermost first. -/
  around : List Enclosure
  /-- The names in scope. -/
  scopes : Scopes
  subject : Subject

mutual

/-- All that is checked by itself in a statement, in the order of the text. -/
def Statement.points (around : List Enclosure) (scopes : Scopes) : Statement → List Point
  | .function ⟨name, params, returns, ⟨body, region⟩⟩ _ =>
    ⟨around, scopes, .header params returns⟩ ::
      Statement.pointsEach (.function ⟨name, params, returns, ⟨body, region⟩⟩ :: around)
        (scopes.push.addingParams params) body
  | .datatype decl _ => [⟨around, scopes, .datatype decl⟩]
  | .declaration _ decl _ => [⟨around, scopes, .declaration decl⟩]
  | .reassignment target value _ => [⟨around, scopes, .reassignment target value⟩]
  | .conditional branches otherwise _ =>
    Branch.pointsEach around scopes branches ++ Block.pointsOption around scopes otherwise
  | .loop condition body _ =>
    (condition.map fun e => ⟨around, scopes, .condition e⟩).toList ++ body.points (.loop :: around) scopes
  | .block body _ => body.points (.block :: around) scopes
  | .result values span => [⟨around, scopes, .result values span⟩]
  | .call call _ => [⟨around, scopes, .call call⟩]
  | .control kind span => [⟨around, scopes, .control kind span⟩]

def Statement.pointsEach (around : List Enclosure) (scopes : Scopes) : List Statement → List Point
  | [] => []
  | s :: rest => s.points around scopes ++ Statement.pointsEach around (scopes.behind s) rest

/-- The points of a body, given all that is around its statements. -/
def Block.points (around : List Enclosure) (scopes : Scopes) : Block → List Point
  | ⟨body, _⟩ => Statement.pointsEach around scopes.push body

def Branch.pointsEach (around : List Enclosure) (scopes : Scopes) : List Branch → List Point
  | [] => []
  | ⟨condition, body⟩ :: rest =>
    ⟨around, scopes, .condition condition⟩ :: body.points (.block :: around) scopes ++
      Branch.pointsEach around scopes rest

def Block.pointsOption (around : List Enclosure) (scopes : Scopes) : Option Block → List Point
  | none => []
  | some body => body.points (.block :: around) scopes

end

/-- All that is checked by itself in a program. Nothing is around its statements, and its functions and datatypes
are known from the start. -/
def Program.points (p : Program) : List Point :=
  Statement.pointsEach [] (Scopes.start.registeringEach p) p

namespace Point

open Typing (Error Env Judgement)

/-! ## Errors of control -/

/-- The error of leaving a loop or starting its next round where no loop is around. -/
def strayControl? (point : Point) : Option (Located Error) :=
  match point.subject with
  | .control kind span => if Enclosure.inLoop point.around then none else some ⟨.controlOutsideLoop kind, span⟩
  | _ => none

/-- The error of giving results where no function is around. -/
def strayResult? (point : Point) : Option (Located Error) :=
  match point.subject, Enclosure.innermost? point.around with
  | .result _ span, none => some ⟨.resultOutsideFunction, span⟩
  | _, _ => none

/-- The error of giving another number of results than the innermost function has. -/
def miscount? (point : Point) : Option (Located Error) :=
  match point.subject, Enclosure.innermost? point.around with
  | .result values span, some decl =>
    if decl.returns.length = values.length then none
    else some ⟨.resultCount decl.returns.length values.length, span⟩
  | _, _ => none

/-- The errors about control at a point. There is one at most. -/
def misplaced (point : Point) : List (Located Error) :=
  point.strayControl?.toList ++ point.strayResult?.toList ++ point.miscount?.toList

/-- The errors of the types of results, by the innermost function only: if it has as many, each result is
required to be of the type in its place. -/
def mistypedResults (library : Library) (point : Point) : List (Located Error) :=
  match point.subject, Enclosure.innermost? point.around with
  | .result values _, some decl =>
    if decl.returns.length = values.length then
      Typing.requireEach (decl.returns.map TypeName.tag) ((⟨library, point.scopes⟩ : Env).inferEach values)
    else []
  | _, _ => []

/-- The errors at a point for which it does not matter what is around. -/
def plainErrors (library : Library) (point : Point) : List (Located Error) :=
  let env : Env := ⟨library, point.scopes⟩
  match point.subject with
  | .header params returns =>
    returns.flatMap env.typeErrors ++ ({ env with scopes := env.scopes.push } : Env).paramErrors params
  | .datatype decl => env.datatypeErrors decl
  | .declaration decl => env.declarationErrors decl ++ env.duplicateErrors decl.name
  | .reassignment target value => env.reassignmentErrors target value
  | .condition e => env.conditionErrors e
  | .result values _ => Judgement.allErrors (env.inferEach values)
  | .call e => env.callErrors e
  | .control .. => []

/-- All errors at a point. -/
def errors (library : Library) (point : Point) : List (Located Error) :=
  point.plainErrors library ++ point.misplaced ++ point.mistypedResults library

theorem errors_of_plain (library : Library) {point : Point} (plain : point.subject.isControl = false) :
    point.errors library = point.plainErrors library := by
  obtain ⟨around, scopes, subject⟩ := point
  cases subject with
  | result | control => cases plain
  | _ => simp [errors, misplaced, strayControl?, strayResult?, miscount?, mistypedResults]

end Point

namespace Typing

/-! ## The checker knows what is around -/

namespace Site

/-- Whether a site is inside of some constructs: it has the results of the innermost function, and a loop if there
is one inside of that. -/
structure Stands (site : Site) (around : List Enclosure) : Prop where
  returns : site.returns = (Enclosure.innermost? around).map fun decl => decl.returns.map TypeName.tag
  loops : site.loopDepth = 0 ↔ Enclosure.inLoop around = false

variable {site : Site} {around : List Enclosure}

theorem Stands.within (stands : site.Stands around) (scopes : Scopes) : (site.within scopes).Stands around :=
  ⟨stands.returns, stands.loops⟩

theorem Stands.inBlock (stands : site.Stands around) : site.Stands (.block :: around) :=
  ⟨stands.returns, stands.loops⟩

theorem Stands.inLoop (stands : site.Stands around) : site.inLoop.Stands (.loop :: around) where
  returns := stands.returns
  loops := by simp [Site.inLoop, Enclosure.inLoop, Enclosure.function?, Enclosure.isLoop]

/-- Whatever is around a function, there is no loop around the statements of its body yet, and its own results
are asked for. -/
theorem stands_ofBody (site : Site) (around : List Enclosure) (decl : FunctionDecl) :
    (site.ofBody decl.params decl.returns).Stands (.function decl :: around) where
  returns := rfl
  loops := by simp [ofBody, inFunction, Enclosure.inLoop, Enclosure.function?]

theorem Stands.resultErrors (stands : site.Stands around) (values : List Expr) (span : Span) :
    site.resultErrors values span = (Point.mk around site.scopes (.result values span)).errors site.library := by
  rw [Site.resultErrors, stands.returns, length_inferEach]
  cases innermost : Enclosure.innermost? around with
  | none =>
    simp [Point.errors, Point.plainErrors, Point.misplaced, Point.strayControl?, Point.strayResult?,
      Point.miscount?, Point.mistypedResults, innermost]
  | some decl =>
    by_cases count : decl.returns.length = values.length <;>
      simp [Point.errors, Point.plainErrors, Point.misplaced, Point.strayControl?, Point.strayResult?,
        Point.miscount?, Point.mistypedResults, innermost, count]

theorem Stands.controlErrors (stands : site.Stands around) (kind : LoopControl) (span : Span) :
    site.controlErrors kind span = (Point.mk around site.scopes (.control kind span)).errors site.library := by
  cases inside : Enclosure.inLoop around with
  | false =>
    have depth : site.loopDepth = 0 := stands.loops.mpr inside
    simp [Site.controlErrors, Point.errors, Point.plainErrors, Point.misplaced, Point.strayControl?,
      Point.strayResult?, Point.miscount?, Point.mistypedResults, inside, depth]
  | true =>
    have depth : site.loopDepth ≠ 0 := fun none => by simp [stands.loops.mp none] at inside
    simp [Site.controlErrors, Point.errors, Point.plainErrors, Point.misplaced, Point.strayControl?,
      Point.strayResult?, Point.miscount?, Point.mistypedResults, inside, depth]

mutual

/-- What is found in a statement is what is found at its points, each of them by what is around it. -/
theorem found_eq_points {site : Site} {around : List Enclosure} (stands : site.Stands around) (s : Statement) :
    site.found s = (s.points around site.scopes).flatMap (Point.errors site.library) := by
  match s with
  | .function ⟨name, params, returns, ⟨body, region⟩⟩ span =>
    have stands := site.stands_ofBody around ⟨name, params, returns, ⟨body, region⟩⟩
    rw [found, foundEach_eq_points stands body, Statement.points, List.flatMap_cons,
      Point.errors_of_plain _ rfl]
    rfl
  | .datatype .. | .declaration .. | .reassignment .. | .call .. =>
    rw [found, Statement.points, List.flatMap_singleton, Point.errors_of_plain _ rfl]
    rfl
  | .conditional branches otherwise span =>
    rw [found, foundBranches_eq_points stands branches, foundOption_eq_points stands otherwise,
      ← List.flatMap_append, Statement.points]
  | .loop condition body span =>
    rw [found, foundBlock_eq_points stands.inLoop body, Statement.points, List.flatMap_append]
    cases condition with
    | none => rfl
    | some e =>
      rw [Option.map_some, Option.map_some, Option.toList_some, List.flatMap_singleton, Point.errors_of_plain _ rfl]
      rfl
  | .block body span => exact foundBlock_eq_points stands.inBlock body
  | .result values span =>
    rw [found, stands.resultErrors, Statement.points, List.flatMap_singleton]
  | .control kind span =>
    rw [found, stands.controlErrors, Statement.points, List.flatMap_singleton]

theorem foundEach_eq_points {site : Site} {around : List Enclosure} (stands : site.Stands around)
    (statements : List Statement) :
    site.foundEach statements =
      (Statement.pointsEach around site.scopes statements).flatMap (Point.errors site.library) := by
  match statements with
  | [] => rfl
  | s :: rest =>
    have behind := foundEach_eq_points (stands.within (site.scopes.behind s)) rest
    rw [foundEach, found_eq_points stands s, behind, Statement.pointsEach, List.flatMap_append]
    rfl

theorem foundBlock_eq_points {site : Site} {around : List Enclosure} (stands : site.Stands around) (b : Block) :
    site.foundBlock b = (b.points around site.scopes).flatMap (Point.errors site.library) := by
  match b with
  | ⟨body, region⟩ => exact foundEach_eq_points (stands.within site.scopes.push) body

theorem foundBranches_eq_points {site : Site} {around : List Enclosure} (stands : site.Stands around)
    (branches : List Branch) :
    site.foundBranches branches =
      (Branch.pointsEach around site.scopes branches).flatMap (Point.errors site.library) := by
  match branches with
  | [] => rfl
  | ⟨condition, body⟩ :: rest =>
    rw [foundBranches, foundBlock_eq_points stands.inBlock body, foundBranches_eq_points stands rest,
      Branch.pointsEach, List.flatMap_append, List.flatMap_cons, Point.errors_of_plain _ rfl]
    rfl

theorem foundOption_eq_points {site : Site} {around : List Enclosure} (stands : site.Stands around)
    (otherwise : Option Block) :
    site.foundOption otherwise =
      (Block.pointsOption around site.scopes otherwise).flatMap (Point.errors site.library) := by
  match otherwise with
  | none => rfl
  | some body => exact foundBlock_eq_points stands.inBlock body

end

end Site

/-! ## Errors of control among others -/

def Error.isControlOutsideLoop : Error → Bool
  | .controlOutsideLoop _ => true
  | _ => false

def Error.isResultOutsideFunction : Error → Bool
  | .resultOutsideFunction => true
  | _ => false

def Error.isResultCount : Error → Bool
  | .resultCount .. => true
  | _ => false

/-- Whether an error is about control, for which it matters what is around. -/
def Error.isOfControl (e : Error) : Bool :=
  e.isControlOutsideLoop || e.isResultOutsideFunction || e.isResultCount

theorem Error.notOfControl_of_isOfExpression (e : Error) (ofExpression : e.isOfExpression = true) :
    (!e.isOfControl) = true := by
  cases e with
  | controlOutsideLoop | resultOutsideFunction | resultCount => cases ofExpression
  | _ => rfl

end Typing

namespace Point

open Typing

theorem notOfControl_plainErrors (library : Library) (point : Point) :
    Only (fun e => !e.isOfControl) (point.plainErrors library) := by
  have ofExpression := Error.notOfControl_of_isOfExpression
  obtain ⟨around, scopes, subject⟩ := point
  cases subject with
  | header params returns =>
    refine only_append.mpr ⟨only_flatMap.mpr fun type _ => ?_, ?_⟩
    · exact only_typeErrors (fun _ => rfl) _ type
    · exact only_paramErrors (fun _ => rfl) (fun _ _ => rfl) _ params
  | datatype decl => exact only_datatypeErrors (fun _ => rfl) (fun _ _ => rfl) _ _ _ decl.fields
  | declaration decl =>
    refine only_append.mpr ⟨(only_declarationErrors _ decl).imp ofExpression, ?_⟩
    exact only_duplicateErrors (fun _ _ => rfl) _ decl.name
  | reassignment target value => exact (only_reassignmentErrors _ target value).imp ofExpression
  | condition e => exact (only_conditionErrors _ e).imp ofExpression
  | result values span => exact (only_allErrors (only_inferEach _ values)).imp ofExpression
  | call e => exact (only_call _ e).imp ofExpression
  | control => exact only_nil

theorem notOfControl_mistypedResults (library : Library) (point : Point) :
    Only (fun e => !e.isOfControl) (point.mistypedResults library) := by
  unfold mistypedResults
  split
  · split
    · exact (only_requireEach _ _).imp Error.notOfControl_of_isOfExpression
    · exact only_nil
  · exact only_nil

/-- The three errors of control are told apart by their kinds. -/
theorem filter_misplaced (point : Point) :
    point.misplaced.filter (fun e => e.value.isControlOutsideLoop) = point.strayControl?.toList ∧
      point.misplaced.filter (fun e => e.value.isResultOutsideFunction) = point.strayResult?.toList ∧
      point.misplaced.filter (fun e => e.value.isResultCount) = point.miscount?.toList := by
  obtain ⟨around, scopes, subject⟩ := point
  cases subject with
  | control kind span =>
    cases inside : Enclosure.inLoop around <;>
      simp [misplaced, strayControl?, strayResult?, miscount?, inside, Error.isControlOutsideLoop,
        Error.isResultOutsideFunction, Error.isResultCount]
  | result values span =>
    cases innermost : Enclosure.innermost? around with
    | none =>
      simp [misplaced, strayControl?, strayResult?, miscount?, innermost, Error.isControlOutsideLoop,
        Error.isResultOutsideFunction, Error.isResultCount]
    | some decl =>
      by_cases count : decl.returns.length = values.length <;>
        simp [misplaced, strayControl?, strayResult?, miscount?, innermost, count, Error.isControlOutsideLoop,
          Error.isResultOutsideFunction, Error.isResultCount]
  | _ => simp [misplaced, strayControl?, strayResult?, miscount?]

/-- Errors of control are found at a point only for what is around it. -/
theorem filter_errors {f : Error → Bool} (apart : ∀ e, (!e.isOfControl) = true → f e = false)
    (library : Library) (point : Point) :
    (point.errors library).filter (fun e => f e.value) = point.misplaced.filter fun e => f e.value := by
  rw [errors, List.filter_append, List.filter_append, (point.notOfControl_plainErrors library).filter_eq_nil apart,
    (point.notOfControl_mistypedResults library).filter_eq_nil apart, List.nil_append, List.append_nil]

end Point

/-! ## Programs -/

namespace Program

open Typing

theorem stands_site (library : Library) (p : Program) : (p.site library).Stands [] :=
  ⟨rfl, by simp [site, Enclosure.inLoop]⟩

theorem found_eq_points (library : Library) (p : Program) :
    p.found library = Scopes.start.registerEachErrors p ++ p.points.flatMap (Point.errors library) := by
  rw [found, Site.foundEach_eq_points (stands_site library p)]
  rfl

/-- Errors of control are found at the points of a program only, each kind of them one by one. -/
theorem filter_found {f : Error → Bool} (apart : ∀ e, (!e.isOfControl) = true → f e = false)
    {own? : Point → Option (Located Error)}
    (own : ∀ point, point.misplaced.filter (fun e => f e.value) = (own? point).toList) (library : Library)
    (p : Program) : (p.found library).filter (fun e => f e.value) = p.points.filterMap own? := by
  have registered : Only (fun e => !e.isOfControl) (Scopes.start.registerEachErrors p) := by
    refine (Scopes.start.only_registerEachErrors p).imp fun e ofRegistry => ?_
    cases e with
    | duplicateFunction | duplicateDatatype => rfl
    | _ => cases ofRegistry
  rw [found_eq_points, List.filter_append, registered.filter_eq_nil apart, List.nil_append, List.filter_flatMap,
    List.filterMap_eq_flatMap_toList]
  simp only [Point.filter_errors apart, own]

/-- Control is judged by what a statement is inside of. Of the errors that a check reports, in the order of the
program, those of leaving loops are one for each such statement with no loop inside of the innermost function
around it; those of results outside of functions are one for each statement that gives results and has no
function around it; and with a function around, results are counted and required to be of types by the innermost
one alone. -/
theorem check_control (library : Library) {p : Program} (calls : Statement.EachHoldsCalls p) :
    ∃ o, p.check library = .ok o ∧
      o.errors.filter (fun e => e.value.isControlOutsideLoop) = p.points.filterMap Point.strayControl? ∧
      o.errors.filter (fun e => e.value.isResultOutsideFunction) = p.points.filterMap Point.strayResult? ∧
      o.errors.filter (fun e => e.value.isResultCount) = p.points.filterMap Point.miscount? ∧
      o.errors = Scopes.start.registerEachErrors p ++ p.points.flatMap (Point.errors library) := by
  obtain ⟨globals, checked⟩ := check_eq library calls
  refine ⟨_, checked, ?controls, ?results, ?counts, found_eq_points library p⟩
  case controls =>
    have apart : ∀ e : Error, (!e.isOfControl) = true → e.isControlOutsideLoop = false := by
      simp +contextual [Error.isOfControl]
    exact filter_found apart (fun point => point.filter_misplaced.1) library p
  case results =>
    have apart : ∀ e : Error, (!e.isOfControl) = true → e.isResultOutsideFunction = false := by
      simp +contextual [Error.isOfControl]
    exact filter_found apart (fun point => point.filter_misplaced.2.1) library p
  case counts =>
    have apart : ∀ e : Error, (!e.isOfControl) = true → e.isResultCount = false := by
      simp +contextual [Error.isOfControl]
    exact filter_found apart (fun point => point.filter_misplaced.2.2) library p

/-- In a loop, a function leaves no loop, and around one more function with a loop of its own it gives a result of a
wrong type, while that one gives too few. Behind the loop, a result is given and a block is left. -/
theorem check_control_nested :
    let region (line : Nat) : Span := ⟨0, 0, line, 0⟩
    let ident (name : String) : Ident := ⟨name, default⟩
    let int : TypeName := ⟨.int, false, default⟩
    let bool : TypeName := ⟨.bool, false, default⟩
    let further : List Statement :=
      [.result [.bool true default] (region 2),
        .loop none ⟨[.control .next default], default⟩ default]
    let body : List Statement :=
      [.control .exit (region 1), .function ⟨ident "g", [], [bool, bool], ⟨further, default⟩⟩ default,
        .result [.bool true (region 3)] default]
    let p : Program :=
      [.loop none ⟨[.function ⟨ident "f", [], [int], ⟨body, default⟩⟩ default, .control .exit default], default⟩
          default,
        .result [.int 1 default] (region 4), .block ⟨[.control .next (region 5)], default⟩ default]
    Statement.EachHoldsCalls p ∧
      ∃ o, p.check .empty = .ok o ∧
        o.errors.filter (fun e => e.value.isControlOutsideLoop) =
          [⟨.controlOutsideLoop .exit, region 1⟩, ⟨.controlOutsideLoop .next, region 5⟩] ∧
        o.errors.filter (fun e => e.value.isResultOutsideFunction) = [⟨.resultOutsideFunction, region 4⟩] ∧
        o.errors.filter (fun e => e.value.isResultCount) = [⟨.resultCount 2 1, region 2⟩] ∧
        o.errors = [⟨.controlOutsideLoop .exit, region 1⟩, ⟨.resultCount 2 1, region 2⟩,
          ⟨.typeMismatch .int (.known .bool), region 3⟩, ⟨.resultOutsideFunction, region 4⟩,
          ⟨.controlOutsideLoop .next, region 5⟩] := by
  intro region ident int bool further body p
  have calls : Statement.EachHoldsCalls p :=
    ⟨⟨⟨trivial, ⟨trivial, ⟨trivial, trivial⟩, trivial⟩, trivial, trivial⟩, trivial, trivial⟩, trivial,
      ⟨trivial, trivial⟩, trivial⟩
  exact ⟨calls, check_control .empty calls⟩

end Program

end FrontEnd
