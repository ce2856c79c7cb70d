import FrontEnd.Proofs.Typing.Globals

/-!
# What checking leaves alone

A checker is changed by hand around every nested construct: scopes are opened and closed, the results of a
function and the number of loops are put in and taken out again. Behind a statement all of this is as it was
before (`Checker.statement_framed`), from whatever state the statement is checked. What is left of it is the
variable that it declares, and errors behind those that were there.
-/

namespace FrontEnd

namespace Scopes

variable (s : Scopes) (v : VariableSymbol)

theorem current_adding : (s.adding v).current = s.current.adding v := by
  obtain ⟨inner, global⟩ := s
  cases inner <;> rfl

theorem tail_tables_adding : (s.adding v).tables.tail = s.tables.tail := by
  obtain ⟨others, before, after⟩ := s.tables_adding v
  rw [before, after]
  rfl

theorem depth_adding : (s.adding v).depth = s.depth := by
  obtain ⟨inner, global⟩ := s
  cases inner <;> rfl

end Scopes

namespace Typing.Checker

/-- Between two states of a checker some variables were declared in the innermost scope, each unless its name
was taken there, and errors were added. Nothing else happened. -/
structure Framed (before after : Checker) (declared : List VariableSymbol) : Prop where
  library : after.library = before.library
  returns : after.returns = before.returns
  loopDepth : after.loopDepth = before.loopDepth
  depth : after.scopes.depth = before.scopes.depth
  current : after.scopes.current = declared.foldl SymbolTable.adding before.scopes.current
  /-- The scopes around the innermost one. -/
  outer : after.scopes.tables.tail = before.scopes.tables.tail
  functions : after.scopes.global.functions = before.scopes.global.functions
  datatypes : after.scopes.global.datatypes = before.scopes.global.datatypes
  errors : before.errors <+: after.errors

theorem Framed.refl (c : Checker) : c.Framed c [] :=
  ⟨rfl, rfl, rfl, rfl, rfl, rfl, rfl, rfl, List.prefix_rfl⟩

theorem Framed.trans {before between after : Checker} {first second : List VariableSymbol}
    (left : before.Framed between first) (right : between.Framed after second) :
    before.Framed after (first ++ second) where
  library := right.library.trans left.library
  returns := right.returns.trans left.returns
  loopDepth := right.loopDepth.trans left.loopDepth
  depth := right.depth.trans left.depth
  current := by rw [right.current, left.current, List.foldl_append]
  outer := right.outer.trans left.outer
  functions := right.functions.trans left.functions
  datatypes := right.datatypes.trans left.datatypes
  errors := left.errors.trans right.errors

theorem framed_moved (c : Checker) (errors : List (Located Error)) :
    c.Framed (c.moved c.scopes errors) [] :=
  ⟨rfl, rfl, rfl, rfl, rfl, rfl, rfl, rfl, List.prefix_append ..⟩

theorem framed_adding (c : Checker) (v : VariableSymbol) (errors : List (Located Error)) :
    c.Framed (c.moved (c.scopes.adding v) errors) [v] where
  library := rfl
  returns := rfl
  loopDepth := rfl
  depth := c.scopes.depth_adding v
  current := c.scopes.current_adding v
  outer := c.scopes.tail_tables_adding v
  functions := (c.scopes.global_adding v).1
  datatypes := (c.scopes.global_adding v).2
  errors := List.prefix_append ..

/-- What a statement declares in the scope it stands in. -/
def declaredBy (s : Statement) : List VariableSymbol :=
  (s.variableDecl?.map VariableSymbol.declaredBy).toList

theorem framed_behind (c : Checker) (s : Statement) (errors : List (Located Error)) :
    c.Framed (c.moved (c.scopes.behind s) errors) (declaredBy s) := by
  cases s with
  | declaration chained decl span => exact c.framed_adding (.ofDecl decl span) errors
  | _ => exact c.framed_moved errors

/-- From any state, a statement is checked without a fault, and what was there before is there behind it. Only
the declaration of a variable adds something to the innermost scope, its own name if that was free. -/
theorem statement_framed (c : Checker) {s : Statement} (calls : s.HoldsCalls) :
    ∃ behind, c.statement s = .ok behind ∧ c.Framed behind (declaredBy s) :=
  ⟨_, c.statement_eq s calls, c.framed_behind s _⟩

/-- In a function, in a loop and in a scope that has `x`: a function with a loop of its own that gives results,
leaves the loop and declares `x` in a branch. -/
theorem statement_framed_nested :
    let ident (name : String) : Ident := ⟨name, default⟩
    let int : TypeName := ⟨.int, false, default⟩
    let x (value : Int) : VariableDecl := ⟨int, ident "x", .int value default⟩
    let c : Checker :=
      { start .empty with
        scopes := ⟨[⟨[], [], [.ofDecl (x 0) default]⟩], .empty⟩
        returns := some [.bool]
        loopDepth := 1 }
    let branch : Branch := ⟨.bool true default, ⟨[.declaration false (x 1) default], default⟩⟩
    let inside : List Statement :=
      [.conditional [branch] none default, .control .exit default, .result [.int 1 default] default]
    let s : Statement :=
      .function ⟨ident "f", [⟨int, ident "x"⟩], [int], ⟨[.loop none ⟨inside, default⟩ default], default⟩⟩
        default
    s.HoldsCalls ∧ ∃ behind, c.statement s = .ok behind ∧ c.Framed behind [] := by
  intro ident int x c branch inside s
  have calls : s.HoldsCalls := ⟨⟨⟨⟨⟨trivial, trivial⟩, trivial⟩, trivial⟩, trivial, trivial, trivial⟩, trivial⟩
  exact ⟨calls, c.statement_framed calls⟩

/-- Of a run of statements the first declaration of each name stays that was free. -/
theorem statements_framed (c : Checker) {statements : List Statement}
    (calls : Statement.EachHoldsCalls statements) :
    ∃ behind, c.statements statements = .ok behind ∧ c.Framed behind (statements.flatMap declaredBy) := by
  induction statements generalizing c with
  | nil => exact ⟨c, rfl, .refl c⟩
  | cons s rest inductionHypothesis =>
    have first := c.framed_behind s (c.toSite.found s)
    obtain ⟨behind, ran, others⟩ :=
      inductionHypothesis (c.moved (c.scopes.behind s) (c.toSite.found s)) calls.2
    refine ⟨behind, ?_, first.trans others⟩
    rw [Checker.statements, c.statement_eq s calls.1]
    exact ran

end Typing.Checker

end FrontEnd
