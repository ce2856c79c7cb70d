import FrontEnd.Proofs.Parsing.SimulationExpression
import FrontEnd.Tree.Parser.Statement

/-!
# Statements and programs follow themselves

Every production of statements follows itself, and so does the parser as a whole, whatever goes wrong on the way.
-/

namespace FrontEnd.Parser

def Attempt.relocate (place : Span → Span) (a : Attempt) : Attempt :=
  ⟨a.made.map (Statement.relocate place), a.complete⟩

theorem lastRegion_relocate (place : Span → Span) (first : Branch) (others : List Branch)
    (otherwise : Option Block) :
    lastRegion (first.relocate place) (others.map (Branch.relocate place))
      (otherwise.map (Block.relocate place)) = place (lastRegion first others otherwise) := by
  cases otherwise with
  | some body => exact body.span_recast (.placing place)
  | none =>
    have last : (others.map (Branch.relocate place)).getLastD (first.relocate place) =
        (others.getLastD first).relocate place := by
      rcases List.eq_nil_or_concat others with rfl | ⟨initial, last, rfl⟩ <;> simp
    show ((others.map (Branch.relocate place)).getLastD (first.relocate place)).body.span = _
    rw [last]
    exact Block.span_recast (.placing place) _

namespace Simulation

variable {sim : Simulation}

/-! ## Statements without blocks -/

/-- How productions of one statement follow. -/
abbrev FollowsSingle (sim : Simulation) (p q : Parser Statement) : Prop :=
  sim.Follows (Statement.relocate sim.place) (Statement.Named sim.IsName) p q

/-- How productions of statements follow. -/
abbrev FollowsAttempt (sim : Simulation) (p q : Parser Attempt) : Prop :=
  sim.Follows (Attempt.relocate sim.place) (fun tried => ∀ s ∈ tried.made, s.Named sim.IsName) p q

theorem follows_failed : FollowsAttempt sim (pure .failed) (pure .failed) :=
  follows_pure rfl (by simp [Attempt.failed])

theorem follows_single {p q : Parser Statement} (follows : FollowsSingle sim p q) :
    FollowsAttempt sim (single p) (single q) :=
  follows.attempt_bind (fun _ named => follows_pure rfl (by simpa using named)) follows_failed

theorem follows_assignment :
    sim.Follows (Prod.map (Ident.relocate sim.place) (Expr.relocate sim.place))
      (fun made => sim.IsName made.1.name ∧ made.2.Named sim.IsName) assignment assignment :=
  follows_ident.bind fun _ named => follows_consumeAssign.bind fun _ _ => follows_value.bind fun _ namedValue =>
    follows_pure rfl ⟨named, namedValue⟩

theorem follows_firstDeclaration :
    sim.Follows (Prod.map (TypeName.relocate sim.place) (Statement.relocate sim.place))
      (fun made => made.1.Plain sim.IsName ∧ made.2.Named sim.IsName) firstDeclaration firstDeclaration := by
  refine follows_typeName.bind fun type plain => follows_assignment.bind ?_
  rintro ⟨name, value⟩ ⟨named, namedValue⟩
  simp only [Prod.map_apply, Expr.span_recast]
  exact follows_joined_bind fun span => follows_pure rfl ⟨plain, plain, named, namedValue⟩

theorem follows_chainedDeclaration {type : TypeName} (plain : type.Plain sim.IsName) :
    FollowsSingle sim (chainedDeclaration type) (chainedDeclaration (type.relocate sim.place)) := by
  refine follows_assignment.bind ?_
  rintro ⟨name, value⟩ ⟨named, namedValue⟩
  simp only [Prod.map_apply, Expr.span_recast]
  exact follows_joined_bind fun span => follows_pure rfl ⟨plain, named, namedValue⟩

theorem follows_chainUpTo {type : TypeName} (plain : type.Plain sim.IsName) (n : Nat) :
    FollowsAttempt sim (chainUpTo type n) (chainUpTo (type.relocate sim.place) n) := by
  induction n with
  | zero => exact follows_ensure_bind follows_failed
  | succ n inductionHypothesis =>
    refine follows_take_bind fun continues => .ite ?_ ?_
    · refine (follows_chainedDeclaration plain).attempt_bind (fun s named => ?_) follows_failed
      exact inductionHypothesis.bind fun others each => follows_pure rfl (List.forall_mem_cons.mpr ⟨named, each⟩)
    · exact follows_consume.attempt_bind (fun _ _ => follows_pure rfl (by simp)) follows_failed

theorem follows_variableDecls : FollowsAttempt sim variableDecls variableDecls := by
  refine follows_firstDeclaration.attempt_bind ?_ follows_failed
  rintro ⟨type, s⟩ ⟨plain, named⟩
  refine follows_left_bind fun n => (follows_chainUpTo plain (n + 1)).bind fun others each => ?_
  exact follows_pure rfl (List.forall_mem_cons.mpr ⟨named, each⟩)

theorem follows_datatypeDecl : FollowsSingle sim datatypeDecl datatypeDecl :=
  follows_consume.bind fun _ _ => follows_ident.bind fun _ named => follows_consume.bind fun _ _ =>
    (follows_delimited follows_param).bind fun _ each => follows_consume.bind fun _ _ =>
      follows_joined_bind fun _ => follows_pure rfl ⟨named, each⟩

theorem follows_reassignment : FollowsSingle sim reassignment reassignment := by
  refine follows_assignment.bind ?_
  rintro ⟨target, value⟩ named
  exact follows_consume.bind fun _ _ => follows_joined_bind fun _ => follows_pure rfl named

theorem follows_results :
    sim.Follows (Expr.recastEach (.placing sim.place)) (Expr.EachNamed sim.IsName) results results := by
  rw [funext (Expr.recastEach_eq_map (.placing sim.place))]
  refine follows_peek_bind fun token _ => .ite (follows_pure rfl trivial) ?_
  exact (follows_separated follows_value).imp fun _ => Expr.eachNamed_iff.mpr

theorem follows_result : FollowsSingle sim result result :=
  follows_consume.bind fun _ _ => follows_results.bind fun _ each => follows_consume.bind fun _ _ =>
    follows_joined_bind fun _ => follows_pure rfl each

theorem follows_control : FollowsSingle sim control control :=
  follows_consumeAny.bind fun _ _ => follows_consume.bind fun _ _ => follows_joined_bind fun _ =>
    follows_pure rfl trivial

theorem follows_loopCondition :
    sim.Follows (Option.map (Expr.relocate sim.place)) (fun condition => ∀ e ∈ condition, e.Named sim.IsName)
      loopCondition loopCondition :=
  follows_peek_bind fun _ _ => .ite (follows_pure rfl (by simp))
    (follows_condition.bind fun _ named => follows_pure rfl (by simpa using named))

theorem follows_callStatement : FollowsSingle sim callStatement callStatement := by
  refine (follows_expression true).bind fun call named => follows_ensure_bind ?_
  refine follows_consume.bind fun last _ => ?_
  rw [Expr.span_recast]
  exact follows_joined_bind fun _ => follows_pure rfl named

/-! ## Statements with blocks -/

/-- How blocks follow. -/
abbrev FollowsBlock (sim : Simulation) (p q : Parser Block) : Prop :=
  sim.Follows (Block.relocate sim.place) (Block.Named sim.IsName) p q

theorem follows_returnTypes :
    sim.Follows (List.map (TypeName.relocate sim.place)) (fun returns => ∀ type ∈ returns, type.Plain sim.IsName)
      returnTypes returnTypes :=
  follows_take_bind fun _ => .ite (follows_separated follows_typeName) (follows_pure rfl (by simp))

section

variable {body bodyAgain : Parser Block} (followsBody : FollowsBlock sim body bodyAgain)

include followsBody

theorem follows_functionDecl : FollowsSingle sim (functionDecl body) (functionDecl bodyAgain) := by
  refine follows_consume.bind fun start _ => follows_ident.bind fun name named => ?_
  refine follows_consume.bind fun _ _ => (follows_delimited follows_param).bind fun params ofParams => ?_
  refine follows_consume.bind fun _ _ => follows_returnTypes.bind fun returns ofReturns => ?_
  refine followsBody.bind fun body namedBody => ?_
  rw [Block.span_recast]
  exact follows_joined_bind fun _ => follows_pure rfl ⟨named, ofParams, ofReturns, namedBody⟩

theorem follows_branch :
    sim.Follows (Branch.relocate sim.place) (Branch.Named sim.IsName) (branch body) (branch bodyAgain) :=
  follows_condition.bind fun _ named => followsBody.bind fun _ namedBody => follows_pure rfl ⟨named, namedBody⟩

theorem follows_branchesUpTo (n : Nat) :
    sim.Follows (List.map (Branch.relocate sim.place)) (fun branches => ∀ b ∈ branches, b.Named sim.IsName)
      (branchesUpTo body n) (branchesUpTo bodyAgain n) := by
  induction n with
  | zero => exact follows_ensure_bind (follows_pure rfl (by simp))
  | succ n inductionHypothesis =>
    refine follows_take_bind fun continues => .ite ?_ (follows_pure rfl (by simp))
    refine (follows_branch followsBody).bind fun first named => inductionHypothesis.bind fun others each => ?_
    exact follows_pure rfl (List.forall_mem_cons.mpr ⟨named, each⟩)

theorem follows_alternative :
    sim.Follows (Option.map (Block.relocate sim.place)) (Block.OptionNamed sim.IsName) (alternative body)
      (alternative bodyAgain) :=
  follows_take_bind fun _ => .ite (followsBody.bind fun _ named => follows_pure rfl named)
    (follows_pure rfl trivial)

theorem follows_conditional : FollowsSingle sim (conditional body) (conditional bodyAgain) := by
  refine follows_consume.bind fun start _ => (follows_branch followsBody).bind fun first named => ?_
  refine follows_left_bind fun n => (follows_branchesUpTo followsBody n).bind fun others each => ?_
  refine (follows_alternative followsBody).bind fun otherwise namedLast => ?_
  rw [lastRegion_relocate]
  refine follows_joined_bind fun span => follows_pure ?_ ?_
  · rw [Statement.relocate, Statement.recast, Branch.recastEach_eq_map, Block.recastOption_eq_map, List.map_cons]
    rfl
  · exact ⟨Branch.eachNamed_iff.mpr (List.forall_mem_cons.mpr ⟨named, each⟩), namedLast⟩

theorem follows_loop : FollowsSingle sim (loop body) (loop bodyAgain) := by
  refine follows_consume.bind fun start _ => follows_loopCondition.bind fun condition named => ?_
  refine followsBody.bind fun body namedBody => ?_
  rw [Block.span_recast]
  exact follows_joined_bind fun _ => follows_pure rfl ⟨named, namedBody⟩

theorem follows_blockStatement : FollowsSingle sim (blockStatement body) (blockStatement bodyAgain) := by
  refine followsBody.bind fun body named => follows_pure ?_ named
  rw [Block.span_recast]
  rfl

end

/-! ## All statements -/

theorem follows_nested {p q : Parser Statement} (follows : FollowsSingle sim p q) :
    FollowsAttempt sim (nested p) (nested q) := by
  refine follows_peek_bind fun keyword known => follows.attempt_bind (fun _ _ => ?_) follows_failed
  exact follows_report_bind known (by exact ⟨rfl, trivial⟩) (follows_pure rfl (by simp))

theorem follows_declaration (top : Bool) {p q : Parser Statement} (follows : FollowsSingle sim p q) :
    FollowsAttempt sim (declaration top p) (declaration top q) :=
  .ite (follows_single follows) (follows_nested follows)

theorem follows_namedStatement : FollowsAttempt sim namedStatement namedStatement := by
  refine follows_peekSecond_bind fun second known => ?_
  rw [Token.kind_relocate, Token.literal_relocate]
  cases second.kind with
  | identifier => exact follows_variableDecls
  | lParen | doubleColon => exact follows_single follows_callStatement
  | _ => exact .ite (follows_single follows_reassignment) (follows_single (follows_reject known ⟨rfl, trivial⟩))

section

variable {body bodyAgain : Parser Block} (followsBody : FollowsBlock sim body bodyAgain)

include followsBody

theorem follows_statementBody (top : Bool) :
    FollowsAttempt sim (statementBody body top) (statementBody bodyAgain top) := by
  refine follows_peek_bind fun token known => ?_
  rw [Token.kind_relocate]
  cases token.kind with
  | kwFun => exact follows_declaration top (follows_functionDecl followsBody)
  | kwDatatype => exact follows_declaration top follows_datatypeDecl
  | kwIf => exact follows_single (follows_conditional followsBody)
  | kwLoop => exact follows_single (follows_loop followsBody)
  | lBrace | kwBlock => exact follows_single (follows_blockStatement followsBody)
  | kwReturn => exact follows_single follows_result
  | kwBreak | kwContinue => exact follows_single follows_control
  | kwListOf | kwInt | kwString | kwBool => exact follows_variableDecls
  | identifier => exact follows_namedStatement
  | _ => exact follows_single (follows_reject known ⟨rfl, trivial⟩)

end

/-! ## Blocks and programs -/

/-- How sequences of statements follow. -/
abbrev FollowsEach (sim : Simulation) (p q : Parser (List Statement)) : Prop :=
  sim.Follows (List.map (Statement.relocate sim.place)) (fun made => ∀ s ∈ made, s.Named sim.IsName) p q

section

variable {statement statementAgain : Parser Attempt}
  (followsStatement : FollowsAttempt sim statement statementAgain) (ends stops : List TokenKind)

include followsStatement

theorem follows_sequenceUpTo (n : Nat) :
    FollowsEach sim (sequenceUpTo ends stops statement n) (sequenceUpTo ends stops statementAgain n) := by
  induction n with
  | zero => exact follows_ensure_bind (follows_pure rfl (by simp))
  | succ n inductionHypothesis =>
    refine follows_atEnd_bind fun atEnd => .ite (follows_pure rfl (by simp)) ?_
    refine followsStatement.bind fun tried each => ?_
    have others : FollowsEach sim
        (do return tried.made ++ (← sequenceUpTo ends stops statement n))
        (do return (tried.relocate sim.place).made ++ (← sequenceUpTo ends stops statementAgain n)) :=
      inductionHypothesis.bind fun rest eachRest =>
        follows_pure List.map_append (List.forall_mem_append.mpr ⟨each, eachRest⟩)
    refine .ite ?_ (follows_resync_bind fun _ => others)
    have stays : sim.Follows id (fun _ => True) (pure true) (pure true) := follows_pure rfl trivial
    exact stays.bind fun _ _ => others

theorem follows_sequence :
    FollowsEach sim (sequence ends stops statement) (sequence ends stops statementAgain) :=
  follows_left_bind fun n => follows_sequenceUpTo followsStatement ends stops n

theorem follows_block : FollowsBlock sim (block statement) (block statementAgain) := by
  refine follows_consumeAny.bind fun opening taken => ?_
  refine (follows_sequence followsStatement _ _).bind fun statements each => ?_
  have named : Statement.EachNamed sim.IsName statements := Statement.eachNamed_iff.mpr each
  have placed : ∀ span, Block.relocate sim.place ⟨statements, span⟩ =
      ⟨statements.map (Statement.relocate sim.place), sim.place span⟩ := by
    intro span
    rw [Block.relocate, Block.recast, Statement.recastEach_eq_map]
    rfl
  refine follows_peek_bind fun token _ => .ite ?_ ?_
  · refine follows_report_bind taken.2 (by exact ⟨rfl, trivial⟩) ?_
    exact follows_joined_bind fun span => follows_pure (placed span) named
  · refine follows_consume.bind fun last _ => ?_
    exact follows_joined_bind fun span => follows_pure (placed span) named

end

theorem follows_statementUpTo (n : Nat) (top : Bool) :
    FollowsAttempt sim (statementUpTo n top) (statementUpTo n top) := by
  induction n generalizing top with
  | zero => exact follows_ensure_bind follows_failed
  | succ n inductionHypothesis => exact follows_statementBody (follows_block (inductionHypothesis false)) top

theorem follows_statement : FollowsAttempt sim statement statement :=
  follows_left_bind fun n => follows_statementUpTo (n + 1) true

theorem follows_program : FollowsEach sim program program :=
  follows_sequence follows_statement [] [.kwFun, .kwDatatype]

end Simulation

/-- What holds before a run of the parser holds behind it, and the names in what is made are of their sort. -/
theorem Invariant.of_program (invariant : Invariant) {s t : State} {p : Option Program} (holds : invariant.Holds s)
    (ran : program.run s = (p, t)) : invariant.Holds t ∧ ∀ made ∈ p, ∀ x ∈ made, x.Named invariant.IsName := by
  have follows : Simulation.FollowsEach invariant.simulation program program := Simulation.follows_program
  obtain ⟨-, ⟨-, kept⟩, named⟩ := follows s s ⟨rfl, holds⟩
  rw [ran] at kept named
  exact ⟨kept, named⟩

end FrontEnd.Parser
