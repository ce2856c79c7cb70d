import FrontEnd.Proofs.Parsing.CompletesExpression
import FrontEnd.Tree.Parser.Statement

/-!
# What a silent run of a statement derives

Every statement is a phrase of the lenient grammar, and an attempt at one that reports nothing is complete. A
declaration of a function or a datatype is an item of a program only; elsewhere it is reported. A statement inside
of another one starts behind at least one token, so that it never runs out of depth.
-/

namespace FrontEnd.Parser

open Surface

variable {before whole : List Part} {s : State} {n : Nat}

/-! ## Attempts -/

/-- Whether an attempt that reports nothing is complete, and derives something. -/
def CompletesAttempt (before whole : List Part) (p : Parser Attempt) (s : State) : Prop :=
  Completes before whole p s fun tried => tried.complete = true

/-- An attempt at what is read in silence is complete. -/
theorem completes_single {p : Parser Statement} (completes : Completes [] whole p s) :
    CompletesAttempt [] whole (single p) s :=
  completes.attempt_bind fun _ _ _ _ => completes_pure rfl (.refl _)

/-! ## Declarations of variables, reassignments and other single statements -/

/-- The letters of a name, the sign of an assignment and a value. -/
def assignmentParts : List Part :=
  [word .identifier, .terminal .assign, sub .expression]

theorem completes_assignment : Completes [] assignmentParts assignment s := by
  refine completes_ident.bind fun name t _ _ => completes_consumeAssign_bind fun _ u _ => ?_
  exact completes_value.bind fun value v _ _ => completes_pure trivial (.refl _)

theorem completes_firstDeclaration : Completes [] (sub .type :: assignmentParts) firstDeclaration s := by
  refine completes_typeName.bind fun type t _ _ => completes_assignment.bind fun _ u _ _ => ?_
  exact completes_joined_bind (completes_pure trivial (.refl _))

theorem completes_chainedDeclaration {type : TypeName} :
    Completes [] assignmentParts (chainedDeclaration type) s :=
  completes_assignment.bind fun _ _ _ _ => completes_joined_bind (completes_pure trivial (.refl _))

/-- There have to be rounds enough to take all commas. -/
theorem completes_chainUpTo {type : TypeName} {rounds : Nat} {s : State} (enough : s.ahead.length < rounds) :
    CompletesAttempt [] [sub .chain] (chainUpTo type rounds) s := by
  induction rounds generalizing s with
  | zero => omega
  | succ rounds inductionHypothesis =>
    refine completes_take_bind (by decide) (fun t shorter => ?_) fun _ => ?_
    · refine completes_chainedDeclaration.attempt_bind fun made u _ shorterStill => ?_
      refine (inductionHypothesis (by omega)).bind fun others v complete _ => ?_
      exact completes_rule complete (by decide)
    · exact (completes_consume (by decide)).attempt_bind fun _ t _ _ => completes_rule rfl (by decide)

theorem completes_variableDecls : CompletesAttempt [] [sub .statement] variableDecls s := by
  refine completes_firstDeclaration.attempt_bind fun ⟨type, made⟩ t _ _ => completes_left_bind ?_
  refine (completes_chainUpTo (Nat.lt_succ_self _)).bind fun others u complete _ => ?_
  exact completes_rule complete (by decide)

theorem completes_reassignment : Completes [] [sub .statement] reassignment s := by
  refine completes_assignment.bind fun _ t _ _ => completes_consume_bind (by decide) fun _ u _ => ?_
  exact completes_joined_bind (completes_rule trivial (by decide))

theorem completes_parameters {close : TokenKind} :
    Completes [] [sub (.listed .param)] (delimited close param) s :=
  completes_delimited (by decide) (fun _ _ => completes_param) (Nat.lt_succ_self _)

theorem completes_datatypeDecl : Completes [] [sub .datatype] datatypeDecl s := by
  refine completes_consume_bind (by decide) fun start t _ => completes_ident.bind fun name u _ _ => ?_
  refine completes_consume_bind (by decide) fun _ v _ => completes_parameters.bind fun fields w _ _ => ?_
  refine completes_consume_bind (by decide) fun last x _ => completes_joined_bind ?_
  exact completes_rule trivial (by decide)

theorem completes_results : Completes [] [sub .results] results s := by
  apply completes_peek_bind
  split
  · exact completes_rule trivial (by decide)
  · refine (completes_separated (by decide) (fun _ _ => completes_value) (Nat.lt_succ_self _)).trans ?_
    exact derives_of_rule ⟨.results, [sub (.oneOrMore .expression)]⟩ (by decide)

theorem completes_result : Completes [] [sub .statement] result s := by
  refine completes_consume_bind (by decide) fun start t _ => completes_results.bind fun values u _ _ => ?_
  refine completes_consume_bind (by decide) fun last v _ => completes_joined_bind ?_
  exact completes_rule trivial (by decide)

theorem completes_control : Completes [] [sub .statement] control s := by
  refine completes_consumeAny_bind (by decide) fun keyword t member _ => ?_
  refine completes_consume_bind (by decide) fun last u _ => completes_joined_bind (completes_pure trivial ?_)
  have rules : ∀ kind ∈ [TokenKind.kwBreak, .kwContinue],
      (⟨.statement, [word kind, word .dot]⟩ : Rule) ∈ strictRules := by decide
  exact derives_of_rule _ (rules _ member)

theorem completes_callStatement (named : s.kind = .identifier)
    (opens : s.second.kind = .lParen ∨ s.second.kind = .doubleColon) :
    Completes [] [sub .statement] callStatement s := by
  refine (completes_expression_call named opens).bind fun call t _ _ => completes_ensure_bind ?_
  refine completes_consume_bind (by decide) fun last u _ => completes_joined_bind ?_
  exact completes_rule trivial (by decide)

/-! ## Statements with blocks -/

theorem completes_returnTypes : Completes [] [sub .returns] returnTypes s := by
  refine completes_take_bind (by decide) (fun t _ => ?_) fun _ => completes_rule trivial (by decide)
  refine (completes_separated (by decide : .type ∈ listParts) (fun _ _ => completes_typeName)
    (Nat.lt_succ_self _)).behind ?_
  exact derives_of_rule ⟨.returns, [word .arrow, sub (.oneOrMore .type)]⟩ (by decide)

section

variable {body : Parser Block}

theorem completes_functionDecl (completes : CompletesBelow .block body n) (small : s.ahead.length < n) :
    Completes [] [sub .function] (functionDecl body) s := by
  refine completes_consume_bind (by decide) fun start t shorter => completes_ident.bind fun name u _ _ => ?_
  refine completes_consume_bind (by decide) fun _ v _ => completes_parameters.bind fun params w _ _ => ?_
  refine completes_consume_bind (by decide) fun _ x _ => completes_returnTypes.bind fun returns y _ _ => ?_
  refine (completes y (by omega)).bind fun body z _ _ => completes_joined_bind ?_
  exact completes_rule trivial (by decide)

/-- The letters of a condition and the block under it. -/
def branchParts : List Part :=
  [sub .plain, sub .block]

theorem completes_branch (completes : CompletesBelow .block body n) (small : s.ahead.length < n) :
    Completes [] branchParts (branch body) s := by
  refine completes_condition.bind fun condition t _ shorter => ?_
  exact (completes t (by omega)).bind fun body u _ _ => completes_pure trivial (.refl _)

theorem completes_branchesUpTo (completes : CompletesBelow .block body n) (rounds : Nat) {s : State}
    (small : s.ahead.length < n) : Completes [] [sub .elseifs] (branchesUpTo body rounds) s := by
  induction rounds generalizing s with
  | zero => exact completes_ensure_bind (completes_rule trivial (by decide))
  | succ rounds inductionHypothesis =>
    refine completes_take_bind (by decide) (fun t shorter => ?_) fun _ => completes_rule trivial (by decide)
    refine (completes_branch completes (by omega)).bind fun first u _ shorterStill => ?_
    refine (inductionHypothesis (by omega)).bind fun others v _ _ => ?_
    exact completes_rule trivial (by decide)

theorem completes_alternative (completes : CompletesBelow .block body n) (small : s.ahead.length < n) :
    Completes [] [sub .alternative] (alternative body) s := by
  refine completes_take_bind (by decide) (fun t shorter => ?_) fun _ => completes_rule trivial (by decide)
  exact (completes t (by omega)).bind fun body u _ _ => completes_rule trivial (by decide)

theorem completes_conditional (completes : CompletesBelow .block body n) (small : s.ahead.length < n) :
    Completes [] [sub .statement] (conditional body) s := by
  refine completes_consume_bind (by decide) fun start t shorter => ?_
  refine (completes_branch completes (by omega)).bind fun first u _ _ => completes_left_bind ?_
  refine (completes_branchesUpTo completes _ (by omega)).bind fun others v _ _ => ?_
  refine (completes_alternative completes (by omega)).bind fun otherwise w _ _ => completes_joined_bind ?_
  exact completes_rule trivial (by decide)

theorem completes_loopCondition : Completes [] [sub .loopGuard] loopCondition s := by
  apply completes_peek_bind
  split
  · exact completes_rule trivial (by decide)
  · exact completes_condition.bind fun condition t _ _ => completes_rule trivial (by decide)

theorem completes_loop (completes : CompletesBelow .block body n) (small : s.ahead.length < n) :
    Completes [] [sub .statement] (loop body) s := by
  refine completes_consume_bind (by decide) fun start t shorter => ?_
  refine completes_loopCondition.bind fun condition u _ _ => ?_
  refine (completes u (by omega)).bind fun body v _ _ => completes_joined_bind ?_
  exact completes_rule trivial (by decide)

theorem completes_blockStatement (completes : CompletesBelow .block body n) (small : s.ahead.length < n) :
    Completes [] [sub .statement] (blockStatement body) s :=
  (completes s small).bind fun _ _ _ _ => completes_rule trivial (by decide)

end

/-! ## All statements -/

/-- The phrase of a statement, at the top level or elsewhere. -/
def statementPhrase (top : Bool) : Phrase :=
  if top then .item else .statement

theorem derives_statement (top : Bool) : lenient.Derives [sub (statementPhrase top)] [sub .statement] := by
  cases top with
  | true => exact derives_of_rule ⟨.item, [sub .statement]⟩ (by decide)
  | false => exact .refl _

/-- A declaration in the wrong place is reported, whether it was read or not. -/
theorem completes_declaration {p : Parser Statement} (top : Bool) (completes : Completes [] whole p s)
    (derives : lenient.Derives [sub .item] whole) :
    CompletesAttempt [] [sub (statementPhrase top)] (declaration top p) s := by
  cases top with
  | true => exact (completes_single completes).trans derives
  | false => exact completes_peek_bind (completes.attempt_bind fun _ _ _ _ => completes_report_bind)

theorem completes_namedStatement (named : s.kind = .identifier) :
    CompletesAttempt [] [sub .statement] namedStatement s := by
  apply completes_peekSecond_bind
  split
  next => exact completes_variableDecls
  next opening => exact completes_single (completes_callStatement named (.inl opening))
  next colons => exact completes_single (completes_callStatement named (.inr colons))
  next =>
    split
    · exact completes_single completes_reassignment
    · exact completes_single completes_reject

theorem completes_statementBody {body : Parser Block} (completes : CompletesBelow .block body n) (top : Bool)
    (small : s.ahead.length < n) :
    CompletesAttempt [] [sub (statementPhrase top)] (statementBody body top) s := by
  have inside : ∀ {p : Parser Attempt}, CompletesAttempt [] [sub .statement] p s →
      CompletesAttempt [] [sub (statementPhrase top)] p s :=
    fun attempt => Completes.trans attempt (derives_statement top)
  apply completes_peek_bind
  split
  next =>
    exact completes_declaration top (completes_functionDecl completes small)
      (derives_of_rule ⟨.item, [sub .function]⟩ (by decide))
  next =>
    exact completes_declaration top completes_datatypeDecl
      (derives_of_rule ⟨.item, [sub .datatype]⟩ (by decide))
  next => exact inside (completes_single (completes_conditional completes small))
  next => exact inside (completes_single (completes_loop completes small))
  next => exact inside (completes_single (completes_blockStatement completes small))
  next => exact inside (completes_single (completes_blockStatement completes small))
  next => exact inside (completes_single completes_result)
  next => exact inside (completes_single completes_control)
  next => exact inside (completes_single completes_control)
  next => exact inside completes_variableDecls
  next => exact inside completes_variableDecls
  next => exact inside completes_variableDecls
  next => exact inside completes_variableDecls
  next named => exact inside (completes_namedStatement named)
  next => exact inside (completes_single completes_reject)

/-- Statements one behind the other, as many as there are. -/
theorem completes_sequenceUpTo {ends stops : List TokenKind} {statement : Parser Attempt} (all : Phrase)
    {part : Phrase}
    (rules : (⟨all, []⟩ : Rule) ∈ strictRules ∧ (⟨all, [sub part, sub all]⟩ : Rule) ∈ strictRules)
    (completes : ∀ s : State, s.ahead.length < n → CompletesAttempt [] [sub part] statement s) (rounds : Nat)
    {s : State} (small : s.ahead.length < n) :
    Completes [] [sub all] (sequenceUpTo ends stops statement rounds) s := by
  induction rounds generalizing s with
  | zero => exact completes_ensure_bind (completes_rule trivial rules.1)
  | succ rounds inductionHypothesis =>
    apply completes_atEnd_bind
    split
    · exact completes_rule trivial rules.1
    · refine Completes.bind (completes s small) fun tried t complete shorter => ?_
      -- an incomplete statement would have reported an error, so nothing is skipped
      simp only [complete, if_true]
      refine (inductionHypothesis (by omega)).bind fun others u _ _ => ?_
      exact completes_rule trivial rules.2

theorem completes_block {statement : Parser Attempt}
    (completes : ∀ s : State, s.ahead.length < n → CompletesAttempt [] [sub .statement] statement s) :
    CompletesBelow .block (block statement) (n + 1) := by
  intro s small
  refine completes_consumeAny_bind (by decide) fun opening t member shorter => ?_
  refine (completes_left_bind (completes_sequenceUpTo .statements (by decide) completes _
    (by omega))).bind fun statements u _ _ => completes_peek_bind ?_
  split
  -- a block that the end of input cuts short is reported
  next => exact completes_report_bind
  next =>
    have plain : ∀ kind ∈ blockKinds, closing kind ≠ .eof ∧ closing kind ≠ .operator := by decide
    refine completes_consume_bind (plain _ member) fun last v _ => completes_joined_bind ?_
    have rules : ∀ kind ∈ blockKinds,
        (⟨.block, [word kind, sub .statements, word (closing kind)]⟩ : Rule) ∈ strictRules := by decide
    exact completes_rule trivial (rules _ member)

theorem completes_statementUpTo (n : Nat) (top : Bool) {s : State} (small : s.ahead.length < n) :
    CompletesAttempt [] [sub (statementPhrase top)] (statementUpTo n top) s := by
  induction n generalizing top s with
  | zero => omega
  | succ n inductionHypothesis =>
    exact completes_statementBody (completes_block fun t smaller => inductionHypothesis false smaller) top small

theorem completes_program : Completes [] [sub .program] program s := by
  have items : ∀ t : State, t.ahead.length < s.ahead.length + 1 →
      CompletesAttempt [] [sub .item] statement t :=
    fun t _ => completes_left_bind (completes_statementUpTo (t.ahead.length + 1) true (Nat.lt_succ_self _))
  refine completes_left_bind ?_
  exact completes_sequenceUpTo .program (by decide) items s.ahead.length (Nat.lt_succ_self _)

end FrontEnd.Parser
