import FrontEnd.Proofs.Parsing.StaysExpression
import FrontEnd.Tree.Parser.Statement

/-!
# Statements stay among loose tokens

No loose token opens a block. So a statement that starts at one either ends with a full stop among them or
fails, and it fails before the next declaration of a function or a datatype.
-/

namespace FrontEnd.Parser

variable {stop : List Significant} {s : State}

theorem stays_single {p : Parser Statement} (stays : Stays stop p s) : Stays stop (single p) s := by
  refine stays.attempt_bind fun o t => ?_
  cases o <;> exact stays_pure

section

variable (bars : Bars barKinds stop)

include bars

theorem stays_block {statement : Parser Attempt} : Stays stop (block statement) s := by
  intro leads
  -- what opens a block is neither loose nor at the head of what is led to
  have noBlock : s.current.kind ∉ blockKinds := by
    intro opens
    simp only [blockKinds, List.mem_cons, List.not_mem_nil, or_false] at opens
    rcases opens with isBrace | isWord
    · exact leads.kind_ne bars (by decide) (by decide) isBrace
    · exact leads.kind_ne bars (by decide) (by decide) isWord
  rw [block, run_bind, consumeAny, expect]
  dsimp only
  rw [if_neg (by simpa using noBlock)]
  exact leads.congr rfl

theorem stays_consumeAssign : Stays stop consumeAssign s := by
  refine stays_expect bars fun token accepted => ?_
  simp only [Bool.and_eq_true, decide_eq_true_eq] at accepted
  rw [accepted.1]
  decide

theorem stays_assignment : Stays stop assignment s :=
  (stays_ident bars).bind fun _ _ => (stays_consumeAssign bars).bind fun _ u =>
    (alwaysStays_value stop bars u).bind fun _ _ => stays_pure

theorem stays_firstDeclaration : Stays stop firstDeclaration s := by
  refine (stays_typeName bars).bind fun type t => (stays_assignment bars).bind ?_
  rintro ⟨name, value⟩ u
  exact stays_joined_bind fun _ => stays_pure

theorem stays_chainedDeclaration (type : TypeName) : Stays stop (chainedDeclaration type) s := by
  refine (stays_assignment bars).bind ?_
  rintro ⟨name, value⟩ t
  exact stays_joined_bind fun _ => stays_pure

theorem stays_chainUpTo (type : TypeName) (n : Nat) : Stays stop (chainUpTo type n) s := by
  induction n generalizing s with
  | zero => exact stays_ensure_bind stays_pure
  | succ n inductionHypothesis =>
    refine stays_take_bind bars (by decide) fun continues t => ?_
    cases continues with
    | true =>
      refine (stays_chainedDeclaration bars type).attempt_bind fun o u => ?_
      cases o with
      | some s => exact inductionHypothesis.bind fun _ _ => stays_pure
      | none => exact stays_pure
    | false =>
      refine (stays_consume bars (by decide)).attempt_bind fun o u => ?_
      cases o <;> exact stays_pure

theorem stays_variableDecls : Stays stop variableDecls s := by
  refine (stays_firstDeclaration bars).attempt_bind fun o t => ?_
  match o with
  | some (type, s) =>
    exact stays_left_bind ((stays_chainUpTo bars type _).bind fun _ _ => stays_pure)
  | none => exact stays_pure

theorem stays_reassignment : Stays stop reassignment s := by
  refine (stays_assignment bars).bind ?_
  rintro ⟨target, value⟩ t
  exact (stays_consume bars (by decide)).bind fun _ _ => stays_joined_bind fun _ => stays_pure

theorem stays_results : Stays stop results s := by
  refine stays_peek_bind ?_
  split
  · exact stays_pure
  · exact stays_separated bars alwaysStays_value

theorem stays_result : Stays stop result s :=
  (stays_consume bars (by decide)).bind fun _ _ => (stays_results bars).bind fun _ _ =>
    (stays_consume bars (by decide)).bind fun _ _ => stays_joined_bind fun _ => stays_pure

theorem stays_control : Stays stop control s :=
  (stays_consumeAny bars (by decide)).bind fun _ _ =>
    (stays_consume bars (by decide)).bind fun _ _ => stays_joined_bind fun _ => stays_pure

theorem stays_callStatement : Stays stop callStatement s :=
  (alwaysStays_expression true stop bars s).bind fun _ _ => stays_ensure_bind <|
    (stays_consume bars (by decide)).bind fun _ _ => stays_joined_bind fun _ => stays_pure

theorem stays_namedStatement : Stays stop namedStatement s := by
  refine stays_peekSecond_bind ?_
  split
  · exact stays_variableDecls bars
  · exact stays_single (stays_callStatement bars)
  · exact stays_single (stays_callStatement bars)
  · split
    · exact stays_single (stays_reassignment bars)
    · exact stays_single stays_reject

theorem stays_condition : Stays stop condition s :=
  alwaysStays_expression false stop bars s

theorem stays_loopCondition : Stays stop loopCondition s := by
  refine stays_peek_bind ?_
  split
  · exact stays_pure
  · exact (stays_condition bars).bind fun _ _ => stays_pure

variable {body : Parser Block} (bodyStays : ∀ s, Stays stop body s)

include bodyStays

theorem stays_branch : Stays stop (branch body) s :=
  (stays_condition bars).bind fun _ t => (bodyStays t).bind fun _ _ => stays_pure

theorem stays_branchesUpTo (n : Nat) : Stays stop (branchesUpTo body n) s := by
  induction n generalizing s with
  | zero => exact stays_ensure_bind stays_pure
  | succ n inductionHypothesis =>
    refine stays_take_bind bars (by decide) fun continues t => ?_
    cases continues with
    | true =>
      exact (stays_branch bars bodyStays).bind fun _ _ => inductionHypothesis.bind fun _ _ => stays_pure
    | false => exact stays_pure

theorem stays_alternative : Stays stop (alternative body) s := by
  refine stays_take_bind bars (by decide) fun continues t => ?_
  cases continues with
  | true => exact (bodyStays t).bind fun _ _ => stays_pure
  | false => exact stays_pure

theorem stays_conditional : Stays stop (conditional body) s :=
  (stays_consume bars (by decide)).bind fun _ _ => (stays_branch bars bodyStays).bind fun _ _ =>
    stays_left_bind <| (stays_branchesUpTo bars bodyStays _).bind fun _ _ =>
      (stays_alternative bars bodyStays).bind fun _ _ => stays_joined_bind fun _ => stays_pure

theorem stays_loop : Stays stop (loop body) s :=
  (stays_consume bars (by decide)).bind fun _ _ => (stays_loopCondition bars).bind fun _ t =>
    (bodyStays t).bind fun _ _ => stays_joined_bind fun _ => stays_pure

omit bars in
theorem stays_blockStatement : Stays stop (blockStatement body) s :=
  (bodyStays s).bind fun _ _ => stays_pure

/-- A statement stays in front of the next declaration unless it is one. -/
theorem stays_statementBody (top : Bool) (other : s.kind ∉ [TokenKind.kwFun, .kwDatatype]) :
    Stays stop (statementBody body top) s := by
  refine stays_peek_bind ?_
  split
  next isFun => exact absurd (by simp [State.kind, isFun]) other
  next isDatatype => exact absurd (by simp [State.kind, isDatatype]) other
  next => exact stays_single (stays_conditional bars bodyStays)
  next => exact stays_single (stays_loop bars bodyStays)
  next => exact stays_single (stays_blockStatement bodyStays)
  next => exact stays_single (stays_blockStatement bodyStays)
  next => exact stays_single (stays_result bars)
  next => exact stays_single (stays_control bars)
  next => exact stays_single (stays_control bars)
  next => exact stays_variableDecls bars
  next => exact stays_variableDecls bars
  next => exact stays_variableDecls bars
  next => exact stays_variableDecls bars
  next => exact stays_namedStatement bars
  next => exact stays_single stays_reject

end

theorem stays_statement (bars : Bars barKinds stop)
    (other : s.kind ∉ [TokenKind.kwFun, .kwDatatype]) : Stays stop statement s :=
  stays_left_bind (stays_statementBody bars (fun _ => stays_block bars) true other)

end FrontEnd.Parser
