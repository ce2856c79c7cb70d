import FrontEnd.Proofs.Parsing.OnceExpression
import FrontEnd.Tree.Parser.Statement

/-!
# What a run of a statement reports

A statement starts behind all errors, or at a declaration where skipping stopped. It ends behind all errors or at
the end mark; one that is given up has refused a token or, behind a name, the token after it. Skipping leaves this
token behind, or stops there. What is reported of a whole block or of a declaration in the wrong place is at its
first token, of which nothing was said before but that it was refused.
-/

namespace FrontEnd.Parser

variable {tokens : List Token} {first : Nat} {s : State}

/-! ## Attempts -/

/-- Whether an attempt ends quietly, or is given up; it makes something in either case. -/
def OnceAttempt (tokens : List Token) (first : Nat) (p : Parser Attempt) (s : State) : Prop :=
  Once tokens first p s (fun tried t => if tried.complete then t.Quiet else t.Stuck) fun _ => False

theorem once_failed (stuck : s.Stuck) : OnceAttempt tokens first (pure .failed) s :=
  once_pure stuck

theorem once_single {p : Parser Statement} (once : Once tokens first p s (fun _ t => t.Quiet) State.Stuck) :
    OnceAttempt tokens first (single p) s :=
  once.attempt_bind (fun _ _ _ _ quiet => once_pure quiet) fun _ _ _ stuck => once_failed stuck

/-- A production that leaves all errors behind or refuses a token. -/
theorem once_singleSettled {p : Parser Statement}
    (once : Once tokens first p s (fun _ t => t.Quiet) State.Settled) : OnceAttempt tokens first (single p) s :=
  once_single (once.imp (fun _ _ h => h) fun _ => .inl)

/-! ## Declarations of variables, reassignments and other single statements -/

theorem once_ident (fresh : s.Fresh) :
    Once tokens first Parser.ident s (fun _ t => t.Fresh) State.Settled :=
  (once_consume fresh (by decide)).bind fun _ _ _ _ found => once_pure found.2.fresh

theorem once_type (fresh : s.Fresh) : Once tokens first typeName s (fun _ t => t.Fresh) State.Settled :=
  (onceEach_typeName first s fresh.beforeItem).imp (fun _ _ h => h) fun _ => State.settled_of_refused

theorem once_assignment (fresh : s.Fresh) :
    Once tokens first assignment s (fun _ t => t.BehindValue) State.Settled := by
  refine (once_ident fresh).bind fun name t _ _ freshSign => ?_
  refine (once_consumeAssign freshSign).bind fun _ u _ _ freshValue => ?_
  exact (once_value freshValue).bind fun _ _ _ _ behind => once_pure behind

theorem once_firstDeclaration (fresh : s.Fresh) :
    Once tokens first firstDeclaration s (fun _ t => t.BehindValue) State.Settled := by
  refine (once_type fresh).bind fun type t _ _ freshName => ?_
  refine (once_assignment freshName).bind fun _ u _ _ behind => ?_
  exact once_joined_bind (once_pure behind)

theorem once_chainedDeclaration {type : TypeName} (fresh : s.Fresh) :
    Once tokens first (chainedDeclaration type) s (fun _ t => t.BehindValue) State.Settled :=
  (once_assignment fresh).bind fun _ _ _ _ behind => once_joined_bind (once_pure behind)

theorem once_chainUpTo {type : TypeName} (n : Nat) {s : State} (behind : s.BehindValue) :
    OnceAttempt tokens first (chainUpTo type n) s := by
  induction n generalizing s with
  | zero => exact once_ensure_bind (once_failed (.inl (State.settled_of_refused behind.ledger)))
  | succ n inductionHypothesis =>
    refine once_take_bind behind.ledger (fun _ => Error.isRefusal_of_isOfPart) (by simp) (fun t _ took => ?_)
      fun notComma => ?_
    · refine (once_chainedDeclaration took.fresh).attempt_bind (fun made u _ _ behindLast => ?_)
        fun u _ _ settled => once_failed (.inl settled)
      exact (inductionHypothesis behindLast).bind fun _ _ _ _ ended => once_pure ended
    · exact (once_consumeDot behind).attempt_bind (fun _ t _ _ fresh => once_pure (.inl fresh))
        fun t _ _ settled => once_failed (.inl settled)

theorem once_variableDecls (fresh : s.Fresh) : OnceAttempt tokens first variableDecls s := by
  refine (once_firstDeclaration fresh).attempt_bind ?_ fun t _ _ settled => once_failed (.inl settled)
  intro found t _ _ behind
  exact once_left_bind ((once_chainUpTo _ behind).bind fun _ _ _ _ ended => once_pure ended)

theorem once_reassignment (fresh : s.Fresh) :
    Once tokens first reassignment s (fun _ t => t.Quiet) State.Settled := by
  refine (once_assignment fresh).bind fun _ t _ _ behind => (once_consumeDot behind).bind fun _ u _ _ freshLast => ?_
  exact once_joined_bind (once_pure (.inl freshLast))

theorem once_results (fresh : s.Fresh) :
    Once tokens first results s (fun _ t => t.BehindValue) State.Settled := by
  refine once_peek_bind ?_
  split
  · exact once_pure (.inl fresh)
  · exact once_separated (fun _ => State.BehindValue.ledger) (fun _ => once_value) fresh

theorem once_result (fresh : s.Fresh) : Once tokens first result s (fun _ t => t.Quiet) State.Settled := by
  refine (once_consume fresh (by decide)).bind fun start t _ _ found => ?_
  refine (once_results found.2.fresh).bind fun values u _ _ behind => ?_
  exact (once_consumeDot behind).bind fun _ _ _ _ freshLast => once_joined_bind (once_pure (.inl freshLast))

theorem once_control (fresh : s.Fresh) : Once tokens first control s (fun _ t => t.Quiet) State.Settled := by
  refine (once_consumeAny fresh (by decide)).bind fun keyword t _ _ found => ?_
  exact (once_consumeDot (.inl found.2.2.fresh)).bind fun _ _ _ _ freshLast =>
    once_joined_bind (once_pure (.inl freshLast))

theorem once_callStatement (fresh : s.Fresh) :
    Once tokens first callStatement s (fun _ t => t.Quiet) State.Settled := by
  refine (once_expression true fresh).bind fun call t _ _ freshDot => once_ensure_bind ?_
  exact (once_consumeDot (.inl freshDot)).bind fun _ _ _ _ freshLast =>
    once_joined_bind (once_pure (.inl freshLast))

/-! ## Declarations -/

/-- The word that a declaration starts with may have been refused before, where skipping stopped at it. -/
theorem once_keyword_bind {α : Type} {kind : TokenKind} {f : Token → Parser α} {good : α → State → Prop}
    {bad : State → Prop} (settled : s.Settled) (same : s.kind = kind) (notEof : kind ≠ .eof)
    (next : ∀ t, t.Fresh → Once tokens t.lo (f s.current) t good bad) :
    Once tokens first (consume kind >>= f) s (fun x t => good x t ∧ t.Spares s.current) bad := by
  have ran : (consume kind).run s = (some s.current, s.advance) := if_pos (decide_eq_true same)
  refine (once_of_taken settled (fun _ h => h) ran (same ▸ notEof)).bind ?_
  rintro _ t - - ⟨rfl, took⟩
  exact (next t took.fresh).sparing took.spares

theorem once_datatypeDecl (settled : s.Settled) (kind : s.kind = .kwDatatype) :
    Once tokens first datatypeDecl s (fun _ t => t.Quiet ∧ t.Spares s.current) State.Settled := by
  refine once_keyword_bind settled kind (by decide) fun t fresh => ?_
  refine (once_ident fresh).bind fun name u _ _ freshOpen => ?_
  refine (once_consume freshOpen (by decide)).bind fun _ v _ _ found => ?_
  exact once_closed_bind onceEach_param (by decide) found.2.fresh (fun _ => State.settled_of_refused)
    fun _ _ _ freshLast => once_joined_bind (once_pure (.inl freshLast))

theorem once_returnTypes (fresh : s.Fresh) :
    Once tokens first returnTypes s (fun _ t => t.Fresh) State.Settled := by
  refine once_take_bind fresh (by simp) (by simp) (fun t _ took => ?_) fun _ => once_pure fresh
  exact once_separated (fun _ => State.Fresh.ledger) (fun _ => once_type) took.fresh

section

variable {body : Parser Block}

/-- Whether a block may start behind all errors, and ends quietly. -/
def OnceBlocks (tokens : List Token) (body : Parser Block) : Prop :=
  ∀ (first : Nat) (s : State), s.Fresh → Once tokens first body s (fun _ t => t.Quiet) State.Settled

theorem once_functionDecl (blocks : OnceBlocks tokens body) (settled : s.Settled) (kind : s.kind = .kwFun) :
    Once tokens first (functionDecl body) s (fun _ t => t.Quiet ∧ t.Spares s.current) State.Settled := by
  refine once_keyword_bind settled kind (by decide) fun t fresh => ?_
  refine (once_ident fresh).bind fun name u _ _ freshOpen => ?_
  refine (once_consume freshOpen (by decide)).bind fun _ v _ _ found => ?_
  refine once_closed_bind onceEach_param (by decide) found.2.fresh (fun _ => State.settled_of_refused)
    fun _ _ w freshReturns => ?_
  refine (once_returnTypes freshReturns).bind fun returns x _ _ freshBody => ?_
  exact (blocks _ x freshBody).bind fun _ _ _ _ quiet => once_joined_bind (once_pure quiet)

/-! ## Statements with blocks -/

theorem once_branch (blocks : OnceBlocks tokens body) (fresh : s.Fresh) :
    Once tokens first (branch body) s (fun _ t => t.Quiet) State.Settled := by
  refine (once_expression false fresh).bind fun condition t _ _ freshBody => ?_
  exact (blocks first t freshBody).bind fun _ _ _ _ quiet => once_pure quiet

theorem State.Quiet.settled (quiet : s.Quiet) : s.Settled :=
  quiet.elim State.Fresh.ledger And.right

theorem once_branchesUpTo (blocks : OnceBlocks tokens body) (n : Nat) {s : State} (quiet : s.Quiet) :
    Once tokens first (branchesUpTo body n) s (fun _ t => t.Quiet) State.Settled := by
  induction n generalizing s with
  | zero => exact once_ensure_bind (once_pure quiet)
  | succ n inductionHypothesis =>
    refine once_take_bind quiet.settled (fun _ h => h) (by simp) (fun t _ took => ?_) fun _ => once_pure quiet
    refine (once_branch blocks took.fresh).bind fun first u _ _ quietBranch => ?_
    exact (inductionHypothesis quietBranch).bind fun _ _ _ _ quietLast => once_pure quietLast

theorem once_alternative (blocks : OnceBlocks tokens body) (quiet : s.Quiet) :
    Once tokens first (alternative body) s (fun _ t => t.Quiet) State.Settled := by
  refine once_take_bind quiet.settled (fun _ h => h) (by simp) (fun t _ took => ?_) fun _ => once_pure quiet
  exact (blocks first t took.fresh).bind fun _ _ _ _ quietLast => once_pure quietLast

theorem once_conditional (blocks : OnceBlocks tokens body) (fresh : s.Fresh) :
    Once tokens first (conditional body) s (fun _ t => t.Quiet) State.Settled := by
  refine (once_consume fresh (by decide)).bind fun start t _ _ found => ?_
  refine (once_branch blocks found.2.fresh).bind fun branch u _ _ quietFirst => once_left_bind ?_
  refine (once_branchesUpTo blocks _ quietFirst).bind fun others v _ _ quietOthers => ?_
  exact (once_alternative blocks quietOthers).bind fun _ _ _ _ quiet => once_joined_bind (once_pure quiet)

theorem once_loopCondition (fresh : s.Fresh) :
    Once tokens first loopCondition s (fun _ t => t.Fresh) State.Settled := by
  refine once_peek_bind ?_
  split
  · exact once_pure fresh
  · exact (once_expression false fresh).bind fun _ _ _ _ freshBody => once_pure freshBody

theorem once_loop (blocks : OnceBlocks tokens body) (fresh : s.Fresh) :
    Once tokens first (loop body) s (fun _ t => t.Quiet) State.Settled := by
  refine (once_consume fresh (by decide)).bind fun start t _ _ found => ?_
  refine (once_loopCondition found.2.fresh).bind fun condition u _ _ freshBody => ?_
  exact (blocks first u freshBody).bind fun _ _ _ _ quiet => once_joined_bind (once_pure quiet)

theorem once_blockStatement (blocks : OnceBlocks tokens body) (fresh : s.Fresh) :
    Once tokens first (blockStatement body) s (fun _ t => t.Quiet) State.Settled :=
  (blocks first s fresh).bind fun _ _ _ _ quiet => once_pure quiet

end

/-! ## All statements -/

/-- A declaration in the wrong place is reported at its word, when all of it was read. -/
theorem once_declaration {p : Parser Statement} (top : Bool)
    (once : Once tokens first p s (fun _ t => t.Quiet ∧ t.Spares s.current) State.Settled) :
    OnceAttempt tokens first (declaration top p) s := by
  cases top with
  | true => exact once_singleSettled (once.imp (fun _ _ => And.left) fun _ h => h)
  | false =>
    refine .assuming fun _ later => once_peek_bind ?_
    refine once.attempt_bind (fun made t _ _ found => ?_) fun t _ _ settled => once_failed (.inl settled)
    refine once_report_bind later (once_pure ?_)
    exact found.1.reportBehind found.2.behind (found.2.notMem rfl)

theorem once_namedStatement (fresh : s.Fresh) (named : s.kind = .identifier) :
    OnceAttempt tokens first namedStatement s := by
  refine .assuming fun spaced _ => once_peekSecond_bind ?_
  split
  next => exact once_variableDecls fresh
  next => exact once_singleSettled (once_callStatement fresh)
  next => exact once_singleSettled (once_callStatement fresh)
  next =>
    split
    · exact once_singleSettled (once_reassignment fresh)
    · refine once_single (once_reject (fun later => ?_) (.inr ⟨named, s, _, fresh, rfl, rfl⟩))
      have same : s.advance.lo = s.second.span.lo := by rw [State.lo, State.current_advance (by simp [named])]
      exact Nat.le_trans later (same ▸ spaced.toInOrder.lo_le s.reaches_advance)

/-- Where a statement may start. -/
structure State.Starts (s : State) : Prop where
  settled : s.Settled
  fresh : s.Fresh ∨ s.kind = .kwFun ∨ s.kind = .kwDatatype

theorem once_statementBody {body : Parser Block} (blocks : OnceBlocks tokens body) (top : Bool)
    (starts : s.Starts) : OnceAttempt tokens first (statementBody body top) s := by
  -- only a declaration can start where skipping stopped
  have fresh : ∀ {kind : TokenKind}, s.current.kind = kind → kind ≠ .kwFun → kind ≠ .kwDatatype → s.Fresh := by
    rintro _ rfl notFunction notDatatype
    exact starts.fresh.resolve_right fun declares => declares.elim notFunction notDatatype
  refine once_peek_bind ?_
  split
  next kind => exact once_declaration top (once_functionDecl blocks starts.settled kind)
  next kind => exact once_declaration top (once_datatypeDecl starts.settled kind)
  next kind => exact once_singleSettled (once_conditional blocks (fresh kind (by simp) (by simp)))
  next kind => exact once_singleSettled (once_loop blocks (fresh kind (by simp) (by simp)))
  next kind => exact once_singleSettled (once_blockStatement blocks (fresh kind (by simp) (by simp)))
  next kind => exact once_singleSettled (once_blockStatement blocks (fresh kind (by simp) (by simp)))
  next kind => exact once_singleSettled (once_result (fresh kind (by simp) (by simp)))
  next kind => exact once_singleSettled (once_control (fresh kind (by simp) (by simp)))
  next kind => exact once_singleSettled (once_control (fresh kind (by simp) (by simp)))
  next kind => exact once_variableDecls (fresh kind (by simp) (by simp))
  next kind => exact once_variableDecls (fresh kind (by simp) (by simp))
  next kind => exact once_variableDecls (fresh kind (by simp) (by simp))
  next kind => exact once_variableDecls (fresh kind (by simp) (by simp))
  next kind => exact once_namedStatement (fresh kind (by simp) (by simp)) kind
  next notFunction notDatatype _ _ _ _ _ _ _ _ _ _ _ _ =>
    have fresh := fresh rfl notFunction notDatatype
    exact once_singleSettled (once_reject id (fresh.report rfl (by simp) rfl fun _ => fresh))

/-! ## Blocks and programs -/

section

variable {ends stops : List TokenKind} {statement : Parser Attempt}

theorem once_resync (stuck : s.Stuck) (noName : TokenKind.identifier ∉ stops) :
    Once tokens first (resync .dot stops) s (fun _ t => t.Ready stops) fun _ => False := by
  intro spaced later
  refine ⟨fun e member => (adds_skipTo spaced .dot stops _ e member).imp id (Nat.le_trans later), ?_, ?_⟩
  · rintro _ _ ⟨⟩
    exact stuck.resync spaced noName
  · rintro _ ⟨⟩

/-- Between two statements nothing is refused, but for where skipping stopped. -/
theorem once_sequenceUpTo (noName : TokenKind.identifier ∉ stops)
    (attempts : ∀ s : State, s.Ready stops → s.isAtEnd ends = false → OnceAttempt tokens first statement s)
    (n : Nat) {s : State} (ready : s.Ready stops) :
    Once tokens first (sequenceUpTo ends stops statement n) s (fun _ t => t.Ready stops) fun _ => False := by
  induction n generalizing s with
  | zero => exact once_ensure_bind (once_pure ready)
  | succ n inductionHypothesis =>
    apply once_atEnd_bind
    split
    next => exact once_pure ready
    next notAtEnd =>
      refine (attempts s ready (Bool.eq_false_iff.mpr notAtEnd)).bind fun tried t _ _ ended => ?_
      have others : ∀ u : State, u.Ready stops → Once tokens first (do
          return tried.made ++ (← sequenceUpTo ends stops statement n)) u (fun _ v => v.Ready stops)
            fun _ => False :=
        fun u readyNext => (inductionHypothesis readyNext).bind fun _ _ _ _ readyLast => once_pure readyLast
      dsimp only
      -- a complete statement is followed by the next, one that was given up by what is skipped
      split at ended
      next complete =>
        rw [if_pos complete]
        exact others t (ended.ready stops)
      next incomplete =>
        rw [if_neg incomplete]
        exact (once_resync ended noName).bind fun _ u _ _ readyNext => others u readyNext

theorem once_sequence (noName : TokenKind.identifier ∉ stops)
    (attempts : ∀ s : State, s.Ready stops → s.isAtEnd ends = false → OnceAttempt tokens first statement s)
    (ready : s.Ready stops) :
    Once tokens first (sequence ends stops statement) s (fun _ t => t.Ready stops) fun _ => False :=
  once_left_bind (once_sequenceUpTo noName attempts _ ready)

/-- The token that a sequence ends with may have been refused where skipping stopped. -/
theorem once_consumeReady {kind : TokenKind} (ready : s.Ready [kind]) (more : s.kind ≠ .eof)
    (notEof : kind ≠ .eof) : Once tokens first (consume kind) s (fun _ t => t.Fresh) State.Settled := by
  rcases ready.fresh with fresh | atEnd
  · exact (once_consume fresh notEof).imp (fun _ _ found => found.2.fresh) fun _ h => h
  · have same : s.kind = kind := by simpa [State.isAtEnd, more] using atEnd
    exact (once_of_taken ready.settled (fun _ h => h) (if_pos (decide_eq_true same)) more).imp
      (fun _ _ found => found.2.fresh) fun _ h => h

theorem once_block
    (attempts : ∀ first s, s.Starts → OnceAttempt tokens first statement s) :
    OnceBlocks tokens (block statement) := by
  intro first s fresh
  refine .assuming fun _ later => (once_consumeAny fresh (by decide)).bind ?_
  rintro opening t - - ⟨rfl, -, took⟩
  have statements : Once tokens t.lo (sequence [closing s.current.kind] [closing s.current.kind] statement) t
      (fun _ u => u.Ready [closing s.current.kind]) fun _ => False := by
    refine once_sequence ?_ (fun u ready notAtEnd => attempts _ u ⟨ready.settled, .inl ?_⟩) (took.fresh.ready _)
    · rw [closing]
      split <;> simp
    · exact ready.fresh.resolve_right (by simp [notAtEnd])
  refine ((statements.sparing took.spares).imp (fun _ _ h => h) fun _ => False.elim).bind ?_
  rintro made u - - ⟨ready, spares⟩
  refine once_peek_bind ?_
  split
  next eof =>
    -- a block that is not closed is reported where it was opened
    have quiet : u.Quiet := .inr ⟨eof, ready.settled⟩
    exact once_report_bind later
      (once_joined_bind (once_pure (quiet.reportBehind spares.behind (spares.notMem rfl))))
  next more =>
    exact (once_consumeReady ready more (closing_ne_eof _)).bind fun _ _ _ _ freshLast =>
      once_joined_bind (once_pure (.inl freshLast))

end

theorem once_statementUpTo (n : Nat) (top : Bool) (starts : s.Starts) :
    OnceAttempt tokens first (statementUpTo n top) s := by
  induction n generalizing top first s with
  | zero => exact once_ensure_bind (once_failed (.inl starts.settled))
  | succ n inductionHypothesis =>
    exact once_statementBody (once_block fun first s starts => inductionHypothesis false starts) top starts

/-- A program that is parsed from behind all errors reports none of them twice. -/
theorem once_program (fresh : s.Fresh) :
    Once tokens first program s (fun _ t => t.Settled) fun _ => False := by
  refine (once_sequence (by simp) (fun t ready notAtEnd => ?_) (fresh.ready _)).imp
    (fun _ _ => State.Ready.settled) fun _ h => h
  have more := State.kind_ne_eof_of_not_atEnd notAtEnd
  refine once_left_bind (once_statementUpTo _ true ⟨ready.settled, ready.fresh.imp id fun atEnd => ?_⟩)
  simpa [State.isAtEnd, more] using atEnd

end FrontEnd.Parser
