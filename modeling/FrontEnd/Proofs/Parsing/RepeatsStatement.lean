import FrontEnd.Proofs.Parsing.Recovery
import FrontEnd.Proofs.Parsing.RepeatsExpression

/-!
# What a silent run of a statement rests on

Every statement ends with a token of its own, a full stop or the end of a block, but a conditional goes on where another
branch follows (`EndsBranch`). So a statement that was read without an error is read again wherever its tokens are
ahead, if no branch follows that did not follow before.
-/

namespace FrontEnd.Parser

variable {n m bound least : Nat} {free : TokenKind → Prop} {s : State}

/-! ## Attempts -/

/-- Whether a silent attempt is repeated, and complete. -/
def RepeatsAttempt (bound least : Nat) (free : TokenKind → Prop) (p q : Parser Attempt) (s : State) : Prop :=
  Repeats bound least free p q s fun tried => tried.complete = true

theorem Repeats.single {p q : Parser Statement} (repeats : Repeats bound least free p q s) :
    RepeatsAttempt bound least free (single p) (single q) s :=
  repeats.attempt_bind (l := 0) (by omega) (fun _ _ _ _ => repeats_pure rfl) (.inr fun _ isFree => isFree)

/-! ## Declarations of variables, reassignments and other single statements -/

theorem repeats_assignment : Repeats bound 3 EndsName assignment assignment s := by
  refine repeats_ident.token_bind fun name t _ _ => repeats_consumeAssign_bind fun _ u _ => ?_
  exact repeats_value.still_bind fun _ _ _ => repeats_pure trivial

theorem repeats_firstDeclaration : Repeats bound 4 EndsName firstDeclaration firstDeclaration s := by
  refine repeats_typeName.token_bind fun type t _ _ => ?_
  exact repeats_assignment.still_bind fun _ _ _ => repeats_pure trivial

theorem repeats_chainedDeclaration {type : TypeName} :
    Repeats bound 3 EndsName (chainedDeclaration type) (chainedDeclaration type) s :=
  repeats_assignment.still_bind fun _ _ _ => repeats_pure trivial

/-- There have to be rounds enough to take all commas. -/
theorem repeats_chainUpTo {type : TypeName} {rounds roundsAgain : Nat} (enough : s.ahead.length < rounds)
    (long : bound ≤ roundsAgain) :
    RepeatsAttempt bound 1 Anything (chainUpTo type rounds) (chainUpTo type roundsAgain) s := by
  induction rounds generalizing s roundsAgain bound with
  | zero => omega
  | succ rounds inductionHypothesis =>
    refine Repeats.of_round (j := 0) (fun k long => ?_) long (Nat.zero_le 1)
    refine repeats_take_bind (by decide) (fun t shorter => ?_) (fun _ => ?_) (.inl Nat.one_pos)
    · refine repeats_chainedDeclaration.attempt_bind (l := 1) (by omega) (fun x u _ _ => ?_) (.inl Nat.one_pos)
      exact (inductionHypothesis (by omega) (by omega)).still_bind fun others v complete => repeats_pure complete
    · exact (repeats_consume (by decide)).attempt_bind (l := 0) (by omega) (fun _ _ _ _ => repeats_pure rfl)
        (.inr fun _ isFree => isFree)

theorem repeats_variableDecls : RepeatsAttempt bound 2 Anything variableDecls variableDecls s := by
  refine repeats_firstDeclaration.attempt_bind (l := 1) (by omega) (fun x t _ _ => ?_) (.inl Nat.one_pos)
  refine repeats_left_bind fun k => ?_
  exact (repeats_chainUpTo (Nat.lt_succ_self _) (by omega)).still_bind fun others u complete => repeats_pure complete

theorem repeats_reassignment : Repeats bound 2 Anything reassignment reassignment s := by
  refine repeats_assignment.taking_bind (by omega) fun x t _ _ => ?_
  exact repeats_consume_bind (by decide) fun last u _ => repeats_pure trivial

theorem repeats_parameters {close : TokenKind} :
    Repeats bound 0 Nothing (delimited close param) (delimited close param) s :=
  repeats_delimited (n := s.ahead.length + 1) (fun _ _ => repeats_param) (Nat.lt_succ_self _) (Nat.le_refl _)

theorem repeats_datatypeDecl : Repeats bound 1 Anything datatypeDecl datatypeDecl s := by
  refine repeats_consume_bind (by decide) fun start t _ => repeats_ident.bind (l := 0) (by omega) (fun name u _ _ => ?_)
    (.inr fun _ _ => trivial)
  refine repeats_consume_bind (by decide) fun _ v _ => ?_
  refine (repeats_parameters.taking_bind (by omega) fun fields w _ _ => ?_).fewer (Nat.zero_le 1)
  exact repeats_consume_bind (by decide) fun last x _ => repeats_pure trivial

theorem repeats_results : Repeats bound 0 Nothing results results s := by
  refine repeats_peek_kind_bind fun token next => ?_
  have same : s.current.kind = token.kind := (next.resolve_right id).symm
  rw [same]
  split
  · exact repeats_pure trivial
  · exact (repeats_separated (n := s.ahead.length + 1) (fun _ _ => repeats_value) (Nat.lt_succ_self _)
      (Nat.le_refl _)).fewer (Nat.zero_le 1)

theorem repeats_result : Repeats bound 1 Anything result result s := by
  refine repeats_consume_bind (by decide) fun start t _ => ?_
  refine (repeats_results.taking_bind (by omega) fun values u _ _ => ?_).fewer (Nat.zero_le 1)
  exact repeats_consume_bind (by decide) fun last v _ => repeats_pure trivial

theorem repeats_control : Repeats bound 1 Anything control control s := by
  refine repeats_consumeAny_bind (by decide) fun keyword t _ _ => ?_
  exact ((repeats_consume (by decide)).still_bind fun _ _ _ => repeats_pure trivial).fewer (Nat.zero_le 1)

theorem repeats_callStatement : Repeats bound 2 Anything callStatement callStatement s := by
  refine (repeats_expression true).taking_bind (by omega) fun call t _ _ => ?_
  exact repeats_ensure_bind (repeats_consume_bind (by decide) fun last u _ => repeats_pure trivial)

/-! ## Statements with blocks -/

theorem repeats_returnTypes : Repeats bound 0 Nothing returnTypes returnTypes s := by
  refine repeats_take_bind (by decide) (fun t _ => ?_) (fun _ => repeats_pure trivial) (.inr id)
  exact (repeats_separated (n := t.ahead.length + 1) (fun _ _ => repeats_typeName) (Nat.lt_succ_self _)
    (Nat.le_refl _)).fewer (Nat.zero_le 1)

/-- The condition of a loop is left out where a block opens. -/
theorem repeats_loopCondition : Repeats bound 0 Nothing loopCondition loopCondition s := by
  refine repeats_peek_kind_bind fun token next => ?_
  have same : s.current.kind = token.kind := (next.resolve_right id).symm
  rw [same]
  split
  · exact repeats_pure trivial
  · exact (repeats_condition.still_bind fun _ _ _ => repeats_pure trivial).mono (Nat.le_refl _) (Nat.zero_le 1)
      fun _ => False.elim

/-- Whether a kind of token does not go on behind the last block of a conditional. -/
def EndsBranch (kind : TokenKind) : Prop :=
  kind ∉ [TokenKind.kwElse, .kwElseIf]

theorem run_branchesUpTo_of_other {body : Parser Block} (other : s.kind ≠ .kwElseIf) (rounds : Nat) :
    (branchesUpTo body rounds).run s = (some [], s) := by
  cases rounds with
  | zero => rfl
  | succ rounds => simp [branchesUpTo, run_bind, take, other]

section

variable {body bodyAgain : Parser Block} (repeats : RepeatsBelow n m 1 Anything body bodyAgain)

include repeats

theorem repeats_functionDecl (small : s.ahead.length < n) (deep : bound ≤ m) :
    Repeats bound 1 Anything (functionDecl body) (functionDecl bodyAgain) s := by
  refine repeats_consume_bind (by decide) fun start t shorter => ?_
  refine repeats_ident.bind (l := 0) (by omega) (fun name u _ _ => ?_) (.inr fun _ _ => trivial)
  refine repeats_consume_bind (by decide) fun _ v _ => ?_
  refine (repeats_parameters.taking_bind (by omega) fun params w _ _ => ?_).fewer (Nat.zero_le 1)
  refine repeats_consume_bind (by decide) fun _ x _ => ?_
  refine (repeats_returnTypes.taking_bind (by omega) fun returns y _ _ => ?_).fewer (Nat.zero_le 1)
  exact (repeats.inside (by omega) (by omega)).still_bind fun _ _ _ => repeats_joined_bind (repeats_pure trivial)

theorem repeats_branch (small : s.ahead.length < n) (deep : bound ≤ m) :
    Repeats bound 1 Anything (branch body) (branch bodyAgain) s := by
  refine repeats_condition.taking_bind (by omega) fun condition t _ shorter => ?_
  exact (repeats.inside (by omega) (by omega)).still_bind fun _ _ _ => repeats_pure trivial

theorem repeats_branchesUpTo {rounds roundsAgain : Nat} (small : s.ahead.length < n)
    (enough : s.ahead.length ≤ rounds) (deep : bound ≤ m) (long : bound ≤ roundsAgain + 1) :
    Repeats bound 0 EndsBranch (branchesUpTo body rounds) (branchesUpTo bodyAgain roundsAgain) s := by
  induction rounds generalizing s roundsAgain bound with
  | zero =>
    have eof : s.kind = .eof := s.kind_eq_eof_iff.mpr (List.length_eq_zero_iff.mp (Nat.le_zero.mp enough))
    refine repeats_still trivial rfl fun u next => run_branchesUpTo_of_other (fun goesOn => ?_) _
    simp [eof, goesOn, EndsBranch] at next
  | succ rounds inductionHypothesis =>
    by_cases goesOn : s.kind = .kwElseIf
    · refine (Repeats.of_round (fun k long => ?_) long (Nat.le_refl 1)).fewer (Nat.zero_le 1)
      refine repeats_take_bind (by decide) (fun t shorter => ?_) (absurd goesOn) (.inl Nat.one_pos)
      refine (repeats_branch repeats (by omega) (by omega)).bind (l := 0) (by omega) (fun first u _ _ => ?_)
        (.inr fun _ _ => trivial)
      exact (inductionHypothesis (by omega) (by omega) (by omega) (by omega)).still_bind
        fun _ _ _ => repeats_pure trivial
    · refine repeats_still trivial (run_branchesUpTo_of_other goesOn _) fun u next =>
        run_branchesUpTo_of_other (fun goesOnAgain => ?_) _
      obtain same | ends := next
      · exact goesOn (same ▸ goesOnAgain)
      · simp [EndsBranch, goesOnAgain] at ends

theorem repeats_alternative (small : s.ahead.length < n) (deep : bound ≤ m) :
    Repeats bound 0 EndsBranch (alternative body) (alternative bodyAgain) s := by
  refine repeats_take_bind (by decide) (fun t shorter => ?_) (fun _ => repeats_pure trivial) (.inr ?_)
  · refine Repeats.fewer ?_ (Nat.zero_le 1)
    exact ((repeats.inside (by omega) (by omega)).still_bind fun _ _ _ => repeats_pure trivial).of_anything
  · simp [EndsBranch]

theorem repeats_conditional (small : s.ahead.length < n) (deep : bound ≤ m) :
    Repeats bound 1 EndsBranch (conditional body) (conditional bodyAgain) s := by
  refine repeats_consume_bind (by decide) fun start t shorter => ?_
  refine (repeats_branch repeats (by omega) (by omega)).bind (l := 0) (by omega) (fun first u _ _ => ?_)
    (.inr fun _ _ => trivial)
  refine repeats_left_bind fun k => ?_
  refine (repeats_branchesUpTo repeats (by omega) (Nat.le_refl _) (by omega) (by omega)).bind (l := 0) (by omega)
    (fun others v _ _ => ?_) (.inr fun _ isFree => isFree)
  exact (repeats_alternative repeats (by omega) (by omega)).still_bind
    fun _ _ _ => repeats_joined_bind (repeats_pure trivial)

theorem repeats_loop (small : s.ahead.length < n) (deep : bound ≤ m) :
    Repeats bound 1 Anything (loop body) (loop bodyAgain) s := by
  refine repeats_consume_bind (by decide) fun start t shorter => ?_
  refine (repeats_loopCondition.taking_bind (by omega) fun condition u _ _ => ?_).fewer (Nat.zero_le 1)
  exact (repeats.inside (by omega) (by omega)).still_bind fun _ _ _ => repeats_joined_bind (repeats_pure trivial)

theorem repeats_blockStatement (small : s.ahead.length < n) (deep : bound ≤ m) :
    Repeats bound 1 Anything (blockStatement body) (blockStatement bodyAgain) s :=
  (repeats.inside small deep).still_bind fun _ _ _ => repeats_pure trivial

end

/-! ## All statements -/

/-- A declaration in the wrong place is reported. -/
theorem repeats_declaration {p q : Parser Statement} (top : Bool) (repeats : Repeats bound 1 Anything p q s) :
    RepeatsAttempt bound 1 Anything (declaration top p) (declaration top q) s := by
  cases top with
  | true => exact repeats.single
  | false =>
    exact repeats_peek_bind Nat.one_pos (repeats.attempt_bind (l := 0) (by omega) (fun _ _ _ _ => repeats_report_bind)
      (.inr fun _ isFree => isFree))

theorem repeats_namedStatement : RepeatsAttempt bound 2 Anything namedStatement namedStatement s := by
  refine repeats_peekSecond_bind (by omega) ?_
  split
  next => exact repeats_variableDecls
  next => exact repeats_callStatement.single
  next => exact repeats_callStatement.single
  next =>
    split
    · exact repeats_reassignment.single
    · exact Repeats.single repeats_reject

theorem repeats_statementBody {body bodyAgain : Parser Block} (repeats : RepeatsBelow n m 1 Anything body bodyAgain)
    (top : Bool) (small : s.ahead.length < n) (deep : bound ≤ m) :
    RepeatsAttempt bound 1 EndsBranch (statementBody body top) (statementBody bodyAgain top) s := by
  have closed : ∀ {p q : Parser Attempt}, RepeatsAttempt bound 1 Anything p q s →
      RepeatsAttempt bound 1 EndsBranch p q s :=
    fun repeats => Repeats.mono repeats (Nat.le_refl _) (Nat.le_refl _) fun _ _ => trivial
  refine repeats_peek_bind Nat.one_pos ?_
  split
  next => exact closed (repeats_declaration top (repeats_functionDecl repeats small deep))
  next => exact closed (repeats_declaration top repeats_datatypeDecl)
  next => exact (repeats_conditional repeats small deep).single
  next => exact closed (repeats_loop repeats small deep).single
  next => exact closed (repeats_blockStatement repeats small deep).single
  next => exact closed (repeats_blockStatement repeats small deep).single
  next => exact closed repeats_result.single
  next => exact closed repeats_control.single
  next => exact closed repeats_control.single
  next => exact closed (repeats_variableDecls.fewer (Nat.le_succ 1))
  next => exact closed (repeats_variableDecls.fewer (Nat.le_succ 1))
  next => exact closed (repeats_variableDecls.fewer (Nat.le_succ 1))
  next => exact closed (repeats_variableDecls.fewer (Nat.le_succ 1))
  next => exact closed (repeats_namedStatement.fewer (Nat.le_succ 1))
  next => exact Repeats.single repeats_reject

section

variable {ends stops : List TokenKind} {attempt attemptAgain : Parser Attempt}

theorem repeats_sequenceUpTo
    (repeats : ∀ s : State, s.ahead.length < n → RepeatsAttempt m 1 EndsBranch attempt attemptAgain s)
    {rounds roundsAgain : Nat} (small : s.ahead.length < n) (enough : s.ahead.length ≤ rounds) (deep : bound ≤ m)
    (long : bound ≤ roundsAgain + 1) :
    Repeats bound 0 Nothing (sequenceUpTo ends stops attempt rounds)
      (sequenceUpTo ends stops attemptAgain roundsAgain) s := by
  induction rounds generalizing s roundsAgain bound with
  | zero =>
    exact repeats_of_atEnd (s.isAtEnd_of_empty (Nat.le_zero.mp enough) ends)
      (fun u atEnd => run_sequenceUpTo_of_atEnd atEnd _) (fun u atEnd => run_sequenceUpTo_of_atEnd atEnd _)
  | succ rounds inductionHypothesis =>
    cases atEnd : s.isAtEnd ends with
    | true =>
      exact repeats_of_atEnd atEnd
        (fun u atEnd => run_sequenceUpTo_of_atEnd atEnd _) (fun u atEnd => run_sequenceUpTo_of_atEnd atEnd _)
    | false =>
      refine (Repeats.of_round (fun k long => ?_) long (Nat.le_refl 1)).fewer (Nat.zero_le 1)
      apply repeats_atEnd_bind
      rw [if_neg (by simp [atEnd]), if_neg (by simp [atEnd])]
      have first : RepeatsAttempt bound 1 EndsBranch attempt attemptAgain s :=
        (repeats s small).mono deep (Nat.le_refl 1) fun _ isFree => isFree
      refine Repeats.bind (l := 0) first (by omega) (fun tried t complete shorter => ?_) (.inr fun _ => False.elim)
      -- an incomplete statement would have reported an error, so nothing is skipped
      simp only [complete, if_true]
      exact (inductionHypothesis (by omega) (by omega) (by omega) (by omega)).still_bind
        fun _ _ _ => repeats_pure trivial

theorem repeats_block
    (repeats : ∀ s : State, s.ahead.length < n → RepeatsAttempt m 1 EndsBranch attempt attemptAgain s) :
    RepeatsBelow (n + 1) (m + 1) 1 Anything (block attempt) (block attemptAgain) := by
  intro s small
  refine repeats_consumeAny_bind (by decide) fun opening t member shorter => ?_
  have statements : ∀ close, Repeats m 0 Nothing (sequence [close] [close] attempt)
      (sequence [close] [close] attemptAgain) t :=
    fun close => repeats_left_bind fun k =>
      repeats_sequenceUpTo repeats (by omega) (Nat.le_refl _) (by omega) (by omega)
  refine ((statements _).taking_bind (by omega) fun made u _ _ => repeats_peek_bind Nat.one_pos ?_).fewer
    (Nat.zero_le 1)
  split
  -- a block that the end of input cuts short is reported
  next => exact repeats_report_bind
  next => exact repeats_consume_bind (closing_ne_eof _) fun last v _ => repeats_pure trivial

end

theorem repeats_statementUpTo (n m : Nat) (top : Bool) (small : s.ahead.length < n) :
    RepeatsAttempt m 1 EndsBranch (statementUpTo n top) (statementUpTo m top) s := by
  induction n generalizing m top s with
  | zero => omega
  | succ n inductionHypothesis =>
    have body : ∀ m, RepeatsAttempt (m + 1) 1 EndsBranch (statementUpTo (n + 1) top) (statementUpTo (m + 1) top) s :=
      fun m => repeats_statementBody (repeats_block fun t smaller => inductionHypothesis m false smaller) top small
        (Nat.le_refl _)
    cases m with
    | zero => exact ((body 0).mono (Nat.zero_le _) (Nat.le_refl 1) fun _ isFree => isFree).change (Nat.zero_le _)
    | succ m => exact body m

theorem repeats_statement : RepeatsAttempt bound 1 EndsBranch statement statement s :=
  repeats_left_bind fun k => (repeats_statementUpTo _ (k + 1) true (Nat.lt_succ_self _)).mono (Nat.min_le_right _ _)
    (Nat.le_refl 1) fun _ isFree => isFree

end FrontEnd.Parser
