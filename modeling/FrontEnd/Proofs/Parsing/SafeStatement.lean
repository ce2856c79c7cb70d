import FrontEnd.Proofs.Grammar.Checkable
import FrontEnd.Proofs.Parsing.SafeExpression
import FrontEnd.Tree.Parser.Statement

/-!
# Statements and programs are safe

Every production of statements keeps to what it takes for granted, and the call statements it makes hold
calls. A sequence of statements comes to an end, for a complete statement takes a token and behind an
incomplete one at least one token is skipped. There is one exception: at the top level, skipping stays in
front of the declaration of a function or a datatype. But such a declaration takes its first token even
where it fails.
-/

namespace FrontEnd.Parser

variable {α β : Type} {s : State}

/-! ## Statements without blocks -/

/-- Whether a production is safe, takes a token and makes a statement that holds calls. -/
def SafeSingle (p : Parser Statement) (s : State) : Prop :=
  Safe p s fun statement t =>
    statement.HoldsCalls ∧ t.ahead.length < s.ahead.length

/-- Whether an attempt is safe and makes statements that hold calls, and takes a token if it is
complete. -/
def SafeAttempt (p : Parser Attempt) (s : State) : Prop :=
  Safe p s fun a t =>
    (∀ statement ∈ a.made, statement.HoldsCalls) ∧
      (a.complete = true → t.ahead.length < s.ahead.length)

theorem safe_failed {t : State} :
    Safe (return .failed) t fun (a : Attempt) u =>
      (∀ statement ∈ a.made, statement.HoldsCalls) ∧
        (a.complete = true → u.ahead.length < s.ahead.length) :=
  safe_pure ⟨by simp [Attempt.failed], by simp [Attempt.failed]⟩

theorem safe_single {p : Parser Statement} (safe : SafeSingle p s) :
    SafeAttempt (single p) s := by
  refine safe.attempt_bind ?made ?failed
  case made =>
    rintro statement t - ⟨calls, shorter⟩
    exact safe_pure ⟨by simpa using calls, fun _ => shorter⟩
  case failed => exact fun t _ => safe_failed

theorem safe_assignment :
    Safe assignment s fun found t =>
      found.1.span.Fits ∧ FittingExpr found.2 ∧ t.ahead.length < s.ahead.length := by
  refine safe_ident.bind ?_
  rintro name t - ⟨fitsName, shorter⟩
  refine safe_consumeAssign.bind ?_
  rintro _ u - shorterStill
  refine safe_value.bind ?_
  rintro e v shortest fits
  exact safe_pure ⟨fitsName, fits, by omega⟩

theorem safe_firstDeclaration :
    Safe firstDeclaration s fun found t =>
      found.2.HoldsCalls ∧ t.ahead.length < s.ahead.length := by
  refine (safe_typeName _ s (Nat.lt_succ_self _)).bind ?_
  rintro type t - ⟨fitsType, shorter⟩
  refine safe_assignment.bind ?_
  rintro ⟨name, value⟩ u - ⟨-, fitsValue, shorterStill⟩
  exact safe_joined_bind fitsType fitsValue fun _ => safe_pure ⟨trivial, by omega⟩

theorem safe_chainedDeclaration {type : TypeName} :
    SafeSingle (chainedDeclaration type) s := by
  refine safe_assignment.bind ?_
  rintro ⟨name, value⟩ t - ⟨fitsName, fitsValue, shorter⟩
  exact safe_joined_bind fitsName fitsValue fun _ => safe_pure ⟨trivial, shorter⟩

theorem safe_chainUpTo {type : TypeName} {n : Nat} {s : State}
    (enough : s.ahead.length < n) :
    Safe (chainUpTo type n) s fun a _ => ∀ statement ∈ a.made, statement.HoldsCalls := by
  have none : ∀ statement ∈ Attempt.failed.made, statement.HoldsCalls := by
    simp [Attempt.failed]
  induction n generalizing s with
  | zero => omega
  | succ n inductionHypothesis =>
    refine safe_take_bind (by simp) (fun t shorter => ?taken) fun _ => ?left
    case taken =>
      refine safe_chainedDeclaration.attempt_bind ?made ?failed
      case made =>
        rintro statement u - ⟨calls, shorterStill⟩
        refine (inductionHypothesis (by omega)).bind ?_
        rintro others v - each
        exact safe_pure (by simpa using ⟨calls, each⟩)
      case failed => exact fun u _ => safe_pure none
    case left =>
      refine (safe_consume (by simp)).attempt_bind ?made ?failed
      case made => exact fun _ t _ _ => safe_pure (by simp)
      case failed => exact fun t _ => safe_pure none

theorem safe_variableDecls : SafeAttempt variableDecls s := by
  refine safe_firstDeclaration.attempt_bind ?made ?failed
  case made =>
    rintro ⟨type, statement⟩ t - ⟨calls, shorter⟩
    refine safe_left_bind ?_
    refine (safe_chainUpTo (Nat.lt_succ_self _)).bind ?_
    rintro others u shorterStill each
    exact safe_pure ⟨by simpa using ⟨calls, each⟩, fun _ => by omega⟩
  case failed => exact fun t _ => safe_failed

theorem safe_datatypeDecl : SafeSingle datatypeDecl s := by
  refine (safe_consume (by simp)).bind ?_
  rintro start t - ⟨-, fitsStart, shorter⟩
  refine safe_ident.bind ?_
  rintro name u - ⟨-, shorterStill⟩
  refine (safe_consume (by simp)).bind ?_
  rintro _ v shortest -
  refine (safe_delimited (by simp) (safe_param _) (Nat.lt_succ_self _)).bind ?_
  rintro fields w behindFields -
  refine (safe_consume (by simp)).bind ?_
  rintro last x - ⟨-, fitsLast, behindLast⟩
  refine safe_joined_bind fitsStart fitsLast fun _ => ?_
  exact safe_pure ⟨trivial, by omega⟩

theorem safe_reassignment : SafeSingle reassignment s := by
  refine safe_assignment.bind ?_
  rintro ⟨target, value⟩ t - ⟨fitsTarget, -, shorter⟩
  refine (safe_consume (by simp)).bind ?_
  rintro last u shorterStill ⟨-, fitsLast, -⟩
  exact safe_joined_bind fitsTarget fitsLast fun _ => safe_pure ⟨trivial, by omega⟩

theorem safe_results : Safe results s fun _ _ => True := by
  refine safe_peek_bind fun _ => ?_
  split
  · exact safe_pure trivial
  · exact (safe_separated fun _ => safe_value).imp fun _ _ _ => trivial

theorem safe_result : SafeSingle result s := by
  refine (safe_consume (by simp)).bind ?_
  rintro start t - ⟨-, fitsStart, shorter⟩
  refine safe_results.bind ?_
  rintro values u shorterStill -
  refine (safe_consume (by simp)).bind ?_
  rintro last v shortest ⟨-, fitsLast, -⟩
  exact safe_joined_bind fitsStart fitsLast fun _ => safe_pure ⟨trivial, by omega⟩

theorem safe_control : SafeSingle control s := by
  refine (safe_consumeAny (by decide)).bind ?_
  rintro keyword t - ⟨-, fitsKeyword, shorter⟩
  refine (safe_consume (by simp)).bind ?_
  rintro last u shorterStill ⟨-, fitsLast, -⟩
  exact safe_joined_bind fitsKeyword fitsLast fun _ => safe_pure ⟨trivial, by omega⟩

theorem safe_callStatement (named : s.kind = .identifier)
    (opens : s.second.kind = .lParen ∨ s.second.kind = .doubleColon) :
    SafeSingle callStatement s := by
  refine (safe_call named opens).bind ?_
  rintro call t - ⟨fitsCall, isCall, shorter⟩
  refine safe_ensure_bind isCall ?_
  refine (safe_consume (by simp)).bind ?_
  rintro last u shorterStill ⟨-, fitsLast, -⟩
  exact safe_joined_bind fitsCall fitsLast fun _ => safe_pure ⟨isCall, by omega⟩

/-! ## Statements with blocks -/

/-- Whether the statements of a block hold calls and its region fits. -/
def FittingBlock (b : Block) : Prop :=
  b.HoldsCalls ∧ b.span.Fits

theorem safe_returnTypes :
    Safe returnTypes s fun _ _ => True := by
  refine safe_take_bind (by simp) (fun t _ => ?_) fun _ => safe_pure trivial
  have types : ∀ u, Safe typeName u fun _ _ => True := fun u =>
    (safe_typeName _ u (Nat.lt_succ_self _)).imp fun _ _ _ => trivial
  exact (safe_separated types).imp fun _ _ _ => trivial

section

variable {body : Parser Block} {n : Nat}

theorem safe_functionDecl (safeBlocks : SafeBelow body (FittingBlock) n)
    (small : s.ahead.length < n) : SafeSingle (functionDecl body) s := by
  refine (safe_consume (by simp)).bind ?_
  rintro start t - ⟨-, fitsStart, shorter⟩
  refine safe_ident.bind ?_
  rintro name u shorterStill -
  refine (safe_consume (by simp)).bind ?_
  rintro _ v behindOpen -
  refine (safe_delimited (by simp) (safe_param _) (Nat.lt_succ_self _)).bind ?_
  rintro params w behindParams -
  refine (safe_consume (by simp)).bind ?_
  rintro _ x behindClose -
  refine safe_returnTypes.bind ?_
  rintro returns y behindReturns -
  refine (safeBlocks y (by omega)).bind ?_
  rintro ⟨statements, span⟩ z behindBody ⟨⟨calls, fitsBody⟩, -⟩
  refine safe_joined_bind fitsStart fitsBody fun _ => ?_
  exact safe_pure ⟨calls, by omega⟩

theorem safe_branch (safeBlocks : SafeBelow body (FittingBlock) n) :
    SafeBelow (branch body) (fun b => FittingBlock b.body) n := by
  intro s small
  refine (safe_condition n s small).bind ?_
  rintro condition t - ⟨-, shorter⟩
  refine (safeBlocks t (by omega)).bind ?_
  rintro body u - ⟨fits, shorterStill⟩
  exact safe_pure ⟨fits, by omega⟩

theorem safe_branchesUpTo (safeBlocks : SafeBelow body (FittingBlock) n) {rounds : Nat}
    {s : State} (small : s.ahead.length < n) (enough : s.ahead.length ≤ rounds) :
    Safe (branchesUpTo body rounds) s fun branches _ =>
      ∀ b ∈ branches, FittingBlock b.body := by
  induction rounds generalizing s with
  | zero =>
    have eof : s.kind = .eof :=
      s.kind_eq_eof_iff.mpr (List.length_eq_zero_iff.mp (Nat.le_zero.mp enough))
    exact safe_ensure_bind (by simp [eof]) (safe_pure (by simp))
  | succ rounds inductionHypothesis =>
    refine safe_take_bind (by simp) (fun t shorter => ?_) fun _ => safe_pure (by simp)
    refine (safe_branch safeBlocks t (by omega)).bind ?_
    rintro first u shorterStill ⟨fits, -⟩
    refine (inductionHypothesis (by omega) (by omega)).bind ?_
    rintro others v - each
    exact safe_pure (by simpa using ⟨fits, each⟩)

theorem safe_alternative (safeBlocks : SafeBelow body (FittingBlock) n)
    (small : s.ahead.length < n) :
    Safe (alternative body) s fun otherwise _ =>
      ∀ b ∈ otherwise, FittingBlock b := by
  refine safe_take_bind (by simp) (fun t shorter => ?_) fun _ => safe_pure (by simp)
  refine (safeBlocks t (by omega)).bind ?_
  rintro body u - ⟨fits, -⟩
  exact safe_pure (by simpa using fits)

theorem fits_lastRegion {first : Branch} {others : List Branch} {otherwise : Option Block}
    (fitsFirst : FittingBlock first.body)
    (fitsOthers : ∀ b ∈ others, FittingBlock b.body)
    (fitsOtherwise : ∀ b ∈ otherwise, FittingBlock b) :
    (lastRegion first others otherwise).Fits := by
  cases otherwise with
  | some body => exact (fitsOtherwise body rfl).2
  | none =>
    rcases List.eq_nil_or_concat others with rfl | ⟨initial, last, rfl⟩
    · exact fitsFirst.2
    · simpa [lastRegion] using (fitsOthers last (by simp)).2

theorem safe_conditional (safeBlocks : SafeBelow body (FittingBlock) n)
    (small : s.ahead.length < n) : SafeSingle (conditional body) s := by
  refine (safe_consume (by simp)).bind ?_
  rintro start t - ⟨-, fitsStart, shorter⟩
  refine (safe_branch safeBlocks t (by omega)).bind ?_
  rintro first u behindFirst ⟨fitsFirst, -⟩
  refine safe_left_bind ?_
  refine (safe_branchesUpTo safeBlocks (by omega) (Nat.le_refl _)).bind ?_
  rintro others v behindOthers fitsOthers
  refine (safe_alternative safeBlocks (by omega)).bind ?_
  rintro otherwise w behindLast fitsOtherwise
  refine safe_joined_bind fitsStart (fits_lastRegion fitsFirst fitsOthers fitsOtherwise)
    fun _ => ?_
  refine safe_pure ⟨⟨?_, ?_⟩, by omega⟩
  · rw [Branch.eachHoldsCalls_iff, List.forall_mem_cons]
    exact ⟨fitsFirst.1, fun b member => (fitsOthers b member).1⟩
  · cases otherwise with
    | none => trivial
    | some body => exact (fitsOtherwise body rfl).1

theorem safe_loopCondition : Safe loopCondition s fun _ _ => True := by
  refine safe_peek_bind fun _ => ?_
  split
  · exact safe_pure trivial
  · exact (safe_condition _ s (Nat.lt_succ_self _)).bind fun _ _ _ _ => safe_pure trivial

theorem safe_loop (safeBlocks : SafeBelow body (FittingBlock) n)
    (small : s.ahead.length < n) : SafeSingle (loop body) s := by
  refine (safe_consume (by simp)).bind ?_
  rintro start t - ⟨-, fitsStart, shorter⟩
  refine safe_loopCondition.bind ?_
  rintro condition u behindCondition -
  refine (safeBlocks u (by omega)).bind ?_
  rintro body v behindBody ⟨⟨calls, fitsBody⟩, -⟩
  refine safe_joined_bind fitsStart fitsBody fun _ => ?_
  exact safe_pure ⟨calls, by omega⟩

theorem safe_blockStatement (safeBlocks : SafeBelow body (FittingBlock) n)
    (small : s.ahead.length < n) : SafeSingle (blockStatement body) s := by
  refine (safeBlocks s small).bind ?_
  rintro body t - ⟨⟨calls, -⟩, shorter⟩
  exact safe_pure ⟨calls, shorter⟩

/-! ## All statements -/

theorem safe_nested {p : Parser Statement} (safe : SafeSingle p s) :
    SafeAttempt (nested p) s := by
  refine safe_peek_bind fun _ => ?_
  refine safe.attempt_bind ?made ?failed
  case made =>
    rintro statement t - ⟨-, shorter⟩
    refine safe_report_bind fun u sameAhead _ => ?_
    exact safe_pure ⟨by simp, fun _ => by rwa [sameAhead]⟩
  case failed => exact fun t _ => safe_failed

theorem safe_declaration {p : Parser Statement} (top : Bool) (safe : SafeSingle p s) :
    SafeAttempt (declaration top p) s := by
  cases top with
  | true => exact safe_single safe
  | false => exact safe_nested safe

theorem safe_namedStatement (named : s.kind = .identifier) : SafeAttempt namedStatement s := by
  apply safe_peekSecond_bind
  split
  next => exact safe_variableDecls
  next paren => exact safe_single (safe_callStatement named (.inl paren))
  next colons => exact safe_single (safe_callStatement named (.inr colons))
  next =>
    split
    · exact safe_single safe_reassignment
    · exact safe_single safe_reject

theorem safe_statementBody (safeBlocks : SafeBelow body (FittingBlock) n) (top : Bool)
    (small : s.ahead.length < n) : SafeAttempt (statementBody body top) s := by
  refine safe_peek_bind fun _ => ?_
  split
  next => exact safe_declaration top (safe_functionDecl safeBlocks small)
  next => exact safe_declaration top safe_datatypeDecl
  next => exact safe_single (safe_conditional safeBlocks small)
  next => exact safe_single (safe_loop safeBlocks small)
  next => exact safe_single (safe_blockStatement safeBlocks small)
  next => exact safe_single (safe_blockStatement safeBlocks small)
  next => exact safe_single safe_result
  next => exact safe_single safe_control
  next => exact safe_single safe_control
  next => exact safe_variableDecls
  next => exact safe_variableDecls
  next => exact safe_variableDecls
  next => exact safe_variableDecls
  next named => exact safe_namedStatement named
  next => exact safe_single safe_reject

end

/-! ## Moving on where nothing is made -/

/-- Whether a production takes a token, even if it fails. -/
def Moves (p : Parser α) (s : State) : Prop :=
  (p.run s).2.ahead.length < s.ahead.length

theorem Moves.bind {p : Parser α} {f : α → Parser β} (moves : Moves p s) : Moves (p >>= f) s := by
  unfold Moves at *
  rw [run_bind]
  cases ran : p.run s with
  | mk result t =>
    rw [ran] at moves
    cases result with
    | none => exact moves
    | some x => exact Nat.lt_of_le_of_lt ((f x).reaches t).length_le moves

theorem moves_consume {kind : TokenKind} (notEof : kind ≠ .eof) (same : s.kind = kind) :
    Moves (consume kind) s := by
  have current : s.current.kind = kind := same
  simpa [Moves, consume, expect, current] using s.length_advance (same ▸ notEof)

theorem moves_peek_bind {f : Token → Parser β} (moves : Moves (f s.current) s) :
    Moves (peek >>= f) s :=
  moves

theorem moves_left_bind {f : Nat → Parser β} (moves : Moves (f s.ahead.length) s) :
    Moves (left >>= f) s :=
  moves

theorem moves_single {p : Parser Statement} (moves : Moves p s) : Moves (single p) s := by
  have attempted : Moves (attempt p) s := moves
  exact attempted.bind

theorem moves_nested {p : Parser Statement} (moves : Moves p s) : Moves (nested p) s := by
  have attempted : Moves (attempt p) s := moves
  exact moves_peek_bind attempted.bind

theorem moves_declaration {p : Parser Statement} (top : Bool) (moves : Moves p s) :
    Moves (declaration top p) s := by
  cases top with
  | true => exact moves_single moves
  | false => exact moves_nested moves

/-- A declaration of a function or a datatype takes its first token in any case. -/
theorem moves_statementBody {body : Parser Block} {top : Bool}
    (declares : s.kind ∈ [TokenKind.kwFun, .kwDatatype]) : Moves (statementBody body top) s := by
  apply moves_peek_bind
  simp only [List.mem_cons, List.not_mem_nil, or_false] at declares
  rcases declares with declares | declares
  · rw [show s.current.kind = .kwFun from declares]
    exact moves_declaration top (moves_consume (by simp) declares).bind
  · rw [show s.current.kind = .kwDatatype from declares]
    exact moves_declaration top (moves_consume (by simp) declares).bind

theorem Safe.moves {p : Parser α} {good : α → State → Prop} (safe : Safe p s good)
    (moves : Moves p s) :
    Safe p s fun x t => good x t ∧ t.ahead.length < s.ahead.length := by
  intro fits
  refine ⟨(safe fits).1, ?_⟩
  intro x t ran
  unfold Moves at moves
  rw [ran] at moves
  exact ⟨(safe fits).2 x t ran, moves⟩

/-! ## Sequences and programs -/

/-- A state behind which no token was taken is that of the same tokens. -/
theorem State.Reaches.kind_eq {s t : State} (reaches : s.Reaches t)
    (same : t.ahead.length = s.ahead.length) : t.kind = s.kind := by
  have ahead : t.ahead = s.ahead := reaches.ahead.eq_of_length same
  rw [State.kind, State.current, State.front, ahead, reaches.final]
  rfl

/-- Whether a statement in a sequence is safe, and takes a token if it is complete or skipping would stay in
front of it. -/
def SafeInSequence (ends stops : List TokenKind) (statement : Parser Attempt)
    (n : Nat) : Prop :=
  ∀ s : State, s.ahead.length < n → s.isAtEnd ends = false →
    Safe statement s fun a t =>
      (∀ made ∈ a.made, made.HoldsCalls) ∧
        (a.complete = true ∨ s.kind ∈ stops → t.ahead.length < s.ahead.length)

section

variable {n : Nat} {ends stops : List TokenKind} {statement : Parser Attempt}

theorem safe_sequenceUpTo (safe : SafeInSequence ends stops statement n) {rounds : Nat}
    {s : State} (small : s.ahead.length < n) (enough : s.ahead.length ≤ rounds) :
    Safe (sequenceUpTo ends stops statement rounds) s fun statements t =>
      (∀ made ∈ statements, made.HoldsCalls) ∧ t.isAtEnd ends = true := by
  induction rounds generalizing s with
  | zero =>
    have atEnd := s.isAtEnd_of_empty (Nat.le_zero.mp enough) ends
    exact safe_ensure_bind atEnd (safe_pure ⟨by simp, atEnd⟩)
  | succ rounds inductionHypothesis =>
    apply safe_atEnd_bind
    split
    next atEnd => exact safe_pure ⟨by simp, atEnd⟩
    next notAtEnd =>
      have notAtEnd : s.isAtEnd ends = false := by simpa using notAtEnd
      have others : ∀ (tried : Attempt) (u : State), (∀ made ∈ tried.made, made.HoldsCalls) →
          u.ahead.length < s.ahead.length → Safe (do
            return tried.made ++ (← sequenceUpTo ends stops statement rounds)) u
            fun statements t =>
              (∀ made ∈ statements, made.HoldsCalls) ∧ t.isAtEnd ends = true := by
        intro tried u calls shorter
        refine (inductionHypothesis (by omega) (by omega)).bind ?_
        rintro rest t - ⟨each, atEnd⟩
        refine safe_pure ⟨?_, atEnd⟩
        intro made member
        exact (List.mem_append.mp member).elim (calls made) (each made)
      refine (safe s small notAtEnd).forward.bind ?_
      rintro ⟨made, complete⟩ t shorter ⟨⟨calls, takes⟩, reaches⟩
      cases complete with
      | true =>
        have stays : Safe (pure true : Parser Bool) t fun _ u => u = t := safe_pure rfl
        refine stays.bind ?_
        rintro _ _ - rfl
        exact others ⟨made, true⟩ _ calls (takes (.inl rfl))
      | false =>
        refine safe_resync_bind fun answer u behind _ moved => others ⟨made, false⟩ u calls ?_
        cases stopped : t.isAtEnd stops with
        | false => exact Nat.lt_of_lt_of_le (moved stopped) shorter
        | true =>
          -- Nothing is skipped, so the attempt took a token: it started neither at the end nor in
          -- front of a token that stops.
          have taken : t.ahead.length < s.ahead.length := by
            refine Nat.lt_of_le_of_ne shorter fun same => ?_
            have kind := reaches.kind_eq same
            simp only [State.isAtEnd, kind, Bool.or_eq_true, decide_eq_true_eq] at stopped
            rcases stopped with eof | stops
            · exact State.kind_ne_eof_of_not_atEnd notAtEnd eof
            · exact absurd same (Nat.ne_of_lt (takes (.inr stops)))
          omega

theorem safe_sequence (safe : SafeInSequence ends stops statement n) {s : State}
    (small : s.ahead.length < n) :
    Safe (sequence ends stops statement) s fun statements t =>
      Statement.EachHoldsCalls statements ∧ t.isAtEnd ends = true :=
  safe_left_bind <| (safe_sequenceUpTo safe small (Nat.le_refl _)).imp
    fun _ _ found => ⟨Statement.eachHoldsCalls_iff.mpr found.1, found.2⟩

theorem safe_block (safe : ∀ s : State, s.ahead.length < n → SafeAttempt statement s) :
    SafeBelow (block statement) (FittingBlock) (n + 1) := by
  have notEof : ∀ kind ∈ blockKinds, closing kind ≠ .eof := by decide
  intro s small
  refine (safe_consumeAny (by decide)).bind ?_
  rintro opening t - ⟨opens, fitsOpening, shorter⟩
  -- the token that ends the block is the one that stops skipping
  have inSequence : SafeInSequence [closing opening.kind] [closing opening.kind] statement n := by
    intro u smaller notAtEnd
    refine (safe u smaller).imp fun a v found => ⟨found.1, ?_⟩
    rintro (complete | stops)
    · exact found.2 complete
    · simp only [State.isAtEnd, stops, Bool.or_eq_false_iff, decide_eq_false_iff_not] at notAtEnd
      exact absurd trivial notAtEnd.2
  refine (safe_sequence inSequence (by omega)).bind ?_
  rintro statements u behind ⟨calls, -⟩
  refine safe_peek_bind fun fitsCurrent => ?_
  split
  next =>
    refine safe_report_bind fun v sameAhead _ => ?_
    refine safe_joined_bind fitsOpening fitsCurrent fun fits => ?_
    exact safe_pure ⟨⟨calls, fits⟩, by rw [sameAhead]; omega⟩
  next =>
    refine (safe_consume (notEof _ opens)).bind ?_
    rintro last v behindLast ⟨-, fitsLast, -⟩
    refine safe_joined_bind fitsOpening fitsLast fun fits => ?_
    exact safe_pure ⟨⟨calls, fits⟩, by omega⟩

end

theorem safe_statementUpTo (n : Nat) (top : Bool) {s : State} (small : s.ahead.length < n) :
    SafeAttempt (statementUpTo n top) s := by
  induction n generalizing top s with
  | zero => omega
  | succ n inductionHypothesis =>
    exact safe_statementBody (safe_block fun t smaller => inductionHypothesis false smaller) top small

theorem safe_statement : SafeAttempt statement s :=
  safe_left_bind (safe_statementUpTo _ true (Nat.lt_succ_self _))

theorem moves_statement (declares : s.kind ∈ [TokenKind.kwFun, .kwDatatype]) : Moves statement s := by
  apply moves_left_bind
  rw [statementUpTo]
  exact moves_statementBody declares

theorem safe_program :
    Safe program s fun p t => Statement.EachHoldsCalls p ∧ t.kind = .eof := by
  have inSequence : SafeInSequence [] [.kwFun, .kwDatatype] statement (s.ahead.length + 1) := by
    intro t _ _
    by_cases declares : t.kind ∈ [TokenKind.kwFun, .kwDatatype]
    · exact (safe_statement.moves (moves_statement declares)).imp
        fun a u found => ⟨found.1.1, fun _ => found.2⟩
    · exact safe_statement.imp fun a u found =>
        ⟨found.1, fun either => found.2 (either.resolve_right declares)⟩
  refine (safe_sequence inSequence (Nat.lt_succ_self _)).imp fun p t found => ⟨found.1, ?_⟩
  simpa [State.isAtEnd] using found.2

end FrontEnd.Parser
