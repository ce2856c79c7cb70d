import FrontEnd.Proofs.Parsing.BuildsExpression
import FrontEnd.Proofs.Parsing.Ending

/-!
# What statements and programs are built of

An attempt keeps whatever it made before it failed, and a sequence goes on behind it. All the same the tree is
well formed, for an attempt only ever makes a chain as far as it was read, and nothing made later is chained
to it. It also never leaves a missing part that no error was reported for, so that a program has at most as
many missing parts as there are errors (`parse_wellFormed`).
-/

namespace FrontEnd.Parser

variable {s : State}

/-! ## Statements without blocks -/

/-- Whether a production makes a well-formed statement, which is not chained to another one. -/
def BuildsSingle (top : Bool) (p : Parser Statement) (s : State) : Prop :=
  Builds 0 p s fun made m => made.WellFormed top ∧ made.Chains none ∧ made.gaps ≤ m

/-- What an attempt has made, with `m` errors reported. If there are none, it is complete. -/
structure Leaves (top : Bool) (a : Attempt) (m : Nat) : Prop where
  wellFormed : ∀ before, Statement.EachWellFormed top before a.made
  gaps : Statement.eachGaps a.made ≤ m
  complete : m = 0 → a.made ≠ [] ∧ a.complete = true

theorem leaves_failed (top : Bool) {m : Nat} (reported : 0 < m) : Leaves top .failed m where
  wellFormed _ := trivial
  gaps := Nat.zero_le m
  complete none := absurd none (Nat.ne_of_gt reported)

/-- Whether an attempt leaves only well-formed statements. -/
def BuildsAttempt (top : Bool) (p : Parser Attempt) (s : State) : Prop :=
  Builds 0 p s (Leaves top)

theorem builds_single {top : Bool} {p : Parser Statement} (builds : BuildsSingle top p s) :
    BuildsAttempt top (single p) s := by
  refine builds.attempt_bind ?made ?failed
  case made =>
    rintro made m t ⟨wellFormed, chains, paid⟩
    exact builds_pure
      { wellFormed := fun before => ⟨chains.anywhere before, wellFormed, trivial⟩
        gaps := by simpa [Statement.eachGaps] using paid
        complete := fun _ => ⟨by simp, rfl⟩ }
  case failed => exact fun m t reported => builds_pure (leaves_failed top (by omega))

theorem builds_assignment :
    Builds 0 assignment s fun found m => found.2.IsValue ∧ found.2.gaps ≤ m := by
  refine builds_ident.bind fun name _ t _ => builds_expect.bind fun _ _ u _ => ?_
  refine (builds_value u).bind ?_
  rintro e m v ⟨isValue, paid⟩
  exact builds_pure ⟨isValue, by dsimp only; omega⟩

theorem builds_firstDeclaration (top : Bool) :
    Builds 0 firstDeclaration s fun found m =>
      found.2.WellFormed top ∧ found.2.Chains none ∧ found.2.chainType? = some found.1 ∧
        found.2.gaps ≤ m := by
  refine builds_typeName.bind fun type _ t _ => builds_assignment.bind ?_
  rintro ⟨name, value⟩ m u ⟨isValue, paid⟩
  exact builds_joined_bind fun _ => builds_pure ⟨isValue, trivial, rfl, by
    dsimp only [Statement.gaps] at paid ⊢
    omega⟩

theorem builds_chainedDeclaration (top : Bool) {type : TypeName} :
    Builds 0 (chainedDeclaration type) s fun made m =>
      made.WellFormed top ∧ made.Chains (some type) ∧ made.chainType? = some type ∧
        made.gaps ≤ m := by
  refine builds_assignment.bind ?_
  rintro ⟨name, value⟩ m t ⟨isValue, paid⟩
  exact builds_joined_bind fun _ => builds_pure ⟨isValue, rfl, rfl, by
    dsimp only [Statement.gaps] at paid ⊢
    omega⟩

/-- The further declarations of a chain stand behind one of its type. -/
theorem builds_chainUpTo (top : Bool) {type : TypeName} (n : Nat) {s : State} :
    Builds 0 (chainUpTo type n) s fun a m =>
      Statement.EachWellFormed top (some type) a.made ∧ Statement.eachGaps a.made ≤ m ∧
        (m = 0 → a.complete = true) := by
  have failed : ∀ m, 0 < m → Statement.EachWellFormed top (some type) Attempt.failed.made ∧
      Statement.eachGaps Attempt.failed.made ≤ m ∧ (m = 0 → Attempt.failed.complete = true) :=
    fun m reported => ⟨trivial, Nat.zero_le m, fun none => absurd none (Nat.ne_of_gt reported)⟩
  induction n generalizing s with
  | zero => exact builds_ensure_bind False.elim
  | succ n inductionHypothesis =>
    refine builds_take_bind fun continues _ t => ?_
    cases continues with
    | true =>
      refine (builds_chainedDeclaration top).attempt_bind ?made ?failed
      case made =>
        rintro made m u ⟨wellFormed, chains, chainType, paid⟩
        refine inductionHypothesis.bind ?_
        rintro others more v ⟨each, paidEach, complete⟩
        refine builds_pure ⟨⟨chains, wellFormed, by rwa [chainType]⟩, ?_, fun none => ?_⟩
        · rw [Statement.eachGaps]
          omega
        · exact complete (by omega)
      case failed => exact fun m u reported => builds_pure (failed _ (by omega))
    | false =>
      refine builds_consume.attempt_bind ?made ?failed
      case made => exact fun _ m u _ => builds_pure ⟨trivial, Nat.zero_le _, fun _ => rfl⟩
      case failed => exact fun m u reported => builds_pure (failed _ (by omega))

theorem builds_variableDecls {top : Bool} : BuildsAttempt top variableDecls s := by
  refine (builds_firstDeclaration top).attempt_bind ?made ?failed
  case made =>
    rintro ⟨type, made⟩ m t ⟨wellFormed, chains, chainType, paid⟩
    refine builds_left_bind ((builds_chainUpTo top _).bind ?_)
    rintro others more u ⟨each, paidEach, complete⟩
    refine builds_pure { wellFormed := fun before => ?_, gaps := ?_, complete := fun none => ?_ }
    · exact ⟨chains.anywhere before, wellFormed, by rwa [chainType]⟩
    · rw [Statement.eachGaps]
      dsimp only at paid
      omega
    · exact ⟨by simp, complete (by omega)⟩
  case failed => exact fun m t reported => builds_pure (leaves_failed top (by omega))

theorem builds_datatypeDecl : BuildsSingle true datatypeDecl s :=
  builds_consume.bind fun _ _ _ _ => builds_ident.bind fun _ _ _ _ =>
    builds_consume.bind fun _ _ _ _ =>
      builds_params.bind fun _ _ _ _ =>
        builds_consume.bind fun _ _ _ _ => builds_joined_bind fun _ =>
          builds_pure ⟨rfl, trivial, Nat.zero_le _⟩

theorem builds_reassignment {top : Bool} : BuildsSingle top reassignment s := by
  refine builds_assignment.bind ?_
  rintro ⟨target, value⟩ m t ⟨isValue, paid⟩
  refine builds_consume.bind fun _ _ u _ => builds_joined_bind fun _ => ?_
  refine builds_pure ⟨isValue, trivial, ?_⟩
  rw [Statement.gaps]
  dsimp only at paid
  omega

theorem builds_results :
    Builds 0 results s fun values m => (∀ e ∈ values, e.IsValue) ∧ Expr.eachGaps values ≤ m := by
  apply builds_peek_bind
  split
  · exact builds_pure ⟨by simp, Nat.zero_le _⟩
  · refine (builds_separated Expr.gaps builds_value).later ?_
    rintro values m ⟨each, paid⟩
    refine ⟨each, ?_⟩
    rw [Expr.eachGaps_eq_sum]
    omega

theorem builds_result {top : Bool} : BuildsSingle top result s := by
  refine builds_consume.bind fun _ _ t _ => builds_results.bind ?_
  rintro values m u ⟨each, paid⟩
  refine builds_consume.bind fun _ _ v _ => builds_joined_bind fun _ => ?_
  refine builds_pure ⟨each, trivial, ?_⟩
  rw [Statement.gaps]
  omega

theorem builds_control {top : Bool} : BuildsSingle top control s :=
  builds_expect.bind fun _ _ _ _ => builds_consume.bind fun _ _ _ _ =>
    builds_joined_bind fun _ => builds_pure ⟨trivial, trivial, Nat.zero_le _⟩

theorem builds_callStatement {top : Bool} : BuildsSingle top callStatement s := by
  refine (builds_expression true).bind ?_
  rintro call m t ⟨none, -⟩
  refine builds_ensure_bind fun isCall => ?_
  refine builds_consume.bind fun _ _ u _ => builds_joined_bind fun _ => ?_
  refine builds_pure ⟨⟨isCall, none⟩, trivial, ?_⟩
  rw [Statement.gaps, none]
  exact Nat.zero_le _

/-! ## Statements with blocks -/

/-- Whether a production makes well-formed blocks, and pays for what is missing in them. -/
def BuildsBlocks (body : Parser Block) : Prop :=
  ∀ s, Builds 0 body s fun b m => b.WellFormed ∧ b.gaps ≤ m

section

variable {body : Parser Block}

theorem builds_returnTypes : Builds 0 returnTypes s fun _ _ => True := by
  refine builds_take_bind fun answer _ t => ?_
  cases answer with
  | false => exact builds_pure trivial
  | true =>
    have each : ∀ u, Builds 0 typeName u fun _ m => True ∧ 0 ≤ m :=
      fun u => builds_typeName.later fun _ m _ => ⟨trivial, Nat.zero_le _⟩
    exact (builds_separated (fun _ => 0) each).later fun _ _ _ => trivial

theorem builds_functionDecl (blocks : BuildsBlocks body) :
    BuildsSingle true (functionDecl body) s := by
  refine builds_consume.bind fun _ _ t _ => builds_ident.bind fun name _ u _ => ?_
  refine builds_consume.bind fun _ _ v _ => ?_
  refine builds_params.bind fun params _ w _ => ?_
  refine builds_consume.bind fun _ _ x _ => builds_returnTypes.bind fun returns _ y _ => ?_
  refine (blocks y).bind ?_
  rintro body m z ⟨wellFormed, paid⟩
  refine builds_joined_bind fun _ => builds_pure ⟨⟨rfl, wellFormed⟩, trivial, ?_⟩
  rw [Statement.gaps]
  omega

/-- Whether a condition and the block under it are well formed, and all that is missing is paid for. -/
def PaidBranch (b : Branch) (m : Nat) : Prop :=
  b.condition.Decides ∧ b.body.WellFormed ∧ b.condition.gaps + b.body.gaps ≤ m

theorem builds_branch (blocks : BuildsBlocks body) : Builds 0 (branch body) s PaidBranch := by
  refine builds_condition.bind fun condition _ t decides => (blocks t).bind ?_
  rintro body m u ⟨wellFormed, paid⟩
  have none := decides.1
  exact builds_pure ⟨decides, wellFormed, by dsimp only; omega⟩

theorem builds_branchesUpTo (blocks : BuildsBlocks body) (n : Nat) {s : State} :
    Builds 0 (branchesUpTo body n) s fun branches m =>
      Branch.EachWellFormed branches ∧ Branch.eachGaps branches ≤ m := by
  induction n generalizing s with
  | zero => exact builds_ensure_bind fun _ => builds_pure ⟨trivial, Nat.zero_le _⟩
  | succ n inductionHypothesis =>
    refine builds_take_bind fun continues _ t => ?_
    cases continues with
    | false => exact builds_pure ⟨trivial, Nat.zero_le _⟩
    | true =>
      refine (builds_branch blocks).bind ?_
      rintro first m u ⟨decides, wellFormed, paid⟩
      refine inductionHypothesis.bind ?_
      rintro others more v ⟨each, paidEach⟩
      refine builds_pure ⟨Branch.eachWellFormed_cons first others |>.mpr ⟨decides, wellFormed, each⟩, ?_⟩
      rw [Branch.eachGaps_cons]
      omega

theorem builds_alternative (blocks : BuildsBlocks body) :
    Builds 0 (alternative body) s fun otherwise m =>
      Block.OptionWellFormed otherwise ∧ Block.optionGaps otherwise ≤ m := by
  refine builds_take_bind fun answer _ t => ?_
  cases answer with
  | false => exact builds_pure ⟨trivial, Nat.zero_le _⟩
  | true =>
    refine (blocks t).bind ?_
    rintro body m u ⟨wellFormed, paid⟩
    exact builds_pure ⟨wellFormed, by rw [Block.optionGaps]; omega⟩

theorem builds_conditional (blocks : BuildsBlocks body) {top : Bool} :
    BuildsSingle top (conditional body) s := by
  refine builds_consume.bind fun _ _ t _ => (builds_branch blocks).bind ?_
  rintro first m u ⟨decides, wellFormed, paid⟩
  refine builds_left_bind ((builds_branchesUpTo blocks _).bind ?_)
  rintro others more v ⟨each, paidEach⟩
  refine (builds_alternative blocks).bind ?_
  rintro otherwise most w ⟨wellFormedLast, paidLast⟩
  refine builds_joined_bind fun _ => builds_pure ⟨⟨by simp, ?_, wellFormedLast⟩, trivial, ?_⟩
  · exact Branch.eachWellFormed_cons first others |>.mpr ⟨decides, wellFormed, each⟩
  · rw [Statement.gaps, Branch.eachGaps_cons]
    omega

theorem builds_loopCondition :
    Builds 0 loopCondition s fun condition _ => ∀ e ∈ condition, e.Decides := by
  apply builds_peek_bind
  split
  · exact builds_pure (by simp)
  · exact builds_condition.bind fun condition _ t decides => builds_pure (by simpa using decides)

theorem builds_loop (blocks : BuildsBlocks body) {top : Bool} : BuildsSingle top (loop body) s := by
  refine builds_consume.bind fun _ _ t _ => builds_loopCondition.bind fun condition _ u decides => ?_
  refine (blocks u).bind ?_
  rintro body m v ⟨wellFormed, paid⟩
  refine builds_joined_bind fun _ => builds_pure ⟨⟨decides, wellFormed⟩, trivial, ?_⟩
  have none : (condition.map Expr.gaps).getD 0 = 0 := by
    cases condition with
    | none => rfl
    | some e => exact (decides e rfl).1
  rw [Statement.gaps, none]
  omega

theorem builds_blockStatement (blocks : BuildsBlocks body) {top : Bool} :
    BuildsSingle top (blockStatement body) s := by
  refine (blocks s).bind ?_
  rintro body m t ⟨wellFormed, paid⟩
  exact builds_pure ⟨wellFormed, trivial, by rw [Statement.gaps]; omega⟩

/-! ## All statements -/

/-- What is declared in the wrong place is reported and dropped. -/
theorem builds_nested {p : Parser Statement} (builds : BuildsSingle true p s) :
    BuildsAttempt false (nested p) s := by
  apply builds_peek_bind
  refine builds.attempt_bind ?made ?failed
  case made =>
    refine fun _ m t _ => builds_report_bind fun u => builds_pure ?_
    exact { wellFormed := fun _ => trivial, gaps := Nat.zero_le _, complete := fun none => by omega }
  case failed => exact fun m t reported => builds_pure (leaves_failed false (by omega))

theorem builds_declaration {top : Bool} {p : Parser Statement} (builds : BuildsSingle true p s) :
    BuildsAttempt top (declaration top p) s := by
  cases top with
  | true => exact builds_single builds
  | false => exact builds_nested builds

theorem builds_namedStatement {top : Bool} : BuildsAttempt top namedStatement s := by
  apply builds_peekSecond_bind
  split
  · exact builds_variableDecls
  · exact builds_single builds_callStatement
  · exact builds_single builds_callStatement
  · split
    · exact builds_single builds_reassignment
    · exact builds_single builds_reject

theorem builds_statementBody (blocks : BuildsBlocks body) {top : Bool} :
    BuildsAttempt top (statementBody body top) s := by
  apply builds_peek_bind
  split
  next => exact builds_declaration (builds_functionDecl blocks)
  next => exact builds_declaration builds_datatypeDecl
  next => exact builds_single (builds_conditional blocks)
  next => exact builds_single (builds_loop blocks)
  next => exact builds_single (builds_blockStatement blocks)
  next => exact builds_single (builds_blockStatement blocks)
  next => exact builds_single builds_result
  next => exact builds_single builds_control
  next => exact builds_single builds_control
  next => exact builds_variableDecls
  next => exact builds_variableDecls
  next => exact builds_variableDecls
  next => exact builds_variableDecls
  next => exact builds_namedStatement
  next => exact builds_single builds_reject

end

section

variable {ends stops : List TokenKind} {statement : Parser Attempt} {top : Bool}

/-- Nothing in a sequence is chained to what an earlier attempt has made. -/
theorem builds_sequenceUpTo (attempts : ∀ s, BuildsAttempt top statement s) (n : Nat) {s : State} :
    Builds 0 (sequenceUpTo ends stops statement n) s fun made m =>
      (∀ before, Statement.EachWellFormed top before made) ∧ Statement.eachGaps made ≤ m := by
  induction n generalizing s with
  | zero => exact builds_ensure_bind fun _ => builds_pure ⟨fun _ => trivial, Nat.zero_le _⟩
  | succ n inductionHypothesis =>
    apply builds_atEnd_bind
    split
    next => exact builds_pure ⟨fun _ => trivial, Nat.zero_le _⟩
    next =>
      refine (attempts s).bind ?_
      rintro tried m t ⟨wellFormed, paid, -⟩
      have others : ∀ more u, Builds (0 + m + more) (do
          return tried.made ++ (← sequenceUpTo ends stops statement n)) u fun made m =>
            (∀ before, Statement.EachWellFormed top before made) ∧ Statement.eachGaps made ≤ m := by
        refine fun more u => inductionHypothesis.bind ?_
        rintro rest most v ⟨each, paidEach⟩
        refine builds_pure ⟨fun before => (wellFormed before).append each, ?_⟩
        rw [Statement.eachGaps_append]
        omega
      dsimp only
      split
      · exact (builds_of_made rfl).bind fun _ more u _ => others more u
      · exact builds_resync_bind fun _ more u => others more u

theorem builds_sequence (attempts : ∀ s, BuildsAttempt top statement s) :
    Builds 0 (sequence ends stops statement) s fun made m =>
      (∀ before, Statement.EachWellFormed top before made) ∧ Statement.eachGaps made ≤ m :=
  builds_left_bind (builds_sequenceUpTo attempts _)

end

theorem builds_block {statement : Parser Attempt} (attempts : ∀ s, BuildsAttempt false statement s) :
    BuildsBlocks (block statement) := by
  intro s
  refine builds_expect.bind fun opening _ t _ => (builds_sequence attempts).bind ?_
  rintro statements m u ⟨wellFormed, paid⟩
  apply builds_peek_bind
  split
  · refine builds_report_bind fun v => builds_joined_bind fun _ => ?_
    exact builds_pure ⟨wellFormed none, by rw [Block.gaps]; omega⟩
  · refine builds_consume.bind fun last _ v _ => builds_joined_bind fun _ => ?_
    exact builds_pure ⟨wellFormed none, by rw [Block.gaps]; omega⟩

theorem builds_statementUpTo (n : Nat) (top : Bool) (s : State) :
    BuildsAttempt top (statementUpTo n top) s := by
  induction n generalizing top s with
  | zero => exact builds_ensure_bind False.elim
  | succ n inductionHypothesis =>
    exact builds_statementBody (builds_block (inductionHypothesis false))

theorem builds_statement (s : State) : BuildsAttempt true statement s :=
  builds_left_bind (builds_statementUpTo (s.ahead.length + 1) true s)

theorem builds_program (s : State) :
    Builds 0 program s fun p m => Program.WellFormed p ∧ Program.gaps p ≤ m := by
  refine (builds_sequence builds_statement).later ?_
  rintro p m ⟨wellFormed, paid⟩
  exact ⟨wellFormed none, by rw [Program.gaps]; omega⟩

/-! ## From all tokens -/

/-- From any tokens a well-formed program is made, with at most as many missing parts as there are errors. -/
theorem parse_wellFormed {tokens : List Token} (nonempty : tokens ≠ [])
    (fits : ∀ t ∈ tokens, t.span.hi < UInt32.size) :
    ∃ o, Program.parse tokens = .ok o ∧ Program.WellFormed o.value ∧ Program.gaps o.value ≤ o.errors.length := by
  obtain ⟨p, t, ends, parsed, -⟩ := parse_ends nonempty fits
  obtain ⟨m, count, made⟩ := builds_program (.before tokens (tokens.getLast nonempty)) ends.asserts
  rw [ends.run] at count made
  obtain ⟨wellFormed, paid⟩ := made
  exact ⟨⟨p, t.errors⟩, parsed, wellFormed, by dsimp only at count ⊢; omega⟩

/-- A declaration without a value, a comma behind it and a word in the wrong place. -/
def cutTokens : List Token :=
  [⟨.kwInt, "int", ⟨0, 3, 1, 0⟩⟩, ⟨.identifier, "x", ⟨4, 1, 1, 4⟩⟩, ⟨.operator, "=", ⟨6, 1, 1, 6⟩⟩,
   ⟨.comma, ",", ⟨7, 1, 1, 7⟩⟩, ⟨.kwElse, "else", ⟨9, 4, 1, 9⟩⟩]

theorem parse_wellFormed_cut :
    cutTokens ≠ [] ∧ (∀ t ∈ cutTokens, t.span.hi < UInt32.size) ∧
      ∃ o, Program.parse cutTokens = .ok o ∧ Program.WellFormed o.value ∧
        Program.gaps o.value ≤ o.errors.length :=
  ⟨by decide, by decide, parse_wellFormed (by decide) (by decide)⟩

/-- The declaration is kept, and what follows it is reported too. -/
example : (Program.parse cutTokens).toOption.map
    (fun o => (Program.gaps o.value, o.errors.length)) = some (1, 2) := by
  rfl

end FrontEnd.Parser
