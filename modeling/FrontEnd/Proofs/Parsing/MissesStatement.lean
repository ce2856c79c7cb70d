import FrontEnd.Proofs.Parsing.MissesValue

/-!
# Statements that miss a value

A statement with blocks misses a value that is in one of them, for all else of it is read as it was. By the depth of the
statements this holds of all of them, and so of a program (`misses_program`).
-/

namespace FrontEnd.Parser

variable {ι : Type} [Inhabited ι] {bound : ι → Nat} {n : Nat} {ends begins : TokenKind → Prop} {e : Expr} {s t : State}

/-! ## Statements with blocks -/

/-- All of a conditional behind its first branch. -/
def furtherBranches (body : Parser Block) : Parser (List Branch × Option Block) := do
  let others ← branchesUpTo body (← left)
  let otherwise ← alternative body
  return (others, otherwise)

theorem repeats_furtherBranches {least depth : Nat} {body bodyAgain : Parser Block}
    (repeats : RepeatsBelow n depth 1 Anything body bodyAgain) (small : s.ahead.length < n) (deep : least ≤ depth) :
    Repeats least 0 EndsBranch (furtherBranches body) (furtherBranches bodyAgain) s := by
  refine repeats_left_bind fun k => ?_
  refine (repeats_branchesUpTo repeats small (Nat.le_refl _) (by omega) (by omega)).bind (l := 0)
    (by omega) (fun others v _ _ => ?_) (.inr fun _ isFree => isFree)
  exact (repeats_alternative repeats (by omega) (by omega)).still_bind fun _ _ _ => repeats_pure trivial

theorem run_behindFirst {start : Span} {first : Branch} {body : Parser Block} :
    (left >>= fun k => branchesUpTo body k >>= fun others => alternative body >>= fun otherwise =>
        joined start (lastRegion first others otherwise) >>= fun region =>
          pure (Statement.conditional (first :: others) otherwise region)).run s =
      (furtherBranches body >>= fun further => pure (.conditional (first :: further.1) further.2
        (start.upTo (lastRegion first further.1 further.2)))).run s := by
  rw [furtherBranches, run_bind_assoc]
  refine run_bind_congr fun k t => ?_
  rw [run_bind_assoc]
  refine run_bind_congr fun others u => ?_
  rw [run_bind_assoc]
  rfl

/-- A conditional ends where it did if each of its blocks does. -/
theorem lastRegion_of_first {first other : Branch} {others : List Branch} {otherwise : Option Block}
    (same : other.body.span = first.body.span) :
    lastRegion other others otherwise = lastRegion first others otherwise := by
  cases otherwise with
  | some => rfl
  | none =>
    cases others with
    | nil => exact same
    | cons => rfl

theorem lastRegion_of_within {first : Branch} {others : List Branch} {otherwise : Option Block}
    {lacking : Span → List Branch} (within : Hole.Within (Branch.HasValue e) others lacking) (place : Span) :
    lastRegion first (lacking place) otherwise = lastRegion first others otherwise := by
  cases otherwise with
  | some => rfl
  | none =>
    induction within generalizing first with
    | @head branch rest inner has =>
      cases rest with
      | nil => exact has.span_eq place
      | cons => rfl
    | @tail branch rest inner has inductionHypothesis =>
      simpa only [lastRegion, List.getLastD_cons] using inductionHypothesis

section

variable {depth : ι → Nat} {body : Parser Block} {bodyAgain : ι → Parser Block}
  (misses : MissesBelow n depth e (Block.HasValue e) body bodyAgain)

include misses

theorem misses_functionDecl (small : s.ahead.length < n) (deep : ∀ i, bound i ≤ depth i) :
    Misses bound 1 Anything begins e (Statement.HasValue e) (functionDecl body)
      (fun i => functionDecl (bodyAgain i)) s := by
  refine .token_bind (j := 1) (by omega) (fun _ => repeats_consume (by decide)) fun start t _ _ => ?_
  refine .token_bind (j := 1) (by omega) (fun _ => repeats_ident) fun name u _ _ => ?_
  refine .token_bind (j := 1) (by omega) (fun _ => repeats_consume (by decide)) fun _ v _ _ => ?_
  refine .taking_bind (by omega) (fun _ => repeats_parameters) fun params w _ _ => ?_
  refine .token_bind (j := 1) (by omega) (fun _ => repeats_consume (by decide)) fun _ x _ _ => ?_
  refine .taking_bind (by omega) (fun _ => repeats_returnTypes) fun returns y _ _ => ?_
  refine (misses.inside (by omega) fun i => Nat.le_trans (by omega) (deep i)).still_bind
    (c := fun made => .function ⟨name, params, returns, made⟩ (start.span.upTo made.span)) (fun _ _ => rfl) ?_
  intro made _ has
  cases has with
  | function inside => exact ⟨_, inside, funext fun place => by rw [inside.span_eq place]⟩

theorem misses_branch (small : s.ahead.length < n) (deep : ∀ i, bound i ≤ depth i) :
    Misses bound 1 Anything begins e (Branch.HasValue e) (branch body) (fun i => branch (bodyAgain i)) s := by
  refine .taking_bind (by omega) (fun _ => repeats_condition) fun condition t _ _ => ?_
  refine (misses.inside (by omega) fun i => Nat.le_trans (by omega) (deep i)).still_bind
    (c := fun made => ⟨condition, made⟩) (fun _ _ => rfl) ?_
  rintro made _ ⟨inner, has, rfl⟩
  exact ⟨inner, has, rfl⟩

theorem misses_alternative (small : s.ahead.length < n) (deep : ∀ i, bound i ≤ depth i) :
    Misses bound 1 Anything begins e (.some (Block.HasValue e)) (alternative body)
      (fun i => alternative (bodyAgain i)) s := by
  refine .take_bind (j := 1) (by decide) (by omega) (fun t shorter => ?_) fun _ x t lacking ran has => ?_
  · refine (misses.inside (by omega) fun i => Nat.le_trans (by omega) (deep i)).still_bind (c := some)
      (fun _ _ => rfl) ?_
    rintro made _ ⟨_, inner, ⟨⟩, has, rfl⟩
    exact ⟨inner, has, rfl⟩
  · cases ran
    obtain ⟨_, _, ⟨⟩, -⟩ := has

theorem misses_loop (small : s.ahead.length < n) (deep : ∀ i, bound i ≤ depth i) :
    Misses bound 1 Anything begins e (Statement.HasValue e) (loop body) (fun i => loop (bodyAgain i)) s := by
  refine .token_bind (j := 1) (by omega) (fun _ => repeats_consume (by decide)) fun start t _ _ => ?_
  refine .taking_bind (by omega) (fun _ => repeats_loopCondition) fun condition u _ _ => ?_
  refine (misses.inside (by omega) fun i => Nat.le_trans (by omega) (deep i)).still_bind
    (c := fun made => .loop condition made (start.span.upTo made.span)) (fun _ _ => rfl) ?_
  intro made _ has
  cases has with
  | loop inside => exact ⟨_, inside, funext fun place => by rw [inside.span_eq place]⟩

omit [Inhabited ι] in
theorem misses_blockStatement (small : s.ahead.length < n) (deep : ∀ i, bound i ≤ depth i) :
    Misses bound 1 Anything begins e (Statement.HasValue e) (blockStatement body)
      (fun i => blockStatement (bodyAgain i)) s := by
  refine (misses.inside small deep).still_bind (c := fun made => .block made made.span) (fun _ _ => rfl) ?_
  intro made _ has
  cases has with
  | block inside => exact ⟨_, inside, funext fun place => by rw [inside.span_eq place]⟩

variable (repeats : ∀ i, RepeatsBelow n (depth i) 1 Anything body (bodyAgain i))

include repeats

theorem misses_branchesUpTo {rounds : Nat} {roundsAgain : ι → Nat} (small : s.ahead.length < n)
    (enough : s.ahead.length ≤ rounds) (deep : ∀ i, bound i ≤ depth i) (long : ∀ i, bound i ≤ roundsAgain i + 1) :
    Misses bound 1 Anything begins e (Hole.Within (Branch.HasValue e)) (branchesUpTo body rounds)
      (fun i => branchesUpTo (bodyAgain i) (roundsAgain i)) s := by
  induction rounds generalizing s bound roundsAgain begins with
  | zero =>
    refine misses_of_no_value fun branches t lacking ran _ has => ?_
    cases ran
    exact Hole.not_within_nil has
  | succ rounds inductionHypothesis =>
    have bounds := fun i => And.intro (deep i) (long i)
    -- a round takes its keyword and a token of the branch at least, so two less bound what follows it
    have others : ∀ u : State, u.ahead.length + 2 ≤ s.ahead.length → Misses (bound · - 1 - 1) 1 Anything Nothing e
        (Hole.Within (Branch.HasValue e)) (branchesUpTo body rounds)
        (fun i => branchesUpTo (bodyAgain i) (roundsAgain i - 1)) u := by
      intro u shorter
      refine inductionHypothesis (by omega) (by omega) (fun i => ?_) fun i => ?_ <;> have := bounds i <;> omega
    have othersAgain : ∀ (u : State) (i : ι), u.ahead.length + 2 ≤ s.ahead.length →
        Repeats (bound i - 1 - 1) 0 EndsBranch (branchesUpTo body rounds)
          (branchesUpTo (bodyAgain i) (roundsAgain i - 1)) u := by
      intro u i shorter
      have := bounds i
      exact repeats_branchesUpTo (repeats i) (by omega) (by omega) (by omega) (by omega)
    have round : Misses bound 1 Anything begins e (Hole.Within (Branch.HasValue e)) (branchesUpTo body (rounds + 1))
        (fun i => branchesUpTo (bodyAgain i) (roundsAgain i - 1 + 1)) s := by
      refine .take_bind (j := 1) (by decide) (by omega) (fun t shorter => ?_) fun _ x t lacking ran has => ?_
      · refine .bind (c := fun first others => first :: others) (by omega)
          (misses_branch misses (by omega) fun i => Nat.le_trans (by omega) (deep i))
          (fun i => repeats_branch (repeats i) (by omega) (Nat.le_trans (by omega) (deep i)))
          (fun _ u _ _ => others u (by omega)) (fun _ u _ _ i => othersAgain u i (by omega)) ?_
          (fun _ _ _ _ _ => rfl) (fun _ _ => rfl) fun _ _ _ => rfl
        intro _ _ _ _ _ _ _ _ _ _ within
        exact (Hole.within_cons within).imp_left (And.intro trivial)
      · cases ran
        exact Hole.not_within_nil has
    refine round.of_run rfl fun i u _ _ some => ?_
    have := long i
    rw [Nat.sub_add_cancel (by omega)]

theorem misses_furtherBranches (small : s.ahead.length < n) (deep : ∀ i, bound i ≤ depth i) :
    Misses bound 1 Anything begins e (.either (Hole.Within (Branch.HasValue e)) (.some (Block.HasValue e)))
      (furtherBranches body) (fun i => furtherBranches (bodyAgain i)) s := by
  refine .left_bind ?_
  have others : Misses (fun i : ι × Nat => min (bound i.1) (i.2 + 1)) 1 Anything begins e
      (Hole.Within (Branch.HasValue e)) (branchesUpTo body s.ahead.length)
      (fun i => branchesUpTo (bodyAgain i.1) i.2) s :=
    misses_branchesUpTo (misses.reindex Prod.fst) (fun i => repeats i.1) small (Nat.le_refl _)
      (fun i => Nat.le_trans (Nat.min_le_left _ _) (deep i.1)) fun i => Nat.min_le_right _ _
  refine .bind (c := fun others otherwise => (others, otherwise)) (by omega) others
    (fun i => repeats_branchesUpTo (repeats i.1) small (Nat.le_refl _)
      (Nat.le_trans (Nat.min_le_left _ _) (deep i.1)) (Nat.min_le_right _ _))
    (fun _ t _ shorter => misses_alternative (misses.reindex Prod.fst) (by omega)
      fun i => Nat.le_trans (by omega) (deep i.1))
    (fun _ t _ shorter i => repeats_alternative (repeats i.1) (by omega) (Nat.le_trans (by omega) (deep i.1))) ?_
    (fun _ _ _ _ _ => rfl) (fun _ _ => rfl) fun _ _ _ => rfl
  intro _ _ _ _ _ _ _ _ _ _ has
  exact has.imp_left (And.intro trivial)

theorem misses_conditional (small : s.ahead.length < n) (deep : ∀ i, bound i ≤ depth i) :
    Misses bound 1 Anything begins e (Statement.HasValue e) (conditional body)
      (fun i => conditional (bodyAgain i)) s := by
  refine .token_bind (j := 1) (by omega) (fun _ => repeats_consume (by decide)) fun start t _ _ => ?_
  refine .bind (c := fun first further => .conditional (first :: further.1) further.2
      (start.span.upTo (lastRegion first further.1 further.2))) (by omega)
    (misses_branch misses (by omega) fun i => Nat.le_trans (by omega) (deep i))
    (fun i => repeats_branch (repeats i) (by omega) (Nat.le_trans (by omega) (deep i)))
    (fun _ u _ _ => misses_furtherBranches misses repeats (by omega) fun i => Nat.le_trans (by omega) (deep i))
    (fun _ u _ _ i => repeats_furtherBranches (repeats i) (by omega) (Nat.le_trans (by omega) (deep i))) ?splits
    (fun _ _ _ _ _ => rfl) (fun first u => run_behindFirst) (fun i first u => run_behindFirst)
  rintro first ⟨others, otherwise⟩ u r lacking - - - - - has
  obtain ⟨inner, within, rfl⟩ | ⟨inner, inLast, rfl⟩ := has.exists_conditional
  · obtain ⟨inner, inFirst, rfl⟩ | ⟨inner, inOther, rfl⟩ := Hole.within_cons within
    · exact .inl ⟨trivial, inner, inFirst, funext fun place => by rw [lastRegion_of_first (inFirst.span_eq place)]⟩
    · refine .inr ⟨_, .inl ⟨inner, inOther, rfl⟩, funext fun place => ?_⟩
      simp only [lastRegion_of_within inOther]
  · refine .inr ⟨_, .inr ⟨inner, inLast, rfl⟩, funext fun place => ?_⟩
    obtain ⟨body, inner, rfl, inBlock, rfl⟩ := inLast
    simp only [lastRegion, inBlock.span_eq]

end

/-! ## All statements -/

section

variable {k least : Nat} {next free : TokenKind → Prop} {p : Parser Statement} {q : ι → Parser Statement}
  {good : Statement → Prop}

omit [Inhabited ι] in
theorem misses_callStatement :
    Misses bound least next ends e (Statement.HasValue e) callStatement (fun _ => callStatement) s := by
  refine misses_of_no_value fun x t lacking ran _ has => ?_
  obtain ⟨call, _, -, ran⟩ := run_bind_eq_some ran
  obtain ⟨_, _, -, ran⟩ := run_bind_eq_some ran
  obtain ⟨last, _, -, ran⟩ := run_bind_eq_some ran
  cases ran
  cases has

omit [Inhabited ι] in
theorem misses_control :
    Misses bound least next ends e (Statement.HasValue e) control (fun _ => control) s := by
  refine misses_of_no_value fun x t lacking ran _ has => ?_
  obtain ⟨keyword, _, -, ran⟩ := run_bind_eq_some ran
  obtain ⟨last, _, -, ran⟩ := run_bind_eq_some ran
  cases ran
  cases has

omit [Inhabited ι] in
theorem misses_datatypeDecl :
    Misses bound least next ends e (Statement.HasValue e) datatypeDecl (fun _ => datatypeDecl) s := by
  refine misses_of_no_value fun x t lacking ran _ has => ?_
  obtain ⟨start, _, -, ran⟩ := run_bind_eq_some ran
  obtain ⟨name, _, -, ran⟩ := run_bind_eq_some ran
  obtain ⟨_, _, -, ran⟩ := run_bind_eq_some ran
  obtain ⟨fields, _, -, ran⟩ := run_bind_eq_some ran
  obtain ⟨last, _, -, ran⟩ := run_bind_eq_some ran
  cases ran
  cases has

/-- A declaration in the wrong place is dropped. -/
theorem misses_declaration (top : Bool) (misses : Misses bound least next ends e (Statement.HasValue e) p q s)
    (repeats : ∀ i, Repeats (bound i) k free p (q i) s good) :
    Misses bound least next ends e (Attempt.HasValue e) (declaration top p) (fun i => declaration top (q i)) s := by
  cases top with
  | true => exact misses.single repeats
  | false =>
    refine misses_of_no_value fun tried t lacking ran _ has => ?_
    obtain ⟨keyword, _, -, ran⟩ := run_bind_eq_some ran
    obtain ⟨result, _, -, ran⟩ := run_bind_eq_some ran
    obtain ⟨inner, within, -⟩ := has
    cases result <;> cases ran <;> exact Hole.not_within_nil within

omit [Inhabited ι] in
theorem misses_single_reject {error : Error} {span : Span} :
    Misses bound least next ends e (Attempt.HasValue e) (single (reject error span))
      (fun _ => single (reject error span)) s := by
  refine misses_of_no_value fun tried t lacking ran _ has => ?_
  cases ran
  exact Hole.not_within_nil has.choose_spec.1

end

theorem misses_namedStatement :
    Misses bound 2 Anything begins e (Attempt.HasValue e) namedStatement (fun _ => namedStatement) s := by
  refine .peekSecond_bind (by omega) ?_
  split
  next => exact misses_variableDecls
  next => exact misses_callStatement.single fun _ => repeats_callStatement
  next => exact misses_callStatement.single fun _ => repeats_callStatement
  next =>
    split
    · exact misses_reassignment.single fun _ => repeats_reassignment
    · exact misses_single_reject

theorem misses_statementBody {depth : ι → Nat} {body : Parser Block} {bodyAgain : ι → Parser Block}
    (misses : MissesBelow n depth e (Block.HasValue e) body bodyAgain)
    (repeats : ∀ i, RepeatsBelow n (depth i) 1 Anything body (bodyAgain i)) (top : Bool) (small : s.ahead.length < n)
    (deep : ∀ i, bound i ≤ depth i) :
    Misses bound 1 Anything begins e (Attempt.HasValue e) (statementBody body top)
      (fun i => statementBody (bodyAgain i) top) s := by
  refine .peek_bind Nat.one_pos ?_
  split
  next =>
    exact misses_declaration top (misses_functionDecl misses small deep)
      fun i => repeats_functionDecl (repeats i) small (deep i)
  next => exact misses_declaration top misses_datatypeDecl fun _ => repeats_datatypeDecl
  next =>
    exact (misses_conditional misses repeats small deep).single fun i => repeats_conditional (repeats i) small (deep i)
  next => exact (misses_loop misses small deep).single fun i => repeats_loop (repeats i) small (deep i)
  next =>
    exact (misses_blockStatement misses small deep).single fun i => repeats_blockStatement (repeats i) small (deep i)
  next =>
    exact (misses_blockStatement misses small deep).single fun i => repeats_blockStatement (repeats i) small (deep i)
  next => exact misses_result.single fun _ => repeats_result
  next => exact misses_control.single fun _ => repeats_control
  next => exact misses_control.single fun _ => repeats_control
  next => exact misses_variableDecls.fewer (Nat.le_succ 1)
  next => exact misses_variableDecls.fewer (Nat.le_succ 1)
  next => exact misses_variableDecls.fewer (Nat.le_succ 1)
  next => exact misses_variableDecls.fewer (Nat.le_succ 1)
  next => exact misses_namedStatement.fewer (Nat.le_succ 1)
  next => exact misses_single_reject

/-! ## Sequences -/

section

variable {stopping stops : List TokenKind} {attempt : Parser Attempt}

/-- The end of a block, and its region. -/
def blockEnd (opening : Token) : Parser Span := do
  let token ← peek
  if token.kind = .eof then
    report (.unterminatedBlock (closing opening.kind)) opening.span
    return token.span
  else
    return (← consume (closing opening.kind)).span

theorem repeats_blockEnd {least : Nat} {opening : Token} :
    Repeats least 1 Nothing (blockEnd opening) (blockEnd opening) s := by
  refine repeats_peek_bind Nat.one_pos ?_
  split
  next => exact repeats_report_bind
  next => exact repeats_consume_bind (closing_ne_eof _) fun last t _ => repeats_pure trivial

theorem run_blockEnd_bind {opening : Token} {statements : List Statement} :
    (peek >>= fun token =>
        if token.kind = .eof then
          report (.unterminatedBlock (closing opening.kind)) opening.span >>= fun _ =>
            joined opening.span token.span >>= fun region => pure (⟨statements, region⟩ : Block)
        else consume (closing opening.kind) >>= fun last =>
          joined opening.span last.span >>= fun region => pure ⟨statements, region⟩).run s =
      (blockEnd opening >>= fun region => pure ⟨statements, opening.span.upTo region⟩).run s := by
  rw [blockEnd, run_bind_assoc]
  refine run_bind_congr fun token t => ?_
  split <;> rw [run_bind_assoc] <;> rfl

/-- The statements behind the first one, in at most `n` rounds. -/
def behindUpTo (stopping stops : List TokenKind) (attempt : Parser Attempt) (n : Nat) (tried : Attempt) :
    Parser (List Statement) := do
  let _ ← if tried.complete then pure true else resync .dot stops
  sequenceUpTo stopping stops attempt n

/-- Behind a complete statement nothing is skipped. -/
theorem run_behindUpTo {tried : Attempt} (complete : tried.complete = true) (n : Nat) :
    (behindUpTo stopping stops attempt n tried).run s = (sequenceUpTo stopping stops attempt n).run s := by
  rw [behindUpTo, if_pos complete]
  rfl

theorem run_behindUpTo_bind {tried : Attempt} {n : Nat} {f : List Statement → Parser (List Statement)} :
    (if tried.complete = true then pure true >>= fun _ => sequenceUpTo stopping stops attempt n >>= f
      else resync .dot stops >>= fun _ => sequenceUpTo stopping stops attempt n >>= f).run s =
        (behindUpTo stopping stops attempt n tried >>= f).run s := by
  rw [behindUpTo]
  split <;> exact run_bind_assoc.symm

variable {depth : ι → Nat} {attemptAgain : ι → Parser Attempt}
  (misses : MissesBelow n depth e (Attempt.HasValue e) attempt attemptAgain)
  (repeats : ∀ (i : ι) (s : State), s.ahead.length < n →
    RepeatsAttempt (depth i) 1 EndsBranch attempt (attemptAgain i) s)

include misses repeats

theorem misses_sequenceUpTo {rounds : Nat} {roundsAgain : ι → Nat} (small : s.ahead.length < n)
    (enough : s.ahead.length ≤ rounds) (deep : ∀ i, bound i ≤ depth i) (long : ∀ i, bound i ≤ roundsAgain i + 1) :
    Misses bound 1 Anything begins e (Hole.Within (Statement.HasValue e)) (sequenceUpTo stopping stops attempt rounds)
      (fun i => sequenceUpTo stopping stops (attemptAgain i) (roundsAgain i)) s := by
  induction rounds generalizing s bound roundsAgain begins with
  | zero =>
    refine misses_of_no_value fun made t lacking ran _ has => ?_
    cases ran
    exact Hole.not_within_nil has
  | succ rounds inductionHypothesis =>
    cases atEnd : s.isAtEnd stopping with
    | true =>
      refine misses_of_no_value fun made t lacking ran _ has => ?_
      rw [run_sequenceUpTo_of_atEnd atEnd] at ran
      cases ran
      exact Hole.not_within_nil has
    | false =>
      have bounds := fun i => And.intro (deep i) (long i)
      -- a statement that was read in silence is complete, with its value and without it
      have others : ∀ (tried : Attempt) (u : State), tried.complete = true → u.ahead.length < s.ahead.length →
          Misses (bound · - 1) 1 Anything Nothing e (Hole.Within (Statement.HasValue e))
            (behindUpTo stopping stops attempt rounds tried)
            (fun i => behindUpTo stopping stops (attemptAgain i) (roundsAgain i - 1) tried) u := by
        intro tried u complete shorter
        have rest : Misses (bound · - 1) 1 Anything Nothing e (Hole.Within (Statement.HasValue e))
            (sequenceUpTo stopping stops attempt rounds)
            (fun i => sequenceUpTo stopping stops (attemptAgain i) (roundsAgain i - 1)) u := by
          refine inductionHypothesis (by omega) (by omega) (fun i => ?_) fun i => ?_ <;> have := bounds i <;> omega
        exact rest.of_run (run_behindUpTo complete rounds) fun i v _ _ _ => run_behindUpTo complete _
      have othersAgain : ∀ (tried : Attempt) (u : State) (i : ι), tried.complete = true →
          u.ahead.length < s.ahead.length → Repeats (bound i - 1) 0 Nothing
            (behindUpTo stopping stops attempt rounds tried)
            (behindUpTo stopping stops (attemptAgain i) (roundsAgain i - 1) tried) u := by
        intro tried u i complete shorter
        have := bounds i
        exact (repeats_sequenceUpTo (repeats i) (by omega) (by omega) (by omega) (by omega)).of_run
          (run_behindUpTo complete rounds) fun v => run_behindUpTo complete _
      have round : Misses bound 1 Anything begins e (Hole.Within (Statement.HasValue e))
          (sequenceUpTo stopping stops attempt (rounds + 1))
          (fun i => sequenceUpTo stopping stops (attemptAgain i) (roundsAgain i - 1 + 1)) s := by
        refine .atEnd_bind Nat.one_pos ?_
        rw [atEnd]
        refine .bind (c := fun tried others => tried.made ++ others) (by omega) (misses.inside small deep)
          (fun i => (repeats i s small).mono (deep i) (Nat.le_refl 1) fun _ => id)
          (fun tried u complete shorter => others tried u complete (by omega))
          (fun tried u complete shorter i => othersAgain tried u i complete (by omega)) ?splits ?kept
          (fun _ _ => run_behindUpTo_bind) fun _ _ _ => run_behindUpTo_bind
        case splits =>
          intro tried made u r lacking _ _ _ _ _ within
          obtain ⟨inner, has, rfl⟩ | ⟨inner, has, rfl⟩ := Hole.within_append within
          · exact .inl ⟨trivial, _, ⟨inner, has, rfl⟩, rfl⟩
          · exact .inr ⟨inner, has, rfl⟩
        case kept =>
          rintro i tried _ place ⟨_, -, rfl⟩
          rfl
      refine round.of_run rfl fun i u _ _ some => ?_
      have := long i
      rw [Nat.sub_add_cancel (by omega)]

theorem misses_block : MissesBelow (n + 1) (fun i => depth i + 1) e (Block.HasValue e) (block attempt)
    (fun i => block (attemptAgain i)) := by
  intro s small
  refine .token_bind (j := 1) (by omega) (fun _ => repeats_consumeAny (by decide)) fun opening t _ shorter => ?_
  have statements : Misses (fun i => depth i + 1 - 1) 1 Anything Closes e (Hole.Within (Statement.HasValue e))
      (sequence [closing opening.kind] [closing opening.kind] attempt)
      (fun i => sequence [closing opening.kind] [closing opening.kind] (attemptAgain i)) t :=
    .left_bind (misses_sequenceUpTo (misses.reindex Prod.fst) (fun i => repeats i.1) (by omega) (Nat.le_refl _)
      (fun i => Nat.min_le_left _ _) fun i => Nat.min_le_right _ _)
  have statementsAgain : ∀ i, Repeats (depth i + 1 - 1) 0 Nothing
      (sequence [closing opening.kind] [closing opening.kind] attempt)
      (sequence [closing opening.kind] [closing opening.kind] (attemptAgain i)) t := fun i =>
    repeats_left_bind fun k => repeats_sequenceUpTo (repeats i) (by omega) (Nat.le_refl _) (by omega) (by omega)
  refine .bind (c := fun statements region => ⟨statements, opening.span.upTo region⟩) (by omega) statements
    statementsAgain (fun _ _ _ _ => misses_none) (fun _ _ _ _ _ => repeats_blockEnd) ?_ (fun _ _ _ _ _ => rfl)
    (fun _ _ => run_blockEnd_bind) fun _ _ _ => run_blockEnd_bind
  intro statements region u r lacking _ _ _ _ _ has
  obtain ⟨inner, within, rfl⟩ := has.exists_within
  exact .inl ⟨trivial, inner, within, rfl⟩

end

theorem misses_statementUpTo {fuel : ι → Nat} (n : Nat) (top : Bool) (small : s.ahead.length < n) :
    Misses fuel 1 Anything begins e (Attempt.HasValue e) (statementUpTo n top)
      (fun i => statementUpTo (fuel i) top) s := by
  induction n generalizing fuel top s begins with
  | zero => omega
  | succ n inductionHypothesis =>
    -- where the depth is used up there are no tokens for a statement
    have body : Misses fuel 1 Anything begins e (Attempt.HasValue e) (statementUpTo (n + 1) top)
        (fun i => statementUpTo (fuel i - 1 + 1) top) s :=
      misses_statementBody (misses_block (fun t smaller => inductionHypothesis false smaller)
        fun i t smaller => repeats_statementUpTo n (fuel i - 1) false smaller)
        (fun i => repeats_block fun t smaller => repeats_statementUpTo n (fuel i - 1) false smaller) top small
        (fun i => by omega)
    refine body.of_run rfl fun i u _ _ some => ?_
    rw [Nat.sub_add_cancel (by omega)]

theorem misses_statement : MissesBelow n bound e (Attempt.HasValue e) statement (fun _ => statement) := by
  intro s _
  have statements : MissesBelow (s.ahead.length + 1) (fun i : ι × Nat => i.2 + 1) e (Attempt.HasValue e)
      (statementUpTo (s.ahead.length + 1) true) (fun i => statementUpTo (i.2 + 1) true) :=
    fun t small => misses_statementUpTo (s.ahead.length + 1) true small
  exact .left_bind (statements.inside (Nat.lt_succ_self _) fun i => Nat.min_le_right _ _)

/-- A program can miss each value in it. -/
theorem misses_program :
    Misses bound 1 Anything begins e (Hole.Within (Statement.HasValue e)) program (fun _ => program) s :=
  .left_bind (misses_sequenceUpTo (n := s.ahead.length + 1) misses_statement (fun _ _ _ => repeats_statement)
    (Nat.lt_succ_self _) (Nat.le_refl _) (fun _ => Nat.le_refl _) fun _ => Nat.min_le_right _ _)

end FrontEnd.Parser
