import FrontEnd.Proofs.Parsing.Misses
import FrontEnd.Proofs.Parsing.RepeatsStatement

/-!
# Values that are missed

A value misses itself, where a full stop or a comma is behind it (`misses_value`). The statements that values are
written in pass that on: what they read in front of a value and behind it they read again. In a chain of declarations
and in a result it may be any of several values.
-/

namespace FrontEnd.Parser

variable {ι : Type} [Inhabited ι] {bound : ι → Nat} {n : Nat} {ends begins : TokenKind → Prop} {e : Expr} {s t : State}

/-! ## Values -/

/-- An expression that was read in silence rests on its tokens alone. -/
theorem exists_readFrom (ran : (expression true).run s = (some e, t)) (silent : t.errors = s.errors) :
    ∃ part, s.Crosses part t ∧ ReadFrom e part := by
  obtain ⟨_, part, _, ranAgain, -, crosses, -, again⟩ :=
    repeats_all (fun bound : Nat => @repeats_expression bound s true) (by rwa [ran])
  cases ran.symm.trans ranAgain
  exact ⟨part, crosses, fun u v crossing isEnd =>
    again (u.ahead.length + 1) u v crossing (Nat.lt_succ_self _) (.inr isEnd)⟩

/-- A value that was read in silence is an expression. -/
theorem expression_of_value (ran : value.run s = (some e, t)) (silent : t.errors = s.errors) :
    (expression true).run s = (some e, t) := by
  obtain ⟨_, _, ⟨⟩, ranBehind⟩ := run_bind_eq_some ran
  obtain ⟨result, r, ranAttempt, ranLast⟩ := run_bind_eq_some ranBehind
  have silentFirst := errors_eq_of_reaches (reaches_of_run ranAttempt) (reaches_of_run ranLast) silent
  have ranExpression : (expression true).run s = (result, r) := by
    cases ranAttempt
    rfl
  have repeats := @repeats_expression 0 s true
  rw [Repeats, ranExpression] at repeats
  obtain ⟨_, _, _, ⟨⟩, -⟩ := repeats silentFirst
  cases ranLast
  exact ranExpression

/-- In front of a token that ends values, a missing one is reported and replaced. -/
theorem run_value_of_closes (closes : Closes s.kind) :
    value.run s = (some (.missing s.current.span), s.lacks s.current) := by
  have noStart : s.current.kind ∉ expressionKinds := by
    intro starts
    obtain dot | comma := closes
    · simp [show s.current.kind = .dot from dot, expressionKinds] at starts
    · simp [show s.current.kind = .comma from comma, expressionKinds] at starts
  have rejects : (expression true).run s = (none, s.lacks s.current) := by
    simp [expression, expressionUpTo, expressionBody, run_bind, left, peek, looking, noStart, reject, State.lacks]
  have stays : (s.lacks s.current).current = s.current := rfl
  have replaced : s.current.kind = .dot ∨ s.current.kind = .comma := closes
  simp only [value, run_bind, peek, looking, attempt, rejects, stays]
  rw [if_pos replaced]
  rfl

omit [Inhabited ι] in
theorem misses_value (closes : ∀ kind, ends kind → Closes kind) :
    Misses bound 0 ends ends e (.value e) value (fun _ => value) s := by
  rintro _ t _ ran silent isEnd ⟨rfl, rfl⟩
  obtain ⟨part, crosses, readFrom⟩ := exists_readFrom (expression_of_value ran silent) silent
  refine ⟨[], part, [], t.current,
    ⟨by simpa using crosses, Nat.le_refl 0, fun _ => isEnd, rfl, closes _ isEnd, readFrom, ?_⟩⟩
  rintro _ u _ w ⟨⟩ ⟨⟩ same _
  have same : u.current = t.current := same
  rw [← same]
  exact run_value_of_closes (by rw [State.kind, same]; exact closes _ isEnd)

/-! ## Declarations of variables and reassignments -/

theorem misses_assignment :
    Misses bound 2 Closes begins e (.second (.value e)) assignment (fun _ => assignment) s := by
  refine .token_bind (j := 1) (by omega) (fun _ => repeats_ident) fun name t _ _ => ?_
  refine .token_bind (j := 0) (by omega) (fun _ => repeats_consumeAssign) fun _ u _ _ => ?_
  refine (misses_value fun _ => id).still_bind (c := fun v => (name, v)) (fun _ _ => rfl) ?_
  rintro v _ ⟨_, ⟨rfl, rfl⟩, rfl⟩
  exact ⟨.missing, ⟨rfl, rfl⟩, rfl⟩

theorem misses_firstDeclaration :
    Misses bound 3 Closes begins e (.second (Statement.HasValue e)) firstDeclaration (fun _ => firstDeclaration) s := by
  refine .token_bind (j := 2) (by omega) (fun _ => repeats_typeName) fun type t _ _ => ?_
  refine misses_assignment.still_bind
    (c := fun x => (type, .declaration false ⟨type, x.1, x.2⟩ (type.span.upTo x.2.span))) (fun _ _ => rfl) ?_
  rintro ⟨name, v⟩ _ ⟨_, has, rfl⟩
  cases has with
  | declaration => exact ⟨fun place => (name, .missing place), ⟨.missing, ⟨rfl, rfl⟩, rfl⟩, rfl⟩

theorem misses_chainedDeclaration {type : TypeName} :
    Misses bound 2 Closes begins e (Statement.HasValue e) (chainedDeclaration type)
      (fun _ => chainedDeclaration type) s := by
  refine misses_assignment.still_bind (c := fun x => .declaration true ⟨type, x.1, x.2⟩ (x.1.span.upTo x.2.span))
    (fun _ _ => rfl) ?_
  rintro ⟨name, v⟩ _ has
  cases has with
  | declaration => exact ⟨fun place => (name, .missing place), ⟨.missing, ⟨rfl, rfl⟩, rfl⟩, rfl⟩

/-- One of the statements that were made has the value. -/
def Attempt.HasValue (e : Expr) : Hole Attempt :=
  fun tried lacking => ∃ inner, Hole.Within (Statement.HasValue e) tried.made inner ∧
    lacking = fun place => ⟨inner place, tried.complete⟩

/-- A chain goes on with a comma, or ends with a full stop. -/
theorem closes_of_chainUpTo {type : TypeName} {rounds : Nat} {tried : Attempt} (enough : s.ahead.length < rounds)
    (ran : (chainUpTo type rounds).run s = (some tried, t)) (silent : t.errors = s.errors) : Closes s.kind := by
  obtain ⟨rounds, rfl⟩ := Nat.exists_eq_add_one.mpr (Nat.lt_of_le_of_lt (Nat.zero_le _) enough)
  by_cases comma : s.kind = .comma
  · exact .inr comma
  · rw [chainUpTo, run_take_bind_of_ne comma] at ran
    obtain ⟨_, r, ranAttempt, ranLast⟩ := run_bind_eq_some ran
    have silentFirst := errors_eq_of_reaches (reaches_of_run ranAttempt) (reaches_of_run ranLast) silent
    cases ranAttempt
    obtain ⟨_, _, _, ranStop, -⟩ := (repeats_consume (by decide) : Repeats 0 1 Anything (consume .dot) _ s) silentFirst
    exact .inl (kind_of_consume ranStop)

theorem misses_chainUpTo {type : TypeName} {rounds : Nat} {roundsAgain : ι → Nat} (enough : s.ahead.length < rounds)
    (long : ∀ i, bound i ≤ roundsAgain i) :
    Misses bound 1 Anything begins e (Attempt.HasValue e) (chainUpTo type rounds)
      (fun i => chainUpTo type (roundsAgain i)) s := by
  induction rounds generalizing s bound roundsAgain begins with
  | zero => omega
  | succ rounds inductionHypothesis =>
    -- the rounds on both sides are as many as there are tokens, or more, so that there is one for each comma
    have round : Misses bound 1 Anything begins e (Attempt.HasValue e) (chainUpTo type (rounds + 1))
        (fun i => chainUpTo type (roundsAgain i - 1 + 1)) s := by
      have others : ∀ u : State, u.ahead.length < rounds → Misses (bound · - 1 - 3) 1 Anything Nothing e
          (Attempt.HasValue e) (chainUpTo type rounds) (fun i => chainUpTo type (roundsAgain i - 1)) u :=
        fun u small => inductionHypothesis small fun i => by
          have := long i
          omega
      have othersAgain : ∀ u : State, u.ahead.length < rounds → ∀ i, RepeatsAttempt (bound i - 1 - 2) 1 Anything
          (chainUpTo type rounds) (chainUpTo type (roundsAgain i - 1)) u :=
        fun u small i => repeats_chainUpTo small (by
          have := long i
          omega)
      refine .take_bind (j := 1) (by decide) (by omega) (fun t shorter => ?taken) (fun _ x t lacking ran has => ?left)
      case taken =>
        refine .attempt_bind (fun _ => repeats_chainedDeclaration) ?_
        refine .bind (c := fun first others => ⟨first :: others.made, others.complete⟩) (by omega)
          misses_chainedDeclaration (fun _ => repeats_chainedDeclaration)
          (fun _ u _ shorterStill => others u (by omega)) (fun _ u _ shorterStill => othersAgain u (by omega)) ?_
          (fun _ _ _ _ _ => rfl) (fun _ _ => rfl) fun _ _ _ => rfl
        rintro first tried u r _ - shorterStill ran silent - ⟨_, within, rfl⟩
        obtain ⟨inner, has, rfl⟩ | ⟨inner, has, rfl⟩ := Hole.within_cons within
        · exact .inl ⟨closes_of_chainUpTo (by omega) ran silent, inner, has, rfl⟩
        · exact .inr ⟨_, ⟨inner, has, rfl⟩, rfl⟩
      case left =>
        obtain ⟨result, r, -, ranLast⟩ := run_bind_eq_some ran
        obtain ⟨inner, within, -⟩ := has
        cases result <;> cases ranLast <;> exact Hole.not_within_nil within
    refine round.of_run rfl fun i u _ _ some => ?_
    have := long i
    rw [Nat.sub_add_cancel (by omega)]

theorem misses_variableDecls :
    Misses bound 2 Anything begins e (Attempt.HasValue e) variableDecls (fun _ => variableDecls) s := by
  have others : ∀ (type : TypeName) (u : State), Misses (bound · - 4) 1 Anything Nothing e (Attempt.HasValue e)
      (left >>= fun k => chainUpTo type (k + 1)) (fun _ => left >>= fun k => chainUpTo type (k + 1)) u :=
    fun type u => .left_bind (misses_chainUpTo (Nat.lt_succ_self _) fun i => Nat.min_le_right _ _)
  have othersAgain : ∀ (type : TypeName) (u : State) (i : ι), RepeatsAttempt (bound i - 3) 1 Anything
      (left >>= fun k => chainUpTo type (k + 1)) (left >>= fun k => chainUpTo type (k + 1)) u :=
    fun type u i => repeats_left_bind fun k => repeats_chainUpTo (Nat.lt_succ_self _) (Nat.min_le_right _ _)
  refine .attempt_bind (fun _ => repeats_firstDeclaration) ?_
  refine .bind (c := fun first others => ⟨first.2 :: others.made, others.complete⟩) (by omega) misses_firstDeclaration
    (fun _ => repeats_firstDeclaration) (fun first u _ _ => others first.1 u)
    (fun first u _ _ => othersAgain first.1 u) ?splits ?kept (fun _ _ => rfl) fun _ _ _ => rfl
  case splits =>
    rintro first tried u r _ - - ran silent - ⟨_, within, rfl⟩
    obtain ⟨inner, has, rfl⟩ | ⟨inner, has, rfl⟩ := Hole.within_cons within
    · exact .inl ⟨closes_of_chainUpTo (Nat.lt_succ_self _) ran silent, _, ⟨inner, has, rfl⟩, rfl⟩
    · exact .inr ⟨_, ⟨inner, has, rfl⟩, rfl⟩
  case kept =>
    rintro _ first _ place ⟨_, -, rfl⟩
    rfl

theorem Misses.single {k least : Nat} {next free : TokenKind → Prop} {p : Parser Statement}
    {q : ι → Parser Statement} {good : Statement → Prop}
    (misses : Misses bound least next ends e (Statement.HasValue e) p q s)
    (repeats : ∀ i, Repeats (bound i) k free p (q i) s good) :
    Misses bound least next ends e (Attempt.HasValue e) (single p) (fun i => single (q i)) s := by
  refine .attempt_bind repeats (misses.still_bind (c := fun made => ⟨[made], true⟩) (fun _ _ => rfl) ?_)
  rintro made _ ⟨_, within, rfl⟩
  obtain ⟨inner, has, rfl⟩ | ⟨_, impossible, -⟩ := Hole.within_cons within
  · exact ⟨inner, has, rfl⟩
  · exact absurd impossible Hole.not_within_nil

theorem repeats_stop {least : Nat} : Repeats least 1 Anything (consume .dot) (consume .dot) s :=
  repeats_consume (by decide)

theorem misses_reassignment :
    Misses bound 2 Anything begins e (Statement.HasValue e) reassignment (fun _ => reassignment) s := by
  refine .bind (c := fun x last => .reassignment x.1 x.2 (x.1.span.upTo last.span)) (by omega) misses_assignment
    (fun _ => repeats_assignment) (fun _ _ _ _ => misses_none) (fun _ _ _ _ _ => repeats_stop) ?_
    (fun _ _ _ _ _ => rfl) (fun _ _ => rfl) fun _ _ _ => rfl
  rintro ⟨target, v⟩ last u r _ - - ran - - has
  cases has with
  | reassignment =>
    exact .inl ⟨.inl (kind_of_consume ran), fun place => (target, .missing place), ⟨.missing, ⟨rfl, rfl⟩, rfl⟩, rfl⟩

/-! ## Results -/

/-- The values behind the first one, in at most `n` rounds. -/
def furtherUpTo (n : Nat) : Parser (List Expr) := do
  if ← take .comma then separatedUpTo value n
  else return []

theorem run_separatedUpTo_succ (n : Nat) :
    (separatedUpTo value (n + 1)).run s =
      (value >>= fun first => furtherUpTo n >>= fun others => pure (first :: others)).run s := by
  rw [separatedUpTo, run_bind, run_bind]
  cases value.run s with
  | mk result t =>
    cases result with
    | none => rfl
    | some first =>
      by_cases comma : t.kind = .comma
      · simp only [furtherUpTo, run_bind_assoc, run_take_bind comma, if_true]
      · simp only [furtherUpTo, run_bind_assoc, run_take_bind_of_ne comma]
        rfl

theorem repeats_furtherUpTo {least rounds roundsAgain : Nat} (enough : s.ahead.length ≤ rounds)
    (long : least ≤ roundsAgain + 1) :
    Repeats least 0 Nothing (furtherUpTo rounds) (furtherUpTo roundsAgain) s := by
  refine repeats_take_bind (by decide) (fun t shorter => ?_) (fun _ => repeats_pure trivial) (.inr id)
  exact (repeats_separatedUpTo (n := rounds) (fun _ _ => repeats_value) (by omega) (by omega) (Nat.le_refl _)
    (by omega)).fewer (Nat.zero_le 1)

/-- The value may be any but the only one, which has to be followed by a full stop. -/
theorem misses_separatedUpTo {rounds : Nat} {roundsAgain : ι → Nat} (closes : ∀ kind, ends kind → Closes kind)
    (comma : ends .comma) (enough : s.ahead.length < rounds) (long : ∀ i, bound i ≤ roundsAgain i) :
    Misses bound 0 (· = .dot) ends e
      (fun values lacking => (Hole.value e).Within values lacking ∧ (ends .dot ∨ 1 < values.length))
      (separatedUpTo value rounds) (fun i => separatedUpTo value (roundsAgain i)) s := by
  induction rounds generalizing s bound roundsAgain ends with
  | zero => omega
  | succ rounds inductionHypothesis =>
    have further : ∀ u : State, u.ahead.length ≤ rounds → Misses (bound · - 1) 1 (· = .dot) Nothing e
        (fun values lacking => (Hole.value e).Within values lacking ∧ (Closes .dot ∨ 1 < values.length))
        (furtherUpTo rounds) (fun i => furtherUpTo (roundsAgain i - 1)) u := by
      intro u small
      refine .take_bind (j := 0) (by decide) (by omega) (fun v shorter => ?_) fun _ x t lacking ran has => ?_
      · refine inductionHypothesis (fun _ => id) (.inr rfl) (by omega) fun i => ?_
        have := long i
        omega
      · cases ran
        exact Hole.not_within_nil has.1
    have round : Misses bound 0 (· = .dot) ends e
        (fun values lacking => (Hole.value e).Within values lacking ∧ (ends .dot ∨ 1 < values.length))
        (value >>= fun first => furtherUpTo rounds >>= fun others => pure (first :: others))
        (fun i => value >>= fun first =>
          furtherUpTo (roundsAgain i - 1) >>= fun others => pure (first :: others)) s := by
      refine .bind (c := fun first others => first :: others) (by omega) (misses_value closes)
        (fun _ => repeats_value) (fun _ u _ _ => further u (by omega))
        (fun _ u _ _ i => repeats_furtherUpTo (by omega) (by have := long i; omega)) ?_
        (fun _ _ _ _ _ => rfl) (fun _ _ => rfl) fun _ _ _ => rfl
      rintro first others u r lacking - shorter ran silent dot ⟨within, plural⟩
      obtain ⟨inner, has, rfl⟩ | ⟨inner, has, rfl⟩ := Hole.within_cons within
      · -- the first value is followed by a comma, or it is the only one and then by a full stop
        refine .inl ⟨?_, inner, has, rfl⟩
        by_cases more : u.kind = .comma
        · exact more ▸ comma
        · rw [furtherUpTo, run_take_bind_of_ne more] at ran
          cases ran
          rw [show u.kind = .dot from dot]
          exact plural.resolve_right (Nat.lt_irrefl 1)
      · exact .inr ⟨_, ⟨has, .inl (.inl rfl)⟩, rfl⟩
    refine round.of_run (run_separatedUpTo_succ rounds) fun i u _ _ some => ?_
    have := long i
    rw [← run_separatedUpTo_succ, Nat.sub_add_cancel (by omega)]

theorem run_results_of_ne (other : s.kind ≠ .dot) : results.run s = (separated value).run s := by
  show (if s.current.kind = .dot then pure [] else separated value : Parser (List Expr)).run s = _
  rw [if_neg (show s.current.kind ≠ .dot from other)]

theorem misses_results :
    Misses bound 0 (· = .dot) (· = .comma) e
      (fun values lacking => (Hole.value e).Within values lacking ∧ (TokenKind.dot = .comma ∨ 1 < values.length))
      results (fun _ => results) s := by
  by_cases dot : s.kind = .dot
  · refine misses_of_no_value fun values t lacking ran _ has => ?_
    rw [results, run_bind] at ran
    simp only [peek, looking, show s.current.kind = .dot from dot, if_true] at ran
    cases ran
    exact Hole.not_within_nil has.1
  · have values : Misses bound 0 (· = .dot) (· = .comma) e
        (fun values lacking => (Hole.value e).Within values lacking ∧ (TokenKind.dot = .comma ∨ 1 < values.length))
        (separated value) (fun _ => separated value) s :=
      .left_bind (misses_separatedUpTo (fun _ => .inr) rfl (Nat.lt_succ_self _) fun i => Nat.min_le_right _ _)
    refine values.of_run (run_results_of_ne dot) fun i u first _ _ => run_results_of_ne ?_
    obtain same | ⟨-, comma⟩ := first
    · exact fun again => dot ((congrArg Token.kind same).symm.trans again)
    · simp [comma]

theorem misses_result : Misses bound 1 Anything begins e (Statement.HasValue e) result (fun _ => result) s := by
  refine .token_bind (j := 0) (by omega) (fun _ => repeats_consume (by decide)) fun start t _ _ => ?_
  refine .bind (c := fun values last => .result values (start.span.upTo last.span)) (by omega) misses_results.closing
    (fun _ => repeats_results) (fun _ _ _ _ => misses_none) (fun _ _ _ _ _ => repeats_stop) ?_
    (fun _ _ _ _ _ => rfl) (fun _ _ => rfl) fun _ _ _ => rfl
  rintro values last u r _ - - ran - - has
  cases has with
  | @result front back _ plural =>
    refine .inl ⟨kind_of_consume ran, _, ⟨.append ⟨rfl, rfl⟩ front back, .inr ?_⟩, rfl⟩
    have others := plural.imp List.length_pos_iff.mpr List.length_pos_iff.mpr
    rw [List.length_append, List.length_cons]
    omega

end FrontEnd.Parser
