import FrontEnd.Proofs.Grammar.Unmoved
import FrontEnd.Proofs.Parsing.Placeless
import FrontEnd.Proofs.Parsing.StaysStatement

/-!
# Parsing taken up again

A declaration of a function or a datatype is where parsing is taken up again after an error, whatever stands
before it: from loose tokens and behind them the tokens of some declarations, the same declarations are made
as from the latter alone (`parse_append`). That the loose tokens close all their brackets cannot be left out,
for skipping inside of brackets does not stop at a declaration (`parse_append_unclosed`).
-/

namespace FrontEnd.Parser

variable {s t : State}

/-! ## The rounds of a sequence -/

/-- Where a sequence goes on behind an attempt. -/
def Attempt.behind (a : Attempt) (stops : List TokenKind) (t : State) : State :=
  if a.complete then t else (t.resync .dot stops).2

theorem Attempt.reaches_behind (a : Attempt) (stops : List TokenKind) (t : State) :
    t.Reaches (a.behind stops t) := by
  rw [behind]
  split
  · exact .refl t
  · exact t.reaches_skipTo _ _ _

section

variable {ends stops : List TokenKind} {attempt : Parser Attempt}

theorem run_sequenceUpTo_of_atEnd (atEnd : s.isAtEnd ends = true) (n : Nat) :
    (sequenceUpTo ends stops attempt n).run s = (some [], s) := by
  cases n with
  | zero => rfl
  | succ n => simp [sequenceUpTo, run_bind, Parser.atEnd, looking, atEnd]

theorem run_sequenceUpTo_succ (notAtEnd : s.isAtEnd ends = false) {a : Attempt}
    (ran : attempt.run s = (some a, t)) {n : Nat} {rest : List Statement} {u : State}
    (others : (sequenceUpTo ends stops attempt n).run (a.behind stops t) = (some rest, u)) :
    (sequenceUpTo ends stops attempt (n + 1)).run s = (some (a.made ++ rest), u) := by
  rw [Attempt.behind] at others
  cases complete : a.complete with
  | true =>
    rw [complete, if_pos rfl] at others
    simp [sequenceUpTo, run_bind, Parser.atEnd, looking, notAtEnd, ran, complete, others]
  | false =>
    rw [complete, if_neg Bool.false_ne_true] at others
    simp [sequenceUpTo, run_bind, Parser.atEnd, looking, notAtEnd, ran, complete, resync, others]

end

theorem total_statement : Total statement :=
  total_looking.bind fun _ => total_statementUpTo _ true

/-- A round at the top level takes a token. -/
theorem shorter_behind (notEof : s.kind ≠ .eof) {a : Attempt} (ran : statement.run s = (some a, t)) :
    (a.behind [.kwFun, .kwDatatype] t).ahead.length < s.ahead.length := by
  have reaches := reaches_of_run ran
  rw [Attempt.behind]
  split
  next complete => exact shorter_of_complete ran complete
  next =>
    obtain ⟨-, -, moved⟩ := t.resync_spec .dot [.kwFun, .kwDatatype]
    cases stopped : t.isAtEnd [.kwFun, .kwDatatype] with
    | false => exact Nat.lt_of_lt_of_le (moved stopped) reaches.length_le
    | true =>
      -- nothing is skipped, so that the attempt itself has taken a token
      have taken : t.ahead.length < s.ahead.length := by
        refine Nat.lt_of_le_of_ne reaches.length_le fun same => ?_
        rw [State.isAtEnd, reaches.kind_eq same, Bool.or_eq_true, decide_eq_true_eq,
          decide_eq_true_eq] at stopped
        have moves := moves_statement (stopped.resolve_left notEof)
        rw [Moves, ran] at moves
        exact absurd same (Nat.ne_of_lt moves)
      exact Nat.lt_of_le_of_lt (t.reaches_skipTo _ _ _).length_le taken

/-- With rounds for all the tokens ahead, more of them make no difference. -/
theorem run_sequenceUpTo_of_enough {n m : Nat} (enough : s.ahead.length ≤ n)
    (enoughAgain : s.ahead.length ≤ m) :
    (sequenceUpTo [] [.kwFun, .kwDatatype] statement n).run s =
      (sequenceUpTo [] [.kwFun, .kwDatatype] statement m).run s := by
  induction n generalizing m s with
  | zero =>
    have atEnd := s.isAtEnd_of_empty (Nat.le_zero.mp enough) []
    rw [run_sequenceUpTo_of_atEnd atEnd, run_sequenceUpTo_of_atEnd atEnd]
  | succ n inductionHypothesis =>
    cases atEnd : s.isAtEnd [] with
    | true => rw [run_sequenceUpTo_of_atEnd atEnd, run_sequenceUpTo_of_atEnd atEnd]
    | false =>
      obtain ⟨a, t, ran⟩ := total_statement s
      have shorter := shorter_behind (State.kind_ne_eof_of_not_atEnd atEnd) ran
      obtain ⟨m, rfl⟩ : ∃ k, m = k + 1 := Nat.exists_eq_add_one.mpr (by omega)
      have same := @inductionHypothesis (a.behind [.kwFun, .kwDatatype] t) m (by omega) (by omega)
      obtain ⟨rest, u, others⟩ := total_sequenceUpTo total_statement n (a.behind _ t)
      rw [run_sequenceUpTo_succ atEnd ran others, run_sequenceUpTo_succ atEnd ran (same ▸ others)]

/-! ## Over loose tokens -/

/-- A round that starts at a loose token passes over loose tokens only. -/
theorem leadsTo_behind {stop : List Significant} (bars : Bars [.kwFun, .kwDatatype] stop)
    (leads : s.LeadsTo stop) (other : s.kind ∉ [TokenKind.kwFun, .kwDatatype]) {a : Attempt}
    (ran : statement.run s = (some a, t)) :
    (a.behind [.kwFun, .kwDatatype] t).LeadsTo stop := by
  have stayed := stays_statement (bars.mono (by decide)) other leads
  rw [ran] at stayed
  rw [Attempt.behind]
  split
  · exact stayed
  · exact stayed.skipTo bars _

/-- From loose tokens on, parsing comes to the first declaration of a function or a datatype behind them,
and goes on there. -/
theorem sequence_over_loose {stop : List Significant} (bars : Bars [.kwFun, .kwDatatype] stop)
    (leads : s.LeadsTo stop) {n : Nat} (enough : s.ahead.length ≤ n) :
    ∃ made u, s.Reaches u ∧ u.ahead = stop ∧ (∀ x ∈ made, x.isTopLevel = false) ∧
      ∀ p t, program.run u = (some p, t) →
        (sequenceUpTo [] [.kwFun, .kwDatatype] statement n).run s = (some (made ++ p), t) := by
  have words : [TokenKind.kwFun, .kwDatatype] ⊆ blockWords := by decide
  induction n generalizing s with
  | zero =>
    obtain ⟨first, rest, rfl, -⟩ := bars
    obtain ⟨between, ahead, -⟩ := leads
    rw [ahead] at enough
    simp at enough
  | succ n inductionHypothesis =>
    obtain atStop | ⟨first, rest, ahead, loose⟩ := leads.cases
    · refine ⟨[], s, .refl s, atStop, by simp, fun p t ran => ?_⟩
      rw [List.nil_append, run_sequenceUpTo_of_enough enough (Nat.le_refl _)]
      exact ran
    · have other : s.kind ∉ [TokenKind.kwFun, .kwDatatype] :=
        fun member => loose.plain s.kind List.mem_cons_self (words member)
      have notEof : s.kind ≠ .eof := fun eof => by simp [s.kind_eq_eof_iff.mp eof] at ahead
      have notAtEnd : s.isAtEnd [] = false := by simpa [State.isAtEnd] using notEof
      obtain ⟨a, t, ran⟩ := total_statement s
      have shorter := shorter_behind notEof ran
      obtain ⟨made, u, reaches, atStop, others, ranBehind⟩ :=
        inductionHypothesis (leadsTo_behind bars leads other ran) (by omega)
      have behind := (reaches_of_run ran).trans (a.reaches_behind [.kwFun, .kwDatatype] t)
      refine ⟨a.made ++ made, u, behind.trans reaches, atStop, ?_, fun p v ranStop => ?_⟩
      · intro x member
        exact (List.mem_append.mp member).elim ((made_of_statement other ran).1 x) (others x)
      · rw [List.append_assoc]
        exact run_sequenceUpTo_succ notAtEnd ran (ranBehind p v ranStop)

/-! ## From the declarations on -/

/-- With no illegal characters and no errors before. -/
def Account.silent (before : List (Located Error)) : Account where
  place := id
  place_upTo := id_upTo
  before := before
  illegal := false

/-- A token without the illegal characters before it. -/
def Significant.alone (t : Significant) : Significant :=
  ⟨[], t.token⟩

/-- What a program consists of depends on the tokens only, and not on the illegal characters between them or
on what was reported before. -/
theorem made_of_same (ahead : s.ahead.map Significant.alone = t.ahead.map Significant.alone)
    (final : s.final.alone = t.final.alone) (clean : t.errors = []) :
    (program.run s).1 = (program.run t).1 := by
  have same : (Account.silent []).state s =
      (Account.silent ((Account.silent []).errors s.errors)).state t := by
    refine State.eq_of ahead final ?_
    show _ = (Account.silent _).errors t.errors
    rw [clean, Account.errors, List.filter_nil, List.map_nil, List.append_nil]
    rfl
  have first := retold_program (.silent [])
  have second := retold_program (.silent ((Account.silent []).errors s.errors))
  have results := (congrArg Prod.fst (first s)).symm.trans
    ((congrArg (fun u => (program.run u).1) same).trans (congrArg Prod.fst (second t)))
  have unchanged : ∀ o : Option Program, o.map (List.map (Statement.relocate id)) = o := by
    intro o
    rw [show Statement.relocate id = id from funext Statement.relocate_id, List.map_id_fun]
    exact Option.map_id_apply
  exact (unchanged _).symm.trans (results.trans (unchanged _))

/-- Tokens without an end mark are arranged before what is behind them. -/
theorem arrange_append {missing : Token} {tokens : List Token} (noEof : ∀ t ∈ tokens, t.kind ≠ .eof)
    (skipped behind : List Token) :
    arrange missing skipped (tokens ++ behind) =
      ((arrange missing skipped tokens).1 ++
          (arrange missing (arrange missing skipped tokens).2.skipped behind).1,
        (arrange missing (arrange missing skipped tokens).2.skipped behind).2) := by
  induction tokens generalizing skipped with
  | nil => rfl
  | cons t rest inductionHypothesis =>
    rw [List.forall_mem_cons] at noEof
    have notEof : t.isEof = false := by simpa [Token.isEof] using noEof.1
    rw [List.cons_append, arrange, arrange, notEof]
    simp only [inductionHypothesis noEof.2, Bool.false_eq_true, if_false]
    split
    · rfl
    · split <;> rfl

theorem kinds_arrange {missing : Token} {tokens : List Token} (noEof : ∀ t ∈ tokens, t.kind ≠ .eof)
    (skipped : List Token) :
    (arrange missing skipped tokens).1.map (fun t => t.token.kind) =
      (tokens.map Token.kind).filter fun kind => !kind.isTrivia && kind ≠ .illegal := by
  induction tokens generalizing skipped with
  | nil => rfl
  | cons t rest inductionHypothesis =>
    rw [List.forall_mem_cons] at noEof
    have notEof : t.isEof = false := by simpa [Token.isEof] using noEof.1
    rw [arrange, notEof]
    simp only [Bool.false_eq_true, if_false]
    split
    next isTrivia => simp [isTrivia, inductionHypothesis noEof.2]
    next notTrivia =>
      split
      next illegal => simp [illegal, inductionHypothesis noEof.2]
      next legal => simp [notTrivia, legal, inductionHypothesis noEof.2]

/-- Which illegal characters were skipped before makes no difference to the tokens. -/
theorem arrange_alone (missing : Token) (skipped skippedAgain tokens : List Token) :
    (arrange missing skipped tokens).1.map Significant.alone =
        (arrange missing skippedAgain tokens).1.map Significant.alone ∧
      (arrange missing skipped tokens).2.alone = (arrange missing skippedAgain tokens).2.alone := by
  induction tokens generalizing skipped skippedAgain with
  | nil => exact ⟨rfl, rfl⟩
  | cons t rest inductionHypothesis =>
    rw [arrange, arrange]
    split
    · exact ⟨rfl, rfl⟩
    · split
      · exact inductionHypothesis skipped skippedAgain
      · split
        · exact inductionHypothesis (skipped ++ [t]) (skippedAgain ++ [t])
        · exact ⟨rfl, rfl⟩

/-- What makes only declarations of functions and datatypes, and no error, starts with one. -/
theorem kind_of_declarations {p : Program} (ran : program.run s = (some p, t))
    (clean : t.errors = s.errors) (nonempty : p ≠ []) (declares : ∀ x ∈ p, x.isTopLevel = true) :
    s.kind ∈ [TokenKind.kwFun, .kwDatatype] := by
  refine Decidable.byContradiction fun other => ?_
  have ranAll : (sequenceUpTo [] [.kwFun, .kwDatatype] statement s.ahead.length).run s = (some p, t) :=
    ran
  cases atEnd : s.isAtEnd [] with
  | true =>
    rw [run_sequenceUpTo_of_atEnd atEnd] at ranAll
    cases ranAll
    exact nonempty rfl
  | false =>
    obtain ⟨a, u, ranFirst⟩ := total_statement s
    have shorter := shorter_behind (State.kind_ne_eof_of_not_atEnd atEnd) ranFirst
    obtain ⟨n, enough⟩ : ∃ n, s.ahead.length = n + 1 := Nat.exists_eq_add_one.mpr (by omega)
    obtain ⟨rest, v, others⟩ := total_sequenceUpTo total_statement n (a.behind _ u)
    rw [enough, run_sequenceUpTo_succ atEnd ranFirst others] at ranAll
    cases ranAll
    -- the first attempt reported nothing, so it made something, which is no such declaration
    have errors := ((a.reaches_behind _ u).trans (reaches_of_run others)).errors
    rw [clean] at errors
    obtain ⟨others, makes⟩ := made_of_statement other ranFirst
    obtain ⟨x, member⟩ := List.exists_mem_of_ne_nil _
      (makes (errors.eq_of_length_le (reaches_of_run ranFirst).errors.length_le))
    have declared := declares x (List.mem_append_left _ member)
    rw [others x member] at declared
    cases declared

/-! ## All together -/

/-- The tokens of some declarations bar the way, whatever was skipped before the first of them. -/
theorem bars_of_alone {stop : List Significant}
    (same : stop.map Significant.alone = s.ahead.map Significant.alone)
    (declares : s.kind ∈ [TokenKind.kwFun, .kwDatatype]) : Bars [.kwFun, .kwDatatype] stop := by
  cases ahead : s.ahead with
  | nil =>
    rw [s.kind_eq_eof_iff.mpr ahead] at declares
    exact absurd declares (by decide)
  | cons first rest =>
    rw [ahead] at same
    obtain ⟨t, others, rfl, alone, -⟩ := List.map_eq_cons_iff.mp same
    rw [State.kind_of_cons ahead] at declares
    have sameToken : t.alone.token = first.alone.token := by rw [alone]
    exact ⟨t, others, rfl, sameToken ▸ declares⟩

theorem loose_arrange {missing : Token} {tokens : List Token}
    (plain : ∀ t ∈ tokens, t.kind ∉ .eof :: blockWords) (closed : Closed (tokens.map Token.kind)) :
    Loose ((arrange missing [] tokens).1.map fun t => t.token.kind) := by
  have noEof : ∀ t ∈ tokens, t.kind ≠ .eof :=
    fun t member eof => plain t member (eof ▸ List.mem_cons_self)
  rw [kinds_arrange noEof]
  refine ⟨closed.filter ?_, ?_⟩
  · intro opening close closes
    cases opening <;> cases closes <;> decide
  · intro kind member
    obtain ⟨t, found, rfl⟩ := List.mem_map.mp (List.mem_filter.mp member).1
    exact fun word => plain t found (List.mem_cons_of_mem _ word)

/-- Of loose tokens and what is behind them, the latter is what is led to. -/
theorem leadsTo_before {tokens : List Token} (plain : ∀ t ∈ tokens, t.kind ∉ .eof :: blockWords)
    (closed : Closed (tokens.map Token.kind)) (declarations : List Token) (last : Token) :
    ∃ skipped, (State.before (tokens ++ declarations) last).LeadsTo
        (arrange (endAfter last) skipped declarations).1 ∧
      (State.before (tokens ++ declarations) last).final =
        (arrange (endAfter last) skipped declarations).2 := by
  have noEof : ∀ t ∈ tokens, t.kind ≠ .eof :=
    fun t member eof => plain t member (eof ▸ List.mem_cons_self)
  refine ⟨(arrange (endAfter last) [] tokens).2.skipped,
    ⟨(arrange (endAfter last) [] tokens).1, ?_, loose_arrange plain closed⟩, ?_⟩
  · rw [State.ahead_before, arrange_append noEof]
  · rw [State.final_before, arrange_append noEof]

/-- Behind loose tokens, whatever these are, some declarations of functions and datatypes are read as if they
stood alone: they are the last statements of the program, and the only ones of their kind. -/
theorem parse_append {tokens declarations : List Token} {p : Program}
    (plain : ∀ t ∈ tokens, t.kind ∉ .eof :: blockWords) (closed : Closed (tokens.map Token.kind))
    (parsed : Program.parse declarations = .ok ⟨p, []⟩) (nonempty : p ≠ [])
    (declares : ∀ x ∈ p, x.isTopLevel = true) :
    ∃ before errors, Program.parse (tokens ++ declarations) = .ok ⟨before ++ p, errors⟩ ∧
      ∀ x ∈ before, x.isTopLevel = false := by
  obtain ⟨last, isLast⟩ : ∃ last, declarations.getLast? = some last := by
    cases found : declarations.getLast? with
    | none => simp [Program.parse, State.ofTokens?, found] at parsed
    | some last => exact ⟨last, rfl⟩
  have isLastOfAll : (tokens ++ declarations).getLast? = some last := by
    simp [isLast]
  -- the declarations by themselves
  obtain ⟨q, t, ranAlone, parsedAlone⟩ := parse_eq isLast
  rw [parsedAlone] at parsed
  injection parsed with parsed
  injection parsed with same clean
  subst same
  have cleanStart : (State.before declarations last).errors = [] :=
    List.prefix_nil.mp (clean ▸ (reaches_of_run ranAlone).errors)
  have starts := kind_of_declarations ranAlone (clean.trans cleanStart.symm) nonempty declares
  -- over the loose tokens to the first of the declarations
  obtain ⟨skipped, leads, sameFinal⟩ := leadsTo_before plain closed declarations last
  obtain ⟨aloneAhead, aloneFinal⟩ := arrange_alone (endAfter last) skipped [] declarations
  obtain ⟨made, u, reaches, atStop, others, ranBehind⟩ :=
    sequence_over_loose (bars_of_alone aloneAhead starts) leads (Nat.le_refl _)
  -- from there on the same is made as of the declarations by themselves
  have sameMade : (program.run u).1 = (program.run (.before declarations last)).1 := by
    refine made_of_same ?_ ?_ cleanStart
    · rw [atStop, aloneAhead, State.ahead_before]
    · rw [reaches.final, sameFinal, aloneFinal, State.final_before]
  obtain ⟨r, v, ranStop⟩ := total_program u
  rw [ranStop, ranAlone] at sameMade
  cases sameMade
  obtain ⟨all, w, ranAll, parsedAll⟩ := parse_eq isLastOfAll
  cases ranAll.symm.trans (ranBehind q v ranStop)
  exact ⟨made, v.errors, parsedAll, others⟩

/-- A call with an illegal character and a closing bracket too many. -/
def brokenCall : List Token :=
  [⟨.identifier, "f", ⟨0, 1, 1, 0⟩⟩, ⟨.lParen, "(", ⟨1, 1, 1, 1⟩⟩, ⟨.illegal, "$", ⟨2, 1, 1, 2⟩⟩,
   ⟨.rBracket, "]", ⟨3, 1, 1, 3⟩⟩, ⟨.rParen, ")", ⟨4, 1, 1, 4⟩⟩]

/-- The declaration of a function that does nothing. -/
def emptyFunction : List Token :=
  [⟨.kwFun, "fun", ⟨6, 3, 1, 6⟩⟩, ⟨.identifier, "g", ⟨10, 1, 1, 10⟩⟩, ⟨.lParen, "(", ⟨11, 1, 1, 11⟩⟩,
   ⟨.rParen, ")", ⟨12, 1, 1, 12⟩⟩, ⟨.lBrace, "\x7b", ⟨14, 1, 1, 14⟩⟩,
   ⟨.rBrace, "\x7d", ⟨15, 1, 1, 15⟩⟩, ⟨.eof, "", ⟨16, 0, 1, 16⟩⟩]

def emptyFunctionTree : Statement :=
  .function ⟨⟨"g", ⟨10, 1, 1, 10⟩⟩, [], [], ⟨[], ⟨14, 2, 1, 14⟩⟩⟩ ⟨6, 10, 1, 6⟩

theorem parse_append_broken :
    (∀ t ∈ brokenCall, t.kind ∉ .eof :: blockWords) ∧ Closed (brokenCall.map Token.kind) ∧
      Program.parse emptyFunction = .ok ⟨[emptyFunctionTree], []⟩ ∧ [emptyFunctionTree] ≠ [] ∧
      (∀ x ∈ [emptyFunctionTree], x.isTopLevel = true) ∧
      ∃ before errors, Program.parse (brokenCall ++ emptyFunction) =
          .ok ⟨before ++ [emptyFunctionTree], errors⟩ ∧
        ∀ x ∈ before, x.isTopLevel = false := by
  have plain : ∀ t ∈ brokenCall, t.kind ∉ .eof :: blockWords := by decide
  have closed : Closed (brokenCall.map Token.kind) := by
    have inside : Closed [.illegal, .rBracket] := .other rfl (.other rfl .nil)
    exact .other rfl (.bracket rfl inside .nil)
  have parsed : Program.parse emptyFunction = .ok ⟨[emptyFunctionTree], []⟩ := by rfl
  have declares : ∀ x ∈ [emptyFunctionTree], x.isTopLevel = true := by
    simp [emptyFunctionTree, Statement.isTopLevel]
  have nonempty : [emptyFunctionTree] ≠ [] := by simp
  exact ⟨plain, closed, parsed, nonempty, declares,
    parse_append plain closed parsed nonempty declares⟩

/-- A call whose brackets are not closed. -/
def unclosedCall : List Token :=
  [⟨.identifier, "f", ⟨0, 1, 1, 0⟩⟩, ⟨.lParen, "(", ⟨1, 1, 1, 1⟩⟩]

/-- Behind brackets that are not closed, a declaration is skipped as if it stood inside of them. -/
theorem parse_append_unclosed :
    (∀ t ∈ unclosedCall, t.kind ∉ .eof :: blockWords) ∧
      Program.parse emptyFunction = .ok ⟨[emptyFunctionTree], []⟩ ∧
      (∀ x ∈ [emptyFunctionTree], x.isTopLevel = true) ∧
      ¬ ∃ before errors, Program.parse (unclosedCall ++ emptyFunction) =
        .ok ⟨before ++ [emptyFunctionTree], errors⟩ := by
  refine ⟨by decide, by rfl, by simp [emptyFunctionTree, Statement.isTopLevel], ?_⟩
  rintro ⟨before, errors, parsed⟩
  have nothing :
      (Program.parse (unclosedCall ++ emptyFunction)).toOption.map Outcome.value = some [] := by
    rfl
  rw [parsed] at nothing
  simp [Except.toOption] at nothing

end FrontEnd.Parser
