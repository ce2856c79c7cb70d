import FrontEnd.Proofs.IllegalCharacters
import FrontEnd.Proofs.Parsing.RepeatsStatement

/-!
# Clean beginnings

Tokens that are parsed without an error make the same statements whatever follows them, be it malformed: no statement
rests on what is behind its last token, unless another branch of a conditional is there. And what follows is parsed as
it is by itself (`parse_clean_append`).
-/

namespace FrontEnd.Parser

variable {s t u v w x : State} {p q : Program}

/-! ## The rounds of a program -/

theorem program_of_eof (eof : s.kind = .eof) : program.run s = (some [], s) :=
  run_sequenceUpTo_of_atEnd (by simp [State.isAtEnd, eof]) _

theorem program_round (notEof : s.kind ≠ .eof) {a : Attempt} (ran : statement.run s = (some a, t))
    {rest : Program} (others : program.run (a.behind [.kwFun, .kwDatatype] t) = (some rest, u)) :
    program.run s = (some (a.made ++ rest), u) := by
  have shorter := shorter_behind notEof ran
  obtain ⟨n, length⟩ : ∃ n, s.ahead.length = n + 1 := Nat.exists_eq_add_one.mpr (by omega)
  have same := @run_sequenceUpTo_of_enough (a.behind [.kwFun, .kwDatatype] t) n _ (by omega) (Nat.le_refl _)
  show (sequenceUpTo [] [.kwFun, .kwDatatype] statement s.ahead.length).run s = _
  rw [length]
  exact run_sequenceUpTo_succ (by simpa [State.isAtEnd] using notEof) ran (same.trans others)

/-- In silence, a program is its first statement with the rest behind it, and that statement is read wherever its tokens
are ahead, if nothing goes on behind its last block. -/
theorem silent_round (notEof : s.kind ≠ .eof) (ran : program.run s = (some p, t)) (silent : t.errors = s.errors) :
    ∃ made rest ts r, p = made ++ rest ∧ s.Crosses ts r ∧ 0 < ts.length ∧
      program.run r = (some rest, t) ∧ t.errors = r.errors ∧
      ∀ u v x others, u.Crosses ts v → v.kind = r.kind ∨ EndsBranch v.kind → program.run v = (some others, x) →
        program.run u = (some (made ++ others), x) := by
  obtain ⟨a, r, ranFirst⟩ := total_statement s
  obtain ⟨rest, z, others⟩ := total_program (a.behind [.kwFun, .kwDatatype] r)
  cases ran.symm.trans (program_round notEof ranFirst others)
  have reaches := (a.reaches_behind [.kwFun, .kwDatatype] r).trans (reaches_of_run others)
  have silentFirst := errors_eq_of_reaches (reaches_of_run ranFirst) reaches silent
  have repeats : ∀ bound, ∃ ts, a.complete = true ∧ s.Crosses ts r ∧ 0 < ts.length ∧
      ∀ u v : State, u.Crosses ts v → u.ahead.length < bound → v.kind = r.kind ∨ EndsBranch v.kind →
        statement.run u = (some a, v) := by
    intro bound
    have repeats := @repeats_statement bound s
    rw [RepeatsAttempt, Repeats, ranFirst] at repeats
    obtain ⟨_, ts, _, ranAgain, rest⟩ := repeats silentFirst
    cases ranAgain
    exact ⟨ts, rest⟩
  obtain ⟨ts, complete, crosses, some, -⟩ := repeats 0
  have goesOn : ∀ v : State, a.behind [.kwFun, .kwDatatype] v = v := by
    intro v
    rw [Attempt.behind, if_pos complete]
  rw [goesOn] at others
  refine ⟨a.made, rest, ts, r, rfl, crosses, some, others, silent.trans silentFirst.symm, ?_⟩
  intro u v x more crossing follows ranBehind
  obtain ⟨us, -, crossesAgain, -, again⟩ := repeats (u.ahead.length + 1)
  cases crosses.unique crossesAgain
  have notEofAgain : u.kind ≠ .eof := by
    rw [State.kind, crosses.current_eq crossing some]
    exact notEof
  exact program_round notEofAgain (again u v crossing (Nat.lt_succ_self _) follows) (by rwa [goesOn])

/-- Statements that were read in silence up to the end are read wherever their tokens are ahead, and parsing goes on
behind them. -/
theorem program_of_silent (ran : program.run s = (some p, t)) (silent : t.errors = s.errors) {tokens : List Token}
    (crosses : s.Crosses tokens v) (atEnd : v.ahead = []) (crossing : u.Crosses tokens w) (ends : EndsBranch w.kind)
    (ranBehind : program.run w = (some q, x)) : program.run u = (some (p ++ q), x) := by
  generalize length : s.ahead.length = n
  induction n using Nat.strongRecOn generalizing s u tokens p with
  | ind n inductionHypothesis =>
    by_cases eof : s.kind = .eof
    · have none : s.ahead.length = 0 := List.length_eq_zero_iff.mpr (s.kind_eq_eof_iff.mp eof)
      have lengths := crosses.length
      obtain rfl : tokens = [] := List.length_eq_zero_iff.mp (by omega)
      rw [program_of_eof eof] at ran
      cases ran
      cases crossing
      exact ranBehind
    · obtain ⟨made, rest, ts, r, rfl, crossesFirst, some, others, silentRest, again⟩ := silent_round eof ran silent
      have lengths := crossesFirst.length
      obtain ⟨us, rfl, crossesRest⟩ := crossesFirst.exists_behind crosses atEnd
      obtain ⟨y, overFirst, overRest⟩ := State.crosses_append_iff.mp crossing
      have follows : y.kind = r.kind ∨ EndsBranch y.kind := by
        cases us with
        | nil =>
          cases overRest
          exact .inr ends
        | cons => exact .inl (congrArg Token.kind (crossesRest.current_eq overRest (by simp)))
      have ranRest := inductionHypothesis r.ahead.length (by omega) others silentRest crossesRest overRest rfl
      rw [List.append_assoc]
      exact again u y x (rest ++ q) overFirst follows ranRest

/-! ## Tokens behind tokens -/

variable {first second : List Token} {eof : Token}

/-- Behind tokens that are parsed without an error, what follows is parsed as by itself: the statements of the former
come first, with their regions, and the errors are those of the latter. Only a further branch may not follow. -/
theorem parse_clean_append (noEof : ∀ t ∈ first, t.kind ≠ .eof) (isEof : eof.kind = .eof)
    (parsed : Program.parse (first ++ [eof]) = .ok ⟨p, []⟩) (nonempty : second ≠ [])
    (next : ∀ t, second.find? (fun t => !t.kind.isTrivia && t.kind ≠ .illegal) = some t →
      t.kind ≠ .kwElse ∧ t.kind ≠ .kwElseIf) :
    ∃ q errors, Program.parse second = .ok ⟨q, errors⟩ ∧ Program.parse (first ++ second) = .ok ⟨p ++ q, errors⟩ := by
  have isLast := List.getLast?_eq_some_getLast nonempty
  obtain ⟨q, x, ranBehind, parsedBehind⟩ := parse_eq isLast
  refine ⟨q, x.errors, parsedBehind, ?_⟩
  obtain ⟨p', t, ran, parsedFirst⟩ := parse_eq (List.getLast?_concat (l := first) (a := eof))
  obtain ⟨rfl, clean⟩ := Outcome.mk.inj (Except.ok.inj (parsed.symm.trans parsedFirst))
  have cleanStart : (State.before (first ++ [eof]) eof).errors = [] :=
    List.prefix_nil.mp (clean ▸ (reaches_of_run ran).errors)
  have legal := legal_of_parse noEof isEof parsed
  have ends : EndsBranch (State.before second (second.getLast nonempty)).kind := by
    rw [State.kind_before]
    cases found : second.find? fun t => !t.kind.isTrivia && t.kind ≠ .illegal with
    | none => simp [EndsBranch]
    | some t => simpa [EndsBranch] using next t found
  have atEnd : (State.before [eof] eof).ahead = [] := by simp [State.ahead_before, arrange, Token.isEof, isEof]
  have ranAll := program_of_silent ran (clean.symm.trans cleanStart.symm) (State.crosses_before noEof legal) atEnd
    (State.crosses_before noEof legal) ends ranBehind
  have isLastOfAll : (first ++ second).getLast? = some (second.getLast nonempty) := by
    rw [List.getLast?_append_of_ne_nil _ nonempty, isLast]
  obtain ⟨r, y, ranAgain, parsedAll⟩ := parse_eq isLastOfAll
  cases ranAgain.symm.trans ranAll
  exact parsedAll

/-- A conditional that may still go on. -/
def emptyConditional : List Token :=
  [⟨.kwIf, "if", ⟨0, 2, 1, 0⟩⟩, ⟨.whitespace, " ", ⟨2, 1, 1, 2⟩⟩, ⟨.bool, "true", ⟨3, 4, 1, 3⟩⟩,
   ⟨.lBrace, "\x7b", ⟨7, 1, 1, 7⟩⟩, ⟨.rBrace, "\x7d", ⟨8, 1, 1, 8⟩⟩]

def emptyConditionalTree : Statement :=
  .conditional [⟨.bool true ⟨3, 4, 1, 3⟩, ⟨[], ⟨7, 2, 1, 7⟩⟩⟩] none ⟨0, 9, 1, 0⟩

/-- An illegal character, a call that is not closed, and an end of a block. -/
def unclosedTokens : List Token :=
  [⟨.illegal, "$", ⟨9, 1, 1, 9⟩⟩, ⟨.identifier, "f", ⟨10, 1, 1, 10⟩⟩, ⟨.lParen, "(", ⟨11, 1, 1, 11⟩⟩,
   ⟨.rBrace, "\x7d", ⟨12, 1, 1, 12⟩⟩, ⟨.eof, "", ⟨13, 0, 1, 13⟩⟩]

theorem parse_clean_append_conditional :
    (∀ t ∈ emptyConditional, t.kind ≠ .eof) ∧
      Program.parse (emptyConditional ++ [⟨.eof, "", ⟨9, 0, 1, 9⟩⟩]) = .ok ⟨[emptyConditionalTree], []⟩ ∧
      unclosedTokens ≠ [] ∧
      (∀ t, unclosedTokens.find? (fun t => !t.kind.isTrivia && t.kind ≠ .illegal) = some t →
        t.kind ≠ .kwElse ∧ t.kind ≠ .kwElseIf) ∧
      ∃ q errors, Program.parse unclosedTokens = .ok ⟨q, errors⟩ ∧
        Program.parse (emptyConditional ++ unclosedTokens) = .ok ⟨[emptyConditionalTree] ++ q, errors⟩ := by
  have noEof : ∀ t ∈ emptyConditional, t.kind ≠ .eof := by decide
  have parsed : Program.parse (emptyConditional ++ [⟨.eof, "", ⟨9, 0, 1, 9⟩⟩]) = .ok ⟨[emptyConditionalTree], []⟩ := rfl
  have nonempty : unclosedTokens ≠ [] := by decide
  have next : ∀ t, unclosedTokens.find? (fun t => !t.kind.isTrivia && t.kind ≠ .illegal) = some t →
      t.kind ≠ .kwElse ∧ t.kind ≠ .kwElseIf := by
    rintro _ ⟨⟩
    decide
  exact ⟨noEof, parsed, nonempty, next, parse_clean_append noEof rfl parsed nonempty next⟩

end FrontEnd.Parser
