import FrontEnd.Proofs.Parsing.CompletesStatement
import FrontEnd.Proofs.Parsing.Recovery

/-!
# What is accepted

Tokens that are parsed without an error are a word of the lenient grammar: whatever their spelling and wherever
they stand, every bracketed list is empty, or it is items with single commas between them and at most one behind
the last. That last comma is all there is between what the parser accepts and the grammar of the language
(`mem_language_of_parse`); there are tokens with one that are accepted (`parse_trailing`).
-/

namespace FrontEnd

open Surface

/-- The letters of some tokens up to the first end mark, without blanks and comments. -/
def letters (tokens : List Token) : List Letter :=
  (Lexer.significant (tokens.takeWhile fun t => !t.isEof)).map Terminal.letter

namespace Parser

/-- A program ends where no token is left. -/
theorem ahead_sequenceUpTo {n : Nat} {s : State} (enough : s.ahead.length ≤ n) :
    ((sequenceUpTo [] [.kwFun, .kwDatatype] statement n).run s).2.ahead = [] := by
  induction n generalizing s with
  | zero =>
    rw [run_sequenceUpTo_of_atEnd (s.isAtEnd_of_empty (Nat.le_zero.mp enough) [])]
    exact List.length_eq_zero_iff.mp (Nat.le_zero.mp enough)
  | succ n inductionHypothesis =>
    cases atEnd : s.isAtEnd [] with
    | true =>
      rw [run_sequenceUpTo_of_atEnd atEnd]
      exact s.kind_eq_eof_iff.mp (by simpa [State.isAtEnd] using atEnd)
    | false =>
      obtain ⟨a, t, ran⟩ := total_statement s
      have shorter := shorter_behind (State.kind_ne_eof_of_not_atEnd atEnd) ran
      have behind := @inductionHypothesis (a.behind [.kwFun, .kwDatatype] t) (by omega)
      obtain ⟨rest, u, others⟩ := total_sequenceUpTo total_statement n (a.behind [.kwFun, .kwDatatype] t)
      rw [others] at behind
      rwa [run_sequenceUpTo_succ atEnd ran others]

theorem ahead_program (s : State) : (program.run s).2.ahead = [] :=
  ahead_sequenceUpTo (Nat.le_refl _)

/-- Parsing some tokens is parsing those before the first end mark, and an end mark. -/
theorem exists_parse_ended {tokens : List Token} {last : Token} (isLast : tokens.getLast? = some last) :
    ∃ eof, eof.kind = .eof ∧ Program.parse tokens =
      Program.parse (tokens.takeWhile (fun t => !t.isEof) ++ [eof]) := by
  have split := List.takeWhile_append_dropWhile (p := fun t : Token => !t.isEof) (l := tokens)
  cases behind : tokens.dropWhile fun t => !t.isEof with
  | nil =>
    rw [behind, List.append_nil] at split
    rw [split]
    refine ⟨endAfter last, rfl, ?_⟩
    have same : State.before tokens last = State.before (tokens ++ [endAfter last]) (endAfter last) := by
      simp only [State.before, arrange_eof (show (endAfter last).kind = .eof from rfl)]
    rw [Program.parse, Program.parse, State.ofTokens?, State.ofTokens?, isLast, List.getLast?_concat,
      Option.map_some, Option.map_some, same]
  | cons eof rest =>
    have isEof : eof.kind = .eof := by
      have first := List.head?_dropWhile_not (fun t : Token => !t.isEof) tokens
      rw [behind] at first
      simpa [Token.isEof] using first
    rw [behind] at split
    refine ⟨eof, isEof, ?_⟩
    exact (congrArg Program.parse split).symm.trans (parse_cut isEof)

/-- Tokens with an end mark behind them that are parsed without an error are passed over as a program. -/
theorem derives_of_silent {body : List Token} {last : Token} (noEof : ∀ t ∈ body, t.kind ≠ .eof)
    (isEof : last.kind = .eof)
    (silent : (program.run (State.before (body ++ [last]) last)).2.errors = []) :
    lenient.Derives [sub .program] (form (Lexer.significant body)) := by
  have silentStart : (State.before (body ++ [last]) last).errors = [] := by
    have reaches := program.reaches (State.before (body ++ [last]) last)
    exact List.prefix_nil.mp (silent ▸ reaches.errors)
  obtain ⟨p, terminals, ran, -, passes, derives⟩ := completes_program (silent.trans silentStart.symm)
  have atEnd := ahead_program (State.before (body ++ [last]) last)
  have legal := State.legal_of_passes noEof isEof silentStart passes atEnd
  obtain ⟨ahead, -⟩ := State.before_of_legal noEof isEof legal
  have same : Lexer.significant body = terminals := by
    have all := passes.terminals
    rw [ahead, State.terminals, atEnd, Lexer.significant_append] at all
    simpa [Lexer.significant, Token.isEof, isEof] using all
  rw [same]
  exact derives

end Parser

/-- Tokens that are parsed without an error are a word of the lenient grammar, and one of the strict grammar
unless there is a comma in front of a closing bracket. -/
theorem mem_language_of_parse {tokens : List Token} {p : Program}
    (accepted : Program.parse tokens = .ok ⟨p, []⟩) :
    letters tokens ∈ lenient.language ∧
      (letters tokens ∈ strict.language ↔ Letter.Tidy (letters tokens)) := by
  obtain ⟨last, isLast⟩ : ∃ last, tokens.getLast? = some last := by
    cases found : tokens.getLast? with
    | none => simp [Program.parse, Parser.State.ofTokens?, found] at accepted
    | some last => exact ⟨last, rfl⟩
  obtain ⟨eof, isEof, same⟩ := Parser.exists_parse_ended isLast
  obtain ⟨q, t, ran, parsed⟩ :=
    @Parser.parse_eq (tokens.takeWhile (fun t => !t.isEof) ++ [eof]) eof List.getLast?_concat
  rw [← same, accepted] at parsed
  have noEof : ∀ t ∈ tokens.takeWhile fun t => !t.isEof, t.kind ≠ .eof := fun t member => by
    simpa [Token.isEof] using List.all_eq_true.mp List.all_takeWhile t member
  have silent : (Parser.program.run (.before (tokens.takeWhile (fun t => !t.isEof) ++ [eof]) eof)).2.errors = [] := by
    rw [ran]
    injection parsed with same
    exact (congrArg Outcome.errors same).symm
  have word : letters tokens ∈ lenient.language := Parser.derives_of_silent noEof isEof silent
  exact ⟨word, mem_strict_iff.trans (and_iff_right word)⟩

/-- A call with two arguments, of which the second is a list. -/
def callTokens : List Token :=
  [⟨.identifier, "f", ⟨0, 1, 1, 0⟩⟩, ⟨.lParen, "(", ⟨1, 1, 1, 1⟩⟩, ⟨.int, "1", ⟨2, 1, 1, 2⟩⟩,
   ⟨.comma, ",", ⟨3, 1, 1, 3⟩⟩, ⟨.lBracket, "[", ⟨4, 1, 1, 4⟩⟩, ⟨.rBracket, "]", ⟨5, 1, 1, 5⟩⟩,
   ⟨.rParen, ")", ⟨6, 1, 1, 6⟩⟩, ⟨.dot, ".", ⟨7, 1, 1, 7⟩⟩, ⟨.eof, "", ⟨8, 0, 1, 8⟩⟩]

theorem mem_language_of_parse_call :
    ∃ p, Program.parse callTokens = .ok ⟨p, []⟩ ∧ letters callTokens ∈ lenient.language ∧
      (letters callTokens ∈ strict.language ↔ Letter.Tidy (letters callTokens)) :=
  ⟨_, rfl, mem_language_of_parse rfl⟩

/-- A call with one argument and a comma behind it. -/
def trailingTokens : List Token :=
  [⟨.identifier, "f", ⟨0, 1, 1, 0⟩⟩, ⟨.lParen, "(", ⟨1, 1, 1, 1⟩⟩, ⟨.int, "1", ⟨2, 1, 1, 2⟩⟩,
   ⟨.comma, ",", ⟨3, 1, 1, 3⟩⟩, ⟨.rParen, ")", ⟨4, 1, 1, 4⟩⟩, ⟨.dot, ".", ⟨5, 1, 1, 5⟩⟩,
   ⟨.eof, "", ⟨6, 0, 1, 6⟩⟩]

/-- A comma in front of a closing bracket is accepted. -/
theorem parse_trailing :
    (∃ p, Program.parse trailingTokens = .ok ⟨p, []⟩) ∧ ¬ Letter.Tidy (letters trailingTokens) ∧
      letters trailingTokens ∉ strict.language := by
  have untidy : ¬ Letter.Tidy (letters trailingTokens) := by decide
  exact ⟨⟨_, rfl⟩, untidy, fun member => untidy (mem_strict_iff.mp member).2⟩

end FrontEnd
