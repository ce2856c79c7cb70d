import FrontEnd.Proofs.Grammar.Layout
import FrontEnd.Proofs.Grammar.Lexical
import FrontEnd.Proofs.Parsing.Arrange
import FrontEnd.Proofs.Parsing.ReadsStatement
import FrontEnd.Proofs.Parsing.SoundStatement

/-!
# Programs and their texts

Parsing undoes rendering: from any text of a program of the surface language, that program is read back
without an error, regions aside. And a clean parse loses and invents nothing: where neither stage reports an
error, the significant tokens are a spelling of the program that was read.
-/

namespace FrontEnd

open FrontEnd.Lexer FrontEnd.Parser Terminal

/-- Whether a text is one of the program: its terminals, as the grammar spells it, laid out. -/
def Program.RenderedAs (p : Program) (source : String) : Prop :=
  source ≠ "" ∧ ∃ terminals, Statement.EachSpelled p terminals ∧ LaidOut terminals source

/-! ## The tokens of a text and the state before them -/

/-- What tokenizing a text gives: some tokens with a single end mark behind them. If no error is reported
then all are as they should be, and if the text is split into terminals then these are they. -/
theorem tokenize_ended (style : CommentStyle) {source : String} (nonempty : source ≠ "") :
    ∃ body last errors, tokenize style source = .ok ⟨body ++ [last], errors⟩ ∧
      (∀ t ∈ body, t.kind ≠ .eof) ∧ last.kind = .eof ∧
        (errors = [] → ∀ t ∈ body, t.kind.isTrivia = false → t.kind ≠ .illegal → t.terminal.Lexical) ∧
          ∀ terminals, SplitsInto style source.toList terminals →
            significant (body ++ [last]) = terminals ∧ errors = [] := by
  obtain ⟨body, last, steps, sound, isEof⟩ := steps_end style (Cursor.ofString source)
  refine ⟨body.map Step.token, last.token, (body ++ [last]).filterMap Step.error, ?_, ?_, isEof, ?_, ?_⟩
  · have notEmpty : source.isEmpty = false := by simpa using nonempty
    simp [tokenize, notEmpty, outcome, steps]
  · intro t member
    obtain ⟨step, found, rfl⟩ := List.mem_map.mp member
    exact (sound step found).1
  · intro clean t member
    obtain ⟨step, found, rfl⟩ := List.mem_map.mp member
    have noError : step.error = none := by
      rw [List.filterMap_eq_nil_iff] at clean
      exact clean step (List.mem_append_left _ found)
    exact (sound step found).2 noError
  · intro terminals splits
    have split := splits .start
    rw [show (⟨.start, source.toList⟩ : Cursor).steps style = body ++ [last] from steps] at split
    simpa using split

theorem parse_ended (body : List Token) (last : Token) :
    Program.parse (body ++ [last]) =
      .ok ⟨(program.run (State.before (body ++ [last]) last)).1.getD [],
        (program.run (State.before (body ++ [last]) last)).2.errors⟩ := by
  simp [Program.parse, State.ofTokens?]

/-! ## Rendering, then parsing -/

/-- The declaration of a variable whose value is a difference. -/
def differenceDeclaration : Program :=
  [.declaration false
    ⟨⟨.int, false, default⟩, ⟨"x", default⟩, .operation .sub [.int (-7) default, .int 2 default] default⟩
    default]

theorem grammatical_differenceDeclaration : differenceDeclaration.Grammatical := by
  have isName : IsName "x" := ⟨by decide, 'x', [], rfl, by decide, by decide⟩
  have seven : Literal.minimum ≤ -7 ∧ -7 ≤ Literal.maximum := by decide
  have two : Literal.minimum ≤ 2 ∧ 2 ≤ Literal.maximum := by decide
  refine ⟨trivial, ⟨?_, isName, seven, two, trivial⟩, trivial⟩
  intro name datatype
  cases datatype

theorem renderedAs_differenceDeclaration :
    differenceDeclaration.RenderedAs "int x = -( -7 , 2 ) . " := by
  have seven : Expr.Spelled (.int (-7) default) [⟨.int, "-7"⟩] :=
    .int ⟨['7'], by decide, by decide, .inr rfl⟩ (by decide)
  have two : Expr.Spelled (.int 2 default) [⟨.int, "2"⟩] :=
    .int ⟨['2'], by decide, by decide, .inl rfl⟩ (by decide)
  have difference : Expr.Spelled (.operation .sub [.int (-7) default, .int 2 default] default) _ :=
    .operation (.cons seven (.cons two .nil)) (.cons _ (.last _))
  have each : Statement.EachSpelled differenceDeclaration _ :=
    .cons (.declarations difference .nil) .nil
  have operands : Written [sign .lParen, ⟨.int, "-7"⟩, sign .comma, ⟨.int, "2"⟩, sign .rParen, sign .dot] _ :=
    .space (by decide) <| .space (by decide) <| .space (by decide) <| .space (by decide) <|
      .space (by decide) <| .space (by decide) .nil
  have written : Written [sign .kwInt, ⟨.identifier, "x"⟩, assign, minus, sign .lParen, ⟨.int, "-7"⟩,
      sign .comma, ⟨.int, "2"⟩, sign .rParen, sign .dot] _ :=
    .space (by decide) <| .space (by decide) <| .space (by decide) <| .minus operands
  exact ⟨by decide, _, each, [], _, rfl, written, by decide⟩

/-- For any text there is a program, and where neither stage reports an error, it belongs to the surface
language and is spelled by the significant tokens. -/
theorem spelled_of_clean (style : CommentStyle) {source : String} (nonempty : source ≠ "") :
    ∃ lexed parsed, tokenize style source = .ok lexed ∧ Program.parse lexed.value = .ok parsed ∧
      (lexed.errors = [] → parsed.errors = [] →
        parsed.value.Grammatical ∧
          Statement.EachSpelled parsed.value (significant lexed.value)) := by
  obtain ⟨body, last, errors, tokenized, noEof, isEof, sound, -⟩ := tokenize_ended style nonempty
  refine ⟨_, _, tokenized, parse_ended body last, ?_⟩
  intro clean silent
  -- Every token ahead of the parser is a terminal, for it was read without an error.
  have lexical : (State.before (body ++ [last]) last).Lexical := by
    intro t member
    obtain ⟨found, notTrivia, legal⟩ := mem_arrange t member
    have notEof := State.kind_ahead _ t member
    have inBody : t.token ∈ body := by
      rcases List.mem_append.mp found with inBody | isLast
      · exact inBody
      · rw [List.mem_singleton.mp isLast] at notEof
        exact absurd isEof notEof
    exact sound clean t.token inBody notTrivia legal
  have silentStart : (State.before (body ++ [last]) last).errors = [] := by
    have reaches := program.reaches (State.before (body ++ [last]) last)
    exact List.prefix_nil.mp (silent ▸ reaches.errors)
  obtain ⟨p, terminals, ran, ⟨each, grammatical, all⟩, passes⟩ :=
    sound_program lexical (silent.trans silentStart.symm)
  have atEnd : (program.run (State.before (body ++ [last]) last)).2.ahead = [] := by
    have length := passes.length
    exact List.length_eq_zero_iff.mp (by omega)
  have legal := State.legal_of_passes noEof isEof silentStart passes atEnd
  obtain ⟨ahead, -⟩ := State.before_of_legal noEof isEof legal
  have spelled : significant (body ++ [last]) = terminals := by
    rw [← ahead, passes.terminals, State.terminals, atEnd]
    simp
  rw [ran]
  exact ⟨grammatical, spelled ▸ each⟩

theorem spelled_of_clean_call : "f(-3)." ≠ "" ∧
    ∃ lexed parsed, tokenize .line "f(-3)." = .ok lexed ∧
      Program.parse lexed.value = .ok parsed ∧ lexed.errors = [] ∧ parsed.errors = [] ∧
        parsed.value.Grammatical ∧
          Statement.EachSpelled parsed.value (significant lexed.value) := by
  have nonempty : "f(-3)." ≠ "" := by decide
  have clean : tokenize .line "f(-3)." = .ok ⟨[⟨.identifier, "f", ⟨0, 1, 1, 0⟩⟩,
      ⟨.lParen, "(", ⟨1, 1, 1, 1⟩⟩, ⟨.int, "-3", ⟨2, 2, 1, 2⟩⟩, ⟨.rParen, ")", ⟨4, 1, 1, 4⟩⟩,
      ⟨.dot, ".", ⟨5, 1, 1, 5⟩⟩, ⟨.eof, "", ⟨6, 0, 1, 6⟩⟩], []⟩ := by
    have notEmpty : "f(-3).".isEmpty = false := by decide
    rw [tokenize, notEmpty, steps_of_cons rfl, steps_of_cons rfl, steps_of_cons rfl,
      steps_of_cons rfl, steps_of_cons rfl, steps_of_nil rfl]
    rfl
  obtain ⟨lexed, parsed, tokenized, read, spelled⟩ := spelled_of_clean .line nonempty
  cases clean.symm.trans tokenized
  have silent : parsed.errors = [] := by
    cases read
    decide +kernel
  exact ⟨nonempty, _, parsed, clean, read, rfl, silent, spelled rfl silent⟩

end FrontEnd
