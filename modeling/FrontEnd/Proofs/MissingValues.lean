import FrontEnd.Proofs.IllegalCharacters
import FrontEnd.Proofs.Parsing.MissesStatement

/-!
# Missing values

Where the value of a declaration or of a reassignment is left out, or one of several values of a result, one error is
reported at the full stop or the comma that followed it, and the tree is as it was but for a missing expression there
(`parse_missing_value`). So nothing else of the program is lost, however deep the statement is.
-/

namespace FrontEnd

/-- Whether an expression is what the tokens are read as by themselves. -/
def Expr.IsReadFrom (e : Expr) (tokens : List Token) : Prop :=
  ∀ eof : Token, eof.kind = .eof → ∃ t, (Parser.expression true).run (.before (tokens ++ [eof]) eof) = (some e, t) ∧
    t.ahead = [] ∧ t.errors = []

namespace Parser

variable {tokens body rest : List Token} {last : Token} {e : Expr} {s t u : State}

/-- Nothing is ahead of what ends or goes on with an end mark. -/
theorem ahead_before_of_ended (ended : ∀ t ∈ rest.head?, t.kind = .eof) : (State.before rest last).ahead = [] := by
  cases rest with
  | nil => simp [State.ahead_before, arrange]
  | cons eof rest => simp [State.ahead_before, arrange, Token.isEof, ended eof rfl]

/-- What is read wherever its tokens are is read from its tokens alone. -/
theorem ReadFrom.isReadFrom (readFrom : ReadFrom e (tokens.filter (!·.kind.isTrivia)))
    (noEof : ∀ t ∈ tokens, t.kind ≠ .eof) (legal : ∀ t ∈ tokens, t.kind ≠ .illegal) : e.IsReadFrom tokens := by
  intro eof isEof
  have atEnd : (State.before [eof] eof).ahead = [] := ahead_before_of_ended (by simpa using isEof)
  have ends : EndsName (State.before [eof] eof).kind := by
    rw [(State.kind_eq_eof_iff _).mpr atEnd]
    simp [EndsName]
  refine ⟨_, readFrom _ _ (State.crosses_before noEof legal) ends, atEnd, ?_⟩
  rw [State.errors_before, State.front, atEnd, State.final_before]
  simp [arrange, Token.isEof, isEof]

/-- The tokens of a program that was read in silence are all that were ahead. -/
theorem crosses_eq (crosses : s.Crosses tokens t) (all : s.Crosses body u) (atEnd : t.ahead = [])
    (ended : u.ahead = []) : tokens = body ∧ t = u := by
  obtain ⟨more, rfl, behind⟩ := crosses.exists_behind all ended
  cases more with
  | nil =>
    cases behind
    exact ⟨(List.append_nil _).symm, rfl⟩
  | cons => exact absurd (t.kind_eq_eof_iff.mpr atEnd) behind.1

/-- Among the tokens of a program that was read in silence are those of each value in it. Without them, it is read with
one error at the token that followed them. -/
theorem program_missing_value {p : Program} {lacking : Span → Program} (noEof : ∀ t ∈ body, t.kind ≠ .eof)
    (legal : ∀ t ∈ body, t.kind ≠ .illegal) (ended : ∀ t ∈ rest.head?, t.kind = .eof)
    (ran : program.run (.before (body ++ rest) last) = (some p, t)) (silent : t.errors = [])
    (within : Hole.Within (Statement.HasValue e) p lacking) :
    ∃ before part after follow, body = before ++ part ++ after ∧ ReadFrom e (part.filter (!·.kind.isTrivia)) ∧
      after.find? (!·.kind.isTrivia) = some follow ∧ Closes follow.kind ∧
      ∀ blanks : List Token, (∀ t ∈ blanks, t.kind.isTrivia = true) →
        program.run (.before (before ++ blanks ++ after ++ rest) last) =
          (some (lacking follow.span), t.lacks follow) := by
  have silentStart : (State.before (body ++ rest) last).errors = [] :=
    List.prefix_nil.mp (silent ▸ (reaches_of_run ran).errors)
  have atEnd : t.ahead = [] := by
    have atEnd := ahead_program (.before (body ++ rest) last)
    rwa [ran] at atEnd
  have misses : Misses (fun n : Nat => n) 1 Anything Nothing e (Hole.Within (Statement.HasValue e)) program
      (fun _ => program) (.before (body ++ rest) last) := misses_program
  obtain ⟨inFront, ofValue, behind, follow, cut⟩ :=
    misses p t lacking ran (silent.trans silentStart.symm) trivial within
  -- what was crossed is all of the tokens but for blanks and comments, which may be on either side of a cut
  obtain ⟨same, rfl⟩ := crosses_eq cut.crosses (State.crosses_before noEof legal) atEnd (ahead_before_of_ended ended)
  obtain ⟨before, others, rfl, rfl, sameOthers⟩ := List.filter_eq_append_iff.mp same.symm
  obtain ⟨part, after, rfl, rfl, rfl⟩ := List.filter_eq_append_iff.mp sameOthers
  simp only [List.forall_mem_append] at noEof legal
  refine ⟨before, part, after, follow, (List.append_assoc ..).symm, cut.readFrom, ?found, cut.closes, ?again⟩
  case found =>
    have follows := cut.follows
    rw [List.head?_append, List.head?_filter] at follows
    cases found : after.find? (!·.kind.isTrivia) with
    | some first => simpa [found] using follows
    | none =>
      -- the end mark does not end a value
      rw [found, Option.none_or, List.head?_singleton, Option.some.injEq] at follows
      have isEof : follow.kind = .eof := follows ▸ (State.kind_eq_eof_iff _).mpr atEnd
      have closes := cut.closes
      simp [Closes, isEof] at closes
  case again =>
    intro blanks areBlank
    have crossing : (State.before (before ++ blanks ++ after ++ rest) last).Crosses (before.filter (!·.kind.isTrivia))
        (.before (after ++ rest) last) := by
      have overBlanks : State.before (blanks ++ (after ++ rest)) last = .before (after ++ rest) last :=
        State.before_blanks areBlank
      rw [List.append_assoc, List.append_assoc, ← overBlanks]
      exact State.crosses_before noEof.1 legal.1
    have overRest : (State.before (after ++ rest) last).Crosses (after.filter (!·.kind.isTrivia)) (.before rest last) :=
      State.crosses_before noEof.2.2 legal.2.2
    have silentMiddle : (State.before (after ++ rest) last).errors = [] :=
      List.prefix_nil.mp (silent ▸ overRest.reaches.errors)
    exact cut.again _ _ _ _ crossing (overRest.report (silent.trans silentMiddle.symm) _ _) rfl (Nat.lt_succ_self _)

/-- In front of the first end mark, tokens that make no error hold no illegal character. -/
theorem exists_legal {p : Program} (isLast : tokens.getLast? = some last)
    (parsed : Program.parse tokens = .ok ⟨p, []⟩) :
    ∃ body rest, tokens = body ++ rest ∧ (∀ t ∈ body, t.kind ≠ .eof) ∧ (∀ t ∈ body, t.kind ≠ .illegal) ∧
      ∀ t ∈ rest.head?, t.kind = .eof := by
  obtain ⟨eof, isEof, same⟩ := exists_parse_ended isLast
  have noEof : ∀ t ∈ tokens.takeWhile fun t => !t.isEof, t.kind ≠ .eof := fun t member => by
    simpa [Token.isEof] using List.all_eq_true.mp List.all_takeWhile t member
  refine ⟨_, _, List.takeWhile_append_dropWhile.symm, noEof, legal_of_parse noEof isEof (same.symm.trans parsed), ?_⟩
  intro t first
  have isEof := List.head?_dropWhile_not (fun t : Token => !t.isEof) tokens
  rw [Option.mem_def.mp first] at isEof
  simpa [Token.isEof] using isEof

/-- A loop that declares two variables, of which the second one has the value of a call. -/
def chainTokens : List Token :=
  [⟨.kwLoop, "loop", ⟨0, 4, 1, 0⟩⟩, ⟨.lBrace, "\x7b", ⟨5, 1, 1, 5⟩⟩, ⟨.kwBool, "bool", ⟨7, 4, 1, 7⟩⟩,
   ⟨.identifier, "a", ⟨12, 1, 1, 12⟩⟩, ⟨.operator, "=", ⟨14, 1, 1, 14⟩⟩, ⟨.bool, "true", ⟨16, 4, 1, 16⟩⟩,
   ⟨.comma, ",", ⟨20, 1, 1, 20⟩⟩, ⟨.identifier, "b", ⟨22, 1, 1, 22⟩⟩, ⟨.operator, "=", ⟨24, 1, 1, 24⟩⟩,
   ⟨.identifier, "f", ⟨26, 1, 1, 26⟩⟩, ⟨.lParen, "(", ⟨27, 1, 1, 27⟩⟩, ⟨.whitespace, " ", ⟨28, 1, 1, 28⟩⟩,
   ⟨.identifier, "a", ⟨29, 1, 1, 29⟩⟩, ⟨.rParen, ")", ⟨30, 1, 1, 30⟩⟩, ⟨.dot, ".", ⟨31, 1, 1, 31⟩⟩,
   ⟨.rBrace, "\x7d", ⟨33, 1, 1, 33⟩⟩, ⟨.eof, "", ⟨34, 0, 1, 34⟩⟩]

/-- The tree of such a loop, by the second declaration. -/
def chainTree (second : Statement) : Statement :=
  .loop none ⟨[.declaration false ⟨⟨.bool, false, ⟨7, 4, 1, 7⟩⟩, ⟨"a", ⟨12, 1, 1, 12⟩⟩, .bool true ⟨16, 4, 1, 16⟩⟩
    ⟨7, 13, 1, 7⟩, second], ⟨5, 29, 1, 5⟩⟩ ⟨0, 34, 1, 0⟩

/-- The second declaration, by its value. -/
def chainedTree (value : Expr) : Statement :=
  .declaration true ⟨⟨.bool, false, ⟨7, 4, 1, 7⟩⟩, ⟨"b", ⟨22, 1, 1, 22⟩⟩, value⟩ (Span.upTo ⟨22, 1, 1, 22⟩ value.span)

def callTree : Expr :=
  .call ⟨"f", ⟨26, 1, 1, 26⟩⟩ [.name ⟨"a", ⟨29, 1, 1, 29⟩⟩ ⟨29, 1, 1, 29⟩] ⟨26, 5, 1, 26⟩

end Parser

end FrontEnd
