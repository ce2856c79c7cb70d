import FrontEnd.Proofs.Acceptance
import FrontEnd.Proofs.Parsing.Ledger
import FrontEnd.Proofs.Parsing.SimulationStatement

/-!
# Illegal characters

What a run has reported about illegal characters and what it will report about those that are behind the current
token is the same at every step (`illegals`), and at the end mark nothing is left to report. So each of
them is reported once and in order, whatever production or recovery came over it. And as no decision rests on them,
all else is as if they were not there (`parse_illegal`).
-/

namespace FrontEnd.Parser

namespace State

/-- The illegal characters that are behind the current token. -/
def unreported (s : State) : List Token :=
  (s.ahead ++ [s.final]).tail.flatMap Significant.skipped

/-- The errors about illegal characters: those that were reported, and those that will be. -/
def illegals (s : State) : List (Located Error) :=
  s.errors.filter (·.value.isIllegalCharacter) ++ s.unreported.map illegal

variable {s t : State}

theorem filter_illegal (tokens : List Token) :
    (tokens.map illegal).filter (·.value.isIllegalCharacter) = tokens.map illegal := by
  rw [List.filter_eq_self, List.forall_mem_map]
  exact fun _ _ => rfl

/-- Moving on, what was behind the current token is split at the next. -/
theorem unreported_eq (notEof : s.kind ≠ .eof) :
    s.unreported = s.advance.front.skipped ++ s.advance.unreported := by
  rw [unreported, unreported, front, s.ahead_advance, (s.reaches_advance).final]
  cases found : s.ahead with
  | nil => exact absurd (s.kind_eq_eof_iff.mpr found) notEof
  | cons first rest => cases rest <;> simp

theorem illegals_report {e : Error} (legal : e.isIllegalCharacter = false) (span : Span) :
    (s.report e span).illegals = s.illegals := by
  have same : (s.report e span).errors.filter (·.value.isIllegalCharacter) =
      s.errors.filter (·.value.isIllegalCharacter) := by simp [State.report, legal]
  rw [State.illegals, State.illegals, same]
  rfl

theorem illegals_advance : s.advance.illegals = s.illegals := by
  by_cases eof : s.kind = .eof
  · rw [State.advance, s.kind_eq_eof_iff.mp eof]
    rfl
  · rw [State.illegals, State.illegals, unreported_eq eof, errors_advance eof, List.filter_append,
      filter_illegal, List.map_append, List.append_assoc]

theorem illegals_of_eof (eof : s.kind = .eof) :
    s.illegals = s.errors.filter (·.value.isIllegalCharacter) := by
  rw [State.illegals, unreported, s.kind_eq_eof_iff.mp eof]
  simp

variable {body : List Token} {last : Token}

/-- Before all tokens, all illegal characters are still to be reported or were just met. -/
theorem illegals_before (noEof : ∀ t ∈ body, t.kind ≠ .eof) (isEof : last.kind = .eof) :
    (State.before (body ++ [last]) last).illegals = (body.filter (·.kind = .illegal)).map illegal := by
  have all := skipped_arrange (endAfter last) [] noEof isEof
  rw [← ahead_before, ← final_before, List.nil_append] at all
  have met : (State.before (body ++ [last]) last).errors =
      (State.before (body ++ [last]) last).front.skipped.map illegal := errors_before
  rw [State.illegals, met, filter_illegal, ← List.map_append, ← all, unreported, front]
  cases (State.before (body ++ [last]) last).ahead <;> simp

end State

/-- That the illegal characters are some, reported or not. -/
def illegals (errors : List (Located Error)) : Invariant where
  Knows _ := True
  IsName _ := True
  isName_of_knows _ _ := trivial
  Holds s := s.illegals = errors
  knows_current _ := trivial
  knows_second _ := trivial
  holds_report holds _ raised := (State.illegals_report raised.legal _).trans holds
  holds_advance holds := State.illegals_advance.trans holds

variable {s t : State}

theorem illegals_of_program {p : Program} (ran : program.run s = (some p, t)) :
    t.errors.filter (·.value.isIllegalCharacter) = s.illegals := by
  have atEnd := ahead_program s
  rw [ran] at atEnd
  rw [← State.illegals_of_eof (t.kind_eq_eof_iff.mpr atEnd)]
  exact ((illegals s.illegals).of_program rfl ran).1

/-- Where nothing is reported there is no illegal character. -/
theorem legal_of_parse {body : List Token} {eof : Token} {p : Program} (noEof : ∀ t ∈ body, t.kind ≠ .eof)
    (isEof : eof.kind = .eof) (parsed : Program.parse (body ++ [eof]) = .ok ⟨p, []⟩) :
    ∀ t ∈ body, t.kind ≠ .illegal := by
  obtain ⟨q, t, ran, parsedAgain⟩ := parse_eq (List.getLast?_concat (l := body) (a := eof))
  obtain ⟨rfl, silent⟩ := Outcome.mk.inj (Except.ok.inj (parsed.symm.trans parsedAgain))
  have none := illegals_of_program ran
  rw [← silent, State.illegals_before noEof isEof, List.filter_nil] at none
  intro t member illegal
  have found : t ∈ body.filter (·.kind = .illegal) := List.mem_filter.mpr ⟨member, by simpa using illegal⟩
  rw [List.map_eq_nil_iff.mp none.symm] at found
  cases found

/-! ## Without them -/

theorem arrange_filter {missing : Token} (skipped tokens : List Token) :
    arrange missing [] (tokens.filter (·.kind ≠ .illegal)) =
      ((arrange missing skipped tokens).1.map Significant.alone, (arrange missing skipped tokens).2.alone) := by
  induction tokens generalizing skipped with
  | nil => rfl
  | cons t rest inductionHypothesis =>
    by_cases isIllegal : t.kind = .illegal
    · rw [List.filter_cons_of_neg (by simp [isIllegal]), inductionHypothesis (skipped ++ [t])]
      simp [arrange, Token.isEof, isIllegal, TokenKind.isTrivia]
    · rw [List.filter_cons_of_pos (by simp [isIllegal]), arrange, arrange, if_neg isIllegal, if_neg isIllegal]
      split
      · rfl
      · split
        · exact inductionHypothesis skipped
        · rw [inductionHypothesis []]
          rfl

variable {tokens body : List Token} {last : Token}

/-- Without illegal characters, the state before some tokens is told of as it is by `Account.silent`. -/
theorem before_filter (isEof : last.kind = .eof) :
    State.before (body.filter (·.kind ≠ .illegal) ++ [last]) last =
      (Account.silent []).state (State.before (body ++ [last]) last) := by
  have whole : body.filter (·.kind ≠ .illegal) ++ [last] = (body ++ [last]).filter (·.kind ≠ .illegal) := by
    simp [isEof]
  have arranged := @arrange_filter (endAfter last) [] (body ++ [last])
  rw [← whole] at arranged
  have ahead := congrArg Prod.fst arranged
  have final := congrArg Prod.snd arranged
  rw [← State.ahead_before, ← State.ahead_before] at ahead
  rw [← State.final_before, ← State.final_before] at final
  refine State.eq_of ahead final ?_
  have skipped : (State.before (body.filter (·.kind ≠ .illegal) ++ [last]) last).front.skipped = [] := by
    rw [State.front, ahead, final]
    cases (State.before (body ++ [last]) last).ahead <;> rfl
  have nothing : (State.before (body ++ [last]) last).errors.filter (Account.silent []).tells = [] := by
    rw [State.errors_before, List.filter_eq_nil_iff, List.forall_mem_map]
    intro t _
    simp [Account.silent, Account.tells, Error.isIllegalCharacter]
  show _ = (Account.silent []).errors _
  rw [State.errors_before, skipped, Account.errors, nothing]
  rfl

/-- Tokens with an end mark are split at the first one. -/
theorem exists_first_eof (ended : ∃ t ∈ tokens, t.kind = .eof) :
    ∃ body eof behind, tokens = body ++ eof :: behind ∧ (∀ t ∈ body, t.kind ≠ .eof) ∧ eof.kind = .eof := by
  obtain ⟨eof, found⟩ := Option.isSome_iff_exists.mp
    (List.find?_isSome (p := Token.isEof).mpr (by simpa [Token.isEof] using ended))
  obtain ⟨isEof, body, behind, rfl, before⟩ := List.find?_eq_some_iff_append.mp found
  exact ⟨body, eof, behind, rfl, by simpa [Token.isEof] using before, by simpa [Token.isEof] using isEof⟩

/-- The illegal characters up to the first end mark are reported, each once and in order, and without them the same
is parsed with all other errors. -/
theorem parse_illegal (ended : ∃ t ∈ tokens, t.kind = .eof) :
    ∃ p errors, Program.parse tokens = .ok ⟨p, errors⟩ ∧
      errors.filter (·.value.isIllegalCharacter) =
        ((tokens.takeWhile (·.kind ≠ .eof)).filter (·.kind = .illegal)).map illegal ∧
      Program.parse (tokens.filter (·.kind ≠ .illegal)) =
        .ok ⟨p, errors.filter (!·.value.isIllegalCharacter)⟩ := by
  obtain ⟨body, eof, behind, rfl, noEof, isEof⟩ := exists_first_eof ended
  obtain ⟨p, t, ran, parsed⟩ := parse_eq (List.getLast?_concat (l := body) (a := eof))
  refine ⟨p, t.errors, (parse_cut isEof).trans parsed, ?once, ?without⟩
  case once =>
    have before : (body ++ eof :: behind).takeWhile (·.kind ≠ .eof) = body := by
      rw [List.takeWhile_append_of_pos (by simpa using noEof), List.takeWhile_cons_of_neg (by simp [isEof]),
        List.append_nil]
    rw [illegals_of_program ran, State.illegals_before noEof isEof, before]
  case without =>
    have legal : (body ++ eof :: behind).filter (·.kind ≠ .illegal) =
        body.filter (·.kind ≠ .illegal) ++ eof :: behind.filter (·.kind ≠ .illegal) := by
      simp [isEof]
    have ranAgain := retold_program (.silent []) (State.before (body ++ [eof]) eof)
    rw [ran, ← before_filter isEof] at ranAgain
    obtain ⟨q, u, ranWithout, parsedWithout⟩ :=
      parse_eq (List.getLast?_concat (l := body.filter (·.kind ≠ .illegal)) (a := eof))
    obtain ⟨same, rfl⟩ := Prod.mk.inj (ranWithout.symm.trans ranAgain)
    have unmoved : List.map (Statement.relocate id) p = p := by
      rw [show Statement.relocate id = id from funext Statement.relocate_id]
      exact List.map_id p
    obtain rfl : q = p := Option.some.inj (same.trans (congrArg some unmoved))
    have others : (Account.silent []).errors t.errors = t.errors.filter (!·.value.isIllegalCharacter) :=
      (List.nil_append _).trans (List.map_id _)
    rw [legal, parse_cut isEof, parsedWithout, ← others]
    rfl

/-- Illegal characters in front of a call, inside of it, among what is skipped behind it, and behind the end mark. -/
def noisyTokens : List Token :=
  [⟨.illegal, "$", ⟨0, 1, 1, 0⟩⟩, ⟨.identifier, "f", ⟨1, 1, 1, 1⟩⟩, ⟨.lParen, "(", ⟨2, 1, 1, 2⟩⟩,
   ⟨.illegal, "#", ⟨3, 1, 1, 3⟩⟩, ⟨.whitespace, " ", ⟨4, 1, 1, 4⟩⟩, ⟨.illegal, "$", ⟨5, 1, 1, 5⟩⟩,
   ⟨.rParen, ")", ⟨6, 1, 1, 6⟩⟩, ⟨.dot, ".", ⟨7, 1, 1, 7⟩⟩, ⟨.rBracket, "]", ⟨8, 1, 1, 8⟩⟩,
   ⟨.illegal, "%", ⟨9, 1, 1, 9⟩⟩, ⟨.dot, ".", ⟨10, 1, 1, 10⟩⟩, ⟨.eof, "", ⟨11, 0, 1, 11⟩⟩,
   ⟨.illegal, "&", ⟨11, 1, 1, 11⟩⟩]

theorem parse_illegal_noisy :
    (∃ t ∈ noisyTokens, t.kind = .eof) ∧
      ∃ p errors, Program.parse noisyTokens = .ok ⟨p, errors⟩ ∧
        errors.filter (·.value.isIllegalCharacter) =
          [⟨.illegalCharacter "$", ⟨0, 1, 1, 0⟩⟩, ⟨.illegalCharacter "#", ⟨3, 1, 1, 3⟩⟩,
           ⟨.illegalCharacter "$", ⟨5, 1, 1, 5⟩⟩, ⟨.illegalCharacter "%", ⟨9, 1, 1, 9⟩⟩] ∧
        Program.parse (noisyTokens.filter (·.kind ≠ .illegal)) =
          .ok ⟨p, errors.filter (!·.value.isIllegalCharacter)⟩ := by
  have ended : ∃ t ∈ noisyTokens, t.kind = .eof := by decide
  obtain ⟨p, errors, parsed, once, without⟩ := parse_illegal ended
  exact ⟨ended, p, errors, parsed, once, without⟩

end FrontEnd.Parser
