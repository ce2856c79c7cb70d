import FrontEnd.Proofs.Parsing.Arrange
import FrontEnd.Proofs.Parsing.Ledger
import FrontEnd.Proofs.Parsing.Retold
import FrontEnd.Proofs.Parsing.Safe
import FrontEnd.Proofs.Parsing.Sound

/-!
# Crossing tokens

`s.Crosses tokens t` says that `t` is the state behind the tokens, which are the next ones of `s`. Unlike `State.Passes`
it says nothing of the illegal characters between them, so that there is one such state wherever the tokens are ahead.
-/

namespace FrontEnd.Parser.State

/-- From a state over some tokens to the state behind them, whatever is reported on the way. -/
def Crosses (s : State) : List Token → State → Prop
  | [], t => s = t
  | token :: tokens, t => s.kind ≠ .eof ∧ s.current = token ∧ s.advance.Crosses tokens t

variable {s t u : State} {token : Token} {tokens first second : List Token}

theorem crosses_append_iff : s.Crosses (first ++ second) t ↔ ∃ u, s.Crosses first u ∧ u.Crosses second t := by
  induction first generalizing s with
  | nil => simp [Crosses]
  | cons token first inductionHypothesis =>
    simp only [List.cons_append, Crosses, inductionHypothesis]
    grind

theorem Crosses.append (crosses : s.Crosses first t) (rest : t.Crosses second u) : s.Crosses (first ++ second) u :=
  crosses_append_iff.mpr ⟨t, crosses, rest⟩

theorem crosses_advance (notEof : s.kind ≠ .eof) : s.Crosses [s.current] s.advance :=
  ⟨notEof, rfl, rfl⟩

theorem Crosses.length (crosses : s.Crosses tokens t) : s.ahead.length = tokens.length + t.ahead.length := by
  induction tokens generalizing s with
  | nil => cases crosses; simp
  | cons token tokens inductionHypothesis =>
    obtain ⟨notEof, -, rest⟩ := crosses
    have nonempty : s.ahead ≠ [] := fun empty => notEof (s.kind_eq_eof_iff.mpr empty)
    have positive := List.length_pos_iff.mpr nonempty
    have behind := inductionHypothesis rest
    rw [ahead_advance, List.length_tail] at behind
    rw [List.length_cons]
    omega

/-- Two ways over tokens to the same state are over the same tokens. -/
theorem Crosses.unique (crosses : s.Crosses first t) (again : s.Crosses second t) : first = second := by
  have length := crosses.length
  have lengthAgain := again.length
  induction first generalizing s second with
  | nil =>
    cases second with
    | nil => rfl
    | cons => simp at length lengthAgain; omega
  | cons token first inductionHypothesis =>
    cases second with
    | nil => simp at length lengthAgain; omega
    | cons other second =>
      obtain ⟨-, rfl, rest⟩ := crosses
      obtain ⟨-, rfl, restAgain⟩ := again
      rw [inductionHypothesis rest restAgain rest.length restAgain.length]

/-- What is ahead is the same where the same tokens are crossed, up to the last of them. -/
theorem Crosses.current_eq (crosses : s.Crosses tokens t) {v : State} (again : u.Crosses tokens v)
    (some : 0 < tokens.length) : u.current = s.current := by
  cases tokens with
  | nil => simp at some
  | cons token tokens => rw [crosses.2.1, again.2.1]

theorem Crosses.second_eq (crosses : s.Crosses tokens t) {v : State} (again : u.Crosses tokens v)
    (two : 1 < tokens.length) : u.second = s.second := by
  cases tokens with
  | nil => simp at two
  | cons token tokens =>
    rw [← current_advance crosses.1, ← current_advance again.1]
    exact crosses.2.2.current_eq again.2.2 (by simpa using two)

/-- All tokens ahead that were crossed have those among them that were crossed on the way. -/
theorem Crosses.exists_behind (crosses : s.Crosses first u) (all : s.Crosses tokens t) (atEnd : t.ahead = []) :
    ∃ second, tokens = first ++ second ∧ u.Crosses second t := by
  induction first generalizing s tokens with
  | nil =>
    cases crosses
    exact ⟨tokens, rfl, all⟩
  | cons token first inductionHypothesis =>
    obtain ⟨notEof, rfl, rest⟩ := crosses
    cases tokens with
    | nil =>
      cases all
      exact absurd (State.kind_eq_eof_iff _ |>.mpr atEnd) notEof
    | cons other tokens =>
      obtain ⟨-, rfl, restAll⟩ := all
      obtain ⟨second, rfl, behind⟩ := inductionHypothesis rest restAll
      exact ⟨second, rfl, behind⟩

/-- What is next is the first of what is crossed, or what is next behind it. -/
theorem Crosses.head (crosses : s.Crosses tokens t) : (tokens ++ [t.current]).head? = some s.current := by
  cases tokens with
  | nil =>
    cases crosses
    rfl
  | cons token tokens => rw [crosses.2.1, List.cons_append, List.head?_cons]

theorem Crosses.reaches (crosses : s.Crosses tokens t) : s.Reaches t := by
  induction tokens generalizing s with
  | nil =>
    cases crosses
    exact .refl _
  | cons token tokens inductionHypothesis => exact (s.reaches_advance).trans (inductionHypothesis crosses.2.2)

/-- Where no illegal character is on the way, it makes no difference what was reported before. -/
theorem Crosses.report (crosses : s.Crosses tokens t) (silent : t.errors = s.errors) (e : Error) (span : Span) :
    (s.report e span).Crosses tokens (t.report e span) := by
  induction tokens generalizing s with
  | nil =>
    cases crosses
    rfl
  | cons token tokens inductionHypothesis =>
    obtain ⟨notEof, same, rest⟩ := crosses
    have silentFirst := errors_eq_of_reaches s.reaches_advance rest.reaches silent
    have legal : s.advance.front.skipped.map illegal = [] :=
      List.self_eq_append_right.mp (silentFirst.symm.trans (errors_advance notEof))
    have moved : (s.report e span).advance = s.advance.report e span := by
      have ahead : (s.report e span).advance.ahead = s.advance.ahead := by rw [ahead_advance, ahead_advance]; rfl
      have final : (s.report e span).advance.final = s.advance.final := by
        rw [(reaches_advance _).final, (reaches_advance _).final]
        rfl
      refine State.eq_of ahead final ?_
      rw [errors_advance (s := s.report e span) notEof, front, ahead, final, ← front, legal, List.append_nil]
      exact congrArg (· ++ _) silentFirst.symm
    refine ⟨notEof, same, ?_⟩
    rw [moved]
    exact inductionHypothesis rest (silent.trans silentFirst.symm)

/-! ## Before tokens -/

variable {last : Token} {body behind : List Token}

theorem before_trivia (isTrivia : token.kind.isTrivia = true) :
    before (token :: tokens) last = before tokens last := by
  have notEof : token.kind ≠ .eof := by
    intro eof
    simp [eof, TokenKind.isTrivia] at isTrivia
  have same : arrange (endAfter last) [] (token :: tokens) = arrange (endAfter last) [] tokens := by
    simp [arrange, Token.isEof, notEof, isTrivia]
  simp only [before, same]

theorem before_blanks {blanks : List Token} (areBlank : ∀ t ∈ blanks, t.kind.isTrivia = true) :
    before (blanks ++ tokens) last = before tokens last := by
  induction blanks with
  | nil => rfl
  | cons blank blanks inductionHypothesis =>
    rw [List.forall_mem_cons] at areBlank
    exact (before_trivia areBlank.1).trans (inductionHypothesis areBlank.2)

theorem crosses_before_cons (notTrivia : token.kind.isTrivia = false) (notEof : token.kind ≠ .eof)
    (legal : token.kind ≠ .illegal) : (before (token :: tokens) last).Crosses [token] (before tokens last) := by
  have same : arrange (endAfter last) [] (token :: tokens) =
      (⟨[], token⟩ :: (arrange (endAfter last) [] tokens).1, (arrange (endAfter last) [] tokens).2) := by
    simp [arrange, Token.isEof, notEof, notTrivia, legal]
  have ahead : (before (token :: tokens) last).ahead = ⟨[], token⟩ :: (before tokens last).ahead := by
    rw [ahead_before, ahead_before, same]
  have final : (before (token :: tokens) last).final = (before tokens last).final := by
    rw [final_before, final_before, same]
  have current : (before (token :: tokens) last).current = token := by rw [current, front, ahead, List.headD_cons]
  have notAtEnd : (before (token :: tokens) last).kind ≠ .eof := by rwa [kind, current]
  refine ⟨notAtEnd, current, ?_⟩
  have silent : (before (token :: tokens) last).errors = [] := by
    rw [errors_before, front, ahead, List.headD_cons, List.map_nil]
  have behindAhead : (before (token :: tokens) last).advance.ahead = (before tokens last).ahead := by
    rw [ahead_advance, ahead, List.tail_cons]
  have behindFinal : (before (token :: tokens) last).advance.final = (before tokens last).final :=
    (reaches_advance _).final.trans final
  refine State.eq_of behindAhead behindFinal ?_
  rw [errors_advance notAtEnd, silent, List.nil_append, errors_before, front, front, behindAhead, behindFinal]
  rfl

/-- Tokens that hold neither an end mark nor an illegal character are crossed, but for blanks and comments. -/
theorem crosses_before (noEof : ∀ t ∈ body, t.kind ≠ .eof) (legal : ∀ t ∈ body, t.kind ≠ .illegal) :
    (before (body ++ behind) last).Crosses (body.filter (!·.kind.isTrivia)) (before behind last) := by
  induction body with
  | nil => rfl
  | cons token body inductionHypothesis =>
    rw [List.forall_mem_cons] at noEof legal
    have rest := inductionHypothesis noEof.2 legal.2
    cases isTrivia : token.kind.isTrivia with
    | true =>
      rw [List.cons_append, before_trivia isTrivia, List.filter_cons_of_neg (by simp [isTrivia])]
      exact rest
    | false =>
      rw [List.filter_cons_of_pos (by simp [isTrivia])]
      exact (crosses_before_cons isTrivia noEof.1 legal.1).append rest

/-- What comes first is the first token that is no blank, no comment and no illegal character, if there is one. -/
theorem kind_before : (before tokens last).kind =
    ((tokens.find? fun t => !t.kind.isTrivia && t.kind ≠ .illegal).elim .eof Token.kind) := by
  have first : ∀ skipped, ((arrange (endAfter last) skipped tokens).1.headD
      (arrange (endAfter last) skipped tokens).2).token.kind =
        (tokens.find? fun t => !t.kind.isTrivia && t.kind ≠ .illegal).elim .eof Token.kind := by
    induction tokens with
    | nil => exact fun _ => rfl
    | cons token tokens inductionHypothesis =>
      intro skipped
      rw [arrange, List.find?_cons]
      by_cases eof : token.kind = .eof
      · simp [Token.isEof, eof, TokenKind.isTrivia]
      cases isTrivia : token.kind.isTrivia with
      | true => simpa [Token.isEof, eof, isTrivia] using inductionHypothesis skipped
      | false =>
        by_cases illegal : token.kind = .illegal
        · simpa [Token.isEof, illegal, TokenKind.isTrivia] using inductionHypothesis (skipped ++ [token])
        · simp [Token.isEof, eof, illegal]
  exact first []

end FrontEnd.Parser.State
