import FrontEnd.Proofs.Lexing.Tokens
import FrontEnd.Proofs.Parsing.Passes

/-!
# The state before the tokens of a text

The tokens of a text end with the only end mark among them. Where none of them is illegal, the state before
them has just the significant ones ahead; and where a parser passed over all tokens ahead without a new
error, there was no illegal one.
-/

namespace FrontEnd.Parser

open Lexer (significant)

/-! ## What is arranged -/

theorem mem_arrange {missing : Token} {skipped tokens : List Token} :
    ∀ t ∈ (arrange missing skipped tokens).1, t.token ∈ tokens ∧
      t.token.kind.isTrivia = false ∧ t.token.kind ≠ .illegal := by
  induction tokens generalizing skipped with
  | nil => simp [arrange]
  | cons first rest inductionHypothesis =>
    have later : ∀ skipped, ∀ t ∈ (arrange missing skipped rest).1, t.token ∈ first :: rest ∧
        t.token.kind.isTrivia = false ∧ t.token.kind ≠ .illegal := by
      intro skipped t member
      obtain ⟨found, kinds⟩ := inductionHypothesis t member
      exact ⟨List.mem_cons_of_mem _ found, kinds⟩
    unfold arrange
    split
    next => simp
    next =>
      split
      next => exact later skipped
      next notTrivia =>
        split
        next => exact later (skipped ++ [first])
        next legal =>
          intro t member
          cases List.mem_cons.mp member with
          | inl same =>
            subst same
            exact ⟨List.mem_cons_self, by simpa using notTrivia, legal⟩
          | inr member => exact later [] t member

variable {body : List Token} {last : Token}

/-- Every illegal character is skipped on the way to some token. -/
theorem skipped_arrange (missing : Token) (skipped : List Token)
    (noEof : ∀ t ∈ body, t.kind ≠ .eof) (isEof : last.kind = .eof) :
    (arrange missing skipped (body ++ [last])).1.flatMap Significant.skipped ++
      (arrange missing skipped (body ++ [last])).2.skipped =
        skipped ++ body.filter (·.kind = .illegal) := by
  induction body generalizing skipped with
  | nil => simp [arrange, Token.isEof, isEof]
  | cons t rest inductionHypothesis =>
    simp only [List.mem_cons, forall_eq_or_imp] at noEof
    have others := fun skipped => inductionHypothesis skipped noEof.2
    rw [List.cons_append, arrange, if_neg (by simpa [Token.isEof] using noEof.1)]
    split
    next isTrivia =>
      have legal : t.kind ≠ .illegal := by
        intro illegal
        rw [illegal] at isTrivia
        cases isTrivia
      rw [others, List.filter_cons_of_neg (by simpa using legal)]
    next =>
      split
      next illegal =>
        rw [others, List.filter_cons_of_pos (by simpa using illegal), List.append_assoc,
          List.singleton_append]
      next legal =>
        -- a significant token takes along what was skipped before it
        rw [List.filter_cons_of_neg (by simpa using legal)]
        simp [others]

theorem arrange_of_legal {missing : Token} (noEof : ∀ t ∈ body, t.kind ≠ .eof)
    (isEof : last.kind = .eof) (legal : ∀ t ∈ body, t.kind ≠ .illegal) :
    arrange missing [] (body ++ [last]) =
      ((body.filter fun t => !t.kind.isTrivia).map (⟨[], ·⟩), ⟨[], last⟩) := by
  induction body with
  | nil => simp [arrange, Token.isEof, isEof]
  | cons t rest inductionHypothesis =>
    simp only [List.mem_cons, forall_eq_or_imp] at noEof legal
    rw [List.cons_append, arrange, if_neg (by simpa [Token.isEof] using noEof.1), if_neg legal.1,
      inductionHypothesis noEof.2 legal.2]
    split
    next isTrivia => rw [List.filter_cons_of_neg (by simpa using isTrivia)]
    next notTrivia => rw [List.filter_cons_of_pos (by simpa using notTrivia), List.map_cons]

theorem terminal_mem_significant {tokens : List Token} {t : Token} (member : t ∈ tokens)
    (notTrivia : t.kind.isTrivia = false) (notEof : t.kind ≠ .eof) :
    t.terminal ∈ significant tokens := by
  refine List.mem_map_of_mem (List.mem_filter.mpr ⟨member, ?_⟩)
  simp [notTrivia, Token.isEof, notEof]

theorem significant_of_ended (noEof : ∀ t ∈ body, t.kind ≠ .eof) (isEof : last.kind = .eof) :
    significant (body ++ [last]) =
      (body.filter fun t => !t.kind.isTrivia).map Token.terminal := by
  have same : body.filter (fun t => !(t.kind.isTrivia || t.isEof)) =
      body.filter fun t => !t.kind.isTrivia := by
    apply List.filter_congr
    intro t member
    simp [Token.isEof, noEof t member]
  rw [significant, List.filter_append, same]
  simp [Token.isEof, isEof]

/-! ## The state before tokens -/

theorem State.ahead_before {tokens : List Token} {last : Token} :
    (State.before tokens last).ahead = (arrange (endAfter last) [] tokens).1 := rfl

theorem State.final_before {tokens : List Token} {last : Token} :
    (State.before tokens last).final = (arrange (endAfter last) [] tokens).2 := rfl

theorem State.errors_before {tokens : List Token} {last : Token} :
    (State.before tokens last).errors =
      (State.before tokens last).front.skipped.map fun t => ⟨.illegalCharacter t.literal, t.span⟩ := by
  simp [State.before, State.reportSkipped, State.front]

theorem State.before_of_legal (noEof : ∀ t ∈ body, t.kind ≠ .eof) (isEof : last.kind = .eof)
    (legal : ∀ t ∈ body, t.kind ≠ .illegal) :
    (State.before (body ++ [last]) last).terminals = significant (body ++ [last]) ∧
      (State.before (body ++ [last]) last).errors = [] ∧
        (∀ t ∈ (State.before (body ++ [last]) last).ahead, t.skipped = []) ∧
          (State.before (body ++ [last]) last).final.skipped = [] := by
  have skipped : ∀ t ∈ (body.filter fun t => !t.kind.isTrivia).map (Significant.mk [] ·),
      t.skipped = [] := by
    intro t member
    obtain ⟨token, -, rfl⟩ := List.mem_map.mp member
    rfl
  -- what stands in front has skipped nothing, be it a token ahead or the end
  have front : (State.before (body ++ [last]) last).front.skipped = [] := by
    rw [State.front, State.ahead_before, State.final_before, arrange_of_legal noEof isEof legal]
    cases found : (body.filter fun t => !t.kind.isTrivia).map (Significant.mk [] ·) with
    | nil => rfl
    | cons first others => exact skipped first (by simp [found])
  rw [State.errors_before, front, State.terminals, State.ahead_before, State.final_before,
    arrange_of_legal noEof isEof legal, significant_of_ended noEof isEof]
  exact ⟨by simp, rfl, skipped, rfl⟩

/-- Where all tokens ahead were passed over and nothing was reported at the start, none is illegal. -/
theorem State.legal_of_passes (noEof : ∀ t ∈ body, t.kind ≠ .eof) (isEof : last.kind = .eof)
    (silent : (State.before (body ++ [last]) last).errors = []) {ts : List Terminal} {t : State}
    (passes : (State.before (body ++ [last]) last).Passes ts t) (atEnd : t.ahead = []) :
    ∀ t ∈ body, t.kind ≠ .illegal := by
  have front : (State.before (body ++ [last]) last).front.skipped = [] := by
    rw [State.errors_before] at silent
    exact List.map_eq_nil_iff.mp silent
  obtain ⟨ahead, final⟩ := passes.skipped atEnd front
  -- all illegal characters were skipped before some token, and no token has skipped any
  have none := skipped_arrange (endAfter last) [] noEof isEof
  rw [State.ahead_before] at ahead
  rw [State.final_before] at final
  rw [List.flatMap_eq_nil_iff.mpr ahead, final, List.nil_append, List.nil_append] at none
  intro t member illegal
  have found : t ∈ body.filter (·.kind = .illegal) := by simp [member, illegal]
  rw [← none] at found
  cases found

end FrontEnd.Parser
