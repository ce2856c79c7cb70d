import FrontEnd.Proofs.Lexing.Tiling
import FrontEnd.Proofs.Lexing.Tokens
import FrontEnd.Proofs.Parsing.Placeless
import FrontEnd.Proofs.Typing.Assertions
import FrontEnd.Proofs.Typing.Recast

/-!
# Layout makes no difference

Two texts that differ in blanks and comments only are dealt with alike. Where their tokens agree but for
these, the parser runs over both in the same way, and the trees it makes and the errors it reports differ in
nothing but regions. The same then holds of what is found by checking the trees, and of what they declare.
-/

namespace FrontEnd

namespace Lexer

/-- The tokens without blanks and comments and without their places. -/
def visible (tokens : List Token) : List Terminal :=
  (tokens.filter fun t => !t.kind.isTrivia).map Token.terminal

end Lexer

open Lexer (visible)

/-- Whatever has tokens has an end mark among them. -/
theorem Lexer.tokens_ne_nil {style : CommentStyle} {source : String}
    {tokens : Outcome Error (List Token)} (lexed : tokenize style source = .ok tokens) :
    tokens.value ≠ [] := by
  obtain ⟨body, last, steps, -⟩ := steps_end style (Cursor.ofString source)
  rw [outcome_of_tokenize lexed, outcome, steps, List.map_append]
  exact List.append_ne_nil_of_right_ne_nil _ (List.cons_ne_nil _ _)

namespace Parser

/-! ## States without places -/

/-- A token of a terminal, in the one place. -/
def blankToken (t : Terminal) : Token :=
  ⟨t.kind, t.literal, default⟩

/-- What is arranged depends on the visible tokens only, but for places. -/
theorem arrange_visible (missing : Token) (skipped tokens : List Token) :
    ((arrange missing skipped tokens).1.map Account.blank.significant,
        Account.blank.significant (arrange missing skipped tokens).2) =
      arrange (missing.relocate Span.blank) (skipped.map (Token.relocate Span.blank))
        ((visible tokens).map blankToken) := by
  induction tokens generalizing skipped with
  | nil => rfl
  | cons t rest inductionHypothesis =>
    by_cases isTrivia : t.kind.isTrivia = true
    · have notEof : t.isEof = false := by
        cases kind : t.kind <;> simp_all [TokenKind.isTrivia, Token.isEof]
      have visibleRest : visible (t :: rest) = visible rest := by simp [visible, isTrivia]
      rw [arrange, notEof, visibleRest, ← inductionHypothesis]
      simp [isTrivia]
    · have visibleRest : (visible (t :: rest)).map blankToken =
          t.relocate Span.blank :: (visible rest).map blankToken := by
        simp [visible, isTrivia]
        rfl
      have sameEof : (t.relocate Span.blank).isEof = t.isEof := rfl
      rw [visibleRest, arrange, arrange, sameEof, Token.kind_relocate]
      simp only [isTrivia, Bool.false_eq_true, if_false]
      split
      · rfl
      · split
        · rw [inductionHypothesis, List.map_append]
          rfl
        · have others := inductionHypothesis []
          rw [List.map_nil] at others
          rw [← others]
          rfl

theorem State.blank_before {tokens tokensAgain : List Token} (last lastAgain : Token)
    (agree : visible tokens = visible tokensAgain) :
    Account.blank.state (.before tokens last) = Account.blank.state (.before tokensAgain lastAgain) := by
  have first := arrange_visible (endAfter last) [] tokens
  have second := arrange_visible (endAfter lastAgain) [] tokensAgain
  -- an end mark that has to be supplied is the same for both
  have sameEnd : (endAfter last).relocate Span.blank = (endAfter lastAgain).relocate Span.blank := rfl
  rw [agree, sameEnd, ← second, Prod.mk.injEq] at first
  rw [State.before, State.before, ← Account.reportSkipped_state, ← Account.reportSkipped_state]
  exact congrArg State.reportSkipped (State.eq_of first.1 first.2 rfl)

/-! ## Programs -/

/-- Whatever the tokens are and wherever they stand, the call statements of a program hold calls. -/
theorem holdsCalls_of_run {s t : State} {p : Program} (ran : program.run s = (some p, t)) :
    Statement.EachHoldsCalls p := by
  have ranAgain := retold_program .blank s
  rw [ran] at ranAgain
  have blank : Statement.EachHoldsCalls (p.map (Statement.recast .blank)) :=
    ((safe_program (Account.fits_blank s)).2 _ _ ranAgain).1
  rw [← Statement.recastEach_eq_map] at blank
  exact (Statement.eachHoldsCalls_recast p).mp blank

/-- Where the visible tokens agree, the parser makes the same and reports the same, but for places. -/
theorem parse_agrees {tokens tokensAgain : List Token} (nonempty : tokens ≠ [])
    (nonemptyAgain : tokensAgain ≠ []) (agree : visible tokens = visible tokensAgain) :
    ∃ p q, Program.parse tokens = .ok p ∧ Program.parse tokensAgain = .ok q ∧
      p.errors.map Located.value = q.errors.map Located.value ∧
      Program.bare p.value = Program.bare q.value ∧
      Statement.EachHoldsCalls p.value ∧ Statement.EachHoldsCalls q.value := by
  obtain ⟨p, t, ran, parsed⟩ := parse_eq (List.getLast?_eq_some_getLast nonempty)
  obtain ⟨q, u, ranAgain, parsedAgain⟩ := parse_eq (List.getLast?_eq_some_getLast nonemptyAgain)
  refine ⟨_, _, parsed, parsedAgain, ?errors, ?program, holdsCalls_of_run ran,
    holdsCalls_of_run ranAgain⟩
  all_goals
    have retold := retold_program .blank
    have first := retold (.before tokens (tokens.getLast nonempty))
    have second := retold (.before tokensAgain (tokensAgain.getLast nonemptyAgain))
    rw [State.blank_before _ (tokensAgain.getLast nonemptyAgain) agree, ran] at first
    rw [ranAgain, first, Prod.mk.injEq] at second
    obtain ⟨samePrograms, sameStates⟩ := second
  case errors =>
    have same := congrArg State.errors sameStates
    have each := congrArg (List.map Located.value)
      ((Account.errors_blank _).symm.trans (same.trans (Account.errors_blank _)))
    rw [List.map_map, List.map_map] at each
    exact each
  case program => exact Option.some.inj samePrograms

end Parser

/-- Where two programs agree but for places, checking them finds the same and declares the same, but for
places. -/
theorem Program.check_agrees (library : Library) {p q : Program} (agree : p.bare = q.bare)
    (calls : Statement.EachHoldsCalls p) (callsAgain : Statement.EachHoldsCalls q) :
    ∃ c d, p.check library = .ok c ∧ q.check library = .ok d ∧
      c.errors.map (fun e => e.value.relocate Span.blank) =
        d.errors.map (fun e => e.value.relocate Span.blank) ∧
      c.value.globals.relocate Span.blank = d.value.globals.relocate Span.blank := by
  have injective : Recast.blank.name.Injective := Function.injective_id
  obtain ⟨c, checked, bareChecked⟩ := check_recast library injective calls
  obtain ⟨d, checkedAgain, bareCheckedAgain⟩ := check_recast library injective callsAgain
  have same : p.bare.check library = q.bare.check library := congrArg (check library) agree
  obtain ⟨values, errors⟩ := Outcome.mk.inj (Except.ok.inj (bareChecked.symm.trans (same.trans bareCheckedAgain)))
  have each := congrArg (List.map Located.value) errors
  rw [Typing.recastErrors, Typing.recastErrors, List.map_map, List.map_map] at each
  exact ⟨c, d, checked, checkedAgain, each, (CheckedProgram.mk.inj values).2⟩

theorem eq_nil_iff_of_map_eq {α β γ : Type} {f : α → γ} {g : β → γ} {xs : List α} {ys : List β}
    (same : xs.map f = ys.map g) : xs = [] ↔ ys = [] := by
  rw [← List.map_eq_nil_iff (f := f), same, List.map_eq_nil_iff]

end FrontEnd
