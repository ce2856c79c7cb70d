import FrontEnd.Proofs.Grammar.Decimals
import FrontEnd.Tree.Parser.Expression

/-!
# Integer literals

What the parser makes of an integer token: the integer that the literal denotes, or zero and an error at the token
where there is none of sixty-four bits. It does not matter where in a program the token is, for every expression that
starts with one is that one.
-/

namespace FrontEnd.Parser

open Literal (Fits Denotes ReadsAs readInteger)

/-- What is made of an integer token, and the state behind it. -/
def integerLiteral (s : State) : Option Expr × State :=
  match readInteger s.current.literal with
  | .ok value => (some (.int value s.current.span), s.advance)
  | .error _ =>
    (some (.int 0 s.current.span), s.advance.report (.invalidInteger s.current.literal) s.current.span)

theorem run_expressionFrom_int {inner : Parser Expr} {records : Bool} {token : Token} (isInt : token.kind = .int)
    (s : State) : (expressionFrom inner records token).run s =
      match readInteger token.literal with
      | .ok value => (some (.int value token.span), s)
      | .error _ => (some (.int 0 token.span), s.report (.invalidInteger token.literal) token.span) := by
  rw [expressionFrom, isInt]
  simp only [run_bind, integerValue, ensure]
  cases readInteger token.literal <;> rfl

theorem run_expressionBody_int {inner : Parser Expr} {records : Bool} {s : State} (isInt : s.kind = .int) :
    (expressionBody inner records).run s = integerLiteral s := by
  have starts : s.current.kind ∈ expressionKinds := by
    rw [show s.current.kind = .int from isInt]
    decide
  have behind := @run_expressionFrom_int inner records s.current isInt s.advance
  simp only [expressionBody, run_bind, peek, looking, if_pos starts, advance, behind, integerLiteral]

/-- Reading an integer is exact, however many digits it has: of a text that denotes one of sixty-four bits this is what
is read, and of any other the error is the first thing that is wrong from the left. So the decimal text of every such
integer is read as that integer; and wherever an expression starts with an integer token, it is the integer that the
token denotes, or else it is zero and reported at the token. -/
theorem readInteger_exact :
    (∀ text result, readInteger text = result ↔ ReadsAs text result) ∧
    (∀ value, Fits value → readInteger (toString value) = .ok value) ∧
    ∀ (n : Nat) (records : Bool) (s : State), s.kind = .int →
      (expression records).run s = (expressionUpTo (n + 1) records).run s ∧
      ((∃ value, Denotes s.current.literal value ∧ Fits value ∧
          (expressionUpTo (n + 1) records).run s = (some (.int value s.current.span), s.advance)) ∨
        (∀ value, Denotes s.current.literal value → ¬ Fits value) ∧
          (expressionUpTo (n + 1) records).run s =
            (some (.int 0 s.current.span),
              s.advance.report (.invalidInteger s.current.literal) s.current.span)) := by
  refine ⟨fun text result => Literal.readInteger_eq_iff, fun value fits => ?decimal, fun n records s isInt => ?parsed⟩
  case decimal => exact Literal.readInteger_ok_iff.mpr ⟨Literal.denotes_toString value, fits⟩
  case parsed =>
    have run : ∀ n, (expressionUpTo (n + 1) records).run s = integerLiteral s := fun n => run_expressionBody_int isInt
    refine ⟨(run s.ahead.length).trans (run n).symm, ?_⟩
    rw [run n, integerLiteral]
    cases read : readInteger s.current.literal with
    | ok value =>
      obtain ⟨denotes, fits⟩ := Literal.readInteger_ok_iff.mp read
      exact .inl ⟨value, denotes, fits, rfl⟩
    | error e =>
      refine .inr ⟨fun value denotes fits => ?_, rfl⟩
      rw [Literal.readInteger_ok_iff.mpr ⟨denotes, fits⟩] at read
      cases read

/-- The state in front of an integer that is one below the least. -/
def beyondMinimum : State :=
  .before [⟨.int, "-9223372036854775809", ⟨0, 20, 1, 0⟩⟩] ⟨.int, "-9223372036854775809", ⟨0, 20, 1, 0⟩⟩

theorem readInteger_exact_minimum :
    (readInteger "-9223372036854775808" = .ok Literal.minimum ↔
        ReadsAs "-9223372036854775808" (.ok Literal.minimum)) ∧
      Fits Literal.minimum ∧ readInteger (toString Literal.minimum) = .ok Literal.minimum ∧
      beyondMinimum.kind = .int ∧
      (expression true).run beyondMinimum = (expressionUpTo 1 true).run beyondMinimum ∧
      ((∃ value, Denotes beyondMinimum.current.literal value ∧ Fits value ∧
          (expressionUpTo 1 true).run beyondMinimum =
            (some (.int value beyondMinimum.current.span), beyondMinimum.advance)) ∨
        (∀ value, Denotes beyondMinimum.current.literal value → ¬ Fits value) ∧
          (expressionUpTo 1 true).run beyondMinimum =
            (some (.int 0 beyondMinimum.current.span),
              beyondMinimum.advance.report (.invalidInteger beyondMinimum.current.literal)
                beyondMinimum.current.span)) := by
  have fits : Fits Literal.minimum := ⟨by decide, by decide⟩
  exact ⟨readInteger_exact.1 _ _, fits, readInteger_exact.2.1 _ fits, rfl,
    readInteger_exact.2.2 0 true beyondMinimum rfl⟩

/-- There is one integer more below zero than above, and zeros in front make no difference. -/
example : readInteger "-009223372036854775808" = .ok Literal.minimum := by rfl

/-- The range is left before the character is met that is no digit. -/
example : readInteger "9223372036854775808-" = .error .tooLarge := by rfl

end FrontEnd.Parser
