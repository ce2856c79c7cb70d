import FrontEnd.Proofs.Grammar.Terminal

/-!
# How terminals are laid out

A text of some terminals has blanks between any two of them, as many as one likes, and perhaps before the
first and behind the last. Only the minus sign of a subtraction stands right before its parenthesis.
-/

namespace FrontEnd

open Terminal

/-- Terminals with blanks between them, from the first one on. -/
inductive Written : List Terminal → List Char → Prop
  | nil : Written [] []
  | minus {rest : List Terminal} {text : List Char} (tail : Written (sign .lParen :: rest) text) :
      Written (minus :: sign .lParen :: rest) (minus.text ++ text)
  | cons {t : Terminal} {rest : List Terminal} {gap text : List Char} (notMinus : t ≠ minus)
      (blank : gap.all Text.isBlank = true) (apart : rest ≠ [] → gap ≠ []) (tail : Written rest text) :
      Written (t :: rest) (t.text ++ (gap ++ text))

theorem Written.space {t : Terminal} {rest : List Terminal} {text : List Char}
    (notMinus : t ≠ Terminal.minus) (tail : Written rest text) :
    Written (t :: rest) (t.text ++ ([' '] ++ text)) :=
  .cons notMinus (by decide) (by simp) tail

/-- Whether a source text consists of some terminals and blanks. -/
def LaidOut (terminals : List Terminal) (source : String) : Prop :=
  ∃ gap text, gap.all Text.isBlank = true ∧ Written terminals text ∧ source.toList = gap ++ text

end FrontEnd
