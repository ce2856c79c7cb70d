import FrontEnd.Typing.Checker

/-!
# All stages over one source text

The text is split into tokens, the tokens are parsed and the tree is checked against the standard
library. No stage stops at a mistake, so that one run reports as much as possible; the diagnostics
stand in the order of the stages.
-/

namespace FrontEnd

/-- What is found out about a source text. With diagnostics, the program may be incomplete. -/
structure Checked where
  result : CheckedProgram
  diagnostics : List Diagnostic

namespace Checked

/-- Whether there is nothing to report. -/
def isClean (c : Checked) : Bool :=
  c.diagnostics.isEmpty

/-- The checked program, if there is nothing to report. -/
def accepted? (c : Checked) : Option CheckedProgram :=
  if c.isClean then some c.result else none

end Checked

/-- The tree of a source text, with the diagnostics of reading it. -/
def readProgram (style : Lexer.CommentStyle) (source : String) :
    Except Fault (Program × List Diagnostic) := do
  let tokens ← Lexer.tokenize style source
  let program ← Program.parse tokens.value
  return (program.value, tokens.diagnostics ++ program.diagnostics)

/-- Runs all stages over a source text. -/
def check (style : Lexer.CommentStyle) (source : String) : Except Fault Checked := do
  let (program, diagnostics) ← readProgram style source
  let library ← Library.standard
  let checked ← program.check library
  return ⟨checked.value, diagnostics ++ checked.diagnostics⟩

end FrontEnd
