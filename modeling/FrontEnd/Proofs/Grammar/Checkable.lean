import FrontEnd.Tree

/-!
# Checkable trees

What a tree has to be like so that it can be checked at all: every call statement holds a call. Nothing else is required
of it, so that parts may be missing and names may be taken or unknown.
-/

namespace FrontEnd

mutual

/-- Whether every call statement holds a call. -/
def Statement.HoldsCalls : Statement → Prop
  | .function ⟨_, _, _, body⟩ _ => body.HoldsCalls
  | .conditional branches otherwise _ =>
    Branch.EachHoldsCalls branches ∧ Block.OptionHoldsCalls otherwise
  | .loop _ body _ => body.HoldsCalls
  | .block body _ => body.HoldsCalls
  | .call call _ => call.isCall = true
  | .datatype .. | .declaration .. | .reassignment .. | .result .. | .control .. => True

def Statement.EachHoldsCalls : List Statement → Prop
  | [] => True
  | s :: rest => s.HoldsCalls ∧ Statement.EachHoldsCalls rest

def Block.HoldsCalls : Block → Prop
  | ⟨body, _⟩ => Statement.EachHoldsCalls body

def Branch.EachHoldsCalls : List Branch → Prop
  | [] => True
  | ⟨_, body⟩ :: rest => body.HoldsCalls ∧ Branch.EachHoldsCalls rest

def Block.OptionHoldsCalls : Option Block → Prop
  | none => True
  | some body => body.HoldsCalls

end

theorem Statement.eachHoldsCalls_iff {statements : List Statement} :
    Statement.EachHoldsCalls statements ↔ ∀ s ∈ statements, s.HoldsCalls := by
  induction statements with
  | nil => simp [Statement.EachHoldsCalls]
  | cons s rest inductionHypothesis => simp [Statement.EachHoldsCalls, inductionHypothesis]

theorem Branch.eachHoldsCalls_iff {branches : List Branch} :
    Branch.EachHoldsCalls branches ↔ ∀ b ∈ branches, b.body.HoldsCalls := by
  induction branches with
  | nil => simp [Branch.EachHoldsCalls]
  | cons b rest inductionHypothesis =>
    cases b
    simp [Branch.EachHoldsCalls, inductionHypothesis]

end FrontEnd
