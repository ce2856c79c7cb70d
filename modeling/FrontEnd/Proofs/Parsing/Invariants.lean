import FrontEnd.Proofs.Parsing.Arrange
import FrontEnd.Proofs.Parsing.Places
import FrontEnd.Proofs.Parsing.SimulationStatement

/-!
# What every run keeps

Two properties of states that all productions keep, for the two ways of going on do. The names of the tokens ahead are
of some sort (`worded`), and then so are the names in what is made, for every name in a tree is the literal of a token.
And the errors are at tokens that they suit (`reporting`).
-/

namespace FrontEnd

/-- Whether the token is of the sort `isName` if it is a name. -/
def Token.Worded (isName : String → Prop) (t : Token) : Prop :=
  t.kind = .identifier → isName t.literal

namespace Parser

variable {isName : String → Prop} {tokens : List Token}

namespace State

variable {s t : State}

/-! ## Names -/

/-- Whether the names among the tokens ahead are of the sort `isName`. -/
def Worded (isName : String → Prop) (s : State) : Prop :=
  ∀ t ∈ s.ahead, t.token.Worded isName

theorem Worded.reaches (worded : s.Worded isName) (reaches : s.Reaches t) : t.Worded isName :=
  fun u member => worded u (reaches.ahead.subset member)

/-- An end mark is no name. -/
theorem worded_final (s : State) : s.final.token.Worded isName :=
  fun isIdentifier => absurd (s.kind_final.symm.trans isIdentifier) (by simp)

theorem Worded.current (worded : s.Worded isName) : s.current.Worded isName := by
  rw [State.current, front]
  cases found : s.ahead with
  | nil => exact s.worded_final
  | cons first rest => exact worded first (by simp [found])

theorem Worded.second (worded : s.Worded isName) : s.second.Worded isName := by
  rw [State.second]
  cases found : s.ahead.tail with
  | nil => exact s.worded_final
  | cons first rest => exact worded first (List.mem_of_mem_tail (by simp [found]))

/-! ## Reports -/

/-- Whether every error is at one of the tokens, and suits it. -/
def ReportsAt (tokens : List Token) (s : State) : Prop :=
  ∀ e ∈ s.errors, ∃ t ∈ tokens, e.span = t.span ∧ e.value.Suits t

theorem ReportsAt.report (reports : s.ReportsAt tokens) {u : Token} (member : u ∈ tokens) {e : Error}
    (suits : e.Suits u) : (s.report e u.span).ReportsAt tokens := by
  intro located found
  rw [State.report, List.mem_append, List.mem_singleton] at found
  obtain earlier | rfl := found
  · exact reports located earlier
  · exact ⟨u, member, rfl, suits⟩

theorem ReportsAt.reportSkipped (reports : s.ReportsAt tokens)
    (members : ∀ u ∈ s.front.skipped, u ∈ tokens) : s.reportSkipped.ReportsAt tokens := by
  intro located found
  rw [State.reportSkipped, List.mem_append, List.mem_map] at found
  obtain earlier | ⟨u, skipped, rfl⟩ := found
  · exact reports located earlier
  · exact ⟨u, members u skipped, rfl, trivial⟩

theorem ReportsAt.advance (reports : s.ReportsAt tokens) (inOrder : s.InOrder tokens) :
    s.advance.ReportsAt tokens := by
  have behind := inOrder.reaches s.reaches_advance
  by_cases empty : s.ahead = []
  · rwa [State.advance, if_pos (by rw [empty]; rfl)]
  · rw [advance_of_nonempty empty] at behind ⊢
    have first : s.behindFirst.ReportsAt tokens := reports
    exact first.reportSkipped (behind.members _ (front_mem _)).2

end State

/-- The names of the tokens ahead are of one sort. -/
def worded (isName : String → Prop) : Invariant where
  Knows := Token.Worded isName
  IsName := isName
  isName_of_knows named := named
  Holds := State.Worded isName
  knows_current := State.Worded.current
  knows_second := State.Worded.second
  holds_report {s _ _} holds _ _ := holds.reaches (s.reaches_report _ _)
  holds_advance {s} holds := holds.reaches s.reaches_advance

/-- What is made of tokens has their names in it only. -/
theorem eachNamed_of_run {last : Token} {p : Program} {t : State} (each : ∀ u ∈ tokens, u.Worded isName)
    (ran : program.run (State.before tokens last) = (some p, t)) : Statement.EachNamed isName p := by
  have before : (State.before tokens last).Worded isName := by
    intro u member
    rw [State.ahead_before] at member
    exact each _ (mem_arrange u member).1
  exact Statement.eachNamed_iff.mpr (((worded isName).of_program before ran).2 p rfl)

/-- The tokens ahead are in order, and what is reported is at tokens. -/
def reporting (tokens : List Token) : Invariant where
  Knows t := t ∈ tokens
  IsName _ := True
  isName_of_knows _ _ := trivial
  Holds s := s.InOrder tokens ∧ s.ReportsAt tokens
  knows_current holds := holds.1.current_mem
  knows_second holds := holds.1.second_mem
  holds_report {s _ _} holds member raised :=
    ⟨holds.1.reaches (s.reaches_report _ _), holds.2.report member raised.suits⟩
  holds_advance {s} holds := ⟨holds.1.reaches s.reaches_advance, holds.2.advance holds.1⟩

end Parser

end FrontEnd
