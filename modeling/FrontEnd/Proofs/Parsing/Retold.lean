import FrontEnd.Proofs.Parsing.Passes
import FrontEnd.Proofs.Parsing.SimulationStatement

/-!
# Runs told again

No decision of the parser rests on where a token stands, on what was reported before, or on the illegal
characters that were skipped. So a run may be told again with other regions, behind other errors and without
the illegal characters: an `Account` says what changes, and `Retold account view p` that `p` does the same by that
account, where `view` relocates what is made. Of the places of tokens only one thing is required, namely that joining
two of them is the same before and behind. To tell of the states is a simulation.
-/

namespace FrontEnd.Parser

/-- What is different where a run is told again. -/
structure Account where
  /-- Where a region is put. -/
  place : Span → Span
  place_upTo : ∀ s t : Span, place (s.upTo t) = (place s).upTo (place t)
  /-- The errors that were there already. -/
  before : List (Located Error)
  /-- Whether illegal characters are there at all. -/
  illegal : Bool

namespace Account

variable (account : Account)

/-- Whether an error is one of the account: without illegal characters there is none about them. -/
def tells (e : Located Error) : Bool :=
  account.illegal || !e.value.isIllegalCharacter

def errors (errors : List (Located Error)) : List (Located Error) :=
  account.before ++ (errors.filter account.tells).map (Located.relocate account.place)

def significant (t : Significant) : Significant where
  skipped := if account.illegal then t.skipped.map (Token.relocate account.place) else []
  token := t.token.relocate account.place

def state (s : State) : State where
  ahead := s.ahead.map account.significant
  final := account.significant s.final
  errors := account.errors s.errors
  kind_ahead := by
    rw [List.forall_mem_map]
    exact s.kind_ahead
  kind_final := s.kind_final

theorem errors_append (first second : List (Located Error)) :
    account.errors (first ++ second) =
      account.errors first ++ (second.filter account.tells).map (Located.relocate account.place) := by
  simp [errors]

end Account

/-! ## States -/

theorem State.eq_of {s t : State} (ahead : s.ahead = t.ahead) (final : s.final = t.final)
    (errors : s.errors = t.errors) : s = t := by
  cases s
  cases t
  cases ahead
  cases final
  cases errors
  rfl

namespace Account

variable (account : Account) (s : State)

@[simp] theorem front_state : (account.state s).front = account.significant s.front := by
  show (s.ahead.map account.significant).headD (account.significant s.final) =
    account.significant (s.ahead.headD s.final)
  cases s.ahead <;> rfl

@[simp] theorem current_state :
    (account.state s).current = s.current.relocate account.place := by
  rw [State.current, front_state]
  rfl

@[simp] theorem kind_state : (account.state s).kind = s.kind := by
  rw [State.kind, current_state]
  rfl

@[simp] theorem second_state : (account.state s).second = s.second.relocate account.place := by
  show ((s.ahead.map account.significant).tail.headD (account.significant s.final)).token =
    (s.ahead.tail.headD s.final).token.relocate account.place
  rw [← List.map_tail]
  cases s.ahead.tail <;> rfl

@[simp] theorem length_state : (account.state s).ahead.length = s.ahead.length :=
  List.length_map ..

@[simp] theorem isAtEnd_state (kinds : List TokenKind) :
    (account.state s).isAtEnd kinds = s.isAtEnd kinds := by
  rw [State.isAtEnd, kind_state, State.isAtEnd]

theorem report_state {e : Error} (legal : e.isIllegalCharacter = false) (span : Span) :
    (account.state s).report e (account.place span) = account.state (s.report e span) := by
  refine State.eq_of rfl rfl ?_
  have told : account.tells ⟨e, span⟩ = true := by simp [tells, legal]
  show account.errors s.errors ++ _ = account.errors (s.errors ++ _)
  rw [errors_append, List.filter_cons_of_pos told]
  rfl

theorem reportSkipped_state : (account.state s).reportSkipped = account.state s.reportSkipped := by
  refine State.eq_of rfl rfl ?_
  show account.errors s.errors ++ _ = account.errors (s.errors ++ _)
  rw [errors_append, front_state]
  congr 1
  -- where there are no illegal characters, no error about one is told
  cases illegal : account.illegal with
  | true =>
    simp only [significant, illegal, if_true, List.map_map]
    rw [List.filter_eq_self.mpr fun e _ => by simp [tells, illegal], List.map_map]
    rfl
  | false =>
    have none : (s.front.skipped.map fun t =>
        (⟨.illegalCharacter t.literal, t.span⟩ : Located Error)).filter account.tells = [] := by
      rw [List.filter_eq_nil_iff, List.forall_mem_map]
      intro t _
      simp [tells, illegal, Error.isIllegalCharacter]
    rw [none]
    simp [significant, illegal]

@[simp] theorem advance_state : (account.state s).advance = account.state s.advance := by
  have same : (account.state s).ahead.isEmpty = s.ahead.isEmpty := by simp [state]
  have behind : (account.state s).behindFirst = account.state s.behindFirst :=
    State.eq_of List.map_tail.symm rfl rfl
  rw [State.advance, same, State.advance, behind, reportSkipped_state]
  split <;> rfl

end Account

/-! ## Productions -/

/-- The state that is told of another one is related to it. -/
def Account.simulation (account : Account) : Simulation where
  place := account.place
  place_upTo := account.place_upTo
  Knows _ := True
  IsName _ := True
  isName_of_knows _ _ := trivial
  Relates s t := t = account.state s
  knows_current _ := trivial
  knows_second _ := trivial
  current_eq := by
    rintro s _ rfl
    exact account.current_state s
  second_eq := by
    rintro s _ rfl
    exact account.second_state s
  length_eq := by
    rintro s _ rfl
    exact account.length_state s
  relates_report := by
    rintro s _ e u rfl - raised
    exact account.report_state s raised.legal u.span
  relates_advance := by
    rintro s _ rfl
    exact account.advance_state s

def Retold {α : Type} (account : Account) (view : α → α) (p : Parser α) : Prop :=
  ∀ s, p.run (account.state s) = ((p.run s).1.map view, account.state (p.run s).2)

theorem retold_of_follows {α : Type} {account : Account} {view : α → α} {good : α → Prop} {p : Parser α}
    (follows : account.simulation.Follows view good p p) : Retold account view p := by
  intro s
  obtain ⟨same, arrived, -⟩ := follows s _ rfl
  exact Prod.ext same arrived

variable (account : Account)

theorem retold_statementUpTo (n : Nat) (top : Bool) :
    Retold account (Attempt.relocate account.place) (statementUpTo n top) :=
  retold_of_follows (Simulation.follows_statementUpTo n top)

theorem retold_statement : Retold account (Attempt.relocate account.place) statement :=
  retold_of_follows Simulation.follows_statement

theorem retold_program : Retold account (List.map (Statement.relocate account.place)) program :=
  retold_of_follows Simulation.follows_program

end FrontEnd.Parser
