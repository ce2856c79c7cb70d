import FrontEnd.Proofs.Parsing.BuildsStatement
import FrontEnd.Proofs.Parsing.Retold

/-!
# Wherever the tokens stand

The parser takes for granted that regions end where 32 bits can count, and what is known of a run that keeps
to this holds of any other run as well: put all tokens in one place, and then they fit, while nothing that
the parser decides is changed.
-/

namespace FrontEnd.Parser

/-- The same tokens, all in one place. -/
def Account.blank : Account where
  place := Span.blank
  place_upTo _ _ := rfl
  before := []
  illegal := true

theorem Account.errors_blank (errors : List (Located Error)) :
    Account.blank.errors errors = errors.map (Located.relocate Span.blank) := by
  have all : errors.filter Account.blank.tells = errors :=
    List.filter_eq_self.mpr fun _ _ => rfl
  rw [Account.errors, all]
  rfl

theorem Account.length_errors_blank (s : State) :
    (Account.blank.state s).errors.length = s.errors.length :=
  (congrArg List.length (Account.errors_blank s.errors)).trans (List.length_map ..)

/-- In the one place all tokens fit. -/
theorem Account.fits_blank (s : State) : (Account.blank.state s).Fits := by
  have fitsToken : ∀ t : Significant, (Account.blank.significant t).token.span.Fits :=
    fun _ => (by decide : (default : Span).hi < UInt32.size)
  refine ⟨?_, fitsToken s.final⟩
  rintro _ member
  obtain ⟨t, -, rfl⟩ := List.mem_map.mp member
  exact fitsToken t

variable {s t : State}

/-- A complete attempt at a statement has taken a token. -/
theorem shorter_of_complete {a : Attempt} (ran : statement.run s = (some a, t))
    (complete : a.complete = true) : t.ahead.length < s.ahead.length := by
  have ranAgain := retold_statement .blank s
  rw [ran] at ranAgain
  have taken := ((safe_statement (Account.fits_blank s)).2 _ _ ranAgain).2 complete
  rwa [Account.length_state, Account.length_state] at taken

end FrontEnd.Parser

namespace FrontEnd

/-- Whether a statement declares a function or a datatype, as is allowed at the top level only. -/
def Statement.isTopLevel : Statement → Bool
  | .function .. | .datatype .. => true
  | _ => false

@[simp] theorem Statement.isTopLevel_relocate (place : Span → Span) (s : Statement) :
    (s.relocate place).isTopLevel = s.isTopLevel := by
  cases s with
  | function decl => cases decl; rfl
  | _ => rfl

theorem Statement.EachWellFormed.isTopLevel {before : Option TypeName} {statements : List Statement}
    (wellFormed : Statement.EachWellFormed false before statements) :
    ∀ s ∈ statements, s.isTopLevel = false := by
  induction statements generalizing before with
  | nil => simp
  | cons s rest inductionHypothesis =>
    obtain ⟨-, inside, tail⟩ := wellFormed
    rw [List.forall_mem_cons]
    refine ⟨?_, inductionHypothesis tail⟩
    cases s with
    | function decl => cases decl; cases inside.1
    | datatype => cases inside
    | _ => rfl

namespace Parser

variable {s t : State}

/-- Elsewhere than at a declaration of a function or a datatype, a statement at the top level is like any
other. -/
theorem run_statement_of_other (other : s.kind ∉ [TokenKind.kwFun, .kwDatatype]) :
    statement.run s = (statementUpTo (s.ahead.length + 1) false).run s := by
  have sameBody : ∀ body, (statementBody body true).run s = (statementBody body false).run s := by
    intro body
    have kind : s.current.kind = s.kind := rfl
    rw [statementBody, statementBody, run_bind, run_bind]
    simp only [peek, looking, kind]
    generalize s.kind = found at other
    cases found with
    | kwFun | kwDatatype => exact absurd (by decide) other
    | _ => rfl
  have depth : statement.run s = (statementUpTo (s.ahead.length + 1) true).run s := rfl
  rw [depth, statementUpTo, statementUpTo, sameBody]

/-- Elsewhere no function or datatype is declared, and if nothing is made then an error is reported. -/
theorem made_of_statement (other : s.kind ∉ [TokenKind.kwFun, .kwDatatype]) {a : Attempt}
    (ran : statement.run s = (some a, t)) :
    (∀ made ∈ a.made, made.isTopLevel = false) ∧ (t.errors = s.errors → a.made ≠ []) := by
  rw [run_statement_of_other other] at ran
  have ranAgain := retold_statementUpTo .blank (s.ahead.length + 1) false s
  rw [ran] at ranAgain
  have small : (Account.blank.state s).ahead.length < s.ahead.length + 1 := by
    rw [Account.length_state]
    exact Nat.lt_succ_self _
  have asserts := (safe_statementUpTo _ false small (Account.fits_blank s)).1
  obtain ⟨m, count, made⟩ := builds_statementUpTo _ false _ asserts
  rw [ranAgain] at count made
  obtain ⟨wellFormed, -, complete⟩ := made
  refine ⟨?_, fun silent empty => ?_⟩
  · have others := (wellFormed none).isTopLevel
    rw [Attempt.relocate, List.forall_mem_map] at others
    exact fun made member => (made.isTopLevel_relocate _).symm.trans (others made member)
  · have silentAgain : m = 0 := by
      rw [Account.length_errors_blank, Account.length_errors_blank, silent] at count
      omega
    exact (complete (by omega)).1 (by rw [Attempt.relocate, empty]; rfl)

end Parser

end FrontEnd
