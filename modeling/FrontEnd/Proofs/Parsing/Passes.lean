import FrontEnd.Proofs.Grammar.Terminal
import FrontEnd.Tree.Parser.State

/-!
# Passing over terminals

`s.Passes ts t` says that the tokens ahead of `s` start with the terminals `ts`, that no illegal character
is met on the way over them, and that `t` is the state behind them. Both directions of the correctness of
the parser are about it: a tree that is read has been passed over, and what is passed over is read.
-/

namespace FrontEnd.Parser

variable {α β : Type}

namespace State

/-- Whether all tokens ahead are ones that there are. -/
def Lexical (s : State) : Prop :=
  ∀ t ∈ s.ahead, t.token.terminal.Lexical

/-- The terminals of the tokens ahead. -/
def terminals (s : State) : List Terminal :=
  s.ahead.map fun t => t.token.terminal

/-- From a state to the next, over a terminal and without an illegal character behind it. -/
structure Takes (s : State) (terminal : Terminal) (t : State) : Prop where
  nonempty : s.ahead ≠ []
  current : s.current.terminal = terminal
  next : s.advance = t
  errors : t.errors = s.errors

/-- From a state to a later one, over some terminals and without an illegal character on the way. -/
def Passes (s : State) : List Terminal → State → Prop
  | [], t => s = t
  | terminal :: terminals, t => ∃ u, s.Takes terminal u ∧ u.Passes terminals t

/-! ## Single steps -/

theorem advance_of_nonempty {s : State} (h : s.ahead ≠ []) :
    s.advance = s.behindFirst.reportSkipped := by
  simp [advance, h]

theorem ahead_advance (s : State) : s.advance.ahead = s.ahead.tail := by
  unfold advance
  split
  next empty => simp_all
  next => rfl

theorem kind_eq_eof_iff (s : State) : s.kind = .eof ↔ s.ahead = [] := by
  -- no token ahead is an end mark, so that the current one is only where none is ahead
  cases found : s.ahead with
  | nil => simp [kind, current, front, found, s.kind_final]
  | cons t ahead =>
    have notEof := s.kind_ahead t (by simp [found])
    simpa [kind, current, front, found] using notEof

theorem kind_ne_eof_of_mem (s : State) {kinds : List TokenKind} (member : s.current.kind ∈ kinds)
    (noEof : TokenKind.eof ∉ kinds) : s.kind ≠ .eof := by
  intro eof
  rw [show s.current.kind = .eof from eof] at member
  exact noEof member

theorem Takes.kind {s t : State} {terminal : Terminal} (takes : s.Takes terminal t) :
    s.kind = terminal.kind := by
  rw [← takes.current]
  rfl

theorem Takes.ahead {s t : State} {terminal : Terminal} (takes : s.Takes terminal t) :
    t.ahead = s.ahead.tail := by
  rw [← takes.next, ahead_advance]

theorem Takes.second {s t : State} {terminal : Terminal} (takes : s.Takes terminal t) :
    s.second = t.current := by
  have final : t.final = s.final := takes.next ▸ (s.reaches_advance).final
  rw [State.second, State.current, front, takes.ahead, final]

theorem Takes.terminals {s t : State} {terminal : Terminal} (takes : s.Takes terminal t) :
    s.terminals = terminal :: t.terminals := by
  have nonempty := takes.nonempty
  have current := takes.current
  rw [State.terminals, State.terminals, takes.ahead]
  cases found : s.ahead with
  | nil => exact absurd found nonempty
  | cons head tail =>
    simp only [State.current, front, found, List.headD_cons] at current
    simp [current]

theorem Takes.lexical {s t : State} {terminal : Terminal} (takes : s.Takes terminal t)
    (lexical : s.Lexical) : terminal.Lexical ∧ t.Lexical := by
  constructor
  · have nonempty := takes.nonempty
    have current := takes.current
    cases found : s.ahead with
    | nil => exact absurd found nonempty
    | cons head tail =>
      simp only [State.current, front, found, List.headD_cons] at current
      rw [← current]
      exact lexical head (by simp [found])
  · intro u member
    rw [takes.ahead] at member
    exact lexical u (List.mem_of_mem_tail member)

theorem takes_advance {s : State} (nonempty : s.kind ≠ .eof)
    (errors : s.advance.errors = s.errors) : s.Takes s.current.terminal s.advance :=
  ⟨fun empty => nonempty (s.kind_eq_eof_iff.mpr empty), rfl, rfl, errors⟩

/-! ## Sequences of steps -/

theorem Passes.cons {s t u : State} {terminal : Terminal} {terminals : List Terminal}
    (takes : s.Takes terminal t) (passes : t.Passes terminals u) :
    s.Passes (terminal :: terminals) u :=
  ⟨t, takes, passes⟩

theorem Takes.passes {s t : State} {terminal : Terminal} (takes : s.Takes terminal t) :
    s.Passes [terminal] t :=
  ⟨t, takes, rfl⟩

theorem passes_cons_iff {s t : State} {terminal : Terminal} {terminals : List Terminal} :
    s.Passes (terminal :: terminals) t ↔ ∃ u, s.Takes terminal u ∧ u.Passes terminals t :=
  Iff.rfl

theorem passes_append_iff {s t : State} {first second : List Terminal} :
    s.Passes (first ++ second) t ↔ ∃ u, s.Passes first u ∧ u.Passes second t := by
  induction first generalizing s with
  | nil => simp [Passes]
  | cons terminal first inductionHypothesis =>
    simp only [List.cons_append, passes_cons_iff, inductionHypothesis]
    constructor
    · rintro ⟨u, takes, v, passes, rest⟩
      exact ⟨v, ⟨u, takes, passes⟩, rest⟩
    · rintro ⟨v, ⟨u, takes, passes⟩, rest⟩
      exact ⟨u, takes, v, passes, rest⟩

theorem passes_singleton_iff {s t : State} {terminal : Terminal} :
    s.Passes [terminal] t ↔ s.Takes terminal t := by
  simp [Passes]

theorem Passes.kind {s t : State} {terminal : Terminal} {terminals : List Terminal}
    (passes : s.Passes (terminal :: terminals) t) : s.current.kind = terminal.kind := by
  obtain ⟨u, takes, -⟩ := passes
  exact takes.kind

theorem Passes.append {s t u : State} {first second : List Terminal} (passes : s.Passes first t)
    (rest : t.Passes second u) : s.Passes (first ++ second) u :=
  passes_append_iff.mpr ⟨t, passes, rest⟩

theorem Passes.terminals {s t : State} {terminals : List Terminal} (passes : s.Passes terminals t) :
    s.terminals = terminals ++ t.terminals := by
  induction terminals generalizing s with
  | nil => cases passes; rfl
  | cons terminal terminals inductionHypothesis =>
    obtain ⟨u, takes, rest⟩ := passes
    rw [takes.terminals, inductionHypothesis rest, List.cons_append]

theorem Passes.length {s t : State} {terminals : List Terminal} (passes : s.Passes terminals t) :
    s.ahead.length = terminals.length + t.ahead.length := by
  have lengths := congrArg List.length passes.terminals
  simpa [State.terminals] using lengths

theorem Takes.length {s t : State} {terminal : Terminal} (takes : s.Takes terminal t) :
    s.ahead.length = t.ahead.length + 1 := by
  rw [takes.passes.length, List.length_singleton, Nat.add_comm]

theorem Passes.lexical {s t : State} {terminals : List Terminal} (passes : s.Passes terminals t)
    (lexical : s.Lexical) : (∀ terminal ∈ terminals, terminal.Lexical) ∧ t.Lexical := by
  induction terminals generalizing s with
  | nil =>
    cases passes
    exact ⟨by simp, lexical⟩
  | cons terminal terminals inductionHypothesis =>
    obtain ⟨u, takes, rest⟩ := passes
    obtain ⟨first, behind⟩ := takes.lexical lexical
    obtain ⟨others, last⟩ := inductionHypothesis rest behind
    exact ⟨by simpa using ⟨first, others⟩, last⟩

theorem Passes.errors {s t : State} {terminals : List Terminal} (passes : s.Passes terminals t) :
    t.errors = s.errors := by
  induction terminals generalizing s with
  | nil => cases passes; rfl
  | cons terminal terminals inductionHypothesis =>
    obtain ⟨u, takes, rest⟩ := passes
    rw [inductionHypothesis rest, takes.errors]

theorem Takes.skipped {s t : State} {terminal : Terminal} (takes : s.Takes terminal t) :
    t.front.skipped = [] := by
  have errors := takes.errors
  rw [← takes.next, advance_of_nonempty takes.nonempty] at errors ⊢
  have added : s.errors ++ s.behindFirst.front.skipped.map _ = s.errors := errors
  show s.behindFirst.front.skipped = []
  simpa using added

/-- Where a parser passed over all of the tokens, there was no illegal character behind the first. -/
theorem Passes.skipped {s t : State} {terminals : List Terminal} (passes : s.Passes terminals t)
    (atEnd : t.ahead = []) (front : s.front.skipped = []) :
    (∀ u ∈ s.ahead, u.skipped = []) ∧ s.final.skipped = [] := by
  induction terminals generalizing s with
  | nil =>
    cases passes
    rw [State.front, atEnd] at front
    exact ⟨by simp [atEnd], front⟩
  | cons terminal terminals inductionHypothesis =>
    obtain ⟨u, takes, rest⟩ := passes
    obtain ⟨ahead, final⟩ := inductionHypothesis rest takes.skipped
    -- the tokens behind the first are those ahead of the state that it leads to
    rw [takes.ahead] at ahead
    rw [← takes.next, (s.reaches_advance).final] at final
    refine ⟨?_, final⟩
    cases found : s.ahead with
    | nil => simp
    | cons first tail =>
      rw [State.front, found] at front
      rw [found] at ahead
      simpa using ⟨front, ahead⟩

/-- Without illegal characters ahead, a parser can pass over all of the tokens. -/
theorem passes_all (s : State) (ahead : ∀ t ∈ s.ahead, t.skipped = []) (final : s.final.skipped = []) :
    ∃ t : State, s.Passes s.terminals t ∧ t.ahead = [] := by
  -- by induction on the number of tokens ahead
  generalize length : s.ahead.length = n
  induction n generalizing s with
  | zero =>
    have empty := List.length_eq_zero_iff.mp length
    exact ⟨s, by simp [terminals, empty, Passes], empty⟩
  | succ n inductionHypothesis =>
    have nonempty : s.ahead ≠ [] := List.ne_nil_of_length_eq_add_one length
    have errors : s.advance.errors = s.errors := by
      -- what comes next has skipped nothing, be it a token or the end
      have skipped : s.behindFirst.front.skipped = [] := by
        cases found : s.ahead.tail with
        | nil => simpa [behindFirst, front, found] using final
        | cons t tail =>
          have member : t ∈ s.ahead := List.mem_of_mem_tail (by simp [found])
          simpa [behindFirst, front, found] using ahead t member
      rw [advance_of_nonempty nonempty, reportSkipped, skipped]
      simp [behindFirst]
    have takes : s.Takes s.current.terminal s.advance := ⟨nonempty, rfl, rfl, errors⟩
    obtain ⟨t, passes, empty⟩ := inductionHypothesis s.advance
      (fun t member => ahead t (List.mem_of_mem_tail (by rwa [← ahead_advance])))
      (by rw [(s.reaches_advance).final]; exact final)
      (by rw [ahead_advance, List.length_tail, length]; rfl)
    exact ⟨t, takes.terminals ▸ .cons takes passes, empty⟩

end State

end FrontEnd.Parser
