import FrontEnd.Proofs.Parsing.Arrange
import FrontEnd.Proofs.Parsing.Safe

/-!
# Where in a sequence of tokens a parser stands

A state has the tokens ahead of it, but a parser can as well be seen as a cursor into the sequence of all
tokens, blanks and illegal characters included, which ends with an end mark that is supplied if the last
token is none. `s.StandsAt tokens i` says that `i` is the index where a state stands: the current token is
found there, and there is no end mark before it. Moving on leads to a later index (`State.StandsAt.advance`),
so that no state ever stands outside of the sequence, and a state that has only the end mark ahead stands at
the first one (`State.StandsAt.first`). What is behind the first end mark makes no difference.
-/

namespace FrontEnd.Parser

/-- The tokens that are parsed: an end mark is supplied behind a last token that is none. -/
def supplied (tokens : List Token) (last : Token) : List Token :=
  if last.isEof then tokens else tokens ++ [endAfter last]

/-! ## Arranged up to the first end mark -/

/-- What is behind an end mark is not arranged, and with one none has to be supplied. -/
theorem arrange_eof {missing eof : Token} (isEof : eof.kind = .eof) (before behind : List Token)
    (skipped : List Token) :
    arrange missing skipped (before ++ eof :: behind) = arrange eof skipped before := by
  induction before generalizing skipped with
  | nil => simp [arrange, Token.isEof, isEof]
  | cons t before inductionHypothesis =>
    rw [List.cons_append, arrange, arrange]
    simp only [inductionHypothesis]

theorem exists_supplied {tokens : List Token} {last : Token} (isLast : tokens.getLast? = some last) :
    ∃ before eof, supplied tokens last = before ++ [eof] ∧ eof.kind = .eof ∧
      ∀ skipped, arrange (endAfter last) skipped tokens = arrange eof skipped before := by
  obtain ⟨initial, rfl⟩ := List.getLast?_eq_some_iff.mp isLast
  cases isEof : last.isEof with
  | true =>
    have kind : last.kind = .eof := by simpa [Token.isEof] using isEof
    exact ⟨initial, last, by simp [supplied, isEof], kind, arrange_eof kind initial []⟩
  | false => exact ⟨initial ++ [last], endAfter last, by simp [supplied, isEof], rfl, fun _ => rfl⟩

/-! ## Indices -/

/-- Whether a state stands at an index of some tokens: its current token is there, no end mark is before
it, and the tokens from there on are those ahead. -/
structure State.StandsAt (s : State) (tokens : List Token) (i : Nat) : Prop where
  current : tokens[i]? = some s.current
  before : ∀ t ∈ tokens.take i, t.kind ≠ .eof
  ahead : ∀ missing, arrange missing s.front.skipped (tokens.drop i) = (s.ahead, s.final)

namespace State

variable {s t : State} {tokens : List Token} {i : Nat}

theorem StandsAt.inside (stands : s.StandsAt tokens i) : i < tokens.length :=
  (List.getElem?_eq_some_iff.mp stands.current).1

/-- Where a state stands does not depend on what was reported. -/
theorem StandsAt.congr (stands : s.StandsAt tokens i) (ahead : t.ahead = s.ahead)
    (final : t.final = s.final) : t.StandsAt tokens i := by
  have front : t.front = s.front := by rw [State.front, State.front, ahead, final]
  refine ⟨?_, stands.before, ?_⟩
  · rw [State.current, front]
    exact stands.current
  · rw [front, ahead, final]
    exact stands.ahead

/-- A state at an end mark stands at the first one. -/
theorem StandsAt.first (stands : s.StandsAt tokens i) (eof : s.kind = .eof) :
    tokens.findIdx? Token.isEof = some i := by
  obtain ⟨inside, current⟩ := List.getElem?_eq_some_iff.mp stands.current
  rw [List.findIdx?_eq_some_iff_getElem]
  refine ⟨inside, ?_, ?_⟩
  · rw [current]
    exact decide_eq_true eof
  · intro j earlier
    have member : tokens[j] ∈ tokens.take i := by
      rw [List.mem_take_iff_getElem]
      exact ⟨j, by omega, rfl⟩
    simpa [Token.isEof] using stands.before _ member

end State

/-- Whether a token is passed over on the way to the next that matters. -/
def isSkipped (t : Token) : Bool :=
  t.kind.isTrivia || t.kind = .illegal

theorem kind_ne_eof_of_isSkipped {t : Token} (skipped : isSkipped t = true) : t.kind ≠ .eof := by
  intro eof
  simp [isSkipped, eof, TokenKind.isTrivia] at skipped

/-- The first token that is not skipped is the next one, if there is an end mark. -/
theorem exists_index {tokens : List Token} (ended : ∃ t ∈ tokens, t.kind = .eof)
    {skipped : List Token} {ahead : List Significant} {final : Significant}
    (arranged : ∀ missing, arrange missing skipped tokens = (ahead, final)) :
    ∃ i, tokens[i]? = some (ahead.headD final).token ∧ (∀ t ∈ tokens.take i, isSkipped t = true) ∧
      ∀ missing, arrange missing (ahead.headD final).skipped (tokens.drop i) = (ahead, final) := by
  induction tokens generalizing skipped with
  | nil => simp at ended
  | cons t rest inductionHypothesis =>
    -- behind a token that is skipped, everything stands one further on
    have later : isSkipped t = true → t.kind ≠ .eof → ∀ {skipped},
        (∀ missing, arrange missing skipped rest = (ahead, final)) →
          ∃ i, (t :: rest)[i]? = some (ahead.headD final).token ∧
            (∀ u ∈ (t :: rest).take i, isSkipped u = true) ∧
              ∀ missing, arrange missing (ahead.headD final).skipped ((t :: rest).drop i) =
                (ahead, final) := by
      intro isSkipped notEof skipped arranged
      have endedBehind : ∃ u ∈ rest, u.kind = .eof := by simpa [notEof] using ended
      obtain ⟨i, found, before, behind⟩ := inductionHypothesis endedBehind arranged
      exact ⟨i + 1, by simpa using found, by simpa using ⟨isSkipped, before⟩, by simpa using behind⟩
    simp only [arrange] at arranged
    split at arranged
    next isEof =>
      obtain ⟨rfl, rfl⟩ := Prod.mk.inj (arranged t)
      exact ⟨0, rfl, by simp, fun missing => by simp [arrange, isEof]⟩
    next notEof =>
      have notEof : t.kind ≠ .eof := by simpa [Token.isEof] using notEof
      split at arranged
      next isTrivia => exact later (by simp [isSkipped, isTrivia]) notEof arranged
      next notTrivia =>
        split at arranged
        next isIllegal => exact later (by simp [isSkipped, isIllegal]) notEof arranged
        next notIllegal =>
          obtain ⟨rfl, -⟩ := Prod.mk.inj (arranged t)
          refine ⟨0, rfl, by simp, fun missing => ?_⟩
          rw [← arranged missing]
          simp [arrange, Token.isEof, notEof, notTrivia, notIllegal]

namespace State

variable {s t : State} {tokens : List Token} {i : Nat}

/-- Moving on leads to the next token that is not skipped. -/
theorem StandsAt.advance (stands : s.StandsAt tokens i) (ended : ∃ t ∈ tokens, t.kind = .eof)
    (notEof : s.kind ≠ .eof) :
    ∃ j, i < j ∧ s.advance.StandsAt tokens j ∧
      ∀ t ∈ (tokens.take j).drop (i + 1), isSkipped t = true := by
  obtain ⟨inside, current⟩ := List.getElem?_eq_some_iff.mp stands.current
  have split : tokens = tokens.take i ++ s.current :: tokens.drop (i + 1) := by
    rw [← current, ← List.drop_eq_getElem_cons inside, List.take_append_drop]
  generalize behind : tokens.drop (i + 1) = rest at split
  have endedBehind : ∃ t ∈ rest, t.kind = .eof := by
    obtain ⟨t, member, eof⟩ := ended
    rw [split, List.mem_append, List.mem_cons] at member
    rcases member with before | rfl | later
    · exact absurd eof (stands.before t before)
    · exact absurd eof notEof
    · exact ⟨t, later, eof⟩
  have arranged : ∀ missing, arrange missing [] rest = (s.ahead.tail, s.final) := by
    intro missing
    have all := stands.ahead missing
    rw [List.drop_eq_getElem_cons inside, current, behind] at all
    cases found : s.ahead with
    | nil => exact absurd (s.kind_eq_eof_iff.mpr found) notEof
    | cons first ahead =>
      have front : s.front = first := by rw [State.front, found, List.headD_cons]
      -- the current token is one that matters, for it is among those ahead
      have matters : first.token.kind.isTrivia = false ∧ first.token.kind ≠ .illegal := by
        have member := @mem_arrange missing s.front.skipped _ first
          (by rw [all, found]; exact List.mem_cons_self)
        exact member.2
      have notEnd : first.token.isEof = false := by
        simpa [Token.isEof] using s.kind_ahead first (by simp [found])
      rw [State.current, front, found, arrange] at all
      simp only [notEnd, matters.1, matters.2, Bool.false_eq_true, if_false, Prod.mk.injEq,
        List.cons.injEq, true_and] at all
      exact Prod.ext all.1 all.2
  obtain ⟨j, found, skipped, next⟩ := exists_index endedBehind arranged
  have ahead : s.advance.ahead = s.ahead.tail := s.ahead_advance
  have final : s.advance.final = s.final := (s.reaches_advance).final
  have taken : (tokens.take (i + 1 + j)).drop (i + 1) = rest.take j := by
    rw [List.drop_take, behind, Nat.add_sub_cancel_left]
  have front : s.advance.front = s.ahead.tail.headD s.final := by rw [State.front, ahead, final]
  refine ⟨i + 1 + j, by omega, ⟨?current, ?before, ?ahead⟩, by rwa [taken]⟩
  case current =>
    rw [← List.getElem?_drop, behind, found, State.current, front]
  case before =>
    intro t member
    rw [List.take_add, behind, List.take_add_one, stands.current, List.mem_append,
      List.mem_append] at member
    rcases member with (before | same) | later
    · exact stands.before t before
    · rw [Option.toList_some, List.mem_singleton] at same
      exact same ▸ notEof
    · exact kind_ne_eof_of_isSkipped (skipped t later)
  case ahead =>
    intro missing
    rw [front, ahead, final, ← List.drop_drop, behind]
    exact next missing

theorem standsAt_before {last : Token} (isLast : tokens.getLast? = some last) :
    (∃ t ∈ supplied tokens last, t.kind = .eof) ∧
      ∃ i, (State.before tokens last).StandsAt (supplied tokens last) i := by
  obtain ⟨before, eof, same, isEof, arranged⟩ := exists_supplied isLast
  have ended : ∃ t ∈ supplied tokens last, t.kind = .eof := ⟨eof, by simp [same], isEof⟩
  refine ⟨ended, ?_⟩
  have all : ∀ missing, arrange missing [] (supplied tokens last) =
      ((State.before tokens last).ahead, (State.before tokens last).final) := by
    intro missing
    rw [same, arrange_eof isEof, ← arranged, ahead_before, final_before]
  obtain ⟨i, found, skipped, behind⟩ := exists_index ended all
  exact ⟨i, found, fun t member => kind_ne_eof_of_isSkipped (skipped t member), behind⟩

/-- Wherever a parser comes to from a state, it stands there. -/
theorem StandsAt.reaches (stands : s.StandsAt tokens i) (ended : ∃ t ∈ tokens, t.kind = .eof)
    (reaches : s.Reaches t) : ∃ j, i ≤ j ∧ t.StandsAt tokens j := by
  -- by induction on the tokens that are passed on the way, whatever is reported
  obtain ⟨suffix, final, -⟩ := reaches
  generalize length : s.ahead.length = n
  induction n using Nat.strongRecOn generalizing s i with
  | ind n inductionHypothesis =>
    by_cases same : t.ahead = s.ahead
    · exact ⟨i, Nat.le_refl _, stands.congr same final⟩
    · have notEof : s.kind ≠ .eof := by
        intro eof
        have empty := s.kind_eq_eof_iff.mp eof
        rw [empty, List.suffix_nil] at suffix
        exact same (suffix.trans empty.symm)
      obtain ⟨j, later, standsNext, -⟩ := stands.advance ended notEof
      have suffixNext : t.ahead <:+ s.advance.ahead := by
        rw [s.ahead_advance]
        cases found : s.ahead with
        | nil => exact absurd (s.kind_eq_eof_iff.mpr found) notEof
        | cons first ahead =>
          rw [found] at suffix same
          exact (List.suffix_cons_iff.mp suffix).resolve_left same
      have finalNext : t.final = s.advance.final := final.trans (s.reaches_advance).final.symm
      have shorter := length_advance notEof
      obtain ⟨k, behind, standsLast⟩ :=
        inductionHypothesis _ (by omega) standsNext suffixNext finalNext rfl
      exact ⟨k, by omega, standsLast⟩

end State

end FrontEnd.Parser
