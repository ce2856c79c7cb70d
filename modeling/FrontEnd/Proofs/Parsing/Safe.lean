import FrontEnd.Proofs.Parsing.Passes
import FrontEnd.Tree.Parser.Expression

/-!
# What a parser takes for granted

`Safe p s good` says that a run of `p` from `s` keeps to all that it takes for granted, and that what
it makes is `good` at the state it arrives at. The tokens ahead may be of any kinds and in any order, as long
as their regions end where 32 bits can still count. There is a lemma for each way to take a token, for
composition, for skipping and for the two kinds of lists of the grammar.

A loop of the grammar is safe because every round of it takes a token, and then it comes to an end before it
runs out of rounds.
-/

namespace FrontEnd

/-- Whether a region ends where 32 bits can still count. -/
def Span.Fits (s : Span) : Prop :=
  s.hi < UInt32.size

theorem Span.Fits.upTo {s t : Span} (first : s.Fits) (second : t.Fits) : (s.upTo t).Fits := by
  unfold Span.Fits at *
  rw [Span.hi_upTo]
  omega

theorem Span.Fits.len {s : Span} (fits : s.Fits) : s.len < UInt32.size :=
  Nat.lt_of_le_of_lt (Nat.le_add_left _ _) fits

namespace Parser

variable {α β : Type}

namespace State

/-- Whether the regions of all tokens fit, that of the end mark included. -/
structure Fits (s : State) : Prop where
  ahead : ∀ t ∈ s.ahead, t.token.span.Fits
  final : s.final.token.span.Fits

theorem Fits.reaches {s t : State} (fits : s.Fits) (reaches : s.Reaches t) : t.Fits :=
  ⟨fun u member => fits.ahead u (reaches.ahead.subset member), reaches.final ▸ fits.final⟩

theorem Fits.current {s : State} (fits : s.Fits) : s.current.span.Fits := by
  rw [State.current, front]
  cases found : s.ahead with
  | nil => exact fits.final
  | cons t ahead => exact fits.ahead t (by simp [found])

theorem Reaches.length_le {s t : State} (reaches : s.Reaches t) : t.ahead.length ≤ s.ahead.length :=
  reaches.ahead.length_le

theorem length_advance {s : State} (notEof : s.kind ≠ .eof) :
    s.advance.ahead.length < s.ahead.length := by
  have nonempty : s.ahead ≠ [] := fun empty => notEof (s.kind_eq_eof_iff.mpr empty)
  have positive := List.length_pos_iff.mpr nonempty
  rw [ahead_advance, List.length_tail]
  omega

theorem isAtEnd_of_empty {s : State} (empty : s.ahead.length = 0) (kinds : List TokenKind) :
    s.isAtEnd kinds = true := by
  simp [isAtEnd, s.kind_eq_eof_iff.mpr (List.length_eq_zero_iff.mp empty)]

theorem kind_ne_eof_of_not_atEnd {s : State} {kinds : List TokenKind}
    (notAtEnd : s.isAtEnd kinds = false) : s.kind ≠ .eof := by
  intro eof
  simp [isAtEnd, eof] at notAtEnd

/-- Skipping ends behind at least one token, or at the end or a token that stops it; and in front of any
other token it does not stay. -/
theorem skipTo_spec {resume : TokenKind} {stops : List TokenKind} {n : Nat} {s : State}
    (enough : s.ahead.length ≤ n) :
    ((skipTo resume stops n s).1 = true →
        (skipTo resume stops n s).2.ahead.length < s.ahead.length) ∧
      ((skipTo resume stops n s).1 = false → (skipTo resume stops n s).2.isAtEnd stops = true) ∧
        (s.isAtEnd stops = false →
          (skipTo resume stops n s).2.ahead.length < s.ahead.length) := by
  induction n generalizing s with
  | zero =>
    have atEnd := s.isAtEnd_of_empty (Nat.le_zero.mp enough) stops
    simp [skipTo, atEnd]
  | succ n inductionHypothesis =>
    rw [skipTo]
    cases atEnd : s.isAtEnd stops with
    | true => simp [atEnd]
    | false =>
      have shorter := length_advance (kind_ne_eof_of_not_atEnd atEnd)
      simp only [Bool.false_eq_true, if_false]
      split
      · simpa using shorter
      · obtain ⟨resumed, ended, -⟩ := inductionHypothesis (s := s.advance) (by omega)
        have behind := (reaches_skipTo resume stops n s.advance).length_le
        exact ⟨fun _ => by omega, ended, fun _ => by omega⟩

theorem resync_spec (resume : TokenKind) (stops : List TokenKind) (s : State) :
    ((s.resync resume stops).1 = true →
        (s.resync resume stops).2.ahead.length < s.ahead.length) ∧
      ((s.resync resume stops).1 = false → (s.resync resume stops).2.isAtEnd stops = true) ∧
        (s.isAtEnd stops = false → (s.resync resume stops).2.ahead.length < s.ahead.length) :=
  skipTo_spec (Nat.le_refl _)

end State

def Safe (p : Parser α) (s : State) (good : α → State → Prop) : Prop :=
  s.Fits → p.asserts s ∧ ∀ x t, p.run s = (some x, t) → good x t

variable {good : α → State → Prop} {goal : β → State → Prop} {s : State}

/-! ## Composition -/

theorem safe_pure {x : α} (h : good x s) : Safe (pure x) s good := by
  intro _
  refine ⟨trivial, ?_⟩
  rintro _ _ ⟨⟩
  exact h

theorem Safe.imp {better : α → State → Prop} {p : Parser α} (safe : Safe p s good)
    (imp : ∀ x t, good x t → better x t) : Safe p s better :=
  fun fits => ⟨(safe fits).1, fun x t ran => imp x t ((safe fits).2 x t ran)⟩

theorem Safe.forward {p : Parser α} (safe : Safe p s good) :
    Safe p s fun x t => good x t ∧ s.Reaches t := by
  intro fits
  refine ⟨(safe fits).1, ?_⟩
  intro x t ran
  exact ⟨(safe fits).2 x t ran, reaches_of_run ran⟩

/-- What is composed is safe if the first part is, and the second wherever the first may arrive. -/
theorem Safe.bind {p : Parser α} {f : α → Parser β} (first : Safe p s good)
    (second : ∀ x t, t.ahead.length ≤ s.ahead.length → good x t → Safe (f x) t goal) :
    Safe (p >>= f) s goal := by
  intro fits
  obtain ⟨asserts, made⟩ := first fits
  have behind : ∀ x t, p.run s = (some x, t) →
      (f x).asserts t ∧ ∀ y u, (f x).run t = (some y, u) → goal y u := by
    intro x t ran
    have reaches := reaches_of_run ran
    exact second x t reaches.length_le (made x t ran) (fits.reaches reaches)
  refine ⟨⟨asserts, fun x t ran => (behind x t ran).1⟩, ?_⟩
  intro y u ran
  obtain ⟨x, t, ranFirst, ranSecond⟩ := run_bind_eq_some ran
  exact (behind x t ranFirst).2 y u ranSecond

theorem Safe.attempt_bind {p : Parser α} {f : Option α → Parser β} (first : Safe p s good)
    (made : ∀ x t, t.ahead.length ≤ s.ahead.length → good x t → Safe (f (some x)) t goal)
    (failed : ∀ t, t.ahead.length ≤ s.ahead.length → Safe (f none) t goal) :
    Safe (attempt p >>= f) s goal := by
  have attempted : Safe (attempt p) s fun o t => ∀ x ∈ o, good x t := by
    intro fits
    refine ⟨(first fits).1, ?_⟩
    intro o t ran x member
    have same : ((p.run s).1, (p.run s).2) = (some x, t) := by
      simp only [attempt, Prod.mk.injEq, Option.some.injEq] at ran
      rw [ran.1, ran.2, member]
    exact (first fits).2 x t same
  refine attempted.bind ?_
  intro o t shorter each
  cases o with
  | none => exact failed t shorter
  | some x => exact made x t shorter (each x rfl)

theorem safe_reject {e : Error} {span : Span} :
    Safe (reject e span : Parser α) s good := by
  intro _
  refine ⟨trivial, ?_⟩
  rintro _ _ ⟨⟩

theorem safe_fail : Safe (fail : Parser α) s good := by
  intro _
  refine ⟨trivial, ?_⟩
  rintro _ _ ⟨⟩

theorem safe_report_bind {e : Error} {span : Span} {f : Unit → Parser β}
    (next : ∀ t : State, t.ahead = s.ahead → t.final = s.final → Safe (f ()) t goal) :
    Safe (report e span >>= f) s goal := by
  have reported : Safe (report e span) s fun _ t => t.ahead = s.ahead ∧ t.final = s.final := by
    intro _
    refine ⟨trivial, ?_⟩
    rintro _ _ ⟨⟩
    exact ⟨rfl, rfl⟩
  exact reported.bind fun _ t _ same => next t same.1 same.2

/-! ## What is taken for granted -/

theorem safe_ensure_bind {holds : State → Prop} {f : Unit → Parser β} (h : holds s)
    (next : Safe (f ()) s goal) : Safe (ensure holds >>= f) s goal := by
  intro fits
  obtain ⟨asserts, made⟩ := next fits
  refine ⟨⟨h, ?_⟩, made⟩
  rintro _ _ ⟨⟩
  exact asserts

theorem safe_joined_bind {first last : Span} {f : Span → Parser β} (fitsFirst : first.Fits)
    (fitsLast : last.Fits)
    (next : (first.upTo last).Fits → Safe (f (first.upTo last)) s goal) :
    Safe (joined first last >>= f) s goal := by
  have fits := fitsFirst.upTo fitsLast
  have joining : Safe (joined first last) s fun span t => span = first.upTo last ∧ t = s :=
    safe_ensure_bind fits.len (safe_pure ⟨rfl, rfl⟩)
  refine joining.bind ?_
  rintro _ _ - ⟨rfl, rfl⟩
  exact next fits

/-! ## Looking -/

theorem safe_looking_bind {look : State → Option α} {x : α} {f : α → Parser β}
    (looks : look s = some x) (next : Safe (f x) s goal) :
    Safe (looking look >>= f) s goal := by
  have looked : Safe (looking look) s fun y t => y = x ∧ t = s := by
    intro _
    refine ⟨trivial, ?_⟩
    intro y t ran
    simp only [looking, looks, Prod.mk.injEq, Option.some.injEq] at ran
    exact ⟨ran.1.symm, ran.2.symm⟩
  refine looked.bind ?_
  rintro _ _ - ⟨rfl, rfl⟩
  exact next

theorem safe_peek_bind {f : Token → Parser β}
    (next : s.current.span.Fits → Safe (f s.current) s goal) :
    Safe (peek >>= f) s goal :=
  fun fits => safe_looking_bind rfl (next fits.current) fits

theorem safe_peekSecond_bind {f : Token → Parser β} (next : Safe (f s.second) s goal) :
    Safe (peekSecond >>= f) s goal :=
  safe_looking_bind rfl next

theorem safe_left_bind {f : Nat → Parser β} (next : Safe (f s.ahead.length) s goal) :
    Safe (left >>= f) s goal :=
  safe_looking_bind rfl next

theorem safe_atEnd_bind {kinds : List TokenKind} {f : Bool → Parser β}
    (next : Safe (f (s.isAtEnd kinds)) s goal) : Safe (atEnd kinds >>= f) s goal :=
  safe_looking_bind rfl next

/-! ## Single tokens -/

theorem safe_advance (notEof : s.kind ≠ .eof) :
    Safe advance s fun token t =>
      token = s.current ∧ token.span.Fits ∧ t.ahead.length < s.ahead.length := by
  intro fits
  refine ⟨trivial, ?_⟩
  rintro _ _ ⟨⟩
  exact ⟨rfl, fits.current, s.length_advance notEof⟩

theorem safe_expect {accepts : Token → Bool} {e : TokenKind → Error}
    (notEof : ∀ token, accepts token = true → token.kind ≠ .eof) :
    Safe (expect accepts e) s fun token t =>
      accepts token = true ∧ token.span.Fits ∧ t.ahead.length < s.ahead.length := by
  intro fits
  refine ⟨trivial, ?_⟩
  intro token t ran
  simp only [expect] at ran
  split at ran
  next accepted =>
    cases ran
    exact ⟨accepted, fits.current, s.length_advance (notEof _ accepted)⟩
  next => cases ran

theorem safe_consume {kind : TokenKind} (notEof : kind ≠ .eof) :
    Safe (consume kind) s fun token t =>
      token.kind = kind ∧ token.span.Fits ∧ t.ahead.length < s.ahead.length := by
  refine (safe_expect ?_).imp fun token t found => ⟨of_decide_eq_true found.1, found.2⟩
  intro token accepted
  rwa [of_decide_eq_true accepted]

theorem safe_consumeAny {kinds : List TokenKind} (notEof : TokenKind.eof ∉ kinds) :
    Safe (consumeAny kinds) s fun token t =>
      token.kind ∈ kinds ∧ token.span.Fits ∧ t.ahead.length < s.ahead.length := by
  refine (safe_expect ?_).imp fun token t found => ⟨of_decide_eq_true found.1, found.2⟩
  intro token accepted eof
  exact notEof (eof ▸ of_decide_eq_true accepted)

theorem safe_consumeAssign :
    Safe consumeAssign s fun _ t => t.ahead.length < s.ahead.length := by
  refine (safe_expect ?_).imp fun token t found => found.2.2
  intro token accepted eof
  simp [eof] at accepted

theorem safe_take_bind {kind : TokenKind} (notEof : kind ≠ .eof) {f : Bool → Parser β}
    (taken : ∀ t : State, t.ahead.length < s.ahead.length → Safe (f true) t goal)
    (left : s.kind ≠ kind → Safe (f false) s goal) : Safe (take kind >>= f) s goal := by
  have took : Safe (take kind) s fun answer t =>
      (answer = true → t.ahead.length < s.ahead.length) ∧
        (answer = false → t = s ∧ s.kind ≠ kind) := by
    intro _
    refine ⟨trivial, ?_⟩
    intro answer t ran
    simp only [take] at ran
    split at ran
    next same =>
      cases ran
      simpa using s.length_advance (same ▸ notEof)
    next other =>
      cases ran
      simpa using other
  refine took.bind ?_
  rintro answer t - ⟨shorter, stays⟩
  cases answer with
  | true => exact taken t (shorter rfl)
  | false =>
    obtain ⟨rfl, other⟩ := stays rfl
    exact left other

theorem safe_ident :
    Safe Parser.ident s fun ident t =>
      ident.span.Fits ∧ t.ahead.length < s.ahead.length := by
  refine (safe_consume (by simp)).bind ?_
  rintro token t - ⟨-, fits, shorter⟩
  exact safe_pure ⟨fits, shorter⟩

/-! ## Skipping -/

/-- Whether parsing is taken up again or not, skipping moves on in front of a token that does not stop
it. -/
theorem safe_resync_bind {resume : TokenKind} {stops : List TokenKind} {f : Bool → Parser β}
    (next : ∀ answer t, t.ahead.length ≤ s.ahead.length →
      (answer = true → t.ahead.length < s.ahead.length) →
        (s.isAtEnd stops = false → t.ahead.length < s.ahead.length) →
          Safe (f answer) t goal) :
    Safe (resync resume stops >>= f) s goal := by
  obtain ⟨resumed, ended, moved⟩ := s.resync_spec resume stops
  have skipped : Safe (resync resume stops) s fun answer t =>
      answer = (s.resync resume stops).1 ∧ t = (s.resync resume stops).2 := by
    intro _
    refine ⟨ended, ?_⟩
    rintro _ _ ⟨⟩
    exact ⟨rfl, rfl⟩
  refine skipped.bind ?_
  rintro _ _ shorter ⟨rfl, rfl⟩
  exact next _ _ shorter resumed moved

/-! ## Lists -/

/-- Whether a production is safe before fewer than `m` tokens, and takes at least one if it makes
something. -/
def SafeBelow (p : Parser α) (good : α → Prop) (m : Nat) : Prop :=
  ∀ s : State, s.ahead.length < m →
    Safe p s fun x t => good x ∧ t.ahead.length < s.ahead.length

theorem safe_delimitedUpTo {close : TokenKind} {item : Parser α} {good : α → Prop} {m : Nat}
    (items : SafeBelow item good m) {n : Nat} {s : State} (small : s.ahead.length < m)
    (enough : s.ahead.length ≤ n) :
    Safe (delimitedUpTo close item n) s fun xs t =>
      (∀ x ∈ xs, good x) ∧ t.isAtEnd [close] = true := by
  -- an item takes a token, and so does skipping one that failed
  induction n generalizing s with
  | zero =>
    have atEnd := s.isAtEnd_of_empty (Nat.le_zero.mp enough) [close]
    exact safe_ensure_bind atEnd (safe_pure ⟨by simp, atEnd⟩)
  | succ n inductionHypothesis =>
    apply safe_atEnd_bind
    split
    next atEnd => exact safe_pure ⟨by simp, atEnd⟩
    next =>
      refine (items s small).attempt_bind ?made ?failed
      case failed =>
        intro t shorter
        apply safe_resync_bind
        intro answer u _ resumed _
        cases answer with
        | false => exact safe_fail
        | true =>
          have moved := resumed rfl
          exact inductionHypothesis (by omega) (by omega)
      case made =>
        rintro x t - ⟨isGood, shorter⟩
        refine safe_take_bind (by simp) (fun u shorterStill => ?_) fun _ => safe_atEnd_bind ?_
        · refine (inductionHypothesis (by omega) (by omega)).bind ?_
          rintro xs v - ⟨each, atEnd⟩
          exact safe_pure ⟨by simpa using ⟨isGood, each⟩, atEnd⟩
        · split
          next atEnd => exact safe_pure ⟨by simpa using isGood, atEnd⟩
          next =>
            refine safe_peek_bind fun _ => safe_report_bind fun u sameAhead _ => ?_
            have same : u.ahead.length = t.ahead.length := congrArg List.length sameAhead
            refine (inductionHypothesis (by omega) (by omega)).bind ?_
            rintro xs v - ⟨each, atEnd⟩
            exact safe_pure ⟨by simpa using ⟨isGood, each⟩, atEnd⟩

theorem safe_delimited {close : TokenKind} (notComma : close ≠ .comma) {item : Parser α}
    {good : α → Prop} {m : Nat} (items : SafeBelow item good m) {s : State}
    (small : s.ahead.length < m) :
    Safe (delimited close item) s fun xs _ => ∀ x ∈ xs, good x := by
  refine safe_ensure_bind notComma (safe_left_bind ?_)
  refine (safe_delimitedUpTo items small (Nat.le_refl _)).bind ?_
  rintro xs t - ⟨each, atEnd⟩
  exact safe_ensure_bind atEnd (safe_pure each)

theorem safe_separatedUpTo {item : Parser α} {good : α → Prop}
    (items : ∀ s : State, Safe item s fun x _ => good x) {n : Nat} {s : State}
    (enough : s.ahead.length < n) :
    Safe (separatedUpTo item n) s fun xs _ => ∀ x ∈ xs, good x := by
  -- here it is the separator that every round but the last takes
  induction n generalizing s with
  | zero => omega
  | succ n inductionHypothesis =>
    refine (items s).bind ?_
    rintro x t shorter isGood
    refine safe_take_bind (by simp) (fun u shorterStill => ?_) fun _ => ?_
    · refine (inductionHypothesis (by omega)).bind ?_
      rintro xs v - each
      exact safe_pure (by simpa using ⟨isGood, each⟩)
    · exact safe_pure (by simpa using isGood)

theorem safe_separated {item : Parser α} {good : α → Prop}
    (items : ∀ s : State, Safe item s fun x _ => good x) {s : State} :
    Safe (separated item) s fun xs _ => ∀ x ∈ xs, good x :=
  safe_left_bind (safe_separatedUpTo items (Nat.lt_succ_self _))

end Parser

end FrontEnd
