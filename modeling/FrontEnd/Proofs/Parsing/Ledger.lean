import FrontEnd.Proofs.Parsing.Places
import Mathlib.Data.List.Chain
import Mathlib.Data.List.Nodup

/-!
# The errors of a parser and where it stands

No error is reported twice if at every state the errors so far are at tokens that are behind, but for a few that
are at the current token and of a sort that is not reported there again. `s.Ledger allowed` says so of a state,
where `allowed` are the errors that may be at the current token; at the end mark, which is never behind, there may
be one. Moving on leaves all errors behind (`State.Ledger.advance`), for the illegal characters that are met on the
way are between the two tokens (`State.Spaced`).
-/

namespace FrontEnd

namespace Parser

variable {tokens : List Token}

/-! ## Sorts of errors -/

namespace Error

/-- Whether an item of a list was not followed by a comma or by the end of the list. -/
def isSeparation : Error → Bool
  | .unexpectedAny _ (.comma :: _) => true
  | _ => false

/-- Whether a type, a name, an expression or a part of one was refused, or was not followed by a comma. A full stop
is behind all of these. -/
def isOfPart : Error → Bool
  | .unexpected _ expected => expected ≠ .dot
  | .unexpectedAny .. | .expectedExpression _ => true
  | _ => false

/-- Whether a token was refused. -/
def isRefusal : Error → Bool
  | .unexpected .. | .unexpectedAny .. | .expectedAssign _ | .expectedStatement _
  | .expectedExpression _ => true
  | _ => false

theorem isOfPart_of_isSeparation {e : Error} (separation : e.isSeparation = true) : e.isOfPart = true := by
  cases e <;> simp_all [isSeparation, isOfPart]

theorem isRefusal_of_isOfPart {e : Error} (ofPart : e.isOfPart = true) : e.isRefusal = true := by
  cases e <;> simp_all [isOfPart, isRefusal]

theorem isRefusal_of_isSeparation {e : Error} (separation : e.isSeparation = true) : e.isRefusal = true :=
  isRefusal_of_isOfPart (isOfPart_of_isSeparation separation)

end Error

/-! ## What is between two tokens -/

/-- Whether the illegal characters that were skipped on the way from one token to another are between them. -/
def Gap (t u : Significant) : Prop :=
  Span.Row t.token.span.hi u.token.span.lo (u.skipped.map Token.span)

/-- What is reported of an illegal character that is skipped. -/
def illegal (t : Token) : Located Error :=
  ⟨.illegalCharacter t.literal, t.span⟩

/-- The errors of characters that are in a row are in it, and they differ. -/
theorem illegal_of_row {lo hi : Nat} {skipped : List Token} (row : Span.Row lo hi (skipped.map Token.span)) :
    (skipped.map illegal).Nodup ∧ ∀ e ∈ skipped.map illegal, lo ≤ e.span.lo ∧ e.span.lo < hi := by
  constructor
  · have ordered := row.ordered
    rw [Span.Ordered, List.pairwise_map] at ordered
    rw [List.Nodup, List.pairwise_map]
    refine ordered.imp fun before same => ?_
    exact Nat.ne_of_lt before.1 (congrArg (fun e : Located Error => e.span.lo) same)
  · intro e member
    obtain ⟨t, isSkipped, rfl⟩ := List.mem_map.mp member
    have inside := row.inside t.span (List.mem_map_of_mem isSkipped)
    have nonempty := row.covers t.span (List.mem_map_of_mem isSkipped)
    exact ⟨inside.1, Nat.lt_of_lt_of_le nonempty inside.2⟩

namespace State

/-- Whether the tokens ahead are in order, and so is what was skipped between them. -/
structure Spaced (tokens : List Token) (s : State) : Prop extends s.InOrder tokens where
  gaps : (s.ahead ++ [s.final]).IsChain Gap

variable {s t : State}

theorem Spaced.reaches (spaced : s.Spaced tokens) (reaches : s.Reaches t) : t.Spaced tokens := by
  refine ⟨spaced.toInOrder.reaches reaches, ?_⟩
  obtain ⟨passed, split⟩ := reaches.ahead
  have gaps := spaced.gaps
  rw [← split, List.append_assoc, ← reaches.final] at gaps
  exact gaps.right_of_append

theorem current_advance (notEof : s.kind ≠ .eof) : s.advance.current = s.second := by
  have nonempty : s.ahead ≠ [] := fun empty => notEof (s.kind_eq_eof_iff.mpr empty)
  rw [current, front, s.ahead_advance, (s.reaches_advance).final, second]

theorem errors_advance (notEof : s.kind ≠ .eof) :
    s.advance.errors = s.errors ++ s.advance.front.skipped.map illegal := by
  have nonempty : s.ahead ≠ [] := fun empty => notEof (s.kind_eq_eof_iff.mpr empty)
  rw [advance_of_nonempty nonempty]
  rfl

/-- Illegal characters are skipped between the current token and the next. -/
theorem Spaced.gap (spaced : s.Spaced tokens) (notEof : s.kind ≠ .eof) :
    Span.Row s.current.span.hi s.advance.lo (s.advance.front.skipped.map Token.span) := by
  have gaps := spaced.gaps
  have behind : s.advance.front = s.ahead.tail.headD s.final := by
    rw [front, s.ahead_advance, (s.reaches_advance).final]
  rw [lo, current, current, behind, front]
  cases found : s.ahead with
  | nil => exact absurd (s.kind_eq_eof_iff.mpr found) notEof
  | cons first rest =>
    rw [found, List.cons_append, List.isChain_cons] at gaps
    cases rest with
    | nil => exact gaps.1 s.final rfl
    | cons second others => exact gaps.1 second rfl

/-! ## Ledgers -/

/-- Whether no error was reported twice so far, and those that are not behind are at the current token and allowed
there. At the end mark there is at most one. -/
structure Ledger (allowed : Error → Bool) (s : State) : Prop where
  nodup : s.errors.Nodup
  placed : ∀ e ∈ s.errors,
    e.span.lo < s.lo ∨ e.span = s.current.span ∧ allowed e.value = true
  single : s.kind = .eof → ∀ e ∈ s.errors, ∀ e' ∈ s.errors,
    e.span = s.current.span → e'.span = s.current.span → e = e'

/-- Whether all errors are behind. -/
def Fresh (s : State) : Prop :=
  s.Ledger fun _ => false

/-- Whether only refusals are at the current token. -/
def Settled (s : State) : Prop :=
  s.Ledger Error.isRefusal

variable {allowed wider : Error → Bool}

theorem Ledger.mono (ledger : s.Ledger allowed) (wide : ∀ e, allowed e = true → wider e = true) :
    s.Ledger wider where
  nodup := ledger.nodup
  placed e member := (ledger.placed e member).imp id fun here => ⟨here.1, wide _ here.2⟩
  single := ledger.single

/-- What an item refuses settles. -/
theorem settled_of_refused (refused : s.Ledger Error.isOfPart) : s.Settled :=
  refused.mono fun _ => Error.isRefusal_of_isOfPart

theorem Fresh.ledger (fresh : s.Fresh) : s.Ledger allowed :=
  fresh.mono (by simp)

theorem Fresh.lo_lt (fresh : s.Fresh) {e : Located Error} (member : e ∈ s.errors) : e.span.lo < s.lo :=
  (fresh.placed e member).resolve_right fun here => Bool.false_ne_true here.2

theorem nodup_report {e : Error} {span : Span} (nodup : s.errors.Nodup) (new : ⟨e, span⟩ ∉ s.errors) :
    (s.report e span).errors.Nodup := by
  rw [State.report, ← List.concat_eq_append]
  exact List.Nodup.concat new nodup

/-- An error at the current token, where none of its sort was. -/
theorem Ledger.report (ledger : s.Ledger allowed) {e : Error} (new : allowed e = false)
    (wide : ∀ e, allowed e = true → wider e = true) (now : wider e = true) (ends : s.kind = .eof → s.Fresh) :
    (s.report e s.current.span).Ledger wider := by
  refine ⟨?nodup, ?placed, ?single⟩
  case nodup =>
    refine nodup_report ledger.nodup fun member => ?_
    obtain behind | ⟨-, was⟩ := ledger.placed _ member
    · exact Nat.lt_irrefl _ behind
    · exact Bool.false_ne_true (new.symm.trans was)
  case placed =>
    intro x member
    obtain earlier | single := List.mem_append.mp member
    · exact (ledger.placed x earlier).imp id fun here => ⟨here.1, wide _ here.2⟩
    · rw [List.mem_singleton.mp single]
      exact .inr ⟨rfl, now⟩
  case single =>
    intro eof
    have only : ∀ x ∈ (s.report e s.current.span).errors, x.span = s.current.span →
        x = ⟨e, s.current.span⟩ := by
      intro x member here
      obtain earlier | single := List.mem_append.mp member
      · have behind := (ends eof).lo_lt earlier
        rw [here] at behind
        exact absurd behind (Nat.lt_irrefl _)
      · exact List.mem_singleton.mp single
    intro x member y memberAgain here hereAgain
    rw [only x member here, only y memberAgain hereAgain]

/-- An error at a token that is behind. -/
theorem Ledger.reportBehind (ledger : s.Ledger allowed) {e : Error} {span : Span} (behind : span.lo < s.lo)
    (new : ⟨e, span⟩ ∉ s.errors) : (s.report e span).Ledger allowed := by
  refine ⟨nodup_report ledger.nodup new, ?placed, ?single⟩
  case placed =>
    intro x member
    obtain earlier | single := List.mem_append.mp member
    · exact ledger.placed x earlier
    · rw [List.mem_singleton.mp single]
      exact .inl behind
  case single =>
    intro eof
    have earlier : ∀ x ∈ (s.report e span).errors, x.span = s.current.span → x ∈ s.errors := by
      intro x member here
      refine (List.mem_append.mp member).resolve_right fun single => ?_
      rw [List.mem_singleton.mp single] at here
      rw [show span = s.current.span from here] at behind
      exact Nat.lt_irrefl _ behind
    intro x member y memberAgain here hereAgain
    exact ledger.single eof x (earlier x member here) y (earlier y memberAgain hereAgain) here hereAgain

/-- Moving on, where errors may be at the next token already. -/
theorem Spaced.ledger_advance (spaced : s.Spaced tokens) (notEof : s.kind ≠ .eof) (nodup : s.errors.Nodup)
    (placed : ∀ e ∈ s.errors, e.span.lo ≤ s.lo ∨ e.span = s.second.span ∧ allowed e.value = true)
    (single : ∀ e ∈ s.errors, ∀ e' ∈ s.errors,
      e.span = s.second.span → e'.span = s.second.span → e = e') : s.advance.Ledger allowed := by
  have covers := spaced.toInOrder.covers notEof
  have next := spaced.toInOrder.hi_le_advance notEof
  have isSecond : s.advance.lo = s.second.span.lo := by rw [lo, current_advance notEof]
  -- an illegal character starts behind the current token and ends before the next
  obtain ⟨nodupIllegal, illegal⟩ := illegal_of_row (spaced.gap notEof)
  refine ⟨?nodup, ?placed, ?single⟩
  case nodup =>
    rw [errors_advance notEof, List.nodup_append]
    refine ⟨nodup, nodupIllegal, ?_⟩
    rintro x member y new rfl
    have := illegal x new
    obtain behind | ⟨atNext, -⟩ := placed x member
    · rw [lo] at behind covers
      omega
    · rw [atNext] at this
      omega
  case placed =>
    intro e member
    rw [errors_advance notEof] at member
    obtain earlier | new := List.mem_append.mp member
    · refine (placed e earlier).imp (fun behind => by omega) fun atNext => ?_
      rwa [current_advance notEof]
    · exact .inl (illegal e new).2
  case single =>
    intro _
    have earlier : ∀ e ∈ s.advance.errors, e.span = s.advance.current.span → e ∈ s.errors := by
      intro e member here
      rw [errors_advance notEof] at member
      refine (List.mem_append.mp member).resolve_right fun new => ?_
      have := (illegal e new).2
      rw [here] at this
      exact Nat.lt_irrefl _ this
    intro e member e' memberAgain here hereAgain
    have first := earlier e member here
    have second := earlier e' memberAgain hereAgain
    rw [current_advance notEof] at here hereAgain
    exact single e first e' second here hereAgain

/-- Moving on leaves all errors behind. -/
theorem Ledger.advance (ledger : s.Ledger allowed) (spaced : s.Spaced tokens) (notEof : s.kind ≠ .eof) :
    s.advance.Fresh := by
  have le : ∀ e ∈ s.errors, e.span.lo ≤ s.lo := fun e member =>
    (ledger.placed e member).elim Nat.le_of_lt fun here => Nat.le_of_eq (congrArg Span.lo here.1)
  refine spaced.ledger_advance notEof ledger.nodup (fun e member => .inl (le e member)) ?_
  intro e member _ _ here _
  have covers := spaced.toInOrder.covers notEof
  have next := spaced.toInOrder.hi_le_advance notEof
  have behind := le e member
  rw [here, ← current_advance notEof] at behind
  exact absurd (Nat.lt_of_lt_of_le covers next) (Nat.not_lt_of_le behind)

/-! ## Skipping -/

/-- Skipping stays, or it leaves all errors behind. -/
theorem Ledger.skipTo (ledger : s.Ledger allowed) (spaced : s.Spaced tokens) (resume : TokenKind)
    (stops : List TokenKind) (n : Nat) :
    ((skipTo resume stops n s).1 = true → (skipTo resume stops n s).2.Fresh) ∧
      ((skipTo resume stops n s).2 = s ∨ (skipTo resume stops n s).2.Fresh) := by
  induction n generalizing s allowed with
  | zero => exact ⟨by simp [State.skipTo], .inl rfl⟩
  | succ n inductionHypothesis =>
    rw [State.skipTo]
    cases atEnd : s.isAtEnd stops with
    | true => exact ⟨by simp, .inl rfl⟩
    | false =>
      have fresh := ledger.advance spaced (kind_ne_eof_of_not_atEnd atEnd)
      rw [if_neg Bool.false_ne_true]
      split
      · exact ⟨fun _ => fresh, .inr fresh⟩
      · obtain ⟨resumed, same | moved⟩ := inductionHypothesis fresh (spaced.reaches s.reaches_advance)
        · exact ⟨resumed, .inr (by rwa [same])⟩
        · exact ⟨resumed, .inr moved⟩

/-- Whether all errors are behind but for a refusal of the token after the current one, which is a name. -/
def LookedAhead (s : State) : Prop :=
  s.kind = .identifier ∧ ∃ (u : State) (e : Error), u.Fresh ∧ e.isRefusal = true ∧ s = u.report e u.second.span

/-- Whether a statement may be given up here. -/
def Stuck (s : State) : Prop :=
  s.Settled ∨ s.LookedAhead

theorem LookedAhead.advance (looked : s.LookedAhead) (spaced : s.Spaced tokens) : s.advance.Settled := by
  obtain ⟨named, u, e, fresh, refusal, rfl⟩ := looked
  have notEof : (u.report e u.second.span).kind ≠ .eof := by simp [named]
  -- the refusal is behind the current token, and all others are before it
  have later : u.lo < u.second.span.lo := by
    have covers := spaced.toInOrder.covers notEof
    have next := spaced.toInOrder.hi_le_advance notEof
    rw [lo, current_advance notEof] at next
    exact Nat.lt_of_lt_of_le covers next
  have before : ∀ x ∈ u.errors, x.span.lo < u.lo := fun x => fresh.lo_lt
  have nodup := nodup_report fresh.nodup fun member => Nat.lt_asymm later (before ⟨e, u.second.span⟩ member)
  refine spaced.ledger_advance notEof nodup ?placed ?single
  case placed =>
    intro x member
    obtain earlier | single := List.mem_append.mp member
    · exact .inl (Nat.le_of_lt (before x earlier))
    · rw [List.mem_singleton.mp single]
      exact .inr ⟨rfl, refusal⟩
  case single =>
    have only : ∀ x ∈ (u.report e u.second.span).errors, x.span = u.second.span → x = ⟨e, u.second.span⟩ := by
      intro x member here
      obtain earlier | single := List.mem_append.mp member
      · have := before x earlier
        rw [here] at this
        omega
      · exact List.mem_singleton.mp single
    intro x member y memberAgain here hereAgain
    rw [only x member here, only y memberAgain hereAgain]

/-- Where a sequence goes on: behind all errors, or where skipping stops. -/
structure Ready (stops : List TokenKind) (s : State) : Prop where
  settled : s.Settled
  fresh : s.Fresh ∨ s.isAtEnd stops = true

theorem Fresh.ready (fresh : s.Fresh) (stops : List TokenKind) : s.Ready stops :=
  ⟨fresh.ledger, .inl fresh⟩

/-- Behind a statement that was given up, parsing is taken up again. -/
theorem Stuck.resync (stuck : s.Stuck) (spaced : s.Spaced tokens) {stops : List TokenKind}
    (noName : TokenKind.identifier ∉ stops) : (s.resync .dot stops).2.Ready stops := by
  obtain ⟨-, ended, -⟩ := s.resync_spec .dot stops
  -- wherever skipping starts, it stays there if it cannot be taken up again
  have settled : ∀ {u : State} {n : Nat}, u.Settled → u.Spaced tokens →
      (State.skipTo .dot stops n u).2.Settled ∧
        ((State.skipTo .dot stops n u).1 = true → (State.skipTo .dot stops n u).2.Fresh) := by
    intro u n ledger spaced
    obtain ⟨resumed, same | moved⟩ := ledger.skipTo spaced .dot stops n
    · exact ⟨by rwa [same], resumed⟩
    · exact ⟨moved.ledger, resumed⟩
  have both : (s.resync .dot stops).2.Settled ∧
      ((s.resync .dot stops).1 = true → (s.resync .dot stops).2.Fresh) := by
    rcases stuck with ledger | looked
    · exact settled ledger spaced
    · have named := looked.1
      have notAtEnd : s.isAtEnd stops = false := by simp [isAtEnd, named, noName]
      obtain ⟨n, length⟩ : ∃ n, s.ahead.length = n + 1 := by
        refine Nat.exists_eq_add_one.mpr (List.length_pos_iff.mpr fun empty => ?_)
        simp [s.kind_eq_eof_iff.mpr empty] at named
      have moves : s.resync .dot stops = State.skipTo .dot stops n s.advance := by
        rw [State.resync, length, State.skipTo, notAtEnd]
        simp [named]
      rw [moves]
      exact settled (looked.advance spaced) (spaced.reaches s.reaches_advance)
  refine ⟨both.1, ?_⟩
  cases answer : (s.resync .dot stops).1 with
  | true => exact .inl (both.2 answer)
  | false => exact .inr (ended answer)

/-! ## Places in a text -/

/-- Whether an item of a list may start here: it may be that a comma is missing before it. -/
structure BeforeItem (s : State) : Prop where
  ledger : s.Ledger Error.isSeparation
  ends : s.kind = .eof → s.Fresh

theorem Fresh.beforeItem (fresh : s.Fresh) : s.BeforeItem :=
  ⟨fresh.ledger, fun _ => fresh⟩

/-- Whether a value ends here: it may be that it is missing in front of a comma or a full stop. -/
def BehindValue (s : State) : Prop :=
  s.Fresh ∨ (s.kind = .dot ∨ s.kind = .comma) ∧ s.Ledger Error.isOfPart

theorem BehindValue.ledger (behind : s.BehindValue) : s.Ledger Error.isOfPart :=
  behind.elim Fresh.ledger And.right

/-- Whether a statement ends here: it may be that the end mark was refused. -/
def Quiet (s : State) : Prop :=
  s.Fresh ∨ s.kind = .eof ∧ s.Settled

theorem Quiet.ready (quiet : s.Quiet) (stops : List TokenKind) : s.Ready stops := by
  rcases quiet with fresh | ⟨eof, settled⟩
  · exact fresh.ready stops
  · exact ⟨settled, .inr (by simp [isAtEnd, eof])⟩

theorem Quiet.reportBehind (quiet : s.Quiet) {e : Error} {span : Span} (behind : span.lo < s.lo)
    (new : ⟨e, span⟩ ∉ s.errors) : (s.report e span).Quiet :=
  quiet.imp (fun fresh => fresh.reportBehind behind new)
    fun ended => ⟨ended.1, ended.2.reportBehind behind new⟩

/-- Whether a token is behind, and nothing but that it was refused is said of it. -/
structure Spares (token : Token) (s : State) : Prop where
  behind : token.span.lo < s.lo
  refusals : ∀ e ∈ s.errors, e.span = token.span → e.value.isRefusal = true

theorem Spares.notMem {token : Token} (spares : s.Spares token) {e : Error} (other : e.isRefusal = false) :
    ⟨e, token.span⟩ ∉ s.errors :=
  fun member => Bool.false_ne_true (other.symm.trans (spares.refusals _ member rfl))

end State

end Parser

end FrontEnd
