import FrontEnd.Proofs.Parsing.Ledger
import FrontEnd.Tree.Parser.Expression

/-!
# What a run reports

`Once tokens first p s good bad` says of a run of `p` from `s` that all it reports is at or behind the byte
`first`, and where it arrives: at a state that is `good` for what it makes, or, if it fails, at one that is `bad`.
The ledgers are what is known of states before and behind a production, so that nothing is said of the errors of a
run by themselves.
-/

namespace FrontEnd.Parser

variable {α β : Type} {tokens : List Token}

def Once (tokens : List Token) (first : Nat) (p : Parser α) (s : State) (good : α → State → Prop)
    (bad : State → Prop) : Prop :=
  s.Spaced tokens → first ≤ s.lo →
    (∀ e ∈ (p.run s).2.errors, e ∈ s.errors ∨ first ≤ e.span.lo) ∧
      (∀ x t, p.run s = (some x, t) → good x t) ∧ ∀ t, p.run s = (none, t) → bad t

variable {first : Nat} {good : α → State → Prop} {goal : β → State → Prop} {bad : State → Prop} {s : State}

/-! ## Composition -/

theorem once_pure {x : α} (h : good x s) : Once tokens first (pure x) s good bad := by
  intro _ _
  refine ⟨fun e member => .inl member, ?_, ?_⟩
  · rintro _ _ ⟨⟩
    exact h
  · rintro _ ⟨⟩

theorem once_fail (h : bad s) : Once tokens first (fail : Parser α) s good bad := by
  intro _ _
  refine ⟨fun e member => .inl member, ?_, ?_⟩
  · rintro _ _ ⟨⟩
  · rintro _ ⟨⟩
    exact h

theorem once_unreachable (h : bad s) : Once tokens first (unreachable : Parser α) s good bad :=
  once_fail h

theorem Once.imp {better : α → State → Prop} {worse : State → Prop} {p : Parser α}
    (once : Once tokens first p s good bad) (imp : ∀ x t, good x t → better x t)
    (impBad : ∀ t, bad t → worse t) : Once tokens first p s better worse := by
  intro spaced later
  obtain ⟨adds, made, failed⟩ := once spaced later
  exact ⟨adds, fun x t ran => imp x t (made x t ran), fun t ran => impBad t (failed t ran)⟩

/-- What is between tokens is known at every state, so that no production has to say so. -/
theorem Once.assuming {p : Parser α}
    (once : s.Spaced tokens → first ≤ s.lo → Once tokens first p s good bad) :
    Once tokens first p s good bad :=
  fun spaced later => once spaced later spaced later

theorem Once.bind {p : Parser α} {f : α → Parser β} (once : Once tokens first p s good bad)
    (second : ∀ x t, s.Reaches t → s.lo ≤ t.lo → good x t → Once tokens first (f x) t goal bad) :
    Once tokens first (p >>= f) s goal bad := by
  intro spaced later
  obtain ⟨adds, made, failed⟩ := once spaced later
  rw [run_bind]
  cases ran : p.run s with
  | mk result t =>
    rw [ran] at adds
    have reaches := reaches_of_run ran
    cases result with
    | none =>
      refine ⟨adds, ?_, ?_⟩
      · rintro _ _ ⟨⟩
      · rintro _ ⟨⟩
        exact failed t ran
    | some x =>
      have forward := spaced.toInOrder.lo_le reaches
      obtain ⟨addsMore, rest⟩ := second x t reaches forward (made x t ran) (spaced.reaches reaches)
        (Nat.le_trans later forward)
      exact ⟨fun e member => (addsMore e member).elim (adds e) .inr, rest⟩

theorem Once.attempt_bind {failing : State → Prop} {p : Parser α} {f : Option α → Parser β}
    (once : Once tokens first p s good failing)
    (made : ∀ x t, s.Reaches t → s.lo ≤ t.lo → good x t → Once tokens first (f (some x)) t goal bad)
    (failed : ∀ t, s.Reaches t → s.lo ≤ t.lo → failing t → Once tokens first (f none) t goal bad) :
    Once tokens first (attempt p >>= f) s goal bad := by
  have attempted : Once tokens first (attempt p) s
      (fun o t => (∀ x, o = some x → good x t) ∧ (o = none → failing t)) bad := by
    intro spaced later
    obtain ⟨adds, each, fails⟩ := once spaced later
    refine ⟨adds, ?_, ?_⟩
    · intro o t ran
      simp only [attempt, Prod.mk.injEq, Option.some.injEq] at ran
      exact ⟨fun x same => each x t (Prod.ext (ran.1.trans same) ran.2),
        fun same => fails t (Prod.ext (ran.1.trans same) ran.2)⟩
    · rintro _ ⟨⟩
  refine attempted.bind ?_
  rintro (_ | x) t reaches forward ⟨each, fails⟩
  · exact failed t reaches forward (fails rfl)
  · exact made x t reaches forward (each x rfl)

/-- A token that is behind is spared by what is reported from here on. -/
theorem Once.sparing {p : Parser α} {token : Token} (once : Once tokens s.lo p s good bad)
    (spares : s.Spares token) :
    Once tokens first p s (fun x t => good x t ∧ t.Spares token) bad := by
  intro spaced later
  obtain ⟨adds, made, failed⟩ := once spaced (Nat.le_refl _)
  refine ⟨fun e member => (adds e member).imp id (Nat.le_trans later), fun x t ran => ?_, failed⟩
  rw [ran] at adds
  refine ⟨made x t ran, ?_, fun e member here => ?_⟩
  · exact Nat.lt_of_lt_of_le spares.behind (spaced.toInOrder.lo_le (reaches_of_run ran))
  · refine (adds e member).elim (fun earlier => spares.refusals e earlier here) fun new => ?_
    rw [here] at new
    exact absurd spares.behind (Nat.not_lt_of_le new)

/-! ## Reports -/

theorem once_reject {e : Error} {span : Span} (behind : first ≤ s.lo → first ≤ span.lo)
    (h : bad (s.report e span)) : Once tokens first (reject e span : Parser α) s good bad := by
  intro _ later
  refine ⟨fun x member => ?_, ?_, ?_⟩
  · refine (List.mem_append.mp member).imp id fun single => ?_
    rw [List.mem_singleton.mp single]
    exact behind later
  · rintro _ _ ⟨⟩
  · rintro _ ⟨⟩
    exact h

theorem once_report_bind {e : Error} {span : Span} {f : Unit → Parser β} (behind : first ≤ span.lo)
    (next : Once tokens first (f ()) (s.report e span) goal bad) :
    Once tokens first (report e span >>= f) s goal bad := by
  have reported : Once tokens first (report e span) s (fun _ t => t = s.report e span) bad := by
    intro _ _
    refine ⟨fun x member => ?_, ?_, ?_⟩
    · refine (List.mem_append.mp member).imp id fun single => ?_
      rw [List.mem_singleton.mp single]
      exact behind
    · rintro _ _ ⟨⟩
      rfl
    · rintro _ ⟨⟩
  refine reported.bind ?_
  rintro _ _ - - rfl
  exact next

/-! ## Looking -/

theorem once_looking_bind {look : State → Option α} {x : α} {f : α → Parser β} (looks : look s = some x)
    (next : Once tokens first (f x) s goal bad) : Once tokens first (looking look >>= f) s goal bad := by
  have same : (looking look >>= f).run s = (f x).run s := by simp [run_bind, looking, looks]
  rw [Once, same]
  exact next

theorem once_peek_bind {f : Token → Parser β} (next : Once tokens first (f s.current) s goal bad) :
    Once tokens first (peek >>= f) s goal bad :=
  once_looking_bind rfl next

theorem once_peekSecond_bind {f : Token → Parser β} (next : Once tokens first (f s.second) s goal bad) :
    Once tokens first (peekSecond >>= f) s goal bad :=
  once_looking_bind rfl next

theorem once_left_bind {f : Nat → Parser β} (next : Once tokens first (f s.ahead.length) s goal bad) :
    Once tokens first (left >>= f) s goal bad :=
  once_looking_bind rfl next

theorem once_atEnd_bind {kinds : List TokenKind} {f : Bool → Parser β}
    (next : Once tokens first (f (s.isAtEnd kinds)) s goal bad) :
    Once tokens first (atEnd kinds >>= f) s goal bad :=
  once_looking_bind rfl next

theorem once_ensure_bind {holds : State → Prop} {f : Unit → Parser β}
    (next : Once tokens first (f ()) s goal bad) : Once tokens first (ensure holds >>= f) s goal bad :=
  next

theorem once_joined_bind {opening closing : Span} {f : Span → Parser β}
    (next : Once tokens first (f (opening.upTo closing)) s goal bad) :
    Once tokens first (joined opening closing >>= f) s goal bad :=
  next

/-! ## Moving on -/

theorem adds_advance (spaced : s.Spaced tokens) :
    ∀ e ∈ s.advance.errors, e ∈ s.errors ∨ s.current.span.hi ≤ e.span.lo := by
  intro e member
  by_cases eof : s.kind = .eof
  · rw [State.advance, s.kind_eq_eof_iff.mp eof] at member
    exact .inl member
  · rw [State.errors_advance eof] at member
    exact (List.mem_append.mp member).imp id fun new => ((illegal_of_row (spaced.gap eof)).2 e new).1

theorem adds_skipTo (spaced : s.Spaced tokens) (resume : TokenKind) (stops : List TokenKind) (n : Nat) :
    ∀ e ∈ (State.skipTo resume stops n s).2.errors, e ∈ s.errors ∨ s.lo ≤ e.span.lo := by
  induction n generalizing s with
  | zero => exact fun e member => .inl member
  | succ n inductionHypothesis =>
    have moved : ∀ e ∈ s.advance.errors, e ∈ s.errors ∨ s.lo ≤ e.span.lo := fun e member =>
      (adds_advance spaced e member).imp id (Nat.le_trans (Nat.le_add_right _ _))
    rw [State.skipTo]
    split
    · exact fun e member => .inl member
    · split
      · exact moved
      · intro e member
        have forward := spaced.toInOrder.lo_le s.reaches_advance
        exact (inductionHypothesis (spaced.reaches s.reaches_advance) e member).elim (moved e)
          fun new => .inr (Nat.le_trans forward new)

/-- Skipping stays, or it leaves all errors behind. -/
theorem once_resync_bind {resume : TokenKind} {stops : List TokenKind} {f : Bool → Parser β}
    {allowed : Error → Bool} (ledger : s.Ledger allowed)
    (next : ∀ answer t, s.Reaches t → (answer = true → t.Fresh) → t = s ∨ t.Fresh →
      Once tokens first (f answer) t goal bad) : Once tokens first (resync resume stops >>= f) s goal bad := by
  have skipped : Once tokens first (resync resume stops) s
      (fun answer t => (answer = true → t.Fresh) ∧ (t = s ∨ t.Fresh)) bad := by
    intro spaced later
    refine ⟨fun e member => (adds_skipTo spaced resume stops _ e member).imp id (Nat.le_trans later), ?_, ?_⟩
    · rintro _ _ ⟨⟩
      exact ledger.skipTo spaced resume stops s.ahead.length
    · rintro _ ⟨⟩
  exact skipped.bind fun answer t reaches _ moved => next answer t reaches moved.1 moved.2

/-! ## Single tokens -/

/-- A token that was taken leaves all errors behind. -/
structure Took (token : Token) (t : State) : Prop where
  fresh : t.Fresh
  spares : t.Spares token

/-- Where a token is taken, only refusals of it may have been reported. -/
theorem took_advance {allowed : Error → Bool} (ledger : s.Ledger allowed)
    (refusals : ∀ e, allowed e = true → e.isRefusal = true) (spaced : s.Spaced tokens)
    (notEof : s.kind ≠ .eof) : Took s.current s.advance := by
  have covers := spaced.toInOrder.covers notEof
  have next := spaced.toInOrder.hi_le_advance notEof
  refine ⟨ledger.advance spaced notEof, Nat.lt_of_lt_of_le covers next, fun e member here => ?_⟩
  obtain earlier | new := adds_advance spaced e member
  · obtain behind | ⟨-, was⟩ := ledger.placed e earlier
    · rw [here] at behind
      exact absurd behind (Nat.lt_irrefl _)
    · exact refusals _ was
  · rw [here] at new
    exact absurd covers (Nat.not_lt_of_le new)

theorem once_of_taken {p : Parser Token} {allowed : Error → Bool} (ledger : s.Ledger allowed)
    (refusals : ∀ e, allowed e = true → e.isRefusal = true) (ran : p.run s = (some s.current, s.advance))
    (notEof : s.kind ≠ .eof) :
    Once tokens first p s (fun token t => token = s.current ∧ Took token t) bad := by
  intro spaced later
  rw [ran]
  have covers := spaced.toInOrder.covers notEof
  refine ⟨fun e member => (adds_advance spaced e member).imp id fun new => by omega, ?_, ?_⟩
  · rintro _ _ ⟨⟩
    exact ⟨rfl, took_advance ledger refusals spaced notEof⟩
  · rintro _ ⟨⟩

variable {allowed wider : Error → Bool}

theorem once_expect {accepts : Token → Bool} {e : TokenKind → Error} (ledger : s.Ledger allowed)
    (refusals : ∀ e, allowed e = true → e.isRefusal = true) (ends : s.kind = .eof → s.Fresh)
    (notEof : ∀ token, accepts token = true → token.kind ≠ .eof) (new : allowed (e s.kind) = false)
    (wide : ∀ e, allowed e = true → wider e = true) (now : wider (e s.kind) = true) :
    Once tokens first (expect accepts e) s
      (fun token t => token = s.current ∧ accepts token = true ∧ Took token t) fun t => t.Ledger wider := by
  by_cases accepted : accepts s.current = true
  · refine (once_of_taken ledger refusals (by simp [expect, accepted]) (notEof _ accepted)).imp ?_ fun _ h => h
    rintro _ t ⟨rfl, took⟩
    exact ⟨rfl, accepted, took⟩
  · have run : (expect accepts e).run s = (reject (e s.kind) s.current.span : Parser Token).run s := by
      simp [expect, accepted, reject]
    rw [Once, run]
    exact once_reject id (ledger.report new wide now ends)

/-! Where a list may be, what is refused may be refused for another reason as well. -/

theorem once_consumePart {kind : TokenKind} (before : s.BeforeItem) (plain : kind ≠ .eof ∧ kind ≠ .dot) :
    Once tokens first (consume kind) s (fun token t => token = s.current ∧ Took token t)
      fun t => t.Ledger Error.isOfPart := by
  refine (once_expect before.ledger (fun _ => Error.isRefusal_of_isSeparation) before.ends ?_ rfl
    (fun _ => Error.isOfPart_of_isSeparation) ?_).imp (fun _ _ found => ⟨found.1, found.2.2⟩) fun _ h => h
  · intro token accepted
    exact of_decide_eq_true accepted ▸ plain.1
  · simpa [Error.isOfPart] using plain.2

theorem once_consumeAnyPart {kinds : List TokenKind} (before : s.BeforeItem) (notEof : TokenKind.eof ∉ kinds)
    (noComma : ∀ rest, kinds ≠ .comma :: rest) :
    Once tokens first (consumeAny kinds) s (fun token t => token = s.current ∧ token.kind ∈ kinds ∧ Took token t)
      fun t => t.Ledger Error.isOfPart := by
  have other : (Error.unexpectedAny s.kind kinds).isSeparation = false := by
    cases kinds with
    | nil => rfl
    | cons kind rest => cases kind <;> first | rfl | exact absurd rfl (noComma rest)
  refine (once_expect before.ledger (fun _ => Error.isRefusal_of_isSeparation) before.ends ?_ other
    (fun _ => Error.isOfPart_of_isSeparation) rfl).imp ?_ fun _ h => h
  · intro token accepted eof
    exact notEof (eof ▸ of_decide_eq_true accepted)
  · rintro token t ⟨same, accepted, took⟩
    exact ⟨same, of_decide_eq_true accepted, took⟩

theorem once_identPart (before : s.BeforeItem) :
    Once tokens first Parser.ident s (fun _ t => t.Fresh) fun t => t.Ledger Error.isOfPart :=
  (once_consumePart before (by decide)).bind fun _ _ _ _ found => once_pure found.2.fresh

/-! Behind all errors, any token may be refused. -/

theorem once_expectFresh {accepts : Token → Bool} {e : TokenKind → Error} (fresh : s.Fresh)
    (notEof : ∀ token, accepts token = true → token.kind ≠ .eof) (refuses : (e s.kind).isRefusal = true) :
    Once tokens first (expect accepts e) s
      (fun token t => token = s.current ∧ accepts token = true ∧ Took token t) State.Settled :=
  once_expect fresh (by simp) (fun _ => fresh) notEof rfl (by simp) refuses

theorem once_consume {kind : TokenKind} (fresh : s.Fresh) (notEof : kind ≠ .eof) :
    Once tokens first (consume kind) s (fun token t => token = s.current ∧ Took token t) State.Settled := by
  refine (once_expectFresh fresh ?_ rfl).imp (fun _ _ found => ⟨found.1, found.2.2⟩) fun _ h => h
  intro token accepted
  exact of_decide_eq_true accepted ▸ notEof

theorem once_consumeAny {kinds : List TokenKind} (fresh : s.Fresh) (notEof : TokenKind.eof ∉ kinds) :
    Once tokens first (consumeAny kinds) s (fun token t => token = s.current ∧ token.kind ∈ kinds ∧ Took token t)
      State.Settled := by
  refine (once_expectFresh fresh ?_ rfl).imp ?_ fun _ h => h
  · intro token accepted eof
    exact notEof (eof ▸ of_decide_eq_true accepted)
  · rintro token t ⟨same, accepted, took⟩
    exact ⟨same, of_decide_eq_true accepted, took⟩

theorem once_consumeAssign (fresh : s.Fresh) :
    Once tokens first consumeAssign s (fun _ t => t.Fresh) State.Settled := by
  refine (once_expectFresh fresh ?_ rfl).imp (fun _ _ found => found.2.2.fresh) fun _ h => h
  intro token accepted eof
  simp [eof] at accepted

/-- A full stop behind a value, which may be missing in front of a comma. -/
theorem once_consumeDot (behind : s.BehindValue) :
    Once tokens first (consume .dot) s (fun _ t => t.Fresh) State.Settled := by
  refine (once_expect behind.ledger (fun _ => Error.isRefusal_of_isOfPart) ?_ ?_ rfl
    (fun _ => Error.isRefusal_of_isOfPart) rfl).imp (fun _ _ found => found.2.2.fresh) fun _ h => h
  · intro eof
    exact behind.resolve_right fun separator => by simp [eof] at separator
  · intro token accepted eof
    simp [eof] at accepted

theorem once_take_bind {kind : TokenKind} {f : Bool → Parser β} (ledger : s.Ledger allowed)
    (refusals : ∀ e, allowed e = true → e.isRefusal = true) (notEof : kind ≠ .eof)
    (taken : ∀ t, s.Reaches t → Took s.current t → Once tokens first (f true) t goal bad)
    (left : s.kind ≠ kind → Once tokens first (f false) s goal bad) :
    Once tokens first (take kind >>= f) s goal bad := by
  by_cases same : s.kind = kind
  · have run : (take kind >>= f).run s = (advance >>= fun _ => f true).run s := by
      simp [run_bind, take, advance, same]
    have taking : Once tokens first (advance >>= fun _ => f true) s goal bad :=
      (once_of_taken ledger refusals rfl (same ▸ notEof)).bind fun _ t reaches _ found =>
        taken t reaches (found.1 ▸ found.2)
    rwa [Once, ← run] at taking
  · have run : (take kind >>= f).run s = (f false).run s := by simp [run_bind, take, same]
    have leaving := left same
    rwa [Once, ← run] at leaving

/-! ## Lists -/

/-- Whether a production of an item leaves all errors behind. -/
def OnceEach (tokens : List Token) (item : Parser α) : Prop :=
  ∀ (first : Nat) (s : State), s.BeforeItem →
    Once tokens first item s (fun _ t => t.Fresh) fun t => t.Ledger Error.isOfPart

variable {item : Parser α}

/-- A comma that is missing is reported at the next item, which may be refused there as well; but then it is
skipped. -/
theorem once_delimitedUpTo {close : TokenKind} (items : OnceEach tokens item) (n : Nat) {s : State}
    (before : s.BeforeItem) :
    Once tokens first (delimitedUpTo close item n) s (fun _ t => t.BeforeItem)
      fun t => t.Ledger Error.isOfPart := by
  induction n generalizing s with
  | zero => exact once_ensure_bind (once_pure before)
  | succ n inductionHypothesis =>
    apply once_atEnd_bind
    split
    next => exact once_pure before
    next =>
      refine (items first s before).attempt_bind ?made ?failed
      case failed =>
        intro t _ _ refused
        refine once_resync_bind refused fun answer u _ resumed moved => ?_
        cases answer with
        | true => exact inductionHypothesis (resumed rfl).beforeItem
        | false => exact once_fail (moved.elim (fun same => same ▸ refused) State.Fresh.ledger)
      case made =>
        intro x t _ _ fresh
        have others : ∀ u : State, u.BeforeItem → Once tokens first (do
            return x :: (← delimitedUpTo close item n)) u (fun _ v => v.BeforeItem)
              fun v => v.Ledger Error.isOfPart :=
          fun u beforeNext => (inductionHypothesis beforeNext).bind fun _ _ _ _ beforeLast => once_pure beforeLast
        refine once_take_bind fresh (by simp) (by simp) (fun u _ took => others u took.fresh.beforeItem) fun _ =>
          once_atEnd_bind ?_
        split
        next => exact once_pure fresh.beforeItem
        next notAtEnd =>
          have notEof := State.kind_ne_eof_of_not_atEnd (Bool.eq_false_iff.mpr notAtEnd)
          refine .assuming fun _ later => once_peek_bind (once_report_bind later (others _ ⟨?_, ?_⟩))
          · exact fresh.report rfl (by simp) rfl fun _ => fresh
          · exact fun eof => absurd eof notEof

theorem once_delimited {close : TokenKind} (items : OnceEach tokens item) (fresh : s.Fresh) :
    Once tokens first (delimited close item) s (fun _ t => t.BeforeItem) fun t => t.Ledger Error.isOfPart := by
  refine once_ensure_bind (once_left_bind ?_)
  exact (once_delimitedUpTo items _ fresh.beforeItem).bind fun _ _ _ _ before => once_ensure_bind (once_pure before)

/-- One or more items between commas: behind an item a comma may have been refused as an item. -/
theorem once_separatedUpTo {ends : State → Prop} (isRefused : ∀ t, ends t → t.Ledger Error.isOfPart)
    (items : ∀ s : State, s.Fresh → Once tokens first item s (fun _ t => ends t) State.Settled) (n : Nat)
    {s : State} (fresh : s.Fresh) :
    Once tokens first (separatedUpTo item n) s (fun _ t => ends t) State.Settled := by
  induction n generalizing s with
  | zero => exact once_unreachable fresh.ledger
  | succ n inductionHypothesis =>
    refine (items s fresh).bind fun x t _ _ ended => ?_
    refine once_take_bind (isRefused t ended) (fun _ => Error.isRefusal_of_isOfPart) (by simp) (fun u _ took => ?_)
      fun _ => once_pure ended
    exact (inductionHypothesis took.fresh).bind fun _ _ _ _ endedLast => once_pure endedLast

theorem once_separated {ends : State → Prop} (isRefused : ∀ t, ends t → t.Ledger Error.isOfPart)
    (items : ∀ s : State, s.Fresh → Once tokens first item s (fun _ t => ends t) State.Settled)
    (fresh : s.Fresh) : Once tokens first (separated item) s (fun _ t => ends t) State.Settled :=
  once_left_bind (once_separatedUpTo isRefused items _ fresh)

end FrontEnd.Parser
