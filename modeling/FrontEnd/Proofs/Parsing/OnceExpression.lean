import FrontEnd.Proofs.Parsing.Once

/-!
# What a run of an expression reports

A type, a parameter and an expression may start where a comma was missed, and leave all errors behind. Where one
fails, only refusals are at the current token. What is wrong with a literal or an operator is reported after it was
taken, and nothing else is said of such a token.
-/

namespace FrontEnd.Parser

variable {tokens : List Token} {first : Nat} {s : State}

/-! ## Types -/

theorem onceEach_typeName : OnceEach tokens typeName := by
  intro first s before
  have named : ∀ (isList : Bool) (start : Span) (t : State), t.BeforeItem → Once tokens first (do
      let token ← consumeAny scalarKinds
      return (⟨scalarOf token, isList, ← joined start token.span⟩ : TypeName)) t (fun _ u => u.Fresh)
        fun u => u.Ledger Error.isOfPart := by
    intro isList start t before
    refine (once_consumeAnyPart before (by decide) (by simp [scalarKinds])).bind ?_
    rintro token u - - ⟨-, -, took⟩
    exact once_joined_bind (once_pure took.fresh)
  have refusals : ∀ e : Error, e.isSeparation = true → e.isRefusal = true := fun _ => Error.isRefusal_of_isSeparation
  refine once_peek_bind (once_take_bind before.ledger refusals (by simp) (fun t _ took => ?_) fun _ => ?_)
  · exact named true _ t took.fresh.beforeItem
  · exact named false _ s before

theorem onceEach_param : OnceEach tokens param := by
  intro first s before
  refine (onceEach_typeName first s before).bind fun type t _ _ fresh => ?_
  exact (once_identPart fresh.beforeItem).bind fun _ _ _ _ freshLast => once_pure freshLast

/-! ## Literals -/

/-- An error at a token that was taken, which is no refusal of it. -/
theorem Took.report {token : Token} (took : Took token s) {e : Error} (other : e.isRefusal = false) :
    (s.report e token.span).Fresh :=
  took.fresh.reportBehind took.spares.behind (took.spares.notMem other)

theorem once_integerValue {bad : State → Prop} {token : Token} (took : Took token s)
    (later : first ≤ token.span.lo) : Once tokens first (integerValue token) s (fun _ t => t.Fresh) bad := by
  apply once_ensure_bind
  split
  · exact once_pure took.fresh
  · exact once_report_bind later (once_pure (took.report rfl))

theorem once_booleanValue {bad : State → Prop} {token : Token} (took : Took token s)
    (later : first ≤ token.span.lo) : Once tokens first (booleanValue token) s (fun _ t => t.Fresh) bad := by
  apply once_ensure_bind
  split
  · exact once_pure took.fresh
  · exact once_report_bind later (once_pure (took.report rfl))

/-! ## Expressions -/

section

variable {inner : Parser Expr}

/-- Items and the token that closes them. -/
theorem once_closed_bind {α β : Type} {goal : β → State → Prop} {bad : State → Prop} {close : TokenKind}
    {item : Parser α} {f : List α → Token → Parser β} (items : OnceEach tokens item)
    (plain : close ≠ .eof ∧ close ≠ .dot) (fresh : s.Fresh) (refuses : ∀ t, t.Ledger Error.isOfPart → bad t)
    (next : ∀ xs token t, t.Fresh → Once tokens first (f xs token) t goal bad) :
    Once tokens first (do f (← delimited close item) (← consume close)) s goal bad := by
  refine Once.bind ((once_delimited items fresh).imp (fun _ _ h => h) refuses) fun xs t _ _ before => ?_
  refine Once.bind ((once_consumePart before plain).imp (fun _ _ h => h) refuses) ?_
  exact fun token u _ _ found => next xs token u found.2.fresh

theorem once_arguments (items : OnceEach tokens inner) (before : s.BeforeItem) :
    Once tokens first (arguments inner) s (fun _ t => t.Fresh) fun t => t.Ledger Error.isOfPart := by
  refine (once_consumePart before (by decide)).bind fun _ t _ _ found => ?_
  exact once_closed_bind items (by decide) found.2.fresh (fun _ h => h) fun _ _ _ fresh => once_pure fresh

theorem onceEach_fieldValue (items : OnceEach tokens inner) : OnceEach tokens (fieldValue inner) := by
  intro first s before
  refine (once_identPart before).bind fun name t _ _ fresh => ?_
  refine (once_consumePart fresh.beforeItem (by decide)).bind fun _ u _ _ found => ?_
  exact (items first u found.2.fresh.beforeItem).bind fun _ _ _ _ freshLast => once_pure freshLast

theorem once_afterName (items : OnceEach tokens inner) (records : Bool) {name : Ident} (fresh : s.Fresh) :
    Once tokens first (afterName inner records name) s (fun _ t => t.Fresh)
      fun t => t.Ledger Error.isOfPart := by
  refine once_peek_bind ?_
  split
  next =>
    exact (once_arguments items fresh.beforeItem).bind fun _ _ _ _ freshLast =>
      once_joined_bind (once_pure freshLast)
  next kind =>
    refine (once_of_taken fresh (by simp) rfl (by rw [State.kind, kind]; decide)).bind fun _ t _ _ found => ?_
    refine (once_identPart found.2.fresh.beforeItem).bind fun function u _ _ freshName => ?_
    exact (once_arguments items freshName.beforeItem).bind fun _ _ _ _ freshLast =>
      once_joined_bind (once_pure freshLast)
  next kind =>
    split
    · refine (once_of_taken fresh (by simp) rfl (by rw [State.kind, kind]; decide)).bind fun _ t _ _ found => ?_
      exact once_closed_bind (onceEach_fieldValue items) (by decide) found.2.fresh (fun _ h => h)
        fun _ _ _ freshLast => once_joined_bind (once_pure freshLast)
    · exact once_pure fresh
  next => exact once_pure fresh

theorem once_expressionFrom (items : OnceEach tokens inner) (records : Bool) {token : Token} (took : Took token s)
    (later : first ≤ token.span.lo) :
    Once tokens first (expressionFrom inner records token) s (fun _ t => t.Fresh)
      fun t => t.Ledger Error.isOfPart := by
  unfold expressionFrom
  split
  next => exact (once_integerValue took later).bind fun _ _ _ _ fresh => once_pure fresh
  next => exact once_pure took.fresh
  next => exact (once_booleanValue took later).bind fun _ _ _ _ fresh => once_pure fresh
  next =>
    exact once_closed_bind items (by decide) took.fresh (fun _ h => h) fun _ _ _ fresh =>
      once_joined_bind (once_pure fresh)
  next =>
    split
    · exact once_reject (fun _ => later) (took.report rfl).ledger
    · exact (once_arguments items took.fresh.beforeItem).bind fun _ _ _ _ fresh =>
        once_joined_bind (once_pure fresh)
  next => exact once_afterName items records took.fresh
  next => exact once_unreachable took.fresh.ledger

theorem onceEach_expressionBody (items : OnceEach tokens inner) (records : Bool) :
    OnceEach tokens (expressionBody inner records) := by
  intro first s before
  refine .assuming fun _ later => once_peek_bind ?_
  split
  next starts =>
    have notEof := s.kind_ne_eof_of_mem starts (by decide)
    have taken : Once tokens first advance s (fun token t => token = s.current ∧ Took token t)
        fun t => t.Ledger Error.isOfPart :=
      once_of_taken before.ledger (fun _ => Error.isRefusal_of_isSeparation) rfl notEof
    refine taken.bind ?_
    rintro _ t - - ⟨rfl, took⟩
    exact once_expressionFrom items records took later
  next =>
    exact once_reject id (before.ledger.report rfl (fun _ => Error.isOfPart_of_isSeparation) rfl before.ends)

end

theorem onceEach_expressionUpTo (n : Nat) (records : Bool) : OnceEach tokens (expressionUpTo n records) := by
  induction n generalizing records with
  | zero => exact fun _ _ before => once_unreachable (before.ledger.mono fun _ => Error.isOfPart_of_isSeparation)
  | succ n inductionHypothesis => exact onceEach_expressionBody (inductionHypothesis true) records

theorem onceEach_expression (records : Bool) : OnceEach tokens (expression records) :=
  fun first s before => once_left_bind (onceEach_expressionUpTo _ records first s before)

/-- Behind all errors, what an expression refuses settles. -/
theorem once_expression (records : Bool) (fresh : s.Fresh) :
    Once tokens first (expression records) s (fun _ t => t.Fresh) State.Settled :=
  (onceEach_expression records first s fresh.beforeItem).imp (fun _ _ h => h)
    fun _ => State.settled_of_refused

/-- A value that is missing is in front of a comma or a full stop, which was refused in its place. -/
theorem once_value (fresh : s.Fresh) :
    Once tokens first value s (fun _ t => t.BehindValue) State.Settled := by
  refine once_peek_bind ((onceEach_expression true first s fresh.beforeItem).attempt_bind ?made ?failed)
  case made => exact fun e t _ _ freshLast => once_pure (.inl freshLast)
  case failed =>
    intro t _ _ refused
    refine once_peek_bind ?_
    dsimp only
    split
    next separator => exact once_pure (.inr ⟨separator, refused⟩)
    next => exact once_fail (State.settled_of_refused refused)

end FrontEnd.Parser
