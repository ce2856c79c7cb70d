import FrontEnd.Proofs.Parsing.Safe

/-!
# Types and expressions are safe

Every production of types and of expressions keeps to what it takes for granted, whatever the tokens ahead
are, and takes at least one token if it makes something. Depth never runs out, for an expression inside of
another one starts behind at least one token. Where a name and then a parenthesis or a double colon stand,
the only expression there can be is a call.
-/

namespace FrontEnd.Parser

variable {α β : Type} {s : State}

/-! ## Types -/

theorem safe_typeName (m : Nat) : SafeBelow typeName (fun type => type.span.Fits) m := by
  intro s _
  refine safe_peek_bind fun fitsStart => ?_
  have behindMark : ∀ (isList : Bool) (t : State), t.ahead.length ≤ s.ahead.length →
      Safe (do
        let token ← consumeAny scalarKinds
        return (⟨scalarOf token, isList, ← joined s.current.span token.span⟩ : TypeName)) t
        fun type u => type.span.Fits ∧ u.ahead.length < s.ahead.length := by
    intro isList t shorter
    refine (safe_consumeAny (by decide)).bind ?_
    rintro token u - ⟨-, fits, shorterStill⟩
    exact safe_joined_bind fitsStart fits fun fitsSpan => safe_pure ⟨fitsSpan, by omega⟩
  exact safe_take_bind (by simp) (fun t shorter => behindMark true t (by omega))
    fun _ => behindMark false s (Nat.le_refl _)

theorem safe_param (m : Nat) : SafeBelow param (fun _ => True) m := by
  intro s small
  refine (safe_typeName m s small).bind ?_
  rintro type t - ⟨-, shorter⟩
  refine safe_ident.bind ?_
  rintro name u shorterStill -
  exact safe_pure ⟨trivial, by omega⟩

/-! ## Expressions -/

theorem safe_integerValue {token : Token} (kind : token.kind = .int) :
    Safe (integerValue token) s fun _ t => t.ahead = s.ahead := by
  apply safe_ensure_bind kind
  split
  · exact safe_pure rfl
  · exact safe_report_bind fun t same _ => safe_pure same

theorem safe_booleanValue {token : Token} (kind : token.kind = .bool) :
    Safe (booleanValue token) s fun _ t => t.ahead = s.ahead := by
  apply safe_ensure_bind kind
  split
  · exact safe_pure rfl
  · exact safe_report_bind fun t same _ => safe_pure same

/-- Whether the region of an expression fits. -/
def FittingExpr (e : Expr) : Prop :=
  e.span.Fits

variable {inner : Parser Expr} {n : Nat}

theorem safe_arguments (safeInner : SafeBelow inner FittingExpr n)
    (small : s.ahead.length < n) :
    Safe (arguments inner) s fun found _ => found.2.Fits := by
  refine (safe_consume (by simp)).bind ?_
  rintro _ t - ⟨-, -, shorter⟩
  refine (safe_delimited (by simp) safeInner (by omega)).bind ?_
  rintro args u shorterStill -
  refine (safe_consume (by simp)).bind ?_
  rintro close v - ⟨-, fits, -⟩
  exact safe_pure fits

theorem safe_fieldValue (safeInner : SafeBelow inner FittingExpr n) :
    SafeBelow (fieldValue inner) (fun _ => True) n := by
  intro s small
  refine safe_ident.bind ?_
  rintro name t - ⟨-, shorter⟩
  refine (safe_consume (by simp)).bind ?_
  rintro _ u - ⟨-, -, shorterStill⟩
  refine (safeInner u (by omega)).bind ?_
  rintro value v shortest -
  exact safe_pure ⟨trivial, by omega⟩

theorem safe_afterName (safeInner : SafeBelow inner FittingExpr n) {records : Bool}
    {name : Ident} (fitsName : name.span.Fits) (small : s.ahead.length < n) :
    Safe (afterName inner records name) s fun e _ => FittingExpr e := by
  have notEof : ∀ {kind : TokenKind}, s.current.kind = kind → kind ≠ .eof → s.kind ≠ .eof :=
    fun same other eof => other (same.symm.trans eof)
  refine safe_peek_bind fun _ => ?_
  split
  next =>
    refine (safe_arguments safeInner small).bind ?_
    rintro ⟨args, close⟩ t - fitsClose
    exact safe_joined_bind fitsName fitsClose fun fits => safe_pure fits
  next kind =>
    refine (safe_advance (notEof kind (by simp))).bind ?_
    rintro _ t - ⟨-, -, shorter⟩
    refine safe_ident.bind ?_
    rintro function u - ⟨-, shorterStill⟩
    refine (safe_arguments safeInner (by omega)).bind ?_
    rintro ⟨args, close⟩ v - fitsClose
    exact safe_joined_bind fitsName fitsClose fun fits => safe_pure fits
  next kind =>
    cases records with
    | false => exact safe_pure fitsName
    | true =>
      refine (safe_advance (notEof kind (by simp))).bind ?_
      rintro _ t - ⟨-, -, shorter⟩
      refine (safe_delimited (by simp) (safe_fieldValue safeInner) (by omega)).bind ?_
      rintro fields u shorterStill -
      refine (safe_consume (by simp)).bind ?_
      rintro close v - ⟨-, fitsClose, -⟩
      exact safe_joined_bind fitsName fitsClose fun fits => safe_pure fits
  next => exact safe_pure fitsName

theorem safe_expressionFrom (safeInner : SafeBelow inner FittingExpr n) {records : Bool}
    {token : Token} (starts : token.kind ∈ expressionKinds) (fitsToken : token.span.Fits)
    (small : s.ahead.length < n) :
    Safe (expressionFrom inner records token) s fun e _ => FittingExpr e := by
  unfold expressionFrom
  split
  next kind => exact (safe_integerValue kind).bind fun _ _ _ _ => safe_pure fitsToken
  next => exact safe_pure fitsToken
  next kind => exact (safe_booleanValue kind).bind fun _ _ _ _ => safe_pure fitsToken
  next =>
    refine (safe_delimited (by simp) safeInner small).bind ?_
    rintro items t shorter -
    refine (safe_consume (by simp)).bind ?_
    rintro close u - ⟨-, fitsClose, -⟩
    exact safe_joined_bind fitsToken fitsClose fun fits => safe_pure fits
  next =>
    split
    · exact safe_reject
    · refine (safe_arguments safeInner small).bind ?_
      rintro ⟨operands, close⟩ t - fitsClose
      exact safe_joined_bind fitsToken fitsClose fun fits => safe_pure fits
  next => exact safe_afterName safeInner fitsToken small
  next =>
    -- the token was one that an expression starts with
    simp only [expressionKinds, List.mem_cons, List.not_mem_nil, or_false] at starts
    grind

theorem safe_expressionBody (safeInner : SafeBelow inner FittingExpr n) (records : Bool) :
    SafeBelow (expressionBody inner records) FittingExpr (n + 1) := by
  intro s small
  refine safe_peek_bind fun _ => ?_
  split
  next starts =>
    have notEof := s.kind_ne_eof_of_mem starts (by decide)
    refine (safe_advance notEof).bind ?_
    rintro _ t - ⟨rfl, fits, shorter⟩
    exact (safe_expressionFrom safeInner starts fits (by omega)).forward.imp
      fun e u found => ⟨found.1, Nat.lt_of_le_of_lt found.2.length_le shorter⟩
  next => exact safe_reject

theorem safe_expressionUpTo (n : Nat) (records : Bool) :
    SafeBelow (expressionUpTo n records) FittingExpr n := by
  induction n generalizing records with
  | zero =>
    intro s small
    omega
  | succ n inductionHypothesis => exact safe_expressionBody (inductionHypothesis true) records

theorem safe_expression (records : Bool) (m : Nat) :
    SafeBelow (expression records) FittingExpr m :=
  fun s _ => safe_left_bind (safe_expressionUpTo _ records s (Nat.lt_succ_self _))

/-- A value that is missing takes no token, and its region is that of the token in its place. -/
theorem safe_value : Safe value s fun e _ => FittingExpr e := by
  refine safe_peek_bind fun fits => ?_
  refine (safe_expression true _ s (Nat.lt_succ_self _)).attempt_bind ?made ?failed
  case made =>
    rintro e t - ⟨fitsExpr, -⟩
    exact safe_pure fitsExpr
  case failed =>
    intro t _
    refine safe_peek_bind fun _ => ?_
    dsimp only
    split
    · exact safe_pure fits
    · exact safe_fail

theorem safe_condition (m : Nat) : SafeBelow condition FittingExpr m :=
  safe_expression false m

/-! ## Calls -/

theorem isCall_afterName {records : Bool} {name : Ident} {e : Expr} {s t : State}
    (opens : s.kind = .lParen ∨ s.kind = .doubleColon)
    (ran : (afterName inner records name).run s = (some e, t)) : e.isCall = true := by
  obtain ⟨token, u, peeked, ran⟩ := run_bind_eq_some ran
  cases peeked
  rcases opens with paren | colons
  · rw [show s.current.kind = .lParen from paren] at ran
    obtain ⟨⟨args, close⟩, u, -, ran⟩ := run_bind_eq_some ran
    obtain ⟨span, v, -, ran⟩ := run_bind_eq_some ran
    cases ran
    rfl
  · rw [show s.current.kind = .doubleColon from colons] at ran
    obtain ⟨_, u, -, ran⟩ := run_bind_eq_some ran
    obtain ⟨function, v, -, ran⟩ := run_bind_eq_some ran
    obtain ⟨⟨args, close⟩, w, -, ran⟩ := run_bind_eq_some ran
    obtain ⟨span, x, -, ran⟩ := run_bind_eq_some ran
    cases ran
    rfl

theorem kind_advance {s : State} (notEof : s.kind ≠ .eof) : s.advance.kind = s.second.kind := by
  have nonempty : s.ahead ≠ [] := fun empty => notEof (s.kind_eq_eof_iff.mpr empty)
  rw [State.kind, State.current, State.front, State.ahead_advance, (s.reaches_advance).final,
    State.second]

theorem isCall_expression {e : Expr} {s t : State} (named : s.kind = .identifier)
    (opens : s.second.kind = .lParen ∨ s.second.kind = .doubleColon)
    (ran : (expression true).run s = (some e, t)) : e.isCall = true := by
  have notEof : s.kind ≠ .eof := by simp [named]
  rw [← kind_advance notEof] at opens
  obtain ⟨n, u, looked, ran⟩ := run_bind_eq_some ran
  cases looked
  obtain ⟨token, u, peeked, ran⟩ := run_bind_eq_some ran
  cases peeked
  rw [if_pos (by simp [show s.current.kind = .identifier from named, expressionKinds])] at ran
  obtain ⟨token, u, advanced, ran⟩ := run_bind_eq_some ran
  cases advanced
  rw [expressionFrom, show s.current.kind = .identifier from named] at ran
  exact isCall_afterName opens ran

theorem safe_call (named : s.kind = .identifier)
    (opens : s.second.kind = .lParen ∨ s.second.kind = .doubleColon) :
    Safe (expression true) s fun e t =>
      FittingExpr e ∧ e.isCall = true ∧ t.ahead.length < s.ahead.length := by
  intro fits
  obtain ⟨asserts, made⟩ := safe_expression true _ s (Nat.lt_succ_self _) fits
  refine ⟨asserts, ?_⟩
  intro e t ran
  obtain ⟨fitsExpr, shorter⟩ := made e t ran
  exact ⟨fitsExpr, isCall_expression named opens ran, shorter⟩

end FrontEnd.Parser
