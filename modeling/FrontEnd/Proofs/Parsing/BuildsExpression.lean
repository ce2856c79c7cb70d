import FrontEnd.Proofs.Parsing.Builds

/-!
# What expressions are built of

Inside of an expression nothing is ever missing: where a part cannot be read, the whole expression fails. Only
a value stands in for one that failed. And where records are not allowed, none is built.
-/

namespace FrontEnd.Parser

variable {s : State}

theorem builds_typeName : Builds 0 typeName s fun _ _ => True :=
  builds_peek_bind <| builds_take_bind fun _ _ _ => builds_expect.bind fun _ _ _ _ =>
    builds_joined_bind fun _ => builds_pure trivial

theorem builds_param : Builds 0 param s fun _ _ => True :=
  builds_typeName.bind fun _ _ _ _ => builds_ident.bind fun _ _ _ _ => builds_pure trivial

theorem builds_params {close : TokenKind} : Builds 0 (delimited close param) s fun _ _ => True :=
  (builds_delimited fun _ => builds_param).later fun _ _ _ => trivial

theorem builds_integerValue {token : Token} : Builds 0 (integerValue token) s fun _ _ => True := by
  refine builds_ensure_bind fun _ => ?_
  split
  · exact builds_pure trivial
  · exact builds_report_bind fun _ => builds_pure trivial

theorem builds_booleanValue {token : Token} : Builds 0 (booleanValue token) s fun _ _ => True := by
  refine builds_ensure_bind fun _ => ?_
  split
  · exact builds_pure trivial
  · exact builds_report_bind fun _ => builds_pure trivial

section

variable {inner : Parser Expr}

/-- Whether a production builds no expression with a missing part. -/
def BuildsComplete (p : Parser Expr) : Prop :=
  ∀ s, Builds 0 p s fun e _ => e.gaps = 0

theorem builds_arguments (complete : BuildsComplete inner) :
    Builds 0 (arguments inner) s fun found _ => Expr.eachGaps found.1 = 0 :=
  builds_consume.bind fun _ _ _ _ => (builds_delimited complete).bind fun _ _ _ each =>
    builds_consume.bind fun _ _ _ _ => builds_pure (Expr.eachGaps_eq_zero each)

theorem builds_fieldValue (complete : BuildsComplete inner) :
    Builds 0 (fieldValue inner) s fun field _ => field.value.gaps = 0 :=
  builds_ident.bind fun _ _ _ _ => builds_consume.bind fun _ _ _ _ =>
    (complete _).bind fun _ _ _ none => builds_pure none

/-- Whether an expression is complete, and no record unless these are allowed. -/
def Admitted (records : Bool) (e : Expr) : Prop :=
  e.gaps = 0 ∧ (records = false → e.isRecord = false)

theorem builds_afterName (complete : BuildsComplete inner) {records : Bool} {name : Ident} :
    Builds 0 (afterName inner records name) s fun e _ => Admitted records e := by
  apply builds_peek_bind
  split
  next =>
    refine (builds_arguments complete).bind ?_
    rintro ⟨args, close⟩ _ t none
    exact builds_joined_bind fun _ => builds_pure ⟨none, fun _ => rfl⟩
  next =>
    refine builds_advance_bind fun _ _ t => builds_ident.bind fun function _ u _ => ?_
    refine (builds_arguments complete).bind ?_
    rintro ⟨args, close⟩ _ v none
    exact builds_joined_bind fun _ => builds_pure ⟨none, fun _ => rfl⟩
  next =>
    cases records with
    | false => exact builds_pure ⟨rfl, fun _ => rfl⟩
    | true =>
      refine builds_advance_bind fun _ _ t => ?_
      refine (builds_delimited fun _ => builds_fieldValue complete).bind fun fields _ u each => ?_
      refine builds_consume.bind fun close _ v _ => builds_joined_bind fun _ => builds_pure ?_
      exact ⟨FieldValue.eachGaps_eq_zero each, by simp⟩
  next => exact builds_pure ⟨rfl, fun _ => rfl⟩

theorem builds_expressionFrom (complete : BuildsComplete inner) {records : Bool} {token : Token} :
    Builds 0 (expressionFrom inner records token) s fun e _ => Admitted records e := by
  unfold expressionFrom
  split
  next => exact builds_integerValue.bind fun _ _ _ _ => builds_pure ⟨rfl, fun _ => rfl⟩
  next => exact builds_pure ⟨rfl, fun _ => rfl⟩
  next => exact builds_booleanValue.bind fun _ _ _ _ => builds_pure ⟨rfl, fun _ => rfl⟩
  next =>
    refine (builds_delimited complete).bind fun items _ t each => builds_consume.bind fun _ _ u _ => ?_
    exact builds_joined_bind fun _ => builds_pure ⟨Expr.eachGaps_eq_zero each, fun _ => rfl⟩
  next =>
    split
    next => exact builds_reject
    next =>
      refine (builds_arguments complete).bind ?_
      rintro ⟨operands, close⟩ _ t none
      exact builds_joined_bind fun _ => builds_pure ⟨none, fun _ => rfl⟩
  next => exact builds_afterName complete
  next => exact builds_unreachable

theorem builds_expressionBody (complete : BuildsComplete inner) (records : Bool) (s : State) :
    Builds 0 (expressionBody inner records) s fun e _ => Admitted records e := by
  apply builds_peek_bind
  split
  · exact builds_advance_bind fun _ _ _ =>
      (builds_expressionFrom complete).later fun _ _ admitted => admitted
  · exact builds_reject

end

theorem builds_expressionUpTo (n : Nat) (records : Bool) (s : State) :
    Builds 0 (expressionUpTo n records) s fun e _ => Admitted records e := by
  induction n generalizing records s with
  | zero => exact builds_unreachable
  | succ n inductionHypothesis =>
    have complete : BuildsComplete (expressionUpTo n true) :=
      fun t => (inductionHypothesis true t).later fun _ _ admitted => admitted.1
    exact builds_expressionBody complete records s

theorem builds_expression (records : Bool) :
    Builds 0 (expression records) s fun e _ => Admitted records e :=
  builds_left_bind (builds_expressionUpTo _ records s)

theorem builds_condition : Builds 0 condition s fun e _ => e.Decides :=
  (builds_expression false).later fun _ _ admitted => ⟨admitted.1, admitted.2 rfl⟩

/-- A missing value is laid to the account of the expression that failed in its place. -/
theorem builds_value (s : State) : Builds 0 value s fun e m => e.IsValue ∧ e.gaps ≤ m := by
  apply builds_peek_bind
  refine (builds_expression true).attempt_bind ?made ?failed
  case made =>
    intro e m t admitted
    exact builds_pure ⟨.inl admitted.1, by simp [admitted.1]⟩
  case failed =>
    intro m t reported
    apply builds_peek_bind
    dsimp only
    split
    · refine builds_pure ⟨.inr ⟨_, rfl⟩, ?_⟩
      rw [Expr.gaps]
      omega
    · exact builds_fail (by omega)

end FrontEnd.Parser
