import FrontEnd.Proofs.Parsing.Stays

/-!
# Expressions stay among loose tokens

A type or an expression never takes a closing bracket that it did not open, nor a word of a declaration.
-/

namespace FrontEnd.Parser

variable {stop : List Significant} {s : State}

theorem stays_integerValue {token : Token} : Stays stop (integerValue token) s := by
  refine stays_ensure_bind ?_
  split
  · exact stays_pure
  · exact stays_report_bind fun _ => stays_pure

theorem stays_booleanValue {token : Token} : Stays stop (booleanValue token) s := by
  refine stays_ensure_bind ?_
  split
  · exact stays_pure
  · exact stays_report_bind fun _ => stays_pure

section

variable (bars : Bars barKinds stop)

include bars

theorem stays_typeName : Stays stop typeName s := by
  refine stays_peek_bind <| stays_take_bind bars (by decide) fun isList t => ?_
  refine (stays_consumeAny bars (by decide)).bind fun token u => ?_
  exact stays_joined_bind fun _ => stays_pure

variable {inner : Parser Expr} (innerStays : AlwaysStays inner)

include innerStays

theorem stays_arguments : Stays stop (arguments inner) s := by
  have closes : closer? .lParen = some .rParen := rfl
  exact stays_enclosed bars closes fun _ t =>
    leadsTo_of_delimited closes innerStays fun _ _ _ => stays_pure

theorem stays_afterName (records : Bool) (name : Ident) :
    Stays stop (afterName inner records name) s := by
  refine stays_peek_bind ?_
  split
  next =>
    refine (stays_arguments bars innerStays).bind ?_
    rintro ⟨args, close⟩ t
    exact stays_joined_bind fun _ => stays_pure
  next colons =>
    have notBar : s.kind ∉ barKinds := by
      rw [State.kind, colons]
      decide
    refine stays_advance_bind bars notBar fun t => ?_
    refine (stays_ident bars).bind fun function u => (stays_arguments bars innerStays).bind ?_
    rintro ⟨args, close⟩ v
    exact stays_joined_bind fun _ => stays_pure
  next isBrace => exact fun leads => absurd isBrace (leads.kind_ne bars (by decide) (by decide))
  next => exact stays_pure

/-- Behind the first token of an expression, which is no bracket. -/
theorem stays_expressionFrom (records : Bool) {token : Token} (noBracket : token.kind ≠ .lBracket) :
    Stays stop (expressionFrom inner records token) s := by
  rw [expressionFrom]
  split
  next => exact stays_integerValue.bind fun _ _ => stays_pure
  next => exact stays_pure
  next => exact stays_booleanValue.bind fun _ _ => stays_pure
  next isBracket => exact absurd isBracket noBracket
  next =>
    split
    · exact stays_reject
    · refine (stays_arguments bars innerStays).bind ?_
      rintro ⟨operands, close⟩ t
      exact stays_joined_bind fun _ => stays_pure
  next => exact stays_afterName bars innerStays records _
  next => exact stays_unreachable

omit bars in
theorem leadsTo_of_expressionFrom (records : Bool) {token : Token} (isBracket : token.kind = .lBracket)
    (within : s.Within .rBracket stop) :
    ((expressionFrom inner records token).run s).2.LeadsTo stop := by
  have closes : closer? .lBracket = some .rBracket := rfl
  rw [expressionFrom, isBracket]
  exact leadsTo_of_delimited closes innerStays
    (fun _ _ _ => stays_joined_bind fun _ => stays_pure) within

theorem stays_expressionBody (records : Bool) : Stays stop (expressionBody inner records) s := by
  refine stays_peek_bind ?_
  split
  next starts =>
    by_cases isBracket : s.kind = .lBracket
    · have closes : closer? s.kind = some .rBracket := by rw [isBracket]; rfl
      exact fun leads =>
        leadsTo_of_expressionFrom innerStays records isBracket (leads.enter bars closes)
    · have noBar : ∀ kind ∈ expressionKinds, kind ∉ barKinds := by decide
      exact stays_advance_bind bars (noBar _ starts) fun t =>
        stays_expressionFrom bars innerStays records isBracket
  next => exact stays_reject

end

theorem alwaysStays_expressionUpTo (n : Nat) (records : Bool) :
    AlwaysStays (expressionUpTo n records) := by
  induction n generalizing records with
  | zero => exact fun _ _ _ => stays_unreachable
  | succ n inductionHypothesis =>
    exact fun _ bars _ => stays_expressionBody bars (inductionHypothesis true) records

theorem alwaysStays_expression (records : Bool) : AlwaysStays (expression records) :=
  fun stop bars s => stays_left_bind (alwaysStays_expressionUpTo _ records stop bars s)

theorem alwaysStays_value : AlwaysStays value := by
  refine fun stop bars s => stays_peek_bind ?_
  refine (alwaysStays_expression true stop bars s).attempt_bind fun o t => ?_
  cases o with
  | some e => exact stays_pure
  | none =>
    refine stays_peek_bind ?_
    dsimp only
    split
    · exact stays_pure
    · exact stays_fail

end FrontEnd.Parser
