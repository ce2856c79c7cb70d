import FrontEnd.Proofs.Parsing.Simulation

/-!
# Types and expressions follow themselves

Every production of types and of expressions follows itself, and the names in what it makes are those of tokens.
-/

namespace FrontEnd.Parser.Simulation

variable {sim : Simulation}

/-! ## Types -/

theorem follows_typeName :
    sim.Follows (TypeName.relocate sim.place) (TypeName.Plain sim.IsName) typeName typeName := by
  refine follows_peek_bind fun start _ => follows_take_bind fun isList => ?_
  refine follows_consumeAny.bind ?_
  rintro token ⟨scalar, known⟩
  refine follows_joined_bind fun span => follows_pure rfl ?_
  -- of the tokens that name a scalar type, only an identifier names a datatype
  intro name isDatatype
  simp only [scalarKinds, List.mem_cons, List.not_mem_nil, or_false] at scalar
  obtain kind | kind | kind | kind := scalar <;> simp [scalarOf, kind, Scalar.datatype?] at isDatatype
  exact isDatatype ▸ sim.isName_of_knows known kind

theorem follows_param : sim.Follows (Param.relocate sim.place) (Param.Named sim.IsName) param param :=
  follows_typeName.bind fun _ plain => follows_ident.bind fun _ named => follows_pure rfl ⟨plain, named⟩

/-! ## Expressions -/

theorem follows_integerValue {token : Token} (known : sim.Knows token) (isInt : token.kind = .int) :
    sim.Follows id (fun _ => True) (integerValue token) (integerValue (token.relocate sim.place)) := by
  refine follows_ensure_bind ?_
  rw [Token.literal_relocate]
  cases read : Literal.readInteger token.literal with
  | ok value => exact follows_pure rfl trivial
  | error e =>
    have raised : (Error.invalidInteger token.literal).RaisedAt token := ⟨rfl, isInt, rfl, e, read⟩
    exact follows_report_bind known raised (follows_pure rfl trivial)

theorem follows_booleanValue {token : Token} (known : sim.Knows token) (isBool : token.kind = .bool) :
    sim.Follows id (fun _ => True) (booleanValue token) (booleanValue (token.relocate sim.place)) := by
  refine follows_ensure_bind ?_
  rw [Token.literal_relocate]
  cases read : Literal.readBoolean? token.literal with
  | some value => exact follows_pure rfl trivial
  | none =>
    have raised : (Error.invalidBoolean token.literal).RaisedAt token := ⟨rfl, isBool, rfl, read⟩
    exact follows_report_bind known raised (follows_pure rfl trivial)

/-- How expressions follow. -/
abbrev FollowsExpr (sim : Simulation) (p q : Parser Expr) : Prop :=
  sim.Follows (Expr.relocate sim.place) (Expr.Named sim.IsName) p q

section

variable {inner innerAgain : Parser Expr} (followsInner : FollowsExpr sim inner innerAgain)

include followsInner

theorem follows_arguments :
    sim.Follows (Prod.map (Expr.recastEach (.placing sim.place)) sim.place)
      (fun made => Expr.EachNamed sim.IsName made.1) (arguments inner) (arguments innerAgain) := by
  refine follows_consume.bind fun _ _ => (follows_delimited followsInner).bind fun args each => ?_
  refine follows_consume.bind fun close _ => follows_pure ?_ (Expr.eachNamed_iff.mpr each)
  rw [← Expr.recastEach_eq_map]
  rfl

theorem follows_fieldValue :
    sim.Follows (FieldValue.relocate sim.place) (FieldValue.Named sim.IsName) (fieldValue inner)
      (fieldValue innerAgain) :=
  follows_ident.bind fun _ named => follows_consume.bind fun _ _ => followsInner.bind fun _ namedValue =>
    follows_pure rfl ⟨named, namedValue⟩

theorem follows_afterName (records : Bool) {name : Ident} (named : sim.IsName name.name) :
    FollowsExpr sim (afterName inner records name) (afterName innerAgain records (name.relocate sim.place)) := by
  refine follows_peek_bind fun token _ => ?_
  rw [Token.kind_relocate]
  cases token.kind with
  | lParen =>
    refine (follows_arguments followsInner).bind ?_
    rintro ⟨args, close⟩ each
    exact follows_joined_bind fun span => follows_pure rfl ⟨named, each⟩
  | doubleColon =>
    refine follows_advance.bind fun _ _ => follows_ident.bind fun function namedFunction => ?_
    refine (follows_arguments followsInner).bind ?_
    rintro ⟨args, close⟩ each
    exact follows_joined_bind fun span => follows_pure rfl ⟨named, namedFunction, each⟩
  | lBrace =>
    refine .ite ?_ (follows_pure rfl named)
    refine follows_advance.bind fun _ _ => ?_
    refine (follows_delimited (follows_fieldValue followsInner)).bind fun fields each => ?_
    refine follows_consume.bind fun close _ => follows_joined_bind fun span => follows_pure ?_ ?_
    · rw [← FieldValue.recastEach_eq_map]
      rfl
    · exact ⟨named, FieldValue.eachNamed_iff.mpr each⟩
  | _ => exact follows_pure rfl named

theorem follows_expressionFrom (records : Bool) {token : Token} (known : sim.Knows token) :
    FollowsExpr sim (expressionFrom inner records token)
      (expressionFrom innerAgain records (token.relocate sim.place)) := by
  unfold expressionFrom
  rw [Token.kind_relocate, Token.literal_relocate]
  cases kind : token.kind with
  | int => exact (follows_integerValue known kind).bind fun value _ => follows_pure rfl trivial
  | string => exact follows_pure rfl trivial
  | bool => exact (follows_booleanValue known kind).bind fun value _ => follows_pure rfl trivial
  | lBracket =>
    refine (follows_delimited followsInner).bind fun items each => follows_consume.bind fun close _ => ?_
    refine follows_joined_bind fun span => follows_pure ?_ (Expr.eachNamed_iff.mpr each)
    rw [← Expr.recastEach_eq_map]
    rfl
  | operator =>
    dsimp only
    cases symbol : Operator.ofSymbol? token.literal with
    | none =>
      have raised : (Error.unknownOperator token.literal).RaisedAt token := ⟨rfl, kind, rfl, symbol⟩
      exact follows_reject known raised
    | some op =>
      refine (follows_arguments followsInner).bind ?_
      rintro ⟨operands, close⟩ each
      exact follows_joined_bind fun span => follows_pure rfl each
  | identifier => exact follows_afterName followsInner records (sim.isName_of_knows known kind)
  | _ => exact follows_unreachable

theorem follows_expressionBody (records : Bool) :
    FollowsExpr sim (expressionBody inner records) (expressionBody innerAgain records) := by
  refine follows_peek_bind fun found known => .ite ?_ (follows_reject known ⟨rfl, trivial⟩)
  exact follows_advance.bind fun token taken => follows_expressionFrom followsInner records taken

end

theorem follows_expressionUpTo (n : Nat) (records : Bool) :
    FollowsExpr sim (expressionUpTo n records) (expressionUpTo n records) := by
  induction n generalizing records with
  | zero => exact follows_unreachable
  | succ n inductionHypothesis => exact follows_expressionBody (inductionHypothesis true) records

theorem follows_expression (records : Bool) : FollowsExpr sim (expression records) (expression records) :=
  follows_left_bind fun n => follows_expressionUpTo (n + 1) records

theorem follows_value : FollowsExpr sim value value := by
  refine follows_peek_bind fun start _ => ?_
  refine (follows_expression true).attempt_bind (fun e named => follows_pure rfl named) ?_
  exact follows_peek_bind fun token _ => .ite (follows_pure rfl trivial) follows_fail

theorem follows_condition : FollowsExpr sim condition condition :=
  follows_expression false

end FrontEnd.Parser.Simulation
