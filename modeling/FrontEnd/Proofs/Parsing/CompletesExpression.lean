import FrontEnd.Proofs.Parsing.Completes
import FrontEnd.Proofs.Parsing.SafeExpression

/-!
# What a silent run of an expression derives

A type, a parameter and an expression are each a phrase of the lenient grammar, and so are the arguments of a call
with the name in front of them. An expression inside of another one starts behind at least one token, so that it
never runs out of depth.
-/

namespace FrontEnd.Parser

open Surface

variable {before whole : List Part} {s : State}

/-! ## Types and literals -/

theorem completes_typeName : Completes [] [sub .type] typeName s := by
  apply completes_peek_bind
  -- the scalar is the last letter of a type, with a word in front of it or not
  have scalar : ∀ (isList : Bool) (before : List Part) (t : State),
      (∀ kind ∈ scalarKinds, lenient.Derives [sub .type] (before ++ [word kind])) →
        Completes before [sub .type] (do
          let token ← consumeAny scalarKinds
          return (⟨scalarOf token, isList, ← joined s.current.span token.span⟩ : TypeName)) t := by
    intro isList before t derives
    refine completes_consumeAny_bind (by decide) fun token u member _ => completes_joined_bind ?_
    exact completes_pure trivial (derives _ member)
  have rules : ∀ kind ∈ scalarKinds, (⟨.scalar, [word kind]⟩ : Rule) ∈ strictRules := by decide
  refine completes_take_bind (by decide) (fun t _ => scalar true _ t fun kind member => ?_) fun _ =>
    scalar false [] s fun kind member => ?_
  · have rule := derives_of_rule ⟨.type, [word .kwListOf, sub .scalar]⟩ (by decide)
    exact rule.trans ((derives_of_rule _ (rules kind member)).append_left [word .kwListOf])
  · have rule := derives_of_rule ⟨.type, [sub .scalar]⟩ (by decide)
    exact rule.trans (derives_of_rule _ (rules kind member))

theorem completes_param : Completes [] [sub .param] param s := by
  refine completes_typeName.bind fun type t _ _ => completes_ident.bind fun name u _ _ => ?_
  exact completes_rule trivial (by decide)

/-- A literal that has no value is reported. -/
theorem completes_integerValue {token : Token} (derives : lenient.Derives whole before) :
    Completes before whole (integerValue token) s := by
  apply completes_ensure_bind
  split
  · exact completes_pure trivial derives
  · exact completes_report_bind

theorem completes_booleanValue {token : Token} (derives : lenient.Derives whole before) :
    Completes before whole (booleanValue token) s := by
  apply completes_ensure_bind
  split
  · exact completes_pure trivial derives
  · exact completes_report_bind

/-! ## Expressions -/

/-- The phrase of an expression, where records are allowed or not. -/
def exprPhrase (records : Bool) : Phrase :=
  if records then .expression else .plain

theorem derives_exprPhrase (rule : Rule) (isPlain : rule.input = .plain) (member : rule ∈ strictRules)
    (records : Bool) : lenient.Derives [sub (exprPhrase records)] rule.output := by
  have plain : lenient.Derives [sub .plain] rule.output := isPlain ▸ derives_of_rule _ member
  cases records with
  | false => exact plain
  | true => exact (derives_of_rule ⟨.expression, [sub .plain]⟩ (by decide)).trans plain

section

variable {inner : Parser Expr} {n : Nat}

/-- The letters of arguments. -/
def argumentParts : List Part :=
  [word .lParen, sub (.listed .expression), word .rParen]

theorem completes_arguments (completes : CompletesBelow .expression inner n) (small : s.ahead.length ≤ n) :
    Completes [] argumentParts (arguments inner) s := by
  refine completes_consume_bind (by decide) fun _ t shorter => ?_
  refine (completes_delimited (by decide) completes (by omega)).bind fun args u _ _ => ?_
  refine completes_consume_bind (by decide) fun close v _ => ?_
  exact completes_pure trivial (.refl _)

theorem completes_fieldValue (completes : CompletesBelow .expression inner n) :
    CompletesBelow .field (fieldValue inner) n := by
  intro s small
  refine completes_ident.bind fun name t _ shorter => completes_consume_bind (by decide) fun _ u shorterStill => ?_
  refine (completes u (by omega)).bind fun value v _ _ => ?_
  exact completes_rule trivial (by decide)

/-- A name with arguments behind it is a call. -/
theorem completes_call (completes : CompletesBelow .expression inner n) (small : s.ahead.length ≤ n)
    (records : Bool) {name : Ident} (opens : s.kind = .lParen ∨ s.kind = .doubleColon) :
    Completes [word .identifier] [sub .call] (afterName inner records name) s := by
  apply completes_peek_bind
  rcases opens with paren | colons
  · rw [show s.current.kind = .lParen from paren]
    refine (completes_arguments completes small).bind fun _ t _ _ => completes_joined_bind ?_
    exact completes_rule trivial (by decide)
  · rw [show s.current.kind = .doubleColon from colons]
    refine completes_advance_bind (by simp [colons]) fun shorter => ?_
    rw [letter_of_kind (t := s.current) colons (by decide)]
    refine completes_ident.bind fun function t _ shorterStill => ?_
    refine (completes_arguments completes (by omega)).bind fun _ u _ _ => completes_joined_bind ?_
    exact completes_rule trivial (by decide)

theorem completes_afterName (completes : CompletesBelow .expression inner n) (small : s.ahead.length ≤ n)
    (records : Bool) {name : Ident} :
    Completes [word .identifier] [sub (exprPhrase records)] (afterName inner records name) s := by
  have alone := derives_exprPhrase ⟨.plain, [word .identifier]⟩ rfl (by decide) records
  by_cases opens : s.kind = .lParen ∨ s.kind = .doubleColon
  · exact (completes_call completes small records opens).trans
      (derives_exprPhrase ⟨.plain, [sub .call]⟩ rfl (by decide) records)
  · apply completes_peek_bind
    split
    next kind => exact absurd (.inl kind) opens
    next kind => exact absurd (.inr kind) opens
    next kind =>
      cases records with
      | false => exact completes_pure trivial alone
      | true =>
        -- a record is the one expression that is not plain
        refine completes_advance_bind (by rw [State.kind, kind]; decide) fun shorter => ?_
        rw [letter_of_kind kind (by decide)]
        refine (completes_delimited (by decide) (completes_fieldValue completes) (by omega)).bind
          fun fields t _ _ => ?_
        refine completes_consume_bind (by decide) fun close u _ => completes_joined_bind ?_
        exact completes_rule trivial (by decide)
    next => exact completes_pure trivial alone

theorem derives_operation {token : Token} (kind : token.kind = .operator) (records : Bool) :
    lenient.Derives [sub (exprPhrase records)] (.terminal token.terminal.letter :: argumentParts) := by
  have rule := derives_exprPhrase ⟨.plain, sub .operator :: argumentParts⟩ rfl (by decide) records
  have operator : lenient.Derives [sub .operator] [.terminal token.terminal.letter] := by
    unfold Terminal.letter
    split
    · exact derives_of_rule ⟨.operator, [.terminal .assign]⟩ (by decide)
    · rw [Token.kind_terminal, kind]
      exact derives_of_rule ⟨.operator, [word .operator]⟩ (by decide)
  exact rule.trans (operator.append_right argumentParts)

theorem completes_expressionFrom (completes : CompletesBelow .expression inner n) (small : s.ahead.length < n)
    (records : Bool) {token : Token} (starts : token.kind ∈ expressionKinds) :
    Completes [.terminal token.terminal.letter] [sub (exprPhrase records)] (expressionFrom inner records token) s := by
  unfold expressionFrom
  split
  next kind =>
    rw [letter_of_kind kind (by decide)]
    have derives := derives_exprPhrase ⟨.plain, [word .int]⟩ rfl (by decide) records
    exact (completes_integerValue derives).bind_still fun _ _ _ => ⟨_, rfl, trivial⟩
  next kind =>
    rw [letter_of_kind kind (by decide)]
    exact completes_pure trivial
      (derives_exprPhrase ⟨.plain, [word .string]⟩ rfl (by decide) records)
  next kind =>
    rw [letter_of_kind kind (by decide)]
    have derives := derives_exprPhrase ⟨.plain, [word .bool]⟩ rfl (by decide) records
    exact (completes_booleanValue derives).bind_still fun _ _ _ => ⟨_, rfl, trivial⟩
  next kind =>
    rw [letter_of_kind kind (by decide)]
    refine (completes_delimited (by decide) completes small).bind fun items t _ _ => ?_
    refine completes_consume_bind (by decide) fun close u _ => completes_joined_bind ?_
    exact completes_pure trivial (derives_exprPhrase
      ⟨.plain, [word .lBracket, sub (.listed .expression), word .rBracket]⟩ rfl (by decide) records)
  next kind =>
    split
    · exact completes_reject
    · refine (completes_arguments completes (Nat.le_of_lt small)).bind fun _ t _ _ => completes_joined_bind ?_
      exact completes_pure trivial (derives_operation kind records)
  next kind =>
    rw [letter_of_kind kind (by decide)]
    exact completes_afterName completes (Nat.le_of_lt small) records
  next =>
    -- no other token starts an expression
    simp only [expressionKinds, List.mem_cons, List.not_mem_nil, or_false] at starts
    grind

theorem completes_expressionBody (completes : CompletesBelow .expression inner n) (records : Bool) :
    CompletesBelow (exprPhrase records) (expressionBody inner records) (n + 1) := by
  intro s small
  apply completes_peek_bind
  split
  next starts =>
    have notEof := s.kind_ne_eof_of_mem starts (by decide)
    refine completes_advance_bind notEof fun shorter => ?_
    exact completes_expressionFrom completes (by omega) records starts
  next => exact completes_reject

end

theorem completes_expressionUpTo (n : Nat) (records : Bool) :
    CompletesBelow (exprPhrase records) (expressionUpTo n records) n := by
  induction n generalizing records with
  | zero =>
    intro s small
    omega
  | succ n inductionHypothesis => exact completes_expressionBody (inductionHypothesis true) records

theorem completes_expression (records : Bool) : Completes [] [sub (exprPhrase records)] (expression records) s :=
  completes_left_bind (completes_expressionUpTo _ records s (Nat.lt_succ_self _))

theorem completes_condition : Completes [] [sub .plain] condition s :=
  completes_expression false

/-- A value that is replaced has been reported. -/
theorem completes_value : Completes [] [sub .expression] value s := by
  refine completes_peek_bind ((completes_expression true).attempt_bind fun e t _ _ => ?_)
  exact completes_pure trivial (.refl _)

/-- A name with arguments behind it is read as a call. -/
theorem completes_expression_call (named : s.kind = .identifier)
    (opens : s.second.kind = .lParen ∨ s.second.kind = .doubleColon) :
    Completes [] [sub .call] (expression true) s := by
  have notEof : s.kind ≠ .eof := by simp [named]
  have kind : s.current.kind = .identifier := named
  rw [← kind_advance notEof] at opens
  apply completes_left_bind
  apply completes_peek_bind
  rw [if_pos (by simp [kind, expressionKinds])]
  refine completes_advance_bind notEof fun shorter => ?_
  rw [letter_of_kind kind (by decide), expressionFrom, kind]
  exact completes_call (completes_expressionUpTo _ true) (Nat.le_of_lt shorter) true opens

end FrontEnd.Parser
