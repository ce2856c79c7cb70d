import FrontEnd.Proofs.Parsing.Repeats

/-!
# What a silent run of an expression rests on

An expression rests on its tokens and on the next one not going on behind a name (`EndsName`). All other tokens that it
may end with are its own. A list, by itself, rests on what closes it.
-/

namespace FrontEnd.Parser

variable {α β : Type} {n m bound least : Nat} {free : TokenKind → Prop} {s : State}

/-! ## Types and literals -/

theorem repeats_ident : Repeats bound 1 Anything ident ident s :=
  repeats_consume_bind (by decide) fun _ _ _ => repeats_pure trivial

theorem repeats_typeName : Repeats bound 1 Anything typeName typeName s := by
  refine repeats_peek_bind Nat.one_pos ?_
  refine repeats_take_bind (by decide) (fun t _ => ?_) (fun _ => ?_) (.inl Nat.one_pos)
  · exact ((repeats_consumeAny (by decide)).still_bind fun _ _ _ => repeats_pure trivial).fewer (Nat.zero_le 1)
  · exact (repeats_consumeAny (by decide)).still_bind fun _ _ _ => repeats_pure trivial

theorem repeats_param : Repeats bound 1 Anything param param s := by
  refine repeats_typeName.token_bind fun type t _ _ => Repeats.fewer ?_ (Nat.zero_le 1)
  exact repeats_ident.still_bind fun name u _ => repeats_pure trivial

theorem repeats_integerValue {token : Token} :
    Repeats bound 0 free (integerValue token) (integerValue token) s := by
  apply repeats_ensure_bind
  split
  · exact repeats_pure trivial
  · exact repeats_report_bind

theorem repeats_booleanValue {token : Token} :
    Repeats bound 0 free (booleanValue token) (booleanValue token) s := by
  apply repeats_ensure_bind
  split
  · exact repeats_pure trivial
  · exact repeats_report_bind

/-! ## Lists -/

section

variable {item itemAgain : Parser α} {ends : TokenKind → Prop}

theorem run_delimitedUpTo_of_atEnd {close : TokenKind} (atEnd : s.isAtEnd [close] = true) (rounds : Nat) :
    (delimitedUpTo close item rounds).run s = (some [], s) := by
  cases rounds with
  | zero => rfl
  | succ rounds => simp [delimitedUpTo, run_bind, Parser.atEnd, looking, atEnd]

/-- Where a loop ends without a token, it ends at the same kind of token. -/
theorem repeats_of_atEnd {p q : Parser α} {kinds : List TokenKind} {x : α} (atEnd : s.isAtEnd kinds = true)
    (stops : ∀ u : State, u.isAtEnd kinds = true → p.run u = (some x, u))
    (stopsAgain : ∀ u : State, u.isAtEnd kinds = true → q.run u = (some x, u)) :
    Repeats bound 0 Nothing p q s :=
  repeats_still trivial (stops s atEnd) fun u next =>
    stopsAgain u ((isAtEnd_eq (next.resolve_right id)).trans atEnd)

theorem repeats_delimitedUpTo {close : TokenKind} (items : RepeatsBelow n m 1 ends item itemAgain)
    {rounds roundsAgain : Nat} (small : s.ahead.length < n) (enough : s.ahead.length ≤ rounds) (deep : bound ≤ m)
    (long : bound ≤ roundsAgain + 1) :
    Repeats bound 0 Nothing (delimitedUpTo close item rounds) (delimitedUpTo close itemAgain roundsAgain) s := by
  induction rounds generalizing s roundsAgain bound with
  | zero =>
    exact repeats_of_atEnd (s.isAtEnd_of_empty (Nat.le_zero.mp enough) [close])
      (fun u atEnd => run_delimitedUpTo_of_atEnd atEnd _) (fun u atEnd => run_delimitedUpTo_of_atEnd atEnd _)
  | succ rounds inductionHypothesis =>
    cases atEnd : s.isAtEnd [close] with
    | true =>
      exact repeats_of_atEnd atEnd
        (fun u atEnd => run_delimitedUpTo_of_atEnd atEnd _) (fun u atEnd => run_delimitedUpTo_of_atEnd atEnd _)
    | false =>
      refine (Repeats.of_round (fun k long => ?_) long (Nat.le_refl 1)).fewer (Nat.zero_le 1)
      apply repeats_atEnd_bind
      rw [if_neg (by simp [atEnd]), if_neg (by simp [atEnd])]
      refine (items.inside small deep).attempt_bind (l := 0) (by omega) (fun x t _ shorter => ?_)
        (.inr fun _ => False.elim)
      refine repeats_take_bind (by decide) (fun u shorterStill => ?_) (fun _ => repeats_atEnd_bind ?_) (.inr id)
      · exact (inductionHypothesis (by omega) (by omega) (by omega) (by omega)).still_bind
          fun _ _ _ => repeats_pure trivial
      · split
        · exact repeats_pure trivial
        · exact repeats_peek_kind_bind fun _ _ => repeats_report_bind

theorem repeats_delimited {close : TokenKind} (items : RepeatsBelow n m 1 ends item itemAgain)
    (small : s.ahead.length < n) (deep : bound ≤ m) :
    Repeats bound 0 Nothing (delimited close item) (delimited close itemAgain) s := by
  refine repeats_ensure_bind (repeats_left_bind fun k => ?_)
  exact (repeats_delimitedUpTo items small (Nat.le_refl _) (by omega) (by omega)).still_bind
    fun _ _ _ => repeats_ensure_bind (repeats_pure trivial)

theorem repeats_separatedUpTo (items : RepeatsBelow n m 1 ends item itemAgain) {rounds roundsAgain : Nat}
    (small : s.ahead.length < n) (enough : s.ahead.length < rounds) (deep : bound ≤ m) (long : bound ≤ roundsAgain) :
    Repeats bound 1 Nothing (separatedUpTo item rounds) (separatedUpTo itemAgain roundsAgain) s := by
  induction rounds generalizing s roundsAgain bound with
  | zero => omega
  | succ rounds inductionHypothesis =>
    refine Repeats.of_round (j := 0) (fun k long => ?_) long (Nat.zero_le 1)
    refine (items.inside small deep).bind (l := 0) (by omega) (fun x t _ shorter => ?_) (.inr fun _ => False.elim)
    refine repeats_take_bind (by decide) (fun u shorterStill => ?_) (fun _ => repeats_pure trivial) (.inr id)
    refine Repeats.fewer ?_ (Nat.zero_le 1)
    exact (inductionHypothesis (by omega) (by omega) (by omega) (by omega)).still_bind
      fun _ _ _ => repeats_pure trivial

theorem repeats_separated (items : RepeatsBelow n m 1 ends item itemAgain) (small : s.ahead.length < n)
    (deep : bound ≤ m) : Repeats bound 1 Nothing (separated item) (separated itemAgain) s :=
  repeats_left_bind fun k => repeats_separatedUpTo items small (Nat.lt_succ_self _) (by omega) (by omega)

end

/-! ## Expressions -/

/-- Whether a kind of token does not go on behind a name. -/
def EndsName (kind : TokenKind) : Prop :=
  kind ∉ [TokenKind.lParen, .doubleColon, .lBrace]

/-- Whether a name with a token of the kind behind it is more than a name. -/
def GoesOn (records : Bool) (kind : TokenKind) : Prop :=
  kind = .lParen ∨ kind = .doubleColon ∨ kind = .lBrace ∧ records = true

theorem EndsName.not_goesOn {kind : TokenKind} (ends : EndsName kind) (records : Bool) : ¬ GoesOn records kind := by
  rintro (rfl | rfl | ⟨rfl, -⟩) <;> simp [EndsName] at ends

theorem run_afterName {inner : Parser Expr} {records : Bool} (ends : ¬ GoesOn records s.kind) (name : Ident) :
    (afterName inner records name).run s = (some (.name name name.span), s) := by
  have kinds : s.current.kind ≠ .lParen ∧ s.current.kind ≠ .doubleColon ∧
      (s.current.kind = .lBrace → records = false) := by
    simpa [GoesOn, State.kind] using ends
  rw [afterName, run_bind]
  simp only [peek, looking]
  split
  next paren => exact absurd paren kinds.1
  next colons => exact absurd colons kinds.2.1
  next brace =>
    rw [kinds.2.2 brace]
    rfl
  next => rfl

section

variable {inner innerAgain : Parser Expr} (repeats : RepeatsBelow n m 1 EndsName inner innerAgain)

include repeats

theorem repeats_arguments (small : s.ahead.length ≤ n) (deep : bound ≤ m + 1) :
    Repeats bound 2 Anything (arguments inner) (arguments innerAgain) s := by
  refine repeats_consume_bind (by decide) fun _ t shorter => ?_
  refine (repeats_delimited repeats (by omega) (by omega)).taking_bind (by omega) fun args u _ _ => ?_
  exact repeats_consume_bind (by decide) fun close v _ => repeats_pure trivial

theorem repeats_fieldValue : RepeatsBelow n m 1 EndsName (fieldValue inner) (fieldValue innerAgain) := by
  intro s small
  refine repeats_ident.token_bind fun name t _ shorter => ?_
  refine repeats_consume_bind (by decide) fun _ u shorterStill => Repeats.fewer ?_ (Nat.zero_le 1)
  exact (repeats.inside (by omega) (by omega)).still_bind fun value v _ => repeats_pure trivial

theorem repeats_afterName (small : s.ahead.length ≤ n) (deep : bound ≤ m + 1) (records : Bool) {name : Ident} :
    Repeats bound 0 EndsName (afterName inner records name) (afterName innerAgain records name) s := by
  by_cases goesOn : GoesOn records s.kind
  · have taking : Repeats bound 1 EndsName (afterName inner records name) (afterName innerAgain records name) s := by
      refine repeats_peek_bind Nat.one_pos ?_
      obtain paren | colons | ⟨brace, rfl⟩ := goesOn
      · rw [show s.current.kind = .lParen from paren]
        refine Repeats.fewer (Repeats.of_anything ?_) (Nat.le_succ 1)
        exact (repeats_arguments repeats small deep).still_bind
          fun _ _ _ => repeats_joined_bind (repeats_pure trivial)
      · have notEof : s.kind ≠ .eof := by simp [colons]
        rw [show s.current.kind = .doubleColon from colons]
        refine (repeats_advance notEof).token_bind fun _ t _ shorter => ?_
        refine repeats_ident.token_bind fun function u _ shorterStill =>
          Repeats.fewer (Repeats.of_anything ?_) (Nat.zero_le 2)
        exact (repeats_arguments repeats (by omega) (by omega)).still_bind
          fun _ _ _ => repeats_joined_bind (repeats_pure trivial)
      · have notEof : s.kind ≠ .eof := by simp [brace]
        rw [show s.current.kind = .lBrace from brace]
        refine (repeats_advance notEof).token_bind fun _ t _ shorter => ?_
        refine (repeats_delimited (repeats_fieldValue repeats) (by omega) (by omega)).taking_bind (by omega)
          fun fields u _ _ => ?_
        exact repeats_consume_bind (by decide) fun close v _ => repeats_pure trivial
    exact taking.fewer (Nat.zero_le 1)
  · refine repeats_still trivial (run_afterName goesOn name) fun u next => run_afterName (fun goesOnAgain => ?_) name
    obtain same | ends := next
    · exact goesOn (same ▸ goesOnAgain)
    · exact ends.not_goesOn records goesOnAgain

theorem repeats_expressionFrom (small : s.ahead.length < n) (deep : bound ≤ m) (records : Bool) {token : Token}
    (starts : token.kind ∈ expressionKinds) :
    Repeats bound 0 EndsName (expressionFrom inner records token) (expressionFrom innerAgain records token) s := by
  unfold expressionFrom
  split
  next => exact repeats_integerValue.still_bind fun _ _ _ => repeats_pure trivial
  next => exact repeats_pure trivial
  next => exact repeats_booleanValue.still_bind fun _ _ _ => repeats_pure trivial
  next =>
    refine (repeats_delimited repeats small deep).taking_bind (by omega) fun items t _ _ => ?_
    exact repeats_consume_bind (by decide) fun close u _ => repeats_pure trivial
  next =>
    split
    · exact repeats_reject
    · refine Repeats.fewer (Repeats.of_anything ?_) (Nat.zero_le 2)
      exact (repeats_arguments repeats (Nat.le_of_lt small) (by omega)).still_bind
        fun _ _ _ => repeats_joined_bind (repeats_pure trivial)
  next => exact repeats_afterName repeats (Nat.le_of_lt small) (by omega) records
  next =>
    -- no other token starts an expression
    simp only [expressionKinds, List.mem_cons, List.not_mem_nil, or_false] at starts
    grind

theorem repeats_expressionBody (records : Bool) :
    RepeatsBelow (n + 1) (m + 1) 1 EndsName (expressionBody inner records) (expressionBody innerAgain records) := by
  intro s small
  refine repeats_peek_bind Nat.one_pos ?_
  split
  next starts =>
    have notEof := s.kind_ne_eof_of_mem starts (by decide)
    refine (repeats_advance notEof).token_bind fun token t same shorter => ?_
    exact repeats_expressionFrom repeats (by omega) (by omega) records (same ▸ starts)
  next => exact repeats_reject

end

/-- With any two depths that the tokens ahead do not use up, expressions are read alike. -/
theorem repeats_expressionUpTo (n m : Nat) (records : Bool) :
    RepeatsBelow n m 1 EndsName (expressionUpTo n records) (expressionUpTo m records) := by
  induction n generalizing m records with
  | zero =>
    intro s small
    omega
  | succ n inductionHypothesis =>
    have body : ∀ m, RepeatsBelow (n + 1) (m + 1) 1 EndsName (expressionUpTo (n + 1) records)
        (expressionUpTo (m + 1) records) :=
      fun m => repeats_expressionBody (inductionHypothesis m true) records
    cases m with
    | zero => exact fun s small => ((body 0).inside small (Nat.zero_le _)).change (Nat.zero_le _)
    | succ m => exact body m

theorem repeats_expression (records : Bool) :
    Repeats bound 1 EndsName (expression records) (expression records) s :=
  repeats_left_bind fun k => (repeats_expressionUpTo _ (k + 1) records).inside (Nat.lt_succ_self _)
    (Nat.min_le_right _ _)

theorem repeats_condition : Repeats bound 1 EndsName condition condition s :=
  repeats_expression false

/-- A value that is replaced has been reported. -/
theorem repeats_value : Repeats bound 1 EndsName value value s :=
  repeats_peek_bind Nat.one_pos ((repeats_expression true).attempt_bind (l := 0) (Nat.le_refl _)
    (fun _ _ _ _ => repeats_pure trivial) (.inr fun _ isFree => isFree))

end FrontEnd.Parser
