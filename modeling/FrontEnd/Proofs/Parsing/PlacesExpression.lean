import FrontEnd.Proofs.Parsing.Places

/-!
# Where expressions are put

Every expression, type and name has a region of its own from where its production starts to where it ends. A
value that is missing has that of the token where it was looked for.
-/

namespace FrontEnd.Parser

open Outline (InRow inRow_nil inRow_leaf)

variable {tokens : List Token} {s : State}

theorem places_typeName : PlacesEach tokens TypeName.outline (fun type => type.span.Solid) typeName := by
  intro s
  apply places_peek_bind
  intro member
  -- the first token is behind, or it is the one that names the scalar
  have named : ∀ (isList : Bool) (t : State), s.current.Taken tokens s.lo t.lo ∨ t = s →
      Places tokens (do
        let token ← consumeAny scalarKinds
        return (⟨scalarOf token, isList, ← joined s.current.span token.span⟩ : TypeName)) t
        fun type u => Placed tokens TypeName.outline (fun type => type.span.Solid) s.lo u.lo [type] := by
    intro isList t first
    refine (places_consumeAny (by decide)).bind ?_
    rintro token u - ⟨same, taken⟩
    have row : InRow (Span.Marked tokens) s.lo u.lo [.leaf (s.current.span.upTo token.span)] := by
      obtain opens | rfl := first
      · exact opens.node (inRow_nil taken.le_hi) taken.marked (Nat.le_refl _) taken.hi
      · subst same
        exact (inRow_nil taken.le_hi).joined (by simp) taken.marked taken.marked taken.covers
          ⟨Nat.le_refl _, Nat.le_refl _⟩ (Nat.le_refl _) ⟨taken.hi, taken.hi⟩
    exact places_joined_bind (places_pure (.single row row.solid))
  refine places_take_bind (by simp) (fun t _ taken => ?_) fun _ => ?_
  · exact named true t (.inl taken)
  · exact named false s (.inr rfl)

theorem places_param : PlacesEach tokens Param.outline Param.Solid param := by
  intro s
  refine (places_typeName s).bind fun type t _ ofType => places_ident.bind fun name u _ ofName => ?_
  obtain ⟨row, ends, marked⟩ := ofName.cut name.span rfl
  exact places_pure (.single (ofType.inRow.headed rfl row (by simp) marked (Nat.le_refl _) ends)
    ⟨ofType.own, ofName.solid⟩)

section

variable {inner : Parser Expr}

/-- Arguments are in front of the token that closes them. -/
theorem places_arguments (places : PlacesEach tokens Expr.outline Expr.Solid inner) :
    Places tokens (arguments inner) s fun result t => ∃ (close : Token) (stop : Nat),
      result.2 = close.span ∧ Placed tokens Expr.outline Expr.Solid s.lo stop result.1 ∧
        close.Taken tokens stop t.lo := by
  refine (places_consume (by simp)).bind ?_
  rintro _ t later -
  refine (places_delimited places).bind fun args u _ placed => (places_consume (by simp)).bind ?_
  rintro close v - ⟨-, closes⟩
  exact places_pure ⟨close, u.lo, rfl, placed.mono later (Nat.le_refl _), closes⟩

theorem places_fieldValue (places : PlacesEach tokens Expr.outline Expr.Solid inner) :
    PlacesEach tokens FieldValue.outline FieldValue.Solid (fieldValue inner) := by
  intro s
  refine places_ident.bind fun name t _ ofName => (places_consume (by simp)).bind fun _ u later _ => ?_
  refine (places u).bind fun value v _ ofValue => ?_
  obtain ⟨row, ends, marked⟩ := ofValue.inRow.cut value.span value.span_outline
  exact places_pure (.single
    ((ofName.mono (Nat.le_refl _) later).headed rfl row (by simp) marked (Nat.le_refl _) ends)
    ⟨ofName.solid, ofValue.own⟩)

theorem places_afterName (places : PlacesEach tokens Expr.outline Expr.Solid inner) (records : Bool)
    {name : Ident} {first : Nat} (ofName : InRow (Span.Marked tokens) first s.lo [name.outline]) :
    Places tokens (afterName inner records name) s fun e t =>
      Placed tokens Expr.outline Expr.Solid first t.lo [e] := by
  have solid : name.span.Solid := ofName.solid
  have before : name.span.lo < s.lo := Nat.lt_of_lt_of_le solid ofName.row.2.2
  have nameAlone : Placed tokens Expr.outline Expr.Solid first s.lo [.name name name.span] :=
    .single (ofName.wrapped rfl) ⟨rfl, solid⟩
  refine places_peek_bind fun _ => ?_
  split
  next =>
    refine (places_arguments places).bind ?_
    rintro ⟨args, _⟩ t - ⟨close, stop, rfl, placed, closes⟩
    exact places_joined_bind (places_pure (.single
      (ofName.headed rfl placed.outlines (by simp) closes.marked closes.le_hi closes.hi)
      ⟨solid.upTo _, solid, placed.eachSolid before⟩))
  next kind =>
    refine (places_advance (by rw [State.kind, kind]; simp)).bind ?_
    rintro _ t later -
    refine places_ident.bind fun function u further ofFunction => (places_arguments places).bind ?_
    rintro ⟨args, _⟩ v - ⟨close, stop, rfl, placed, closes⟩
    have parts := (ofFunction.append placed.outlines).mono later (Nat.le_refl _)
    have beforeArgs : name.span.lo < u.lo := Nat.lt_of_lt_of_le before (Nat.le_trans later further)
    exact places_joined_bind (places_pure (.single
      (ofName.headed rfl parts (by simp) closes.marked closes.le_hi closes.hi)
      ⟨solid.upTo _, ⟨solid, ofFunction.solid⟩, placed.eachSolid beforeArgs⟩))
  next kind =>
    split
    · refine (places_advance (by rw [State.kind, kind]; simp)).bind ?_
      rintro _ t later -
      refine (places_delimited (places_fieldValue places)).bind fun fields u _ placed => ?_
      refine (places_consume (by simp)).bind ?_
      rintro close v - ⟨-, closes⟩
      have parts := placed.row.mono later (Nat.le_refl _)
      rw [← FieldValue.outlines_eq_map] at parts
      exact places_joined_bind (places_pure (.single
        (ofName.headed rfl parts (by simp) closes.marked closes.le_hi closes.hi)
        ⟨solid.upTo _, solid, FieldValue.eachSolid_iff.mpr placed.solid⟩))
    · exact places_pure nameAlone
  next => exact places_pure nameAlone

theorem places_expressionFrom (places : PlacesEach tokens Expr.outline Expr.Solid inner) (records : Bool)
    {token : Token} {first : Nat} (taken : token.Taken tokens first s.lo) :
    Places tokens (expressionFrom inner records token) s fun e t =>
      Placed tokens Expr.outline Expr.Solid first t.lo [e] := by
  have before : token.span.lo < s.lo := Nat.lt_of_lt_of_le taken.covers taken.hi
  unfold expressionFrom
  split
  next =>
    exact (places_any (integerValue token)).bind fun value t later _ =>
      places_pure (.single (taken.inRow later) taken.solid)
  next => exact places_pure (.single (taken.inRow (Nat.le_refl _)) taken.solid)
  next =>
    exact (places_any (booleanValue token)).bind fun value t later _ =>
      places_pure (.single (taken.inRow later) taken.solid)
  next =>
    refine (places_delimited places).bind fun items t _ placed => (places_consume (by simp)).bind ?_
    rintro close u - ⟨-, closes⟩
    exact places_joined_bind (places_pure (.single
      (taken.node placed.outlines closes.marked closes.le_hi closes.hi)
      ⟨taken.solid.upTo _, placed.eachSolid before⟩))
  next =>
    split
    next => exact places_reject
    next =>
      refine (places_arguments places).bind ?_
      rintro ⟨operands, _⟩ t - ⟨close, stop, rfl, placed, closes⟩
      exact places_joined_bind (places_pure (.single
        (taken.node placed.outlines closes.marked closes.le_hi closes.hi)
        ⟨taken.solid.upTo _, placed.eachSolid before⟩))
  next => exact places_afterName places records (taken.inRow (Nat.le_refl _))
  next => exact places_unreachable

theorem places_expressionBody (places : PlacesEach tokens Expr.outline Expr.Solid inner) (records : Bool) :
    PlacesEach tokens Expr.outline Expr.Solid (expressionBody inner records) := by
  intro s
  refine places_peek_bind fun _ => ?_
  split
  next starts =>
    have notEof := s.kind_ne_eof_of_mem starts (by decide)
    refine (places_advance notEof).bind ?_
    rintro token t - ⟨-, taken⟩
    exact places_expressionFrom places records taken
  next => exact places_reject

end

theorem places_expressionUpTo (n : Nat) (records : Bool) :
    PlacesEach tokens Expr.outline Expr.Solid (expressionUpTo n records) := by
  induction n generalizing records with
  | zero => exact fun _ => places_unreachable
  | succ n inductionHypothesis => exact places_expressionBody (inductionHypothesis true) records

theorem places_expression (records : Bool) : PlacesEach tokens Expr.outline Expr.Solid (expression records) :=
  fun s => places_left_bind (places_expressionUpTo (s.ahead.length + 1) records s)

theorem places_condition : PlacesEach tokens Expr.outline Expr.Solid condition :=
  places_expression false

/-- A missing value has the region of the token where it was looked for. This is not the end mark, for the separator
that is found is not behind that, and it is behind what follows, or it is the separator. -/
theorem places_value :
    Places tokens value s fun e t =>
      ∃ stop, Placed tokens Expr.outline Expr.Solid s.lo stop [e] ∧ t.Clears stop := by
  refine .assuming fun inOrder => places_peek_bind fun member => ?_
  refine (places_expression true s).attempt_bind ?made ?failed
  case made =>
    intro e t _ _ placed
    exact places_pure ⟨t.lo, placed, State.clears_of_le (Nat.le_refl _)⟩
  case failed =>
    intro t reaches _
    refine places_peek_bind fun _ => ?_
    dsimp only
    split
    next separator =>
      have notEof : s.kind ≠ .eof := by
        intro eof
        have empty := s.kind_eq_eof_iff.mp eof
        have ahead := reaches.ahead
        rw [empty, List.suffix_nil] at ahead
        have eofBehind : t.current.kind = .eof := t.kind_eq_eof_iff.mpr ahead
        simp [eofBehind] at separator
      have covers := inOrder.covers notEof
      refine places_pure ⟨s.current.span.hi, .single ?_ covers, ?_⟩
      · exact inRow_leaf (Span.marked_token member) (Nat.le_refl _) covers (Nat.le_refl _)
      · cases inOrder.stays_or_passes reaches with
        | inl stays => exact .inr ⟨separator, Nat.le_of_eq (by rw [stays.2])⟩
        | inr passes => exact .inl passes.2
    next => exact places_fail

end FrontEnd.Parser
