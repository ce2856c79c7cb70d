import FrontEnd.Proofs.Parsing.Reads
import FrontEnd.Proofs.Parsing.Starts

/-!
# Types and expressions are read

Whatever spells a type, a parameter or an expression is read back, regions aside. An expression that is a
name is read where the token behind it does not continue it; for any other expression this does not
matter. An expression inside of another one is shorter by at least one terminal, which is why the depth
that the parser starts with suffices.
-/

namespace FrontEnd.Parser

open Terminal

/-! ## Types -/

theorem scalarOf_of_terminal {token : Token} {scalar : Scalar} (h : token.terminal = scalar.terminal) :
    scalarOf token = scalar := by
  have kind : token.kind = scalar.terminal.kind := congrArg Terminal.kind h
  have literal : token.literal = scalar.terminal.literal := congrArg Terminal.literal h
  cases scalar <;> simp [Scalar.terminal] at kind literal <;> simp [scalarOf, kind, literal]

theorem reads_typeName {type : TypeName} {s t : State} (passes : s.Passes type.terminals t) :
    Reads typeName s t fun found => found.bare = type.bare := by
  obtain ⟨scalar, isList, span⟩ := type
  apply reads_peek_bind
  cases isList with
  | true =>
    obtain ⟨u, takesMark, takes⟩ := passes
    apply reads_take_bind takesMark rfl
    refine (reads_consumeAny (State.passes_singleton_iff.mp takes)
      (kind_terminal_mem_scalarKinds scalar)).bind fun token same => ?_
    exact reads_joined_bind (reads_pure (by simp [TypeName.relocate, Span.blank, scalarOf_of_terminal same]))
  | false =>
    have takes := State.passes_singleton_iff.mp passes
    have notMark : s.kind ≠ .kwListOf := by
      rw [takes.kind]
      cases scalar <;> simp [Scalar.terminal]
    apply reads_leave_bind notMark
    refine (reads_consumeAny takes (kind_terminal_mem_scalarKinds scalar)).bind fun token same => ?_
    exact reads_joined_bind (reads_pure (by simp [TypeName.relocate, Span.blank, scalarOf_of_terminal same]))

theorem reads_param {p : Param} {s t : State} (passes : s.Passes p.terminals t) :
    Reads param s t fun found => found.bare = p.bare := by
  obtain ⟨u, passesType, passesName⟩ := State.passes_append_iff.mp passes
  refine (reads_typeName passesType).bind fun type sameType => ?_
  refine (reads_ident (State.passes_singleton_iff.mp passesName)).bind fun name sameName => ?_
  exact reads_pure (congrArg₂ Param.mk sameType (Ident.bare_of_name sameName))

theorem itemsRead_param {close : TokenKind} (h : close ∉ TokenKind.kwListOf :: scalarKinds)
    (ps : List Param) : ItemsRead close param Param.bare ps (ps.map Param.terminals) := by
  constructor
  rw [List.forall₂_map_right_iff, List.forall₂_same]
  intro p _
  obtain ⟨first, rest, starts, kind⟩ := terminals_typeName p.type
  refine ⟨⟨first, rest ++ [p.name.terminal], by simp [Param.terminals, starts], ?_⟩, ?_⟩
  · exact fun same => h (same ▸ kind)
  · exact fun s t passes _ => reads_param passes

/-! ## Expressions -/

theorem length_le_of_separated {parts : List (List Terminal)} {inner : List Terminal}
    (listed : Separated parts inner) {n : Nat} (small : inner.length ≤ n) :
    ∀ part ∈ parts, part.length ≤ n := by
  induction listed with
  | nil => simp
  | last part => simpa using small
  | cons part tail inductionHypothesis =>
    rw [List.length_append, List.length_cons] at small
    rw [List.forall_mem_cons]
    exact ⟨by omega, inductionHypothesis (by omega)⟩

theorem length_le_of_bracketed {first opening closing : Terminal} {inner : List Terminal} {n : Nat}
    (small : (first :: opening :: (inner ++ [closing])).length ≤ n + 1) : inner.length ≤ n := by
  simp only [List.length_cons, List.length_append] at small
  omega

/-- Whether the current token does not continue a name before it. -/
def State.EndsName (s : State) (records : Bool) : Prop :=
  s.kind ≠ .lParen ∧ s.kind ≠ .doubleColon ∧ (records = true → s.kind ≠ .lBrace)

theorem State.endsName_of_kind {s : State} {kind : TokenKind} (h : s.kind = kind) {records : Bool}
    (ends : kind ∈ [TokenKind.comma, .rParen, .rBracket, .rBrace, .dot]) : s.EndsName records := by
  subst h
  simp only [List.mem_cons, List.not_mem_nil, or_false] at ends
  rcases ends with h | h | h | h | h <;> simp [State.EndsName, h]

/-- Whether expressions spelled by at most `n` terminals are read by `inner`. -/
def ReadsInner (inner : Parser Expr) (n : Nat) : Prop :=
  ∀ {e : Expr} {ts : List Terminal}, Expr.Spelled e ts → ts.length ≤ n →
    ∀ {s t : State}, s.Passes ts t → t.EndsName true → Reads inner s t fun found => found.bare = e.bare

variable {inner : Parser Expr} {n : Nat}

theorem endsName_of_closes {close : TokenKind} (closes : close ∈ [TokenKind.rParen, .rBracket, .rBrace])
    {t : State} (h : t.kind = .comma ∨ t.kind = close) : t.EndsName true := by
  have ends : ∀ kind ∈ [TokenKind.rParen, .rBracket, .rBrace],
      kind ∈ [TokenKind.comma, .rParen, .rBracket, .rBrace, .dot] := by decide
  cases h with
  | inl comma => exact State.endsName_of_kind comma List.mem_cons_self
  | inr closed => exact State.endsName_of_kind closed (ends close closes)

theorem itemsRead_expr (readsInner : ReadsInner inner n) {close : TokenKind}
    (closes : close ∈ [TokenKind.rParen, .rBracket, .rBrace]) {es : List Expr}
    {parts : List (List Terminal)} (each : Expr.EachSpelled es parts)
    (small : ∀ part ∈ parts, part.length ≤ n) : ItemsRead close inner Expr.bare es parts := by
  constructor
  induction es generalizing parts with
  | nil => cases each; exact .nil
  | cons e es inductionHypothesis =>
    cases each with
    | cons head tail =>
      simp only [List.mem_cons, forall_eq_or_imp] at small
      obtain ⟨first, rest, rfl, starts⟩ := spelled_expr_starts head
      refine .cons ⟨⟨first, rest, rfl, ?_⟩, ?_⟩ (inductionHypothesis tail small.2)
      -- no expression starts with a token that closes a list
      · rintro rfl
        revert starts closes
        cases first.kind <;> simp [expressionKinds]
      · exact fun s t passes ends => readsInner head small.1 passes (endsName_of_closes closes ends)

theorem reads_fieldValue (readsInner : ReadsInner inner n) {name : Ident} {value : Expr}
    {part : List Terminal} (spelled : Expr.Spelled value part) (small : part.length ≤ n) {s t : State}
    (passes : s.Passes (name.terminal :: sign .colon :: part) t) (ends : t.EndsName true) :
    Reads (fieldValue inner) s t fun found => found.bare = FieldValue.bare ⟨name, value⟩ := by
  obtain ⟨u, takesName, v, takesColon, passesValue⟩ := passes
  refine (reads_ident takesName).bind fun found sameName => ?_
  refine (reads_consume takesColon rfl).bind fun _ _ => ?_
  refine (readsInner spelled small passesValue ends).bind fun e sameValue => ?_
  exact reads_pure (congrArg₂ FieldValue.mk (Ident.bare_of_name sameName) sameValue)

theorem itemsRead_fieldValue (readsInner : ReadsInner inner n) {fields : List FieldValue}
    {parts : List (List Terminal)} (each : FieldValue.EachSpelled fields parts)
    (small : ∀ part ∈ parts, part.length ≤ n) :
    ItemsRead .rBrace (fieldValue inner) FieldValue.bare fields parts := by
  constructor
  induction fields generalizing parts with
  | nil => cases each; exact .nil
  | cons field fields inductionHypothesis =>
    cases each with
    | cons head tail =>
      simp only [List.mem_cons, forall_eq_or_imp, List.length_cons] at small
      refine .cons ⟨⟨_, _, rfl, by simp [Ident.terminal]⟩, ?_⟩ (inductionHypothesis tail small.2)
      exact fun s t passes ends => reads_fieldValue readsInner head (by omega) passes
        (endsName_of_closes (by simp) ends)

theorem reads_arguments (readsInner : ReadsInner inner n) {args : List Expr}
    {parts : List (List Terminal)} {ts : List Terminal} (each : Expr.EachSpelled args parts)
    (listed : Separated parts ts) (small : ts.length ≤ n) {s t : State}
    (passes : s.Passes (sign .lParen :: (ts ++ [sign .rParen])) t) :
    Reads (arguments inner) s t fun found => Expr.recastEach .blank found.1 = Expr.recastEach .blank args := by
  obtain ⟨u, takesOpen, passesArgs⟩ := passes
  have shorter := length_le_of_separated listed small
  refine (reads_consume takesOpen rfl).bind fun _ _ => ?_
  refine reads_bracketed_bind (by simp) listed (itemsRead_expr readsInner (by simp) each shorter)
    passesArgs fun _ _ same => ?_
  exact reads_pure (by simpa only [Expr.recastEach_eq_map] using same)

theorem ofSymbol?_symbol (op : Operator) : Operator.ofSymbol? op.symbol = some op := by
  cases op <;> decide

theorem readBoolean?_ofBool (value : Bool) : Literal.readBoolean? (ofBool value).literal = some value := by
  cases value <;> decide

theorem reads_integerValue {token : Token} {value : Int} (h : Literal.readInteger token.literal = .ok value)
    {s : State} : Reads (integerValue token) s s (· = value) := by
  apply reads_ensure_bind
  rw [h]
  exact reads_pure rfl

theorem reads_booleanValue {token : Token} {value : Bool}
    (h : Literal.readBoolean? token.literal = some value) {s : State} :
    Reads (booleanValue token) s s (· = value) := by
  apply reads_ensure_bind
  rw [h]
  exact reads_pure rfl

/-! What follows a name decides what the expression is. -/

section AfterName

variable {found : Ident} {records : Bool} {span : Span}

theorem reads_afterName_none {ident : Ident} (same : found.name = ident.name) {s : State}
    (ends : s.EndsName records) :
    Reads (afterName inner records found) s s fun e => e.bare = (Expr.name ident span).bare := by
  apply reads_peek_bind
  split
  next opens => exact absurd opens ends.1
  next colons => exact absurd colons ends.2.1
  next brace =>
    rw [if_neg fun allowed => ends.2.2 allowed brace]
    exact reads_pure (congrArg (Expr.name · default) (Ident.bare_of_name same))
  next => exact reads_pure (congrArg (Expr.name · default) (Ident.bare_of_name same))

theorem reads_afterName_record (readsInner : ReadsInner inner n) {name : Ident}
    (same : found.name = name.name) {fields : List FieldValue} {parts : List (List Terminal)}
    {ts : List Terminal} (each : FieldValue.EachSpelled fields parts) (listed : Separated parts ts)
    (small : ts.length ≤ n) {s t : State}
    (passes : s.Passes (sign .lBrace :: (ts ++ [sign .rBrace])) t) :
    Reads (afterName inner true found) s t fun e =>
      e.bare = (Expr.record name fields span).bare := by
  obtain ⟨u, takesOpen, passesFields⟩ := passes
  have shorter := length_le_of_separated listed small
  apply reads_peek_bind
  rw [show s.current.kind = .lBrace from takesOpen.kind]
  simp only [if_true]
  refine (reads_advance takesOpen).bind fun _ _ => ?_
  refine reads_bracketed_bind (by simp) listed (itemsRead_fieldValue readsInner each shorter)
    passesFields fun _ _ sameFields => ?_
  refine reads_joined_bind (reads_pure ?_)
  rw [← FieldValue.recastEach_eq_map, ← FieldValue.recastEach_eq_map] at sameFields
  exact congrArg₂ (Expr.record · · default) (Ident.bare_of_name same) sameFields

theorem reads_afterName_call (readsInner : ReadsInner inner n) {function : Ident}
    (same : found.name = function.name) {args : List Expr} {parts : List (List Terminal)}
    {ts : List Terminal} (each : Expr.EachSpelled args parts) (listed : Separated parts ts)
    (small : ts.length ≤ n) {s t : State}
    (passes : s.Passes (sign .lParen :: (ts ++ [sign .rParen])) t) :
    Reads (afterName inner records found) s t fun e =>
      e.bare = (Expr.call function args span).bare := by
  apply reads_peek_bind
  rw [show s.current.kind = .lParen from passes.kind]
  refine (reads_arguments readsInner each listed small passes).bind fun _ sameArgs => ?_
  exact reads_joined_bind (reads_pure (congrArg₂ (Expr.call · · default) (Ident.bare_of_name same) sameArgs))

theorem reads_afterName_libraryCall (readsInner : ReadsInner inner n) {space function : Ident}
    (same : found.name = space.name) {args : List Expr} {parts : List (List Terminal)}
    {ts : List Terminal} (each : Expr.EachSpelled args parts) (listed : Separated parts ts)
    (small : ts.length ≤ n) {s t : State}
    (passes : s.Passes
      (sign .doubleColon :: function.terminal :: sign .lParen :: (ts ++ [sign .rParen])) t) :
    Reads (afterName inner records found) s t fun e =>
      e.bare = (Expr.libraryCall space function args span).bare := by
  obtain ⟨u, takesColons, v, takesName, passesArgs⟩ := passes
  apply reads_peek_bind
  rw [show s.current.kind = .doubleColon from takesColons.kind]
  refine (reads_advance takesColons).bind fun _ _ => ?_
  refine (reads_ident takesName).bind fun _ sameName => ?_
  refine (reads_arguments readsInner each listed small passesArgs).bind fun _ sameArgs => ?_
  have names := congrArg₂ (Expr.libraryCall · · · default) (Ident.bare_of_name same) (Ident.bare_of_name sameName)
  have sameCall := congr names sameArgs
  exact reads_joined_bind (reads_pure sameCall)

end AfterName

/-- The first token is taken, and decides with what follows it. -/
theorem reads_expressionBody_of_takes {records : Bool} {first : Terminal} {s t u : State}
    {good : Expr → Prop} (takes : s.Takes first u) (starts : first.kind ∈ expressionKinds)
    (next : ∀ token : Token, token.terminal = first →
      Reads (expressionFrom inner records token) u t good) :
    Reads (expressionBody inner records) s t good := by
  have kind : s.current.kind = first.kind := takes.kind
  apply reads_peek_bind
  rw [kind, if_pos starts]
  exact (reads_advance takes).bind next

theorem reads_expressionBody (readsInner : ReadsInner inner n) {e : Expr} {ts : List Terminal}
    (spelled : Expr.Spelled e ts) (small : ts.length ≤ n + 1) {records : Bool}
    (allowed : e.isRecord = true → records = true) {s t : State} (passes : s.Passes ts t)
    (ends : t.EndsName records) :
    Reads (expressionBody inner records) s t fun found => found.bare = e.bare := by
  -- the current token decides, and behind a name the one that follows it
  have kinds : ∀ {token : Token} {first : Terminal}, token.terminal = first →
      token.kind = first.kind := fun same => congrArg Terminal.kind same
  have literals : ∀ {token : Token} {first : Terminal}, token.terminal = first →
      token.literal = first.literal := fun same => congrArg Terminal.literal same
  cases spelled with
  | int _ reads =>
    have takes := State.passes_singleton_iff.mp passes
    refine reads_expressionBody_of_takes takes (by simp [expressionKinds]) fun token same => ?_
    rw [expressionFrom, kinds same]
    have reads : Literal.readInteger token.literal = .ok _ := (congrArg _ (literals same)).trans reads
    refine (reads_integerValue reads).bind fun _ sameValue => ?_
    exact reads_pure (congrArg (Expr.int · default) sameValue)
  | string =>
    have takes := State.passes_singleton_iff.mp passes
    refine reads_expressionBody_of_takes takes (by simp [expressionKinds]) fun token same => ?_
    rw [expressionFrom, kinds same, literals same]
    exact reads_pure rfl
  | bool =>
    have takes := State.passes_singleton_iff.mp passes
    refine reads_expressionBody_of_takes takes (by simp [ofBool, expressionKinds])
      fun token same => ?_
    rw [expressionFrom, kinds same]
    have reads : Literal.readBoolean? token.literal = some _ :=
      (congrArg _ (literals same)).trans (readBoolean?_ofBool _)
    refine (reads_booleanValue reads).bind fun _ sameValue => ?_
    exact reads_pure (congrArg (Expr.bool · default) sameValue)
  | name =>
    have takes := State.passes_singleton_iff.mp passes
    refine reads_expressionBody_of_takes takes (by simp [Ident.terminal, expressionKinds])
      fun token same => ?_
    rw [expressionFrom, kinds same]
    exact reads_afterName_none (literals same) ends
  | record each listed =>
    obtain ⟨u, takesName, passesFields⟩ := passes
    have shorter := length_le_of_bracketed small
    refine reads_expressionBody_of_takes takesName (by simp [Ident.terminal, expressionKinds])
      fun token same => ?_
    rw [expressionFrom, kinds same, allowed rfl]
    exact reads_afterName_record readsInner (literals same) each listed shorter passesFields
  | @operation op _ _ _ _ each listed =>
    obtain ⟨u, takesOp, passesArgs⟩ := passes
    have shorter := length_le_of_bracketed small
    refine reads_expressionBody_of_takes takesOp (by simp [ofOperator, expressionKinds])
      fun token same => ?_
    rw [expressionFrom, kinds same, show token.literal = op.symbol from literals same,
      ofSymbol?_symbol]
    refine (reads_arguments readsInner each listed shorter passesArgs).bind fun _ sameArgs => ?_
    exact reads_joined_bind (reads_pure (congrArg (Expr.operation op · default) sameArgs))
  | call each listed =>
    obtain ⟨u, takesName, passesArgs⟩ := passes
    have shorter := length_le_of_bracketed small
    refine reads_expressionBody_of_takes takesName (by simp [Ident.terminal, expressionKinds])
      fun token same => ?_
    rw [expressionFrom, kinds same]
    exact reads_afterName_call readsInner (literals same) each listed shorter passesArgs
  | libraryCall each listed =>
    obtain ⟨u, takesSpace, passesBehind⟩ := passes
    have shorter := length_le_of_bracketed (Nat.le_of_succ_le (Nat.le_of_succ_le small))
    refine reads_expressionBody_of_takes takesSpace (by simp [Ident.terminal, expressionKinds])
      fun token same => ?_
    rw [expressionFrom, kinds same]
    exact reads_afterName_libraryCall readsInner (literals same) each listed shorter passesBehind
  | list each listed =>
    obtain ⟨u, takesOpen, passesItems⟩ := passes
    simp only [List.length_cons, List.length_append] at small
    have shorter := length_le_of_separated listed (n := n) (by omega)
    refine reads_expressionBody_of_takes takesOpen (by simp [expressionKinds]) fun token same => ?_
    rw [expressionFrom, kinds same]
    refine reads_bracketed_bind (by simp) listed (itemsRead_expr readsInner (by simp) each shorter)
      passesItems fun _ _ sameItems => ?_
    rw [← Expr.recastEach_eq_map, ← Expr.recastEach_eq_map] at sameItems
    exact reads_joined_bind (reads_pure (congrArg (Expr.list · default) sameItems))

theorem reads_expressionUpTo {e : Expr} {ts : List Terminal} (spelled : Expr.Spelled e ts)
    (small : ts.length ≤ n) {records : Bool} (allowed : e.isRecord = true → records = true)
    {s t : State} (passes : s.Passes ts t) (ends : t.EndsName records) :
    Reads (expressionUpTo n records) s t fun found => found.bare = e.bare := by
  induction n generalizing e ts records s t with
  | zero =>
    -- nothing is spelled by no terminals
    obtain ⟨first, rest, rfl, -⟩ := spelled_expr_starts spelled
    simp at small
  | succ n inductionHypothesis =>
    exact reads_expressionBody
      (fun inside shorter _ _ passed ended => inductionHypothesis inside shorter (by simp) passed ended)
      spelled small allowed passes ends

theorem reads_expression {e : Expr} {ts : List Terminal} (spelled : Expr.Spelled e ts)
    {records : Bool} (allowed : e.isRecord = true → records = true) {s t : State}
    (passes : s.Passes ts t) (ends : t.EndsName records) :
    Reads (expression records) s t fun found => found.bare = e.bare := by
  apply reads_left_bind
  exact reads_expressionUpTo spelled (by rw [passes.length]; omega) allowed passes ends

theorem reads_value {e : Expr} {ts : List Terminal} (spelled : Expr.Spelled e ts) {s t : State}
    (passes : s.Passes ts t) (ends : t.kind = .comma ∨ t.kind = .dot) :
    Reads value s t fun found => found.bare = e.bare := by
  have endsName : t.EndsName true := by
    cases ends with
    | inl comma => exact State.endsName_of_kind comma (by simp)
    | inr dot => exact State.endsName_of_kind dot (by simp)
  apply reads_peek_bind
  refine (reads_expression spelled (fun _ => rfl) passes endsName).attempt.bind ?_
  rintro _ ⟨found, rfl, same⟩
  exact reads_pure same

theorem reads_condition {e : Expr} {ts : List Terminal} (spelled : Expr.Spelled e ts)
    (noRecord : e.isRecord = false) {s t : State} (passes : s.Passes ts t)
    (ends : t.EndsName false) : Reads condition s t fun found => found.bare = e.bare :=
  reads_expression spelled (by simp [noRecord]) passes ends

end FrontEnd.Parser
