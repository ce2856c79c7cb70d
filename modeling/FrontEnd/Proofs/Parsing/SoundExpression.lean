import FrontEnd.Proofs.Grammar.Grammatical
import FrontEnd.Proofs.Grammar.Decimals
import FrontEnd.Proofs.Parsing.Sound

/-!
# Types and expressions are spelled by what was passed over

A run of a production of types or of expressions that reports nothing makes a tree of the surface
language, spelled by the terminals it passed over. An expression inside of another one starts behind at
least one token, so that it never runs out of depth.
-/

namespace FrontEnd.Parser

open Terminal

variable {α : Type}

/-! ## Types -/

theorem terminal_scalarOf {token : Token} (kind : token.kind ∈ scalarKinds)
    (lexical : token.terminal.Lexical) :
    token.terminal = (scalarOf token).terminal ∧
      ∀ name ∈ (scalarOf token).datatype?, IsName name := by
  simp only [scalarKinds, List.mem_cons, List.not_mem_nil, or_false] at kind
  rcases kind with kind | kind | kind | kind
  · have same := eq_sign_of_lexical lexical (by simp [kind, TokenKind.spelling?])
    simpa [scalarOf, kind, Scalar.terminal, Scalar.datatype?] using same
  · have same := eq_sign_of_lexical lexical (by simp [kind, TokenKind.spelling?])
    simpa [scalarOf, kind, Scalar.terminal, Scalar.datatype?] using same
  · have same := eq_sign_of_lexical lexical (by simp [kind, TokenKind.spelling?])
    simpa [scalarOf, kind, Scalar.terminal, Scalar.datatype?] using same
  · have isName : IsName token.literal := by simpa [Terminal.Lexical, kind] using lexical
    simp [scalarOf, kind, Scalar.terminal, Scalar.datatype?, Token.terminal, isName]

theorem sound_typeName {s : State} :
    Sound typeName (fun type ts => ts = type.terminals ∧ type.Grammatical) s := by
  apply sound_peek_bind
  apply sound_take_bind rfl
  · intro t takes
    refine (sound_consumeAny (by decide)).bind ?_
    rintro token _ u ⟨rfl, kind, lexical⟩ -
    obtain ⟨same, isName⟩ := terminal_scalarOf kind lexical
    exact sound_pure ⟨by simp [TypeName.terminals, same], isName⟩
  · intro _
    refine (sound_consumeAny (by decide)).bind ?_
    rintro token _ u ⟨rfl, kind, lexical⟩ -
    obtain ⟨same, isName⟩ := terminal_scalarOf kind lexical
    exact sound_pure ⟨by simp [TypeName.terminals, same], isName⟩

theorem sound_param {s : State} :
    Sound param (fun p ts => ts = p.terminals ∧ p.Grammatical) s := by
  refine sound_typeName.bind ?_
  rintro type _ t ⟨rfl, grammatical⟩ -
  refine sound_ident.bind ?_
  rintro name _ u ⟨rfl, isName⟩ -
  exact sound_pure ⟨by simp [Param.terminals], grammatical, isName⟩

/-- Parts that are each determined by an item are the image of the items. -/
theorem eq_map_of_forall₂ {terminals : α → List Terminal} {good : α → Prop} {xs : List α}
    {parts : List (List Terminal)}
    (each : List.Forall₂ (fun x part => part = terminals x ∧ good x) xs parts) :
    parts = xs.map terminals ∧ ∀ x ∈ xs, good x := by
  induction each with
  | nil => simp
  | cons head _ inductionHypothesis =>
    obtain ⟨rfl, isGood⟩ := head
    obtain ⟨rfl, others⟩ := inductionHypothesis
    exact ⟨rfl, by simpa using ⟨isGood, others⟩⟩

/-! ## Literals -/

theorem sound_integerValue {token : Token} {s : State} :
    Sound (integerValue token)
      (fun value ts => ts = [] ∧ Literal.readInteger token.literal = .ok value) s := by
  apply sound_ensure_bind
  split
  next reads => exact sound_pure ⟨rfl, reads⟩
  next => exact sound_report_bind

theorem sound_booleanValue {token : Token} {s : State} :
    Sound (booleanValue token)
      (fun value ts => ts = [] ∧ Literal.readBoolean? token.literal = some value) s := by
  apply sound_ensure_bind
  split
  next reads => exact sound_pure ⟨rfl, reads⟩
  next => exact sound_report_bind

theorem eq_ofBool_of_reads {t : Terminal} (kind : t.kind = .bool) {value : Bool}
    (reads : Literal.readBoolean? t.literal = some value) : t = ofBool value := by
  obtain ⟨_, literal⟩ := t
  cases kind
  simp only [Literal.readBoolean?] at reads
  split at reads
  next isTrue => cases reads; simp [ofBool, isTrue]
  next =>
    split at reads
    next isFalse => cases reads; simp [ofBool, isFalse]
    next => cases reads

theorem symbol_of_ofSymbol? {text : String} {op : Operator}
    (found : Operator.ofSymbol? text = some op) : op.symbol = text := by
  simpa using List.find?_some found

/-! ## Expressions -/

/-- Whether `inner` is sound before fewer than `n` tokens. -/
def SoundInner (inner : Parser Expr) (n : Nat) : Prop :=
  ∀ s : State, s.ahead.length < n →
    Sound inner (fun e ts => Expr.Spelled e ts ∧ e.Grammatical) s

variable {inner : Parser Expr} {n : Nat}

theorem eachSpelled_of_forall₂ {es : List Expr} {parts : List (List Terminal)}
    (each : List.Forall₂ (fun e ts => Expr.Spelled e ts ∧ e.Grammatical) es parts) :
    Expr.EachSpelled es parts ∧ Expr.EachGrammatical es := by
  induction each with
  | nil => exact ⟨.nil, trivial⟩
  | cons head _ inductionHypothesis =>
    exact ⟨.cons head.1 inductionHypothesis.1, head.2, inductionHypothesis.2⟩

/-- Whether `ts` spell a field and its value. -/
def SpellsField (field : FieldValue) (ts : List Terminal) : Prop :=
  IsName field.name.name ∧ field.value.Grammatical ∧
    ∃ part, Expr.Spelled field.value part ∧ ts = field.name.terminal :: sign .colon :: part

theorem eachSpelled_of_forall₂_fields {fields : List FieldValue} {parts : List (List Terminal)}
    (each : List.Forall₂ SpellsField fields parts) :
    FieldValue.EachSpelled fields parts ∧ FieldValue.EachGrammatical fields := by
  induction each with
  | nil => exact ⟨.nil, trivial⟩
  | @cons field part fields parts head _ inductionHypothesis =>
    obtain ⟨name, value⟩ := field
    obtain ⟨isName, grammatical, part, spelled, rfl⟩ := head
    exact ⟨.cons spelled inductionHypothesis.1, isName, grammatical, inductionHypothesis.2⟩

theorem sound_fieldValue (soundInner : SoundInner inner n) {s : State}
    (small : s.ahead.length < n) : Sound (fieldValue inner) SpellsField s := by
  refine sound_ident.bind ?_
  rintro name _ t ⟨rfl, isName⟩ passesName
  have shorter := passesName.length
  refine (sound_consume rfl).bind ?_
  rintro _ _ u rfl passesColon
  have shorterStill := passesColon.length
  refine (soundInner u (by omega)).bind ?_
  rintro value part v ⟨spelled, grammatical⟩ -
  exact sound_pure ⟨isName, grammatical, part, spelled, by simp⟩

theorem sound_arguments (soundInner : SoundInner inner n) {s : State} (small : s.ahead.length < n) :
    Sound (arguments inner) (fun found ts => ∃ parts items, Expr.EachSpelled found.1 parts ∧
      Expr.EachGrammatical found.1 ∧ Separated parts items ∧
      ts = sign .lParen :: (items ++ [sign .rParen])) s := by
  refine (sound_consume rfl).bind ?_
  rintro _ _ t rfl passesOpen
  have shorter := passesOpen.length
  refine sound_bracketed_bind rfl soundInner (by omega) ?_
  intro args close parts items u each listed _
  obtain ⟨eachSpelled, eachGrammatical⟩ := eachSpelled_of_forall₂ each
  exact sound_pure ⟨parts, items, eachSpelled, eachGrammatical, listed, by simp⟩

/-- Whether `ts` spell an expression of the surface language, and no record unless these are allowed. -/
def SpellsExpr (records : Bool) (e : Expr) (ts : List Terminal) : Prop :=
  Expr.Spelled e ts ∧ e.Grammatical ∧ (records = false → e.isRecord = false)

theorem sound_afterName (soundInner : SoundInner inner n) {records : Bool} {name : Ident}
    (isName : IsName name.name) {s : State} (small : s.ahead.length < n) :
    Sound (afterName inner records name)
      (fun e more => SpellsExpr records e (name.terminal :: more)) s := by
  apply sound_peek_bind
  split
  next =>
    refine (sound_arguments soundInner small).bind ?_
    rintro ⟨args, close⟩ _ t ⟨parts, items, eachSpelled, eachGrammatical, listed, rfl⟩ -
    exact sound_joined_bind
      (sound_pure ⟨by simpa using .call eachSpelled listed, ⟨isName, eachGrammatical⟩, fun _ => rfl⟩)
  next kind =>
    refine sound_advanceSign_bind rfl kind fun t takes => ?_
    have shorter := takes.length
    refine sound_ident.bind ?_
    rintro function _ u ⟨rfl, isFunction⟩ passesFunction
    have shorterStill := passesFunction.length
    refine (sound_arguments soundInner (by omega)).bind ?_
    rintro ⟨args, close⟩ _ v ⟨parts, items, eachSpelled, eachGrammatical, listed, rfl⟩ -
    exact sound_joined_bind (sound_pure ⟨by simpa using .libraryCall eachSpelled listed,
      ⟨isName, isFunction, eachGrammatical⟩, fun _ => rfl⟩)
  next kind =>
    cases records with
    | false => exact sound_pure ⟨.name, isName, fun _ => rfl⟩
    | true =>
      refine sound_advanceSign_bind rfl kind fun t takes => ?_
      have shorter := takes.length
      refine sound_bracketed_bind rfl (fun t => sound_fieldValue soundInner) (by omega) ?_
      intro fields close parts items u each listed _
      obtain ⟨eachSpelled, eachGrammatical⟩ := eachSpelled_of_forall₂_fields each
      exact sound_joined_bind (sound_pure ⟨by simpa using .record eachSpelled listed,
        ⟨isName, eachGrammatical⟩, fun impossible => by cases impossible⟩)
  next => exact sound_pure ⟨.name, isName, fun _ => rfl⟩

theorem sound_expressionFrom (soundInner : SoundInner inner n) {records : Bool} {token : Token}
    (starts : token.kind ∈ expressionKinds) (lexical : token.terminal.Lexical) {s : State}
    (small : s.ahead.length < n) :
    Sound (expressionFrom inner records token)
      (fun e more => SpellsExpr records e (token.terminal :: more)) s := by
  unfold expressionFrom
  split
  next kind =>
    refine sound_integerValue.bind ?_
    rintro value _ u ⟨rfl, reads⟩ -
    have numeral : IsNumeral token.literal := by simpa [Terminal.Lexical, kind] using lexical
    refine sound_pure ⟨?_, (Literal.readInteger_ok_iff.mp reads).2, fun _ => rfl⟩
    simpa [Token.terminal, kind] using Expr.Spelled.int numeral reads
  next kind =>
    have noQuote : '"' ∉ token.literal.toList := by simpa [Terminal.Lexical, kind] using lexical
    refine sound_pure ⟨?_, noQuote, fun _ => rfl⟩
    simpa [Token.terminal, kind] using Expr.Spelled.string
  next kind =>
    refine sound_booleanValue.bind ?_
    rintro value _ u ⟨rfl, reads⟩ -
    have boolean : token.terminal = ofBool value := eq_ofBool_of_reads kind reads
    rw [boolean]
    exact sound_pure ⟨.bool, trivial, fun _ => rfl⟩
  next kind =>
    have opening : token.terminal = sign .lBracket := by
      rw [eq_sign_of_lexical lexical (by simp [Token.terminal, kind, TokenKind.spelling?])]
      exact congrArg sign kind
    rw [opening]
    refine sound_bracketed_bind rfl soundInner small ?_
    intro items close parts inside u each listed _
    obtain ⟨eachSpelled, eachGrammatical⟩ := eachSpelled_of_forall₂ each
    exact sound_joined_bind
      (sound_pure ⟨by simpa using .list eachSpelled listed, eachGrammatical, fun _ => rfl⟩)
  next kind =>
    split
    next => exact sound_reject
    next op found =>
      have operator : token.terminal = ofOperator op := by
        simp [Token.terminal, kind, ofOperator, symbol_of_ofSymbol? found]
      refine (sound_arguments soundInner small).bind ?_
      rintro ⟨args, close⟩ _ u ⟨parts, items, eachSpelled, eachGrammatical, listed, rfl⟩ -
      rw [operator]
      exact sound_joined_bind
        (sound_pure ⟨by simpa using .operation eachSpelled listed, eachGrammatical, fun _ => rfl⟩)
  next kind =>
    have isName : IsName token.literal := by simpa [Terminal.Lexical, kind] using lexical
    have name : token.terminal = Ident.terminal ⟨token.literal, token.span⟩ := by
      simp [Token.terminal, kind, Ident.terminal]
    rw [name]
    exact sound_afterName soundInner isName small
  next =>
    -- the cases above are all the kinds an expression starts with
    simp only [expressionKinds, List.mem_cons, List.not_mem_nil, or_false] at starts
    grind

theorem sound_expressionBody (soundInner : SoundInner inner n) {records : Bool} {s : State}
    (small : s.ahead.length < n + 1) :
    Sound (expressionBody inner records) (SpellsExpr records) s := by
  apply sound_peek_bind
  split
  next starts =>
    have notEof := s.kind_ne_eof_of_mem starts (by decide)
    refine sound_advance_bind notEof rfl fun t takes lexical => ?_
    have shorter := takes.length
    exact sound_expressionFrom soundInner starts lexical (by omega)
  next => exact sound_reject

theorem sound_expressionUpTo {records : Bool} {s : State} (small : s.ahead.length < n) :
    Sound (expressionUpTo n records) (SpellsExpr records) s := by
  induction n generalizing records s with
  | zero => omega
  | succ n inductionHypothesis =>
    have soundInner : SoundInner (expressionUpTo n true) n := fun t smaller =>
      (inductionHypothesis smaller).imp fun e ts spelled => ⟨spelled.1, spelled.2.1⟩
    exact sound_expressionBody soundInner small

theorem sound_expression {records : Bool} {s : State} :
    Sound (expression records) (SpellsExpr records) s :=
  sound_left_bind (sound_expressionUpTo (Nat.lt_succ_self _))

/-- A value that is replaced has been reported. -/
theorem sound_value {s : State} :
    Sound value (fun e ts => Expr.Spelled e ts ∧ e.Grammatical) s := by
  refine sound_peek_bind (sound_expression.attempt_bind fun e ts t spelled _ => ?_)
  exact sound_pure (by simpa using ⟨spelled.1, spelled.2.1⟩)

theorem sound_condition {s : State} :
    Sound condition (fun e ts => Expr.Spelled e ts ∧ e.IsCondition) s :=
  sound_expression.imp fun _ _ spelled => ⟨spelled.1, spelled.2.1, spelled.2.2 rfl⟩

end FrontEnd.Parser
