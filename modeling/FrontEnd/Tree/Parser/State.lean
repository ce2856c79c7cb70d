import FrontEnd.Diagnostic
import FrontEnd.Token

/-!
# Parsers and their state

A parser sees the significant tokens up to the first end mark, each with the illegal characters that
were skipped on the way to it (`State`). It only ever moves forward, one token at a time, and an
illegal character is reported once, on arrival at the token behind it. A production that fails keeps
the tokens it took and the errors it reported. `State.Reaches` says what any production may do to a
state, and a `Parser` carries the proof that it does no more. `Parser` composes productions; those at
the end of this module take single tokens, and `run_bind` says how any two are joined.

Beside what it does, a `Parser` has what it takes for granted (`Parser.asserts`): conditions that are
written where they have to hold (`ensure`), points that no run may come to (`unreachable`) and loops that
have to end. They change nothing in a run.
-/

namespace FrontEnd.Parser

/-- What can be wrong with a sequence of tokens. -/
inductive Error where
  | unexpected (found expected : TokenKind)
  | unexpectedAny (found : TokenKind) (expected : List TokenKind)
  | expectedAssign (found : TokenKind)
  | expectedStatement (found : TokenKind)
  | expectedExpression (found : TokenKind)
  /-- A function or a datatype is declared inside of another statement. -/
  | nestedDeclaration (keyword : TokenKind)
  | unterminatedBlock (close : TokenKind)
  | invalidInteger (literal : String)
  | invalidBoolean (literal : String)
  | unknownOperator (literal : String)
  | illegalCharacter (found : String)
  deriving DecidableEq

/-- The kinds in a message, one after the other. -/
def describeKinds (kinds : List TokenKind) : String :=
  ", ".intercalate (kinds.map TokenKind.describe)

instance : Reportable Error where
  stage := .parser
  code
    | .unexpected .. => "P001"
    | .unexpectedAny .. => "P002"
    | .expectedAssign .. => "P003"
    | .expectedStatement .. => "P004"
    | .expectedExpression .. => "P005"
    | .nestedDeclaration .. => "P006"
    | .unterminatedBlock .. => "P007"
    | .invalidInteger .. => "P008"
    | .invalidBoolean .. => "P009"
    | .unknownOperator .. => "P010"
    | .illegalCharacter .. => "P011"
  message
    | .unexpected found expected => s!"expected {expected.describe}, but got {found.describe}"
    | .unexpectedAny found expected =>
      s!"expected one of {describeKinds expected}, but got {found.describe}"
    | .expectedAssign found => s!"expected `=`, but got {found.describe}"
    | .expectedStatement found => s!"expected a statement, but got {found.describe}"
    | .expectedExpression found => s!"expected an expression, but got {found.describe}"
    | .nestedDeclaration keyword =>
      s!"{keyword.describe} declarations are only allowed at the top level"
    | .unterminatedBlock close =>
      s!"unterminated block, expected {close.describe} before the end of input"
    | .invalidInteger literal => s!"`{literal}` is not a valid integer"
    | .invalidBoolean literal => s!"`{literal}` is not a valid boolean"
    | .unknownOperator literal => s!"unknown operator `{literal}`"
    | .illegalCharacter found => s!"illegal character `{found}`"

/-- A token that matters to the grammar. -/
structure Significant where
  /-- The illegal characters skipped on the way to it. -/
  skipped : List Token
  token : Token

/-- What a parser has before it, and what it has reported. -/
structure State where
  /-- The significant tokens ahead, without the end mark. -/
  ahead : List Significant
  /-- The end mark. -/
  final : Significant
  errors : List (Located Error)
  kind_ahead : ∀ t ∈ ahead, t.token.kind ≠ .eof
  kind_final : final.token.kind = .eof

namespace State

/-- The token that is parsed next. -/
def front (s : State) : Significant :=
  s.ahead.headD s.final

/-- The token that is parsed next, by itself. -/
def current (s : State) : Token :=
  s.front.token

/-- The kind of the token that is parsed next. -/
def kind (s : State) : TokenKind :=
  s.current.kind

/-- The token after the one that is parsed next. -/
def second (s : State) : Token :=
  (s.ahead.tail.headD s.final).token

/-- Adds an error. -/
def report (s : State) (e : Error) (span : Span) : State :=
  { s with errors := s.errors ++ [⟨e, span⟩] }

/-- Adds the errors for the illegal characters skipped on the way to the current token. -/
def reportSkipped (s : State) : State :=
  { s with errors := s.errors ++ s.front.skipped.map fun t => ⟨.illegalCharacter t.literal, t.span⟩ }

/-- Drops the first of the tokens ahead. -/
def behindFirst (s : State) : State :=
  { s with
    ahead := s.ahead.tail
    kind_ahead := fun t ht => s.kind_ahead t (List.mem_of_mem_tail ht) }

/-- Moves to the next token. The end mark is never passed. -/
def advance (s : State) : State :=
  if s.ahead.isEmpty then s else s.behindFirst.reportSkipped

/-- Whether the current token is the end mark or of one of the kinds. -/
def isAtEnd (s : State) (kinds : List TokenKind) : Bool :=
  s.kind = .eof || s.kind ∈ kinds

/-- Skips tokens to where parsing can be taken up again after an error. This is behind the first token
of kind `resume` that is not followed by the end, and then the answer is true; it is never past the
end mark or a token that stops. -/
def skipTo (resume : TokenKind) (stops : List TokenKind) : Nat → State → Bool × State
  | 0, s => (false, s)
  | n + 1, s =>
    if s.isAtEnd stops then (false, s)
    else if s.kind = resume ∧ ¬ s.advance.isAtEnd stops then (true, s.advance)
    else skipTo resume stops n s.advance

/-- Skips tokens as `skipTo` does, over as many as there are. -/
def resync (resume : TokenKind) (stops : List TokenKind) (s : State) : Bool × State :=
  skipTo resume stops s.ahead.length s

/-! ## Moving forward -/

/-- One state lies behind another: tokens were passed and errors added, and nothing else changed. -/
structure Reaches (s s' : State) : Prop where
  ahead : s'.ahead <:+ s.ahead
  final : s'.final = s.final
  errors : s.errors <+: s'.errors

theorem Reaches.refl (s : State) : s.Reaches s :=
  ⟨List.suffix_rfl, rfl, List.prefix_rfl⟩

theorem Reaches.trans {s t u : State} (first : s.Reaches t) (second : t.Reaches u) : s.Reaches u :=
  ⟨second.ahead.trans first.ahead, second.final.trans first.final, first.errors.trans second.errors⟩

theorem reaches_report (s : State) (e : Error) (span : Span) : s.Reaches (s.report e span) :=
  ⟨List.suffix_rfl, rfl, List.prefix_append _ _⟩

theorem reaches_advance (s : State) : s.Reaches s.advance := by
  unfold advance
  split
  · exact .refl s
  · exact ⟨List.tail_suffix _, rfl, List.prefix_append _ _⟩

theorem reaches_skipTo (resume : TokenKind) (stops : List TokenKind) (n : Nat) (s : State) :
    s.Reaches (skipTo resume stops n s).2 := by
  induction n generalizing s with
  | zero => exact .refl s
  | succ n inductionHypothesis =>
    unfold skipTo
    split
    · exact .refl s
    · split
      · exact s.reaches_advance
      · exact s.reaches_advance.trans (inductionHypothesis s.advance)

end State

/-- Splits tokens at the first end mark, or at `missing` if there is none, and gathers the illegal
characters. Blanks and comments are dropped, and so is all behind the end mark. -/
def arrange (missing : Token) (skipped : List Token) : List Token → List Significant × Significant
  | [] => ([], ⟨skipped, missing⟩)
  | t :: rest =>
    if t.isEof then ([], ⟨skipped, t⟩)
    else if t.kind.isTrivia then arrange missing skipped rest
    else if t.kind = .illegal then arrange missing (skipped ++ [t]) rest
    else
      let (ahead, final) := arrange missing [] rest
      (⟨skipped, t⟩ :: ahead, final)

theorem kind_of_mem_arrange (missing : Token) (skipped tokens : List Token) :
    ∀ t ∈ (arrange missing skipped tokens).1, t.token.kind ≠ .eof := by
  induction tokens generalizing skipped with
  | nil => simp [arrange]
  | cons t rest inductionHypothesis =>
    unfold arrange
    split
    next => simp
    next notEof =>
      split
      next => exact inductionHypothesis skipped
      next =>
        split
        next => exact inductionHypothesis (skipped ++ [t])
        next =>
          intro u member
          cases List.mem_cons.mp member with
          | inl same => simpa [same, Token.isEof] using notEof
          | inr later => exact inductionHypothesis [] u later

theorem kind_arrange (missing : Token) (isEof : missing.kind = .eof) (skipped tokens : List Token) :
    (arrange missing skipped tokens).2.token.kind = .eof := by
  induction tokens generalizing skipped with
  | nil => exact isEof
  | cons t rest inductionHypothesis =>
    unfold arrange
    split
    next found => simpa [Token.isEof] using found
    next =>
      split
      next => exact inductionHypothesis skipped
      next =>
        split
        next => exact inductionHypothesis (skipped ++ [t])
        next => exact inductionHypothesis []

/-- The end mark that is supplied behind a last token. -/
def endAfter (last : Token) : Token :=
  ⟨.eof, "", ⟨last.span.hi, 0, last.span.line, last.span.column⟩⟩

/-- The state before tokens of which this is the last. -/
def State.before (tokens : List Token) (last : Token) : State :=
  State.reportSkipped
    { ahead := (arrange (endAfter last) [] tokens).1
      final := (arrange (endAfter last) [] tokens).2
      errors := []
      kind_ahead := kind_of_mem_arrange (endAfter last) [] tokens
      kind_final := kind_arrange (endAfter last) rfl [] tokens }

/-- The state before some tokens. There is none before no tokens. -/
def State.ofTokens? (tokens : List Token) : Option State :=
  tokens.getLast?.map (State.before tokens)

end FrontEnd.Parser

namespace FrontEnd

/-- A production of the grammar: it takes tokens and makes a value, or it fails. It never moves back
and never withdraws an error. -/
@[ext] structure Parser (α : Type) where
  run : Parser.State → Option α × Parser.State
  /-- Whether all that is taken for granted on the way from a state is so. -/
  asserts : Parser.State → Prop
  reaches : ∀ s : Parser.State, s.Reaches (run s).2

namespace Parser

variable {α β : Type}

instance : Monad Parser where
  pure x := ⟨fun s => (some x, s), fun _ => True, .refl⟩
  bind p f :=
    { run := fun s =>
        match p.run s with
        | (some x, s) => (f x).run s
        | (none, s) => (none, s)
      asserts := fun s => p.asserts s ∧ ∀ x t, p.run s = (some x, t) → (f x).asserts t
      reaches := fun s => by
        have first := p.reaches s
        split
        next x t ran => rw [ran] at first; exact first.trans ((f x).reaches t)
        next t ran => rw [ran] at first; exact first }

@[simp] theorem run_pure (x : α) (s : State) : (pure x : Parser α).run s = (some x, s) := rfl

theorem run_bind (p : Parser α) (f : α → Parser β) (s : State) :
    (p >>= f).run s =
      match p.run s with
      | (some x, s) => (f x).run s
      | (none, s) => (none, s) := rfl

/-- Where a bind makes something, both of its parts do. -/
theorem run_bind_eq_some {p : Parser α} {f : α → Parser β} {y : β} {s u : State}
    (ran : (p >>= f).run s = (some y, u)) :
    ∃ x t, p.run s = (some x, t) ∧ (f x).run t = (some y, u) := by
  rw [run_bind] at ran
  cases first : p.run s with
  | mk result t =>
    rw [first] at ran
    cases result with
    | none => cases ran
    | some x => exact ⟨x, t, rfl, ran⟩

theorem reaches_of_run {p : Parser α} {s t : State} {result : Option α}
    (ran : p.run s = (result, t)) : s.Reaches t := by
  have reaches := p.reaches s
  rwa [ran] at reaches

/-- A production that only looks, and may fail. -/
def looking (look : State → Option α) : Parser α where
  run s := (look s, s)
  asserts _ := True
  reaches := .refl

/-- Takes a condition for granted. -/
def ensure (holds : State → Prop) : Parser Unit where
  run s := (some (), s)
  asserts := holds
  reaches := .refl

/-- A point that no run comes to. -/
def unreachable : Parser α where
  run s := (none, s)
  asserts _ := False
  reaches := .refl

/-- Fails, without a report of its own. -/
def fail : Parser α :=
  looking fun _ => none

/-- The token that is parsed next. -/
def peek : Parser Token :=
  looking fun s => some s.current

/-- The token after the one that is parsed next. -/
def peekSecond : Parser Token :=
  looking fun s => some s.second

/-- Whether the current token is the end mark or of one of the kinds. -/
def atEnd (kinds : List TokenKind) : Parser Bool :=
  looking fun s => some (s.isAtEnd kinds)

/-- The number of tokens before the end mark. -/
def left : Parser Nat :=
  looking fun s => some s.ahead.length

/-- Reports an error. -/
def report (e : Error) (span : Span) : Parser Unit where
  run s := (some (), s.report e span)
  asserts _ := True
  reaches s := s.reaches_report e span

/-- Reports an error and fails. -/
def reject (e : Error) (span : Span) : Parser α where
  run s := (none, s.report e span)
  asserts _ := True
  reaches s := s.reaches_report e span

/-- Takes the current token. -/
def advance : Parser Token where
  run s := (some s.current, s.advance)
  asserts _ := True
  reaches := State.reaches_advance

/-- Takes the current token if it is of the kind, and answers whether it did. -/
def take (kind : TokenKind) : Parser Bool where
  run s := if s.kind = kind then (some true, s.advance) else (some false, s)
  asserts _ := True
  reaches s := by
    split
    · exact s.reaches_advance
    · exact .refl s

/-- Takes the current token if it satisfies a condition. Otherwise reports an error there and fails. -/
def expect (accepts : Token → Bool) (e : TokenKind → Error) : Parser Token where
  run s :=
    if accepts s.current then (some s.current, s.advance)
    else (none, s.report (e s.kind) s.current.span)
  asserts _ := True
  reaches s := by
    split
    · exact s.reaches_advance
    · exact s.reaches_report _ _

/-- Takes a token of the kind, or fails. -/
def consume (kind : TokenKind) : Parser Token :=
  expect (fun t => t.kind = kind) fun found => .unexpected found kind

/-- Takes a token of one of the kinds, or fails. -/
def consumeAny (kinds : List TokenKind) : Parser Token :=
  expect (fun t => t.kind ∈ kinds) fun found => .unexpectedAny found kinds

/-- Takes the sign of an assignment, or fails. -/
def consumeAssign : Parser Token :=
  expect (fun t => t.kind = .operator && t.literal = "=") .expectedAssign

/-- Runs a production and turns its failure into an answer. What it took and reported stays. -/
def attempt (p : Parser α) : Parser (Option α) where
  run s := (some (p.run s).1, (p.run s).2)
  asserts := p.asserts
  reaches := p.reaches

/-- Skips tokens to where parsing can be taken up again, and answers whether it can. Where it cannot,
there is nothing left to skip. -/
def resync (resume : TokenKind) (stops : List TokenKind) : Parser Bool where
  run s := (some (s.resync resume stops).1, (s.resync resume stops).2)
  asserts s := (s.resync resume stops).1 = false → (s.resync resume stops).2.isAtEnd stops = true
  reaches s := s.reaches_skipTo resume stops s.ahead.length

end Parser

end FrontEnd
