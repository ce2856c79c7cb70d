import FrontEnd.Proofs.Grammar.Named
import FrontEnd.Proofs.Grammar.Recast
import FrontEnd.Tree.Parser.Expression

/-!
# Simulations

A run changes the state in two ways only: it takes a token, or it reports an error at a token that it has seen, which
is not about an illegal character. So two runs that start at related states stay at related ones if both ways lead
from related states to related states again (`Simulation`), provided that they see the same tokens, if in other places.
`Follows` says of two productions that, from related states, the second one makes what the first one makes, with its
regions in the other places, that they arrive at related states, and that what is made is good. Every production
follows itself: this is shown here for the ways of composing productions, and for each production once, for whatever
simulation. What is made has names in it that are those of tokens.

A property of single states that both ways keep is a simulation of a run by itself (`Invariant`).
-/

namespace FrontEnd.Parser

variable {α β γ δ : Type}

def Error.isIllegalCharacter : Error → Bool
  | .illegalCharacter _ => true
  | _ => false

/-- Whether a token can be what an error is about: an error about a literal without a value, or about an operator that
there is not, is about a token of the kind with this literal. -/
def Error.Suits (t : Token) : Error → Prop
  | .invalidInteger literal =>
    t.kind = .int ∧ t.literal = literal ∧ ∃ e, Literal.readInteger literal = .error e
  | .invalidBoolean literal => t.kind = .bool ∧ t.literal = literal ∧ Literal.readBoolean? literal = none
  | .unknownOperator literal => t.kind = .operator ∧ t.literal = literal ∧ Operator.ofSymbol? literal = none
  | _ => True

/-- Whether an error can be what a production reports at a token. -/
structure Error.RaisedAt (e : Error) (t : Token) : Prop where
  legal : e.isIllegalCharacter = false
  suits : e.Suits t

/-- A relation between states that is kept by all that a run does to them. -/
structure Simulation where
  /-- Where a region is put. -/
  place : Span → Span
  place_upTo : ∀ s t : Span, place (s.upTo t) = (place s).upTo (place t)
  /-- What is known of each token that is seen. -/
  Knows : Token → Prop
  /-- Which sort of names the tokens have. -/
  IsName : String → Prop
  isName_of_knows {t : Token} : Knows t → t.kind = .identifier → IsName t.literal
  Relates : State → State → Prop
  knows_current {s t : State} : Relates s t → Knows s.current
  knows_second {s t : State} : Relates s t → Knows s.second
  current_eq {s t : State} : Relates s t → t.current = s.current.relocate place
  second_eq {s t : State} : Relates s t → t.second = s.second.relocate place
  length_eq {s t : State} : Relates s t → t.ahead.length = s.ahead.length
  relates_report {s t : State} {e : Error} {u : Token} : Relates s t → Knows u → e.RaisedAt u →
    Relates (s.report e u.span) (t.report e (place u.span))
  relates_advance {s t : State} : Relates s t → Relates s.advance t.advance

/-- A property of states that is kept by all that a run does to them. -/
structure Invariant where
  /-- What is known of each token that is seen. -/
  Knows : Token → Prop
  /-- Which sort of names the tokens have. -/
  IsName : String → Prop
  isName_of_knows {t : Token} : Knows t → t.kind = .identifier → IsName t.literal
  Holds : State → Prop
  knows_current {s : State} : Holds s → Knows s.current
  knows_second {s : State} : Holds s → Knows s.second
  holds_report {s : State} {e : Error} {u : Token} : Holds s → Knows u → e.RaisedAt u → Holds (s.report e u.span)
  holds_advance {s : State} : Holds s → Holds s.advance

theorem id_upTo (s t : Span) : id (s.upTo t) = (id s).upTo (id t) := rfl

/-- A run simulates itself at the states that have a property which is kept. -/
def Invariant.simulation (invariant : Invariant) : Simulation where
  place := id
  place_upTo := id_upTo
  Knows := invariant.Knows
  IsName := invariant.IsName
  isName_of_knows := invariant.isName_of_knows
  Relates s t := s = t ∧ invariant.Holds s
  knows_current related := invariant.knows_current related.2
  knows_second related := invariant.knows_second related.2
  current_eq related := congrArg State.current related.1.symm
  second_eq related := congrArg State.second related.1.symm
  length_eq related := congrArg (List.length ∘ State.ahead) related.1.symm
  relates_report related known raised :=
    ⟨congrArg (State.report · _ _) related.1, invariant.holds_report related.2 known raised⟩
  relates_advance related := ⟨congrArg State.advance related.1, invariant.holds_advance related.2⟩

namespace Simulation

variable {sim : Simulation} {s t : State}

theorem kind_eq (related : sim.Relates s t) : t.kind = s.kind := by
  rw [State.kind, sim.current_eq related, State.kind, Token.kind_relocate]

theorem isAtEnd_eq (related : sim.Relates s t) (kinds : List TokenKind) : t.isAtEnd kinds = s.isAtEnd kinds := by
  rw [State.isAtEnd, kind_eq related, State.isAtEnd]

/-- Skipping stops at the same token. -/
theorem skipTo (related : sim.Relates s t) (resume : TokenKind) (stops : List TokenKind) (n : Nat) :
    (t.skipTo resume stops n).1 = (s.skipTo resume stops n).1 ∧
      sim.Relates (s.skipTo resume stops n).2 (t.skipTo resume stops n).2 := by
  induction n generalizing s t with
  | zero => exact ⟨rfl, related⟩
  | succ n inductionHypothesis =>
    have moved := sim.relates_advance related
    simp only [State.skipTo, isAtEnd_eq related, kind_eq related, isAtEnd_eq moved]
    split
    · exact ⟨rfl, related⟩
    · split
      · exact ⟨rfl, moved⟩
      · exact inductionHypothesis moved

/-- Whether, from related states, two productions make the same in other places, which is good, and arrive at related
states. -/
def Follows (sim : Simulation) (view : α → β) (good : α → Prop) (p : Parser α) (q : Parser β) : Prop :=
  ∀ s t, sim.Relates s t →
    (q.run t).1 = (p.run s).1.map view ∧ sim.Relates (p.run s).2 (q.run t).2 ∧ ∀ x ∈ (p.run s).1, good x

variable {view : α → β} {viewBehind : γ → δ} {good : α → Prop} {goal : γ → Prop}

/-! ## Composition -/

theorem follows_pure {x : α} {y : β} (same : view x = y) (isGood : good x) :
    sim.Follows view good (pure x) (pure y) :=
  fun _ _ related => ⟨congrArg some same.symm, related, by simpa using isGood⟩

theorem follows_fail : sim.Follows view good fail fail :=
  fun _ _ related => ⟨rfl, related, by simp [fail, looking]⟩

theorem follows_unreachable : sim.Follows view good unreachable unreachable :=
  follows_fail

theorem Follows.imp {better : α → Prop} {p : Parser α} {q : Parser β} (follows : sim.Follows view good p q)
    (imp : ∀ x, good x → better x) : sim.Follows view better p q := by
  intro s t related
  obtain ⟨same, arrived, made⟩ := follows s t related
  exact ⟨same, arrived, fun x member => imp x (made x member)⟩

theorem Follows.bind {p : Parser α} {q : Parser β} {f : α → Parser γ} {g : β → Parser δ}
    (first : sim.Follows view good p q) (second : ∀ x, good x → sim.Follows viewBehind goal (f x) (g (view x))) :
    sim.Follows viewBehind goal (p >>= f) (q >>= g) := by
  intro s t related
  obtain ⟨same, arrived, made⟩ := first s t related
  rw [run_bind, run_bind]
  generalize p.run s = ran at *
  generalize q.run t = ranAgain at *
  obtain ⟨result, s⟩ := ran
  obtain ⟨_, t⟩ := ranAgain
  subst same
  cases result with
  | none => exact ⟨rfl, arrived, by simp⟩
  | some x => exact second x (made x rfl) s t arrived

theorem Follows.attempt_bind {p : Parser α} {q : Parser β} {f : Option α → Parser γ} {g : Option β → Parser δ}
    (first : sim.Follows view good p q)
    (made : ∀ x, good x → sim.Follows viewBehind goal (f (some x)) (g (some (view x))))
    (failed : sim.Follows viewBehind goal (f none) (g none)) :
    sim.Follows viewBehind goal (attempt p >>= f) (attempt q >>= g) := by
  have attempted : sim.Follows (Option.map view) (fun o => ∀ x ∈ o, good x) (attempt p) (attempt q) := by
    intro s t related
    obtain ⟨same, arrived, each⟩ := first s t related
    exact ⟨congrArg some same, arrived, by simpa [attempt] using each⟩
  refine attempted.bind ?_
  rintro (_ | x) each
  · exact failed
  · exact made x (each x rfl)

theorem Follows.ite {c : Prop} [Decidable c] {p p' : Parser α} {q q' : Parser β}
    (holds : sim.Follows view good p q) (fails : sim.Follows view good p' q') :
    sim.Follows view good (if c then p else p') (if c then q else q') := by
  split
  · exact holds
  · exact fails

/-! ## Looking -/

section

variable {f : α → Parser γ} {g : β → Parser δ}

/-- A production that only looks leaves the states as they are. -/
theorem follows_looking {look : State → α} {lookAgain : State → β}
    (same : ∀ {s t}, sim.Relates s t → lookAgain t = view (look s))
    (isGood : ∀ {s t}, sim.Relates s t → good (look s)) :
    sim.Follows view good (looking fun s => some (look s)) (looking fun t => some (lookAgain t)) := by
  intro s t related
  exact ⟨congrArg some (same related), related, by simpa [looking] using isGood related⟩

end

section

variable {f : Token → Parser γ} {g : Token → Parser δ}

theorem follows_peek_bind
    (next : ∀ token, sim.Knows token → sim.Follows viewBehind goal (f token) (g (token.relocate sim.place))) :
    sim.Follows viewBehind goal (peek >>= f) (peek >>= g) :=
  (follows_looking sim.current_eq sim.knows_current).bind next

theorem follows_peekSecond_bind
    (next : ∀ token, sim.Knows token → sim.Follows viewBehind goal (f token) (g (token.relocate sim.place))) :
    sim.Follows viewBehind goal (peekSecond >>= f) (peekSecond >>= g) :=
  (follows_looking sim.second_eq sim.knows_second).bind next

end

theorem follows_atEnd_bind {kinds : List TokenKind} {f : Bool → Parser γ} {g : Bool → Parser δ}
    (next : ∀ answer, sim.Follows viewBehind goal (f answer) (g answer)) :
    sim.Follows viewBehind goal (atEnd kinds >>= f) (atEnd kinds >>= g) := by
  have looked : sim.Follows id (fun _ => True) (atEnd kinds) (atEnd kinds) :=
    follows_looking (fun related => isAtEnd_eq related kinds) fun _ => trivial
  exact looked.bind fun answer _ => next answer

theorem follows_left_bind {f : Nat → Parser γ} {g : Nat → Parser δ}
    (next : ∀ n, sim.Follows viewBehind goal (f n) (g n)) :
    sim.Follows viewBehind goal (left >>= f) (left >>= g) := by
  have looked : sim.Follows id (fun _ => True) left left := follows_looking sim.length_eq fun _ => trivial
  exact looked.bind fun n _ => next n

/-- What is taken for granted changes nothing. -/
theorem follows_ensure_bind {holds holdsAgain : State → Prop} {f : Unit → Parser γ} {g : Unit → Parser δ}
    (next : sim.Follows viewBehind goal (f ()) (g ())) :
    sim.Follows viewBehind goal (ensure holds >>= f) (ensure holdsAgain >>= g) :=
  next

theorem follows_joined_bind {first last : Span} {f : Span → Parser γ} {g : Span → Parser δ}
    (next : ∀ span, sim.Follows viewBehind goal (f span) (g (sim.place span))) :
    sim.Follows viewBehind goal (joined first last >>= f)
      (joined (sim.place first) (sim.place last) >>= g) := by
  have joining : sim.Follows sim.place (fun _ => True) (joined first last)
      (joined (sim.place first) (sim.place last)) :=
    follows_ensure_bind (follows_pure (sim.place_upTo first last) trivial)
  exact joining.bind fun span _ => next span

/-! ## Reporting and moving on -/

section

variable {e : Error} {token : Token} (known : sim.Knows token) (raised : e.RaisedAt token)

include known raised

theorem follows_report_bind {f : Unit → Parser γ} {g : Unit → Parser δ}
    (next : sim.Follows viewBehind goal (f ()) (g ())) :
    sim.Follows viewBehind goal (report e token.span >>= f) (report e (sim.place token.span) >>= g) := by
  have reported : sim.Follows id (fun _ => True) (report e token.span) (report e (sim.place token.span)) :=
    fun _ _ related => ⟨rfl, sim.relates_report related known raised, fun _ _ => trivial⟩
  exact reported.bind fun _ _ => next

theorem follows_reject : sim.Follows view good (reject e token.span) (reject e (sim.place token.span)) :=
  fun _ _ related => ⟨rfl, sim.relates_report related known raised, by simp [reject]⟩

end

theorem follows_advance : sim.Follows (Token.relocate sim.place) sim.Knows advance advance := by
  intro s t related
  exact ⟨congrArg some (sim.current_eq related), sim.relates_advance related,
    by simpa [advance] using sim.knows_current related⟩

theorem follows_take_bind {kind : TokenKind} {f : Bool → Parser γ} {g : Bool → Parser δ}
    (next : ∀ answer, sim.Follows viewBehind goal (f answer) (g answer)) :
    sim.Follows viewBehind goal (take kind >>= f) (take kind >>= g) := by
  have taken : sim.Follows id (fun _ => True) (take kind) (take kind) := by
    intro s t related
    simp only [take, kind_eq related]
    split
    · exact ⟨rfl, sim.relates_advance related, fun _ _ => trivial⟩
    · exact ⟨rfl, related, fun _ _ => trivial⟩
  exact taken.bind fun answer _ => next answer

theorem follows_expect {accepts : Token → Bool}
    (same : ∀ token : Token, accepts (token.relocate sim.place) = accepts token) {e : TokenKind → Error}
    (raised : ∀ kind token, (e kind).RaisedAt token) :
    sim.Follows (Token.relocate sim.place) (fun token => accepts token = true ∧ sim.Knows token)
      (expect accepts e) (expect accepts e) := by
  intro s t related
  have known := sim.knows_current related
  simp only [expect, sim.current_eq related, same, kind_eq related]
  split
  next accepted => exact ⟨rfl, sim.relates_advance related, by simpa using ⟨accepted, known⟩⟩
  next => exact ⟨rfl, sim.relates_report related known (raised _ _), by simp⟩

theorem follows_consume {kind : TokenKind} :
    sim.Follows (Token.relocate sim.place) (fun token => token.kind = kind ∧ sim.Knows token)
      (consume kind) (consume kind) :=
  (follows_expect (fun _ => rfl) fun _ _ => by exact ⟨rfl, trivial⟩).imp fun _ taken => ⟨of_decide_eq_true taken.1, taken.2⟩

theorem follows_consumeAny {kinds : List TokenKind} :
    sim.Follows (Token.relocate sim.place) (fun token => token.kind ∈ kinds ∧ sim.Knows token)
      (consumeAny kinds) (consumeAny kinds) :=
  (follows_expect (fun _ => rfl) fun _ _ => by exact ⟨rfl, trivial⟩).imp fun _ taken => ⟨of_decide_eq_true taken.1, taken.2⟩

theorem follows_consumeAssign :
    sim.Follows (Token.relocate sim.place) (fun _ => True) consumeAssign consumeAssign :=
  (follows_expect (fun _ => rfl) fun _ _ => by exact ⟨rfl, trivial⟩).imp fun _ _ => trivial

theorem follows_ident :
    sim.Follows (Ident.relocate sim.place) (fun name => sim.IsName name.name) ident ident :=
  follows_consume.bind fun _ taken => follows_pure rfl (sim.isName_of_knows taken.2 taken.1)

theorem follows_resync_bind {resume : TokenKind} {stops : List TokenKind} {f : Bool → Parser γ}
    {g : Bool → Parser δ} (next : ∀ answer, sim.Follows viewBehind goal (f answer) (g answer)) :
    sim.Follows viewBehind goal (resync resume stops >>= f) (resync resume stops >>= g) := by
  have skipped : sim.Follows id (fun _ => True) (resync resume stops) (resync resume stops) := by
    intro s t related
    obtain ⟨same, arrived⟩ := skipTo related resume stops s.ahead.length
    simp only [resync, State.resync, sim.length_eq related]
    exact ⟨congrArg some same, arrived, fun _ _ => trivial⟩
  exact skipped.bind fun answer _ => next answer

/-! ## Lists -/

variable {item : Parser α} {itemAgain : Parser β}

theorem follows_delimitedUpTo {close : TokenKind} (items : sim.Follows view good item itemAgain) (n : Nat) :
    sim.Follows (List.map view) (fun xs => ∀ x ∈ xs, good x) (delimitedUpTo close item n)
      (delimitedUpTo close itemAgain n) := by
  have empty : ∀ x ∈ ([] : List α), good x := by simp
  induction n with
  | zero => exact follows_ensure_bind (follows_pure rfl empty)
  | succ n inductionHypothesis =>
    refine follows_atEnd_bind fun atEnd => .ite (follows_pure rfl empty) ?_
    refine items.attempt_bind (fun x isGood => ?made) ?failed
    case failed => exact follows_resync_bind fun resumed => .ite inductionHypothesis follows_fail
    case made =>
      have others : sim.Follows (List.map view) (fun xs => ∀ x ∈ xs, good x)
          (do return x :: (← delimitedUpTo close item n))
          (do return view x :: (← delimitedUpTo close itemAgain n)) :=
        inductionHypothesis.bind fun xs each => follows_pure rfl (List.forall_mem_cons.mpr ⟨isGood, each⟩)
      refine follows_take_bind fun continues => .ite others ?_
      refine follows_atEnd_bind fun atEnd => .ite (follows_pure rfl (by simpa using isGood)) ?_
      exact follows_peek_bind fun token known => follows_report_bind known (by exact ⟨rfl, trivial⟩) others

theorem follows_delimited {close : TokenKind} (items : sim.Follows view good item itemAgain) :
    sim.Follows (List.map view) (fun xs => ∀ x ∈ xs, good x) (delimited close item)
      (delimited close itemAgain) := by
  refine follows_ensure_bind (follows_left_bind fun n => ?_)
  exact (follows_delimitedUpTo items n).bind fun xs each => follows_ensure_bind (follows_pure rfl each)

theorem follows_separatedUpTo (items : sim.Follows view good item itemAgain) (n : Nat) :
    sim.Follows (List.map view) (fun xs => ∀ x ∈ xs, good x) (separatedUpTo item n)
      (separatedUpTo itemAgain n) := by
  induction n with
  | zero => exact follows_unreachable
  | succ n inductionHypothesis =>
    refine items.bind fun x isGood => follows_take_bind fun continues =>
      .ite ?_ (follows_pure rfl (by simpa using isGood))
    exact inductionHypothesis.bind fun xs each => follows_pure rfl (List.forall_mem_cons.mpr ⟨isGood, each⟩)

theorem follows_separated (items : sim.Follows view good item itemAgain) :
    sim.Follows (List.map view) (fun xs => ∀ x ∈ xs, good x) (separated item) (separated itemAgain) :=
  follows_left_bind fun n => follows_separatedUpTo items (n + 1)

end Simulation

end FrontEnd.Parser
