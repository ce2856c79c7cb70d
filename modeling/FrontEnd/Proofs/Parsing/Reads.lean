import FrontEnd.Proofs.Grammar.Spelling
import FrontEnd.Proofs.Parsing.Passes
import FrontEnd.Tree.Parser.Expression
import Mathlib.Data.List.Forall2

/-!
# What a parser reads

`Reads p s t good` says that `p` succeeds from `s`, arrives at `t` and makes a value that is `good`. There
is a lemma for each way to take a token, for composition, and for the two kinds of lists of the grammar:
if the items of a list are read, then so is the list.
-/

namespace FrontEnd.Parser

variable {α β γ : Type}

def Reads (p : Parser α) (s t : State) (good : α → Prop) : Prop :=
  ∃ x, p.run s = (some x, t) ∧ good x

/-! ## Composition -/

theorem reads_pure {x : α} {s : State} {good : α → Prop} (h : good x) :
    Reads (pure x) s s good :=
  ⟨x, rfl, h⟩

theorem Reads.bind {p : Parser α} {f : α → Parser β} {s t u : State} {good : α → Prop}
    {goal : β → Prop} (first : Reads p s t good) (second : ∀ x, good x → Reads (f x) t u goal) :
    Reads (p >>= f) s u goal := by
  obtain ⟨x, ran, isGood⟩ := first
  obtain ⟨y, ranBehind, isGoal⟩ := second x isGood
  exact ⟨y, by rw [run_bind, ran]; exact ranBehind, isGoal⟩

theorem Reads.imp {p : Parser α} {s t : State} {good better : α → Prop} (reads : Reads p s t good)
    (imp : ∀ x, good x → better x) : Reads p s t better := by
  obtain ⟨x, ran, isGood⟩ := reads
  exact ⟨x, ran, imp x isGood⟩

theorem Reads.attempt {p : Parser α} {s t : State} {good : α → Prop} (reads : Reads p s t good) :
    Reads (attempt p) s t fun o => ∃ x, o = some x ∧ good x := by
  obtain ⟨x, ran, isGood⟩ := reads
  exact ⟨some x, by simp [Parser.attempt, ran], x, rfl, isGood⟩

theorem reads_looking_bind {look : State → Option α} {x : α} {f : α → Parser β} {s t : State}
    {goal : β → Prop} (looks : look s = some x) (next : Reads (f x) s t goal) :
    Reads (looking look >>= f) s t goal :=
  Reads.bind ⟨x, by simp [looking, looks], Eq.refl x⟩ fun y same => same ▸ next

theorem reads_peek_bind {f : Token → Parser β} {s t : State} {goal : β → Prop}
    (next : Reads (f s.current) s t goal) : Reads (peek >>= f) s t goal :=
  reads_looking_bind rfl next

theorem reads_left_bind {f : Nat → Parser β} {s t : State} {goal : β → Prop}
    (next : Reads (f s.ahead.length) s t goal) : Reads (left >>= f) s t goal :=
  reads_looking_bind rfl next

theorem reads_atEnd_bind {kinds : List TokenKind} {f : Bool → Parser β} {s t : State}
    {goal : β → Prop} (next : Reads (f (s.isAtEnd kinds)) s t goal) :
    Reads (atEnd kinds >>= f) s t goal :=
  reads_looking_bind rfl next

/-! What is taken for granted changes nothing. -/

theorem reads_ensure_bind {holds : State → Prop} {f : Unit → Parser β} {s t : State} {goal : β → Prop}
    (next : Reads (f ()) s t goal) : Reads (ensure holds >>= f) s t goal :=
  next

theorem reads_joined_bind {first last : Span} {f : Span → Parser β} {s t : State} {goal : β → Prop}
    (next : Reads (f (first.upTo last)) s t goal) : Reads (joined first last >>= f) s t goal :=
  next

/-! ## Single tokens -/

theorem reads_advance {s t : State} {terminal : Terminal} (takes : s.Takes terminal t) :
    Reads advance s t fun token => token.terminal = terminal :=
  ⟨s.current, by simp [advance, takes.next], takes.current⟩

theorem reads_expect {accepts : Token → Bool} {e : TokenKind → Error} {s t : State}
    {terminal : Terminal} (takes : s.Takes terminal t) (accepted : accepts s.current = true) :
    Reads (expect accepts e) s t fun token => token.terminal = terminal :=
  ⟨s.current, by simp [expect, accepted, takes.next], takes.current⟩

theorem reads_consume {kind : TokenKind} {s t : State} {terminal : Terminal}
    (takes : s.Takes terminal t) (h : terminal.kind = kind) :
    Reads (consume kind) s t fun token => token.terminal = terminal :=
  reads_expect takes (decide_eq_true (takes.kind.trans h))

theorem reads_consumeAny {kinds : List TokenKind} {s t : State} {terminal : Terminal}
    (takes : s.Takes terminal t) (h : terminal.kind ∈ kinds) :
    Reads (consumeAny kinds) s t fun token => token.terminal = terminal :=
  reads_expect takes (decide_eq_true (show s.kind ∈ kinds from takes.kind ▸ h))

theorem reads_consumeAssign {s t : State} (takes : s.Takes .assign t) :
    Reads consumeAssign s t fun token => token.terminal = .assign := by
  apply reads_expect takes
  have kind : s.current.kind = .operator := takes.kind
  have literal : s.current.literal = "=" := congrArg Terminal.literal takes.current
  simp [kind, literal]

/-- A token of the kind is taken. -/
theorem reads_take_bind {kind : TokenKind} {f : Bool → Parser β} {s t u : State}
    {terminal : Terminal} {goal : β → Prop} (takes : s.Takes terminal t) (h : terminal.kind = kind)
    (next : Reads (f true) t u goal) : Reads (take kind >>= f) s u goal := by
  have ran : (take kind).run s = (some true, t) := by
    simp [take, takes.kind, h, takes.next]
  exact Reads.bind ⟨true, ran, Eq.refl true⟩ fun b same => same ▸ next

/-- A token of another kind is left in place. -/
theorem reads_leave_bind {kind : TokenKind} {f : Bool → Parser β} {s t : State} {goal : β → Prop}
    (h : s.kind ≠ kind) (next : Reads (f false) s t goal) : Reads (take kind >>= f) s t goal := by
  have ran : (take kind).run s = (some false, s) := by simp [take, h]
  exact Reads.bind ⟨false, ran, Eq.refl false⟩ fun b same => same ▸ next

theorem reads_ident {ident : Ident} {s t : State} (takes : s.Takes ident.terminal t) :
    Reads Parser.ident s t fun found => found.name = ident.name :=
  (reads_consume takes rfl).bind fun _ same => reads_pure (congrArg Terminal.literal same)

/-! ## Lists -/

theorem not_isAtEnd_of_passes {s t : State} {kinds : List TokenKind} {terminal : Terminal}
    {terminals : List Terminal} (passes : s.Passes (terminal :: terminals) t)
    (h : terminal.kind ∉ kinds) : s.isAtEnd kinds = false := by
  obtain ⟨u, takes, -⟩ := passes
  have notEof : terminal.kind ≠ .eof := fun eof =>
    takes.nonempty (s.kind_eq_eof_iff.mp (takes.kind.trans eof))
  simp [State.isAtEnd, takes.kind, notEof, h]

/-- What the items of a bracketed list have to satisfy for the list to be read: each starts with a
token that does not close the list, and is read where a comma or the closing token follows. -/
structure ItemsRead (close : TokenKind) (item : Parser α) (view : α → γ) (xs : List α)
    (parts : List (List Terminal)) : Prop where
  each : List.Forall₂ (fun x part =>
    (∃ first rest, part = first :: rest ∧ first.kind ≠ close) ∧
      ∀ s t : State, s.Passes part t → t.kind = .comma ∨ t.kind = close →
        Reads item s t fun y => view y = view x) xs parts

theorem reads_delimitedUpTo {close : TokenKind} (notComma : close ≠ .comma) {item : Parser α}
    {view : α → γ} {xs : List α} {parts : List (List Terminal)} {inner : List Terminal}
    (listed : Separated parts inner) (items : ItemsRead close item view xs parts) {n : Nat}
    {s t : State} (fuel : inner.length ≤ n) (passes : s.Passes inner t) (atClose : t.kind = close) :
    Reads (delimitedUpTo close item n) s t fun ys => ys.map view = xs.map view := by
  -- by induction on the list, each item of which takes at least one round
  have atEnd : t.isAtEnd [close] = true := by simp [State.isAtEnd, atClose]
  induction listed generalizing xs n s with
  | nil =>
    cases items.each
    cases passes
    cases n with
    | zero => exact reads_ensure_bind (reads_pure rfl)
    | succ n =>
      apply reads_atEnd_bind
      rw [atEnd]
      exact reads_pure rfl
  | last part =>
    obtain ⟨each⟩ := items
    cases each with
    | @cons x _ xs _ head tail =>
      cases tail
      obtain ⟨⟨first, rest, rfl, notClose⟩, reads⟩ := head
      obtain ⟨n, rfl⟩ : ∃ m, n = m + 1 := Nat.exists_eq_add_one.mpr (by grind)
      apply reads_atEnd_bind
      rw [not_isAtEnd_of_passes passes (by simpa using notClose)]
      refine (reads s t passes (.inr atClose)).attempt.bind ?_
      rintro _ ⟨y, rfl, same⟩
      -- behind the last item the list ends, with or without a comma
      apply reads_leave_bind (atClose ▸ notComma)
      apply reads_atEnd_bind
      rw [atEnd]
      exact reads_pure (by simp [same])
  | cons part tailListed inductionHypothesis =>
    obtain ⟨each⟩ := items
    cases each with
    | @cons x _ xs _ head tail =>
      obtain ⟨⟨first, rest, rfl, notClose⟩, reads⟩ := head
      obtain ⟨u, passesItem, v, takesComma, passesRest⟩ := State.passes_append_iff.mp passes
      obtain ⟨n, rfl⟩ : ∃ m, n = m + 1 := Nat.exists_eq_add_one.mpr (by grind)
      apply reads_atEnd_bind
      rw [not_isAtEnd_of_passes passesItem (by simpa using notClose)]
      refine (reads s u passesItem (.inl takesComma.kind)).attempt.bind ?_
      rintro _ ⟨y, rfl, same⟩
      apply reads_take_bind takesComma rfl
      refine (inductionHypothesis ⟨tail⟩ ?_ passesRest).bind ?_
      · simp only [List.length_append, List.length_cons] at fuel
        omega
      · intro ys sameTail
        exact reads_pure (by simp [same, sameTail])

theorem reads_delimited {close : TokenKind} (notComma : close ≠ .comma) {item : Parser α}
    {view : α → γ} {xs : List α} {parts : List (List Terminal)} {inner : List Terminal}
    (listed : Separated parts inner) (items : ItemsRead close item view xs parts) {s t : State}
    (passes : s.Passes inner t) (atClose : t.kind = close) :
    Reads (delimited close item) s t fun ys => ys.map view = xs.map view := by
  apply reads_ensure_bind
  apply reads_left_bind
  refine (reads_delimitedUpTo notComma listed items (by rw [passes.length]; omega) passes
    atClose).bind fun ys same => ?_
  exact reads_ensure_bind (reads_pure same)

/-- A list and the token that closes it. -/
theorem reads_bracketed_bind {close : TokenKind} (notComma : close ≠ .comma) {item : Parser α}
    {view : α → γ} {xs : List α} {parts : List (List Terminal)} {inner : List Terminal}
    (listed : Separated parts inner) (items : ItemsRead close item view xs parts)
    {f : List α → Token → Parser β} {s t u : State} {goal : β → Prop}
    (passes : s.Passes (inner ++ [.sign close]) t)
    (next : ∀ ys token, ys.map view = xs.map view → Reads (f ys token) t u goal) :
    Reads (do f (← delimited close item) (← consume close)) s u goal := by
  obtain ⟨v, passesItems, passesClose⟩ := State.passes_append_iff.mp passes
  have takesClose := State.passes_singleton_iff.mp passesClose
  refine (reads_delimited notComma listed items passesItems takesClose.kind).bind fun ys same => ?_
  exact (reads_consume takesClose rfl).bind fun token _ => next ys token same

theorem reads_separatedUpTo {item : Parser α} {view : α → γ} (ends : TokenKind → Prop)
    (notComma : ¬ ends .comma) {x : α} {xs : List α} {part : List Terminal}
    {parts : List (List Terminal)}
    (items : List.Forall₂ (fun x part => ∀ s t : State, s.Passes part t → t.kind = .comma ∨ ends t.kind →
      Reads item s t fun y => view y = view x) (x :: xs) (part :: parts)) {n : Nat} {s t : State}
    (fuel : parts.length < n) (passes : s.Passes (commaList (part :: parts)) t)
    (atEnd : ends t.kind) :
    Reads (separatedUpTo item n) s t fun ys => ys.map view = (x :: xs).map view := by
  induction parts generalizing x xs part n s with
  | nil =>
    obtain ⟨n, rfl⟩ : ∃ m, n = m + 1 := Nat.exists_eq_add_one.mpr (by grind)
    cases items with
    | cons head tail =>
      cases tail
      refine (head s t (by simpa [commaList] using passes) (.inr atEnd)).bind ?_
      intro y same
      -- what follows the last item is no comma
      apply reads_leave_bind (fun comma : t.kind = .comma => notComma (comma ▸ atEnd))
      exact reads_pure (by simp [same])
  | cons second parts inductionHypothesis =>
    obtain ⟨n, rfl⟩ : ∃ m, n = m + 1 := Nat.exists_eq_add_one.mpr (by grind)
    cases items with
    | cons head tail =>
      cases tail with
      | @cons x' _ xs' _ head' tail' =>
        rw [commaList_cons_cons] at passes
        obtain ⟨u, passesItem, v, takesComma, passesRest⟩ := State.passes_append_iff.mp passes
        refine (head s u passesItem (.inl takesComma.kind)).bind ?_
        intro y same
        apply reads_take_bind takesComma rfl
        refine (inductionHypothesis (.cons head' tail') (by simpa using fuel) passesRest).bind ?_
        intro ys sameTail
        exact reads_pure (by simp [same, sameTail])

end FrontEnd.Parser
