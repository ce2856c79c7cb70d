import FrontEnd.Proofs.Grammar.Surface
import FrontEnd.Proofs.Parsing.Safe
import FrontEnd.Proofs.Parsing.Sound
import FrontEnd.Tree.Parser.Expression

/-!
# What a silent run derives

`Completes before whole p s` says that a run of `p` from `s` which reports nothing makes something, and that what
it passed over completes `before` to something that the lenient grammar derives from `whole`, whatever the
spelling of the tokens. While a phrase is read, `before` grows from nothing to the right side of one of its rules:
by a letter for each token that is taken, and by a phrase for each part that is read by a production of its own.
Which rule it is need not be known before the end.
-/

namespace FrontEnd.Parser

open Surface

variable {α β : Type}

/-- Terminals as a sentential form. -/
def form (ts : List Terminal) : List Part :=
  (ts.map Terminal.letter).map .terminal

theorem form_append (first second : List Terminal) : form (first ++ second) = form first ++ form second := by
  rw [form, List.map_append, List.map_append]
  rfl

theorem letter_of_kind {t : Token} {kind : TokenKind} (same : t.kind = kind) (other : kind ≠ .operator) :
    t.terminal.letter = .of kind := by
  have notAssign : t.terminal ≠ .assign :=
    fun assign => other (same.symm.trans (congrArg Terminal.kind assign))
  rw [Terminal.letter, if_neg notAssign, Token.kind_terminal, same]

def Completes (before whole : List Part) (p : Parser α) (s : State)
    (good : α → Prop := fun _ => True) : Prop :=
  (p.run s).2.errors = s.errors →
    ∃ x ts, (p.run s).1 = some x ∧ good x ∧ s.Passes ts (p.run s).2 ∧
      lenient.Derives whole (before ++ form ts)

variable {before parts whole : List Part} {phrase part : Phrase} {good : α → Prop} {goal : β → Prop} {s : State}

theorem derives_of_rule (rule : Rule) (member : rule ∈ strictRules) :
    lenient.Derives [sub rule.input] rule.output :=
  ContextFreeGrammar.derives_of_mem (mem_lenient_iff.mpr (.inl (List.mem_toFinset.mpr member)))

/-! ## Composition -/

theorem completes_pure {x : α} (isGood : good x) (derives : lenient.Derives whole before) :
    Completes before whole (pure x) s good :=
  fun _ => ⟨x, [], rfl, isGood, rfl, by simpa [form] using derives⟩

/-- A phrase ends where what was read is the right side of a rule. -/
theorem completes_rule {x : α} (isGood : good x) (member : ⟨phrase, before⟩ ∈ strictRules) :
    Completes before [sub phrase] (pure x) s good :=
  completes_pure isGood (derives_of_rule _ member)

theorem Completes.trans {p : Parser α} (completes : Completes before parts p s good)
    (derives : lenient.Derives whole parts) : Completes before whole p s good := by
  intro silent
  obtain ⟨x, ts, ran, isGood, passes, derivesParts⟩ := completes silent
  exact ⟨x, ts, ran, isGood, passes, derives.trans derivesParts⟩

/-- What is read last may be all of a part. -/
theorem Completes.behind {p : Parser α} (completes : Completes [] parts p s good)
    (derives : lenient.Derives whole (before ++ parts)) : Completes before whole p s good := by
  intro silent
  obtain ⟨x, ts, ran, isGood, passes, derivesParts⟩ := completes silent
  exact ⟨x, ts, ran, isGood, passes, derives.trans (derivesParts.append_left before)⟩

/-- Only what a run does counts. -/
theorem Completes.of_run {p q : Parser α} (completes : Completes before whole q s good)
    (same : p.run s = q.run s) : Completes before whole p s good := by
  rwa [Completes, same]

theorem length_le_of_passes {s t : State} {ts : List Terminal} (passes : s.Passes ts t) :
    t.ahead.length ≤ s.ahead.length := by
  have := passes.length
  omega

theorem Completes.bind {p : Parser α} {f : α → Parser β} (first : Completes [] parts p s good)
    (second : ∀ x t, good x → t.ahead.length ≤ s.ahead.length →
      Completes (before ++ parts) whole (f x) t goal) :
    Completes before whole (p >>= f) s goal := by
  intro silent
  have reaches := p.reaches s
  rw [run_bind] at silent ⊢
  cases ran : p.run s with
  | mk result t =>
    rw [ran] at silent reaches
    have completes := first
    rw [Completes, ran] at completes
    cases result with
    | none =>
      -- a part that fails has reported an error, which the whole run would have too
      obtain ⟨x, ts, impossible, -⟩ := completes silent
      cases impossible
    | some x =>
      have silentFirst := errors_eq_of_reaches reaches ((f x).reaches t) silent
      obtain ⟨y, ts, same, isGood, passes, derivesPart⟩ := completes silentFirst
      cases same
      obtain ⟨z, more, ranBehind, isGoodBehind, passesBehind, derives⟩ :=
        second x t isGood (length_le_of_passes passes) (silent.trans silentFirst.symm)
      refine ⟨z, ts ++ more, ranBehind, isGoodBehind, passes.append passesBehind, ?_⟩
      rw [form_append, ← List.append_assoc]
      exact derives.part derivesPart

/-- Nothing is read while what was made is put together. -/
theorem Completes.bind_still {p : Parser α} {f : α → Parser β} (completes : Completes before whole p s good)
    (still : ∀ x t, good x → ∃ y, (f x).run t = (some y, t) ∧ goal y) :
    Completes before whole (p >>= f) s goal := by
  intro silent
  have reaches := p.reaches s
  rw [run_bind] at silent ⊢
  cases ran : p.run s with
  | mk result t =>
    rw [Completes, ran] at completes
    rw [ran] at silent reaches
    cases result with
    | none =>
      obtain ⟨x, ts, impossible, -⟩ := completes silent
      cases impossible
    | some x =>
      obtain ⟨y, ts, same, isGood, passes, derives⟩ :=
        completes (errors_eq_of_reaches reaches ((f x).reaches t) silent)
      cases same
      obtain ⟨z, ranBehind, isGoodBehind⟩ := still x t isGood
      exact ⟨z, ts, by simp [ranBehind], isGoodBehind, by simpa [ranBehind] using passes, derives⟩

theorem Completes.attempt_bind {p : Parser α} {f : Option α → Parser β}
    (first : Completes [] parts p s good)
    (second : ∀ x t, good x → t.ahead.length ≤ s.ahead.length →
      Completes (before ++ parts) whole (f (some x)) t goal) :
    Completes before whole (attempt p >>= f) s goal := by
  have attempted : Completes [] parts (attempt p) s fun o => ∃ x, o = some x ∧ good x := by
    intro silent
    obtain ⟨x, ts, ran, isGood, passes, derives⟩ := first silent
    exact ⟨some x, ts, by simp [attempt, ran], ⟨x, rfl, isGood⟩, passes, derives⟩
  refine attempted.bind ?_
  rintro _ t ⟨x, rfl, isGood⟩ shorter
  exact second x t isGood shorter

/-! What reports completes nothing, and need not. -/

theorem completes_of_reports {p : Parser α} {e : Error} {span : Span}
    (reports : (s.report e span).Reaches (p.run s).2) : Completes before whole p s good := by
  intro silent
  have grown := reports.errors.length_le
  rw [silent, State.report, List.length_append, List.length_singleton] at grown
  omega

theorem completes_reject {e : Error} {span : Span} :
    Completes before whole (reject e span : Parser α) s good :=
  completes_of_reports (.refl _)

theorem completes_report_bind {e : Error} {span : Span} {f : Unit → Parser β} :
    Completes before whole (report e span >>= f) s goal :=
  completes_of_reports ((f ()).reaches (s.report e span))

/-! ## Looking -/

theorem completes_looking_bind {look : State → Option α} {x : α} {f : α → Parser β} (looks : look s = some x)
    (next : Completes before whole (f x) s goal) : Completes before whole (looking look >>= f) s goal :=
  next.of_run (by simp [run_bind, looking, looks])

theorem completes_peek_bind {f : Token → Parser β} (next : Completes before whole (f s.current) s goal) :
    Completes before whole (peek >>= f) s goal :=
  completes_looking_bind rfl next

theorem completes_peekSecond_bind {f : Token → Parser β}
    (next : Completes before whole (f s.second) s goal) :
    Completes before whole (peekSecond >>= f) s goal :=
  completes_looking_bind rfl next

theorem completes_left_bind {f : Nat → Parser β} (next : Completes before whole (f s.ahead.length) s goal) :
    Completes before whole (left >>= f) s goal :=
  completes_looking_bind rfl next

theorem completes_atEnd_bind {kinds : List TokenKind} {f : Bool → Parser β}
    (next : Completes before whole (f (s.isAtEnd kinds)) s goal) :
    Completes before whole (atEnd kinds >>= f) s goal :=
  completes_looking_bind rfl next

theorem completes_ensure_bind {holds : State → Prop} {f : Unit → Parser β}
    (next : Completes before whole (f ()) s goal) : Completes before whole (ensure holds >>= f) s goal :=
  next

theorem completes_joined_bind {first last : Span} {f : Span → Parser β}
    (next : Completes before whole (f (first.upTo last)) s goal) :
    Completes before whole (joined first last >>= f) s goal :=
  next

/-! ## Single tokens -/

theorem completes_advance_bind {f : Token → Parser β} (notEof : s.kind ≠ .eof)
    (next : s.advance.ahead.length < s.ahead.length →
      Completes (before ++ [.terminal s.current.terminal.letter]) whole (f s.current) s.advance goal) :
    Completes before whole (advance >>= f) s goal := by
  intro silent
  have run : (advance >>= f).run s = (f s.current).run s.advance := rfl
  rw [run] at silent ⊢
  have silentFirst := errors_eq_of_reaches s.reaches_advance ((f s.current).reaches s.advance) silent
  obtain ⟨x, ts, ran, isGood, passes, derives⟩ :=
    next (State.length_advance notEof) (silent.trans silentFirst.symm)
  refine ⟨x, s.current.terminal :: ts, ran, isGood, .cons (State.takes_advance notEof silentFirst) passes, ?_⟩
  simpa [form] using derives

theorem completes_expect_bind {accepts : Token → Bool} {e : TokenKind → Error} {f : Token → Parser β}
    (notEof : ∀ token, accepts token = true → token.kind ≠ .eof)
    (next : ∀ (token : Token) (t : State), accepts token = true → t.ahead.length < s.ahead.length →
      Completes (before ++ [.terminal token.terminal.letter]) whole (f token) t goal) :
    Completes before whole (expect accepts e >>= f) s goal := by
  cases accepted : accepts s.current with
  | false =>
    have run : (expect accepts e >>= f).run s = (none, s.report (e s.kind) s.current.span) := by
      simp [run_bind, expect, accepted]
    exact completes_of_reports (by rw [run]; exact .refl _)
  | true =>
    have run : (expect accepts e >>= f).run s = (advance >>= f).run s := by
      simp [run_bind, expect, advance, accepted]
    have behind : Completes before whole (advance >>= f) s goal :=
      completes_advance_bind (notEof _ accepted) fun shorter => next s.current _ accepted shorter
    exact behind.of_run run

theorem completes_consumeAny_bind {kinds : List TokenKind} {f : Token → Parser β}
    (plain : ∀ kind ∈ kinds, kind ≠ .eof ∧ kind ≠ .operator)
    (next : ∀ (token : Token) (t : State), token.kind ∈ kinds → t.ahead.length < s.ahead.length →
      Completes (before ++ [word token.kind]) whole (f token) t goal) :
    Completes before whole (consumeAny kinds >>= f) s goal := by
  refine completes_expect_bind (fun token accepted => (plain _ (of_decide_eq_true accepted)).1) ?_
  intro token t accepted shorter
  have member : token.kind ∈ kinds := of_decide_eq_true accepted
  rw [letter_of_kind rfl (plain _ member).2]
  exact next token t member shorter

theorem completes_consume_bind {kind : TokenKind} {f : Token → Parser β}
    (plain : kind ≠ .eof ∧ kind ≠ .operator)
    (next : ∀ (token : Token) (t : State), t.ahead.length < s.ahead.length →
      Completes (before ++ [word kind]) whole (f token) t goal) :
    Completes before whole (consume kind >>= f) s goal := by
  refine completes_expect_bind (fun token accepted => of_decide_eq_true accepted ▸ plain.1) ?_
  intro token t accepted shorter
  rw [letter_of_kind (of_decide_eq_true accepted) plain.2]
  exact next token t shorter

theorem completes_consume {kind : TokenKind} (plain : kind ≠ .eof ∧ kind ≠ .operator) :
    Completes [] [word kind] (consume kind) s := by
  have behind : Completes [] [word kind] (consume kind >>= pure) s :=
    completes_consume_bind plain fun _ _ _ => completes_pure trivial (.refl _)
  refine behind.of_run ?_
  rw [run_bind]
  rcases (consume kind).run s with ⟨_ | token, t⟩ <;> rfl

theorem completes_consumeAssign_bind {f : Token → Parser β}
    (next : ∀ (token : Token) (t : State), t.ahead.length < s.ahead.length →
      Completes (before ++ [.terminal .assign]) whole (f token) t goal) :
    Completes before whole (consumeAssign >>= f) s goal := by
  refine completes_expect_bind (fun token accepted eof => by simp [eof] at accepted) ?_
  intro token t accepted shorter
  simp only [Bool.and_eq_true, decide_eq_true_eq] at accepted
  have isAssign : token.terminal = .assign := by
    rw [Token.terminal, accepted.1, accepted.2]
    rfl
  rw [Terminal.letter, if_pos isAssign]
  exact next token t shorter

theorem completes_take_bind {kind : TokenKind} (plain : kind ≠ .eof ∧ kind ≠ .operator) {f : Bool → Parser β}
    (taken : ∀ t : State, t.ahead.length < s.ahead.length →
      Completes (before ++ [word kind]) whole (f true) t goal)
    (left : s.kind ≠ kind → Completes before whole (f false) s goal) :
    Completes before whole (take kind >>= f) s goal := by
  by_cases same : s.kind = kind
  · have run : (take kind >>= f).run s = (advance >>= fun _ => f true).run s := by
      simp [run_bind, take, advance, same]
    have behind : Completes before whole (advance >>= fun _ => f true) s goal := by
      refine completes_advance_bind (same ▸ plain.1) fun shorter => ?_
      rw [letter_of_kind (t := s.current) same plain.2]
      exact taken _ shorter
    exact behind.of_run run
  · have run : (take kind >>= f).run s = (f false).run s := by simp [run_bind, take, same]
    exact (left same).of_run run

theorem completes_ident : Completes [] [word .identifier] Parser.ident s :=
  completes_consume_bind (by decide) fun _ _ _ => completes_pure trivial (.refl _)

/-! ## Lists -/

/-- Whether a production completes a phrase on its own wherever there are fewer than `n` tokens. -/
def CompletesBelow (phrase : Phrase) (p : Parser α) (n : Nat) : Prop :=
  ∀ s : State, s.ahead.length < n → Completes [] [sub phrase] p s

/-- Whether a form may stand in front of the further items of a bracketed list, or of none. -/
structure Opens (part : Phrase) (before : List Part) : Prop where
  more : ∀ {tail : List Part}, lenient.Derives [sub (.oneOrMore part)] tail →
    lenient.Derives [sub (.oneOrMore part)] (before ++ tail)
  none : lenient.Derives [sub (.listed part)] before

section

variable (isPart : part ∈ listParts)

include isPart

theorem listRules_subset : listRules part ⊆ strictRules :=
  fun _ member => List.mem_append_right _ (List.mem_flatMap.mpr ⟨part, isPart, member⟩)

theorem derives_single : lenient.Derives [sub (.oneOrMore part)] [sub part] :=
  derives_of_rule ⟨.oneOrMore part, [sub part]⟩ (listRules_subset isPart (by simp [listRules]))

theorem opens_nil : Opens part [] where
  more derives := derives
  none := derives_of_rule ⟨.listed part, []⟩ (listRules_subset isPart (by simp [listRules]))

theorem Opens.last (opens : Opens part before) :
    lenient.Derives [sub (.listed part)] (before ++ [sub part]) :=
  (derives_of_rule ⟨.listed part, [sub (.oneOrMore part)]⟩
    (listRules_subset isPart (by simp [listRules]))).trans (opens.more (derives_single isPart))

theorem Opens.comma (opens : Opens part before) : Opens part (before ++ [sub part] ++ [word .comma]) where
  more derives := by
    have rule : lenient.Derives [sub (.oneOrMore part)] [sub part, word .comma, sub (.oneOrMore part)] :=
      derives_of_rule ⟨.oneOrMore part, _⟩ (listRules_subset isPart (by simp [listRules]))
    simpa using opens.more (rule.trans (derives.append_left [sub part, word .comma]))
  none := by
    have trailing : lenient.Derives [sub (.listed part)] [sub (.oneOrMore part), word .comma] :=
      ContextFreeGrammar.derives_of_mem (mem_lenient_iff.mpr (.inr ⟨part, isPart, rfl⟩))
    exact trailing.trans ((opens.more (derives_single isPart)).append_right [word .comma])

variable {item : Parser α} {n : Nat}

/-- With every comma one more item may follow, but none has to. -/
theorem completes_delimitedUpTo {close : TokenKind} (items : CompletesBelow part item n) (rounds : Nat)
    {s : State} (small : s.ahead.length < n) {before : List Part} (opens : Opens part before) :
    Completes before [sub (.listed part)] (delimitedUpTo close item rounds) s := by
  induction rounds generalizing s before with
  | zero => exact completes_ensure_bind (completes_pure trivial opens.none)
  | succ rounds inductionHypothesis =>
    apply completes_atEnd_bind
    split
    · exact completes_pure trivial opens.none
    · refine (items s small).attempt_bind fun x t _ shorter => ?_
      refine completes_take_bind (by decide) (fun u shorterStill => ?_) fun _ => completes_atEnd_bind ?_
      · exact (inductionHypothesis (by omega) (opens.comma isPart)).bind_still fun _ _ _ => ⟨_, rfl, trivial⟩
      · split
        · exact completes_pure trivial (opens.last isPart)
        · exact completes_peek_bind completes_report_bind

theorem completes_delimited {close : TokenKind} (items : CompletesBelow part item n) {s : State}
    (small : s.ahead.length < n) : Completes [] [sub (.listed part)] (delimited close item) s := by
  refine completes_ensure_bind (completes_left_bind ?_)
  exact (completes_delimitedUpTo isPart items _ small (opens_nil isPart)).bind_still fun _ _ _ => ⟨_, rfl, trivial⟩

theorem completes_separatedUpTo (items : CompletesBelow part item n) {rounds : Nat} {s : State}
    (small : s.ahead.length < n) (fuel : s.ahead.length < rounds) :
    Completes [] [sub (.oneOrMore part)] (separatedUpTo item rounds) s := by
  induction rounds generalizing s with
  | zero => omega
  | succ rounds inductionHypothesis =>
    refine (items s small).bind fun x t _ shorter => ?_
    refine completes_take_bind (by decide) (fun u shorterStill => ?_) fun _ => ?_
    · refine (inductionHypothesis (by omega) (by omega)).bind fun xs v _ _ => ?_
      exact completes_rule trivial (listRules_subset isPart (by simp [listRules]))
    · exact completes_rule trivial (listRules_subset isPart (by simp [listRules]))

theorem completes_separated (items : CompletesBelow part item n) {s : State} (small : s.ahead.length < n) :
    Completes [] [sub (.oneOrMore part)] (separated item) s :=
  completes_left_bind (completes_separatedUpTo isPart items small (Nat.lt_succ_self _))

end

end FrontEnd.Parser
