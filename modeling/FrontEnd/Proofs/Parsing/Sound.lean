import FrontEnd.Proofs.Grammar.Spelling
import FrontEnd.Proofs.Parsing.Passes
import FrontEnd.Tree.Parser.Expression
import Mathlib.Data.List.Forall2

/-!
# What a silent run has read

`Sound p spells s` says that a run of `p` from `s` which reports nothing makes a value, and that the value
is spelled by the terminals that the run passed over. So a production that fails has reported an error,
and none has skipped a token in silence. There is a lemma for each way to take a token, for composition,
and for the two kinds of lists of the grammar.
-/

namespace FrontEnd.Parser

open Terminal

variable {α β : Type}

def Sound (p : Parser α) (spells : α → List Terminal → Prop) (s : State) : Prop :=
  s.Lexical → (p.run s).2.errors = s.errors →
    ∃ x ts, (p.run s).1 = some x ∧ spells x ts ∧ s.Passes ts (p.run s).2

/-! ## Composition -/

theorem sound_pure {x : α} {spells : α → List Terminal → Prop} {s : State} (h : spells x []) :
    Sound (pure x) spells s :=
  fun _ _ => ⟨x, [], rfl, h, rfl⟩

theorem Sound.imp {p : Parser α} {spells goal : α → List Terminal → Prop} {s : State}
    (sound : Sound p spells s) (imp : ∀ x ts, spells x ts → goal x ts) : Sound p goal s := by
  intro lexical silent
  obtain ⟨x, ts, ran, spelled, passes⟩ := sound lexical silent
  exact ⟨x, ts, ran, imp x ts spelled, passes⟩

theorem errors_eq_of_reaches {s t u : State} (first : s.Reaches t) (second : t.Reaches u)
    (silent : u.errors = s.errors) : t.errors = s.errors := by
  -- errors are never taken back
  have back : t.errors <+: s.errors := silent ▸ second.errors
  exact back.eq_of_length_le first.errors.length_le

theorem Sound.bind {p : Parser α} {f : α → Parser β} {spells : α → List Terminal → Prop}
    {goal : β → List Terminal → Prop} {s : State} (first : Sound p spells s)
    (second : ∀ x ts t, spells x ts → s.Passes ts t →
      Sound (f x) (fun y more => goal y (ts ++ more)) t) : Sound (p >>= f) goal s := by
  intro lexical silent
  have reaches := p.reaches s
  rw [run_bind] at silent ⊢
  cases ran : p.run s with
  | mk result t =>
    rw [ran] at silent reaches
    have sound := first lexical
    rw [ran] at sound
    cases result with
    | none =>
      -- a part that fails has reported an error, which the whole run would have too
      obtain ⟨x, ts, impossible, -⟩ := sound silent
      cases impossible
    | some x =>
      have silentFirst := errors_eq_of_reaches reaches ((f x).reaches t) silent
      obtain ⟨y, ts, same, spelled, passes⟩ := sound silentFirst
      cases same
      obtain ⟨z, more, ranBehind, goalBehind, passesBehind⟩ :=
        second x ts t spelled passes (passes.lexical lexical).2 (silent.trans silentFirst.symm)
      exact ⟨z, ts ++ more, ranBehind, goalBehind, passes.append passesBehind⟩

theorem Sound.attempt_bind {p : Parser α} {f : Option α → Parser β}
    {spells : α → List Terminal → Prop} {goal : β → List Terminal → Prop} {s : State}
    (first : Sound p spells s)
    (second : ∀ x ts t, spells x ts → s.Passes ts t →
      Sound (f (some x)) (fun y more => goal y (ts ++ more)) t) :
    Sound (attempt p >>= f) goal s := by
  have attempted : Sound (attempt p) (fun o ts => ∃ x, o = some x ∧ spells x ts) s := by
    intro lexical silent
    obtain ⟨x, ts, ran, spelled, passes⟩ := first lexical silent
    exact ⟨some x, ts, by simp [attempt, ran], ⟨x, rfl, spelled⟩, passes⟩
  refine attempted.bind ?_
  rintro _ ts t ⟨x, rfl, spelled⟩ passes
  exact second x ts t spelled passes

theorem sound_of_reports {p : Parser α} {spells : α → List Terminal → Prop} {s : State}
    {e : Error} {span : Span} (reports : (s.report e span).Reaches (p.run s).2) :
    Sound p spells s := by
  intro _ silent
  have grown := reports.errors.length_le
  rw [silent, State.report, List.length_append, List.length_singleton] at grown
  omega

theorem sound_reject {e : Error} {span : Span} {spells : α → List Terminal → Prop} {s : State} :
    Sound (reject e span : Parser α) spells s :=
  sound_of_reports (.refl _)

theorem sound_report_bind {e : Error} {span : Span} {f : Unit → Parser β}
    {goal : β → List Terminal → Prop} {s : State} : Sound (report e span >>= f) goal s :=
  sound_of_reports ((f ()).reaches (s.report e span))

/-! ## Looking -/

theorem sound_looking_bind {look : State → Option α} {x : α} {f : α → Parser β} {s : State}
    {goal : β → List Terminal → Prop} (looks : look s = some x) (next : Sound (f x) goal s) :
    Sound (looking look >>= f) goal s := by
  have same : (looking look >>= f).run s = (f x).run s := by simp [run_bind, looking, looks]
  intro lexical silent
  rw [same] at silent ⊢
  exact next lexical silent

theorem sound_peek_bind {f : Token → Parser β} {s : State} {goal : β → List Terminal → Prop}
    (next : Sound (f s.current) goal s) : Sound (peek >>= f) goal s :=
  sound_looking_bind rfl next

theorem sound_peekSecond_bind {f : Token → Parser β} {s : State}
    {goal : β → List Terminal → Prop} (next : Sound (f s.second) goal s) :
    Sound (peekSecond >>= f) goal s :=
  sound_looking_bind rfl next

theorem sound_left_bind {f : Nat → Parser β} {s : State} {goal : β → List Terminal → Prop}
    (next : Sound (f s.ahead.length) goal s) : Sound (left >>= f) goal s :=
  sound_looking_bind rfl next

theorem sound_atEnd_bind {kinds : List TokenKind} {f : Bool → Parser β} {s : State}
    {goal : β → List Terminal → Prop} (next : Sound (f (s.isAtEnd kinds)) goal s) :
    Sound (atEnd kinds >>= f) goal s :=
  sound_looking_bind rfl next

/-! What is taken for granted changes nothing. -/

theorem sound_ensure_bind {holds : State → Prop} {f : Unit → Parser β} {s : State}
    {goal : β → List Terminal → Prop} (next : Sound (f ()) goal s) :
    Sound (ensure holds >>= f) goal s :=
  next

theorem sound_joined_bind {first last : Span} {f : Span → Parser β} {s : State}
    {goal : β → List Terminal → Prop} (next : Sound (f (first.upTo last)) goal s) :
    Sound (joined first last >>= f) goal s :=
  next

/-! ## Single tokens -/

/-- A token of a kind with one spelling is spelled so. -/
theorem eq_sign_of_lexical {t : Terminal} (lexical : t.Lexical) (isSign : t.kind.spelling?.isSome) :
    t = sign t.kind := by
  obtain ⟨kind, literal⟩ := t
  cases kind <;> first | exact lexical | simp [TokenKind.spelling?] at isSign

theorem sound_advance_bind {kind : TokenKind} (notEof : kind ≠ .eof) {f : Token → Parser β}
    {s : State} {goal : β → List Terminal → Prop} (same : s.kind = kind)
    (next : ∀ t, s.Takes s.current.terminal t → s.current.terminal.Lexical →
      Sound (f s.current) (fun y more => goal y (s.current.terminal :: more)) t) :
    Sound (advance >>= f) goal s := by
  have advanced : Sound advance (fun token ts => token = s.current ∧ ts = [s.current.terminal] ∧
      s.current.terminal.Lexical) s := by
    intro lexical silent
    have takes := State.takes_advance (same ▸ notEof) silent
    exact ⟨s.current, _, rfl, ⟨rfl, rfl, (takes.lexical lexical).1⟩, takes.passes⟩
  refine advanced.bind ?_
  rintro _ _ t ⟨rfl, rfl, lexical⟩ passes
  exact next t (State.passes_singleton_iff.mp passes) lexical

/-- Advancing over a token of a kind with one spelling. -/
theorem sound_advanceSign_bind {kind : TokenKind} (isSign : kind.spelling?.isSome)
    {f : Token → Parser β} {s : State} {goal : β → List Terminal → Prop} (same : s.kind = kind)
    (next : ∀ t, s.Takes (sign kind) t →
      Sound (f s.current) (fun y more => goal y (sign kind :: more)) t) :
    Sound (advance >>= f) goal s := by
  have notEof : kind ≠ .eof := by
    intro eof
    simp [eof, TokenKind.spelling?] at isSign
  refine sound_advance_bind notEof same fun t takes lexical => ?_
  have current : s.current.terminal = sign kind := by
    rw [eq_sign_of_lexical lexical (by rwa [← same] at isSign)]
    exact congrArg sign same
  rw [current] at takes ⊢
  exact next t takes

theorem sound_expect {accepts : Token → Bool} {e : TokenKind → Error}
    (notEof : ∀ token, accepts token = true → token.kind ≠ .eof) {s : State} :
    Sound (expect accepts e) (fun token ts => ts = [token.terminal] ∧ accepts token = true ∧
      token.terminal.Lexical) s := by
  intro lexical
  cases accepted : accepts s.current with
  | false =>
    have reports : (s.report (e s.kind) s.current.span).Reaches ((expect accepts e).run s).2 := by
      simp only [expect, accepted]
      exact .refl _
    exact sound_of_reports reports lexical
  | true =>
    simp only [expect, accepted, if_true]
    intro silent
    have takes := State.takes_advance (notEof _ accepted) silent
    exact ⟨s.current, _, rfl, ⟨rfl, accepted, (takes.lexical lexical).1⟩, takes.passes⟩

theorem sound_consume {kind : TokenKind} (isSign : kind.spelling?.isSome) {s : State} :
    Sound (consume kind) (fun _ ts => ts = [sign kind]) s := by
  refine (sound_expect ?_).imp ?_
  · rintro token accepted eof
    rw [← of_decide_eq_true accepted, eof] at isSign
    simp [TokenKind.spelling?] at isSign
  · rintro token _ ⟨rfl, accepted, lexical⟩
    have same : token.kind = kind := of_decide_eq_true accepted
    subst same
    rw [eq_sign_of_lexical lexical isSign]
    rfl

theorem sound_consumeAny {kinds : List TokenKind} (notEof : TokenKind.eof ∉ kinds) {s : State} :
    Sound (consumeAny kinds) (fun token ts => ts = [token.terminal] ∧ token.kind ∈ kinds ∧
      token.terminal.Lexical) s := by
  refine (sound_expect ?_).imp ?_
  · rintro token accepted eof
    exact notEof (eof ▸ of_decide_eq_true accepted)
  · rintro token ts ⟨same, accepted, lexical⟩
    exact ⟨same, of_decide_eq_true accepted, lexical⟩

theorem sound_consumeAssign {s : State} : Sound consumeAssign (fun _ ts => ts = [assign]) s := by
  refine (sound_expect ?_).imp ?_
  · intro token accepted eof
    simp [eof] at accepted
  · rintro token _ ⟨rfl, accepted, -⟩
    simp only [Bool.and_eq_true, decide_eq_true_eq] at accepted
    rw [Token.terminal, accepted.1, accepted.2]
    rfl

theorem sound_take_bind {kind : TokenKind} (isSign : kind.spelling?.isSome) {f : Bool → Parser β}
    {s : State} {goal : β → List Terminal → Prop}
    (taken : ∀ t, s.Takes (sign kind) t →
      Sound (f true) (fun y more => goal y (sign kind :: more)) t)
    (left : s.kind ≠ kind → Sound (f false) goal s) : Sound (take kind >>= f) goal s := by
  by_cases same : s.kind = kind
  · have run : (take kind >>= f).run s = (advance >>= fun _ => f true).run s := by
      simp [run_bind, take, advance, same]
    intro lexical silent
    rw [run] at silent ⊢
    exact sound_advanceSign_bind isSign same taken lexical silent
  · have run : (take kind >>= f).run s = (f false).run s := by simp [run_bind, take, same]
    intro lexical silent
    rw [run] at silent ⊢
    exact left same lexical silent

theorem sound_ident {s : State} :
    Sound Parser.ident (fun ident ts => ts = [ident.terminal] ∧ IsName ident.name) s := by
  refine (sound_expect (by intro token accepted eof; simp [eof] at accepted)).bind ?_
  rintro token _ t ⟨rfl, accepted, lexical⟩ passes
  have kind : token.kind = .identifier := of_decide_eq_true accepted
  refine sound_pure ⟨?_, ?_⟩
  · simp [Ident.terminal, Token.terminal, kind]
  · simpa [Terminal.Lexical, kind] using lexical

/-! ## Lists -/

theorem sound_delimitedUpTo {close : TokenKind} {item : Parser α}
    {spells : α → List Terminal → Prop} {m : Nat}
    (items : ∀ s : State, s.ahead.length < m → Sound item spells s) (n : Nat) {s : State}
    (small : s.ahead.length < m) :
    Sound (delimitedUpTo close item n)
      (fun xs ts => ∃ parts, List.Forall₂ spells xs parts ∧ Separated parts ts) s := by
  -- Without a token left a round makes nothing, so that any number of rounds is sound.
  induction n generalizing s with
  | zero => exact sound_ensure_bind (sound_pure ⟨[], .nil, .nil⟩)
  | succ n inductionHypothesis =>
    apply sound_atEnd_bind
    split
    · exact sound_pure ⟨[], .nil, .nil⟩
    · refine (items s small).attempt_bind fun x part t spelled passes => ?_
      have length := passes.length
      refine sound_take_bind rfl (fun u takes => ?_) fun _ => sound_atEnd_bind ?_
      · have shorter := takes.length
        refine (inductionHypothesis (by omega)).bind ?_
        rintro xs rest v ⟨parts, each, listed⟩ -
        refine sound_pure ⟨part :: parts, .cons spelled each, ?_⟩
        simpa using Separated.cons part listed
      · split
        · refine sound_pure ⟨[part], .cons spelled .nil, ?_⟩
          simpa using Separated.last part
        · exact sound_peek_bind sound_report_bind

theorem sound_delimited {close : TokenKind} {item : Parser α} {spells : α → List Terminal → Prop}
    {m : Nat} (items : ∀ s : State, s.ahead.length < m → Sound item spells s) {s : State}
    (small : s.ahead.length < m) :
    Sound (delimited close item)
      (fun xs ts => ∃ parts, List.Forall₂ spells xs parts ∧ Separated parts ts) s := by
  apply sound_ensure_bind
  apply sound_left_bind
  refine (sound_delimitedUpTo items _ small).bind ?_
  rintro xs ts t ⟨parts, each, listed⟩ -
  exact sound_ensure_bind (sound_pure ⟨parts, each, by simpa using listed⟩)

/-- A list and the token that closes it. -/
theorem sound_bracketed_bind {close : TokenKind} (isSign : close.spelling?.isSome) {item : Parser α}
    {spells : α → List Terminal → Prop} {m : Nat}
    (items : ∀ s : State, s.ahead.length < m → Sound item spells s) {f : List α → Token → Parser β}
    {goal : β → List Terminal → Prop} {s : State} (small : s.ahead.length < m)
    (next : ∀ xs token parts inner t, List.Forall₂ spells xs parts → Separated parts inner →
      s.Passes (inner ++ [sign close]) t →
        Sound (f xs token) (fun y more => goal y (inner ++ sign close :: more)) t) :
    Sound (do f (← delimited close item) (← consume close)) goal s := by
  refine (sound_delimited items small).bind ?_
  rintro xs inner t ⟨parts, each, listed⟩ passes
  refine (sound_consume isSign).bind ?_
  rintro token _ u rfl passesClose
  simpa using next xs token parts inner u each listed (passes.append passesClose)

theorem sound_separatedUpTo {item : Parser α} {spells : α → List Terminal → Prop} {m : Nat}
    (items : ∀ s : State, s.ahead.length < m → Sound item spells s) {n : Nat} {s : State}
    (small : s.ahead.length < m) (fuel : s.ahead.length < n) :
    Sound (separatedUpTo item n) (fun xs ts => xs ≠ [] ∧ ∃ parts, List.Forall₂ spells xs parts ∧
      ts = commaList parts) s := by
  -- Here a round without a token left fails, so that there have to be as many as tokens.
  induction n generalizing s with
  | zero => omega
  | succ n inductionHypothesis =>
    refine (items s small).bind fun x part t spelled passes => ?_
    have length := passes.length
    refine sound_take_bind rfl (fun u takes => ?_) fun _ => ?_
    · have shorter := takes.length
      refine (inductionHypothesis (by omega) (by omega)).bind ?_
      rintro xs rest v ⟨nonempty, parts, each, rfl⟩ -
      refine sound_pure ⟨by simp, part :: parts, .cons spelled each, ?_⟩
      cases each with
      | nil => exact absurd rfl nonempty
      | cons => simp [commaList_cons_cons]
    · exact sound_pure ⟨by simp, [part], .cons spelled .nil, by simp⟩

theorem sound_separated {item : Parser α} {spells : α → List Terminal → Prop} {m : Nat}
    (items : ∀ s : State, s.ahead.length < m → Sound item spells s) {s : State}
    (small : s.ahead.length < m) :
    Sound (separated item) (fun xs ts => xs ≠ [] ∧ ∃ parts, List.Forall₂ spells xs parts ∧
      ts = commaList parts) s :=
  sound_left_bind (sound_separatedUpTo items small (Nat.lt_succ_self _))

end FrontEnd.Parser
