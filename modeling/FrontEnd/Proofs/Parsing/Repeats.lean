import FrontEnd.Proofs.Parsing.Crosses
import FrontEnd.Proofs.Parsing.Sound
import FrontEnd.Tree.Parser.Expression

/-!
# What a silent run rests on

A run that reports nothing rests on the tokens that it takes and, at most, on the kind of the one behind them. `Repeats`
says so of two productions that differ in their depths only: what the first one makes in silence the second one makes
wherever the same tokens are ahead, if the token behind them is of the same kind or of one that is `free`. Nothing is
said of all that follows, nor of what was reported before, nor of illegal characters between the tokens.
-/

namespace FrontEnd.Parser

variable {α β : Type}

/-- Whatever kind of token comes next. -/
def Anything (_ : TokenKind) : Prop := True

/-- No kind but the one that came before. -/
def Nothing (_ : TokenKind) : Prop := False

/-- Whether a silent run of `p` from `s` makes something `good` of `least` tokens at least, and `q` makes the same
wherever these tokens are ahead and fewer than `bound` tokens in all, if a token behind them is of the same kind or
`free`. -/
def Repeats (bound least : Nat) (free : TokenKind → Prop) (p q : Parser α) (s : State)
    (good : α → Prop := fun _ => True) : Prop :=
  (p.run s).2.errors = s.errors →
    ∃ x ts t, p.run s = (some x, t) ∧ good x ∧ s.Crosses ts t ∧ least ≤ ts.length ∧
      ∀ u v : State, u.Crosses ts v → u.ahead.length < bound → v.kind = t.kind ∨ free v.kind →
        q.run u = (some x, v)

/-- Whether a silent run is repeated wherever there are fewer than `n` tokens. -/
def RepeatsBelow (n bound least : Nat) (free : TokenKind → Prop) (p q : Parser α) : Prop :=
  ∀ s : State, s.ahead.length < n → Repeats bound least free p q s

variable {n bound least total : Nat} {free ends : TokenKind → Prop} {p q : Parser α} {s : State} {good : α → Prop}
  {goal : β → Prop}

/-- Where nothing is taken, the kind of the token has to say so. -/
theorem repeats_still {x : α} (isGood : good x) (stops : p.run s = (some x, s))
    (stopsAgain : ∀ u : State, u.kind = s.kind ∨ free u.kind → q.run u = (some x, u)) :
    Repeats bound 0 free p q s good := by
  refine fun _ => ⟨x, [], s, stops, isGood, rfl, Nat.zero_le _, ?_⟩
  rintro u v rfl _ next
  exact stopsAgain u next

theorem repeats_pure {x : α} (isGood : good x) : Repeats bound 0 free (pure x) (pure x) s good :=
  repeats_still isGood rfl fun _ _ => rfl

theorem Repeats.mono {lower fewer : Nat} {less : TokenKind → Prop} (repeats : Repeats bound least free p q s good)
    (lower_le : lower ≤ bound) (fewer_le : fewer ≤ least) (isFree : ∀ kind, less kind → free kind) :
    Repeats lower fewer less p q s good := by
  intro silent
  obtain ⟨x, ts, t, ran, isGood, crosses, enough, again⟩ := repeats silent
  exact ⟨x, ts, t, ran, isGood, crosses, Nat.le_trans fewer_le enough, fun u v crossing small next =>
    again u v crossing (Nat.lt_of_lt_of_le small lower_le) (next.imp_right (isFree _))⟩

theorem Repeats.imp {better : α → Prop} (repeats : Repeats bound least free p q s good)
    (imp : ∀ x, good x → better x) : Repeats bound least free p q s better := by
  intro silent
  obtain ⟨x, ts, t, ran, isGood, rest⟩ := repeats silent
  exact ⟨x, ts, t, ran, imp x isGood, rest⟩

theorem RepeatsBelow.inside {lower : Nat} (repeats : RepeatsBelow n bound least free p q) (small : s.ahead.length < n)
    (deep : lower ≤ bound) : Repeats lower least free p q s :=
  (repeats s small).mono deep (Nat.le_refl _) fun _ isFree => isFree

/-- Less may be asked for than is taken. -/
theorem Repeats.fewer {fewer : Nat} (repeats : Repeats bound least free p q s good) (le : fewer ≤ least) :
    Repeats bound fewer free p q s good :=
  repeats.mono (Nat.le_refl _) le fun _ isFree => isFree

/-- What anything may follow may be followed by any kinds of token. -/
theorem Repeats.of_anything (repeats : Repeats bound least Anything p q s good) :
    Repeats bound least free p q s good :=
  repeats.mono (Nat.le_refl _) (Nat.le_refl _) fun _ _ => trivial

/-- Where there are not as many tokens as have to be taken, nothing has to be repeated. -/
theorem Repeats.change {other : Parser α} (repeats : Repeats bound least free p q s good) (none : bound ≤ least) :
    Repeats bound least free p other s good := by
  intro silent
  obtain ⟨x, ts, t, ran, isGood, crosses, enough, -⟩ := repeats silent
  refine ⟨x, ts, t, ran, isGood, crosses, enough, fun u v crossing small _ => ?_⟩
  have length := crossing.length
  omega

/-- A loop takes at least a token in each round, so with as many rounds as there may be tokens, but perhaps one, there is
always a round left where it is repeated. -/
theorem Repeats.of_round {q : Nat → Parser α} {rounds j : Nat}
    (round : ∀ k, bound ≤ k + 1 + j → Repeats bound 1 free p (q (k + 1)) s good)
    (long : bound ≤ rounds + j) (few : j ≤ 1) : Repeats bound 1 free p (q rounds) s good := by
  cases rounds with
  | zero => exact (round 0 (by omega)).change (by omega)
  | succ k => exact round k long

/-- Only what the runs do counts. -/
theorem Repeats.of_run {other otherAgain : Parser α} (repeats : Repeats bound least free p q s good)
    (same : other.run s = p.run s) (sameAgain : ∀ u, otherAgain.run u = q.run u) :
    Repeats bound least free other otherAgain s good := by
  intro silent
  rw [same] at silent
  obtain ⟨x, ts, t, ran, isGood, crosses, enough, again⟩ := repeats silent
  refine ⟨x, ts, t, same.trans ran, isGood, crosses, enough, fun u v crossing small next => ?_⟩
  rw [sameAgain, again u v crossing small next]

/-- Of two productions in a row, the first one is followed by what the second one takes, or by what follows both. -/
theorem Repeats.bind {k l : Nat} {f g : α → Parser β} (first : Repeats bound k free p q s good)
    (sum : total ≤ k + l) (second : ∀ x t, good x → t.ahead.length + k ≤ s.ahead.length →
      Repeats (bound - k) l ends (f x) (g x) t goal) (joint : 0 < l ∨ ∀ kind, ends kind → free kind) :
    Repeats bound total ends (p >>= f) (q >>= g) s goal := by
  intro silent
  have reaches := p.reaches s
  rw [run_bind] at silent ⊢
  cases ran : p.run s with
  | mk result t =>
    rw [ran] at silent reaches
    have repeats := first
    rw [Repeats, ran] at repeats
    cases result with
    | none =>
      obtain ⟨x, ts, t, impossible, -⟩ := repeats silent
      cases impossible
    | some x =>
      have silentFirst := errors_eq_of_reaches reaches ((f x).reaches t) silent
      obtain ⟨_, ts, _, ⟨⟩, isGood, crosses, enough, again⟩ := repeats silentFirst
      have length := crosses.length
      obtain ⟨y, us, v, ranSecond, isGoal, crossesSecond, enoughSecond, againSecond⟩ :=
        second x t isGood (by omega) (silent.trans silentFirst.symm)
      refine ⟨y, ts ++ us, v, ranSecond, isGoal, crosses.append crossesSecond, ?_, ?_⟩
      · rw [List.length_append]
        omega
      · intro w z crossing small next
        obtain ⟨middle, crossing, overSecond⟩ := State.crosses_append_iff.mp crossing
        have shorter := crossing.length
        have follows : middle.kind = t.kind ∨ free middle.kind := by
          cases us with
          | nil =>
            cases crossesSecond
            cases overSecond
            exact next.imp_right (joint.resolve_left (by simp at enoughSecond; omega) _)
          | cons => exact .inl (congrArg Token.kind (crossesSecond.current_eq overSecond (by simp)))
        rw [run_bind, again w middle crossing small follows]
        exact againSecond middle z overSecond (by omega) next

/-- Where the second production takes a token, it alone follows the first one. -/
theorem Repeats.taking_bind {k : Nat} {f g : α → Parser β} (first : Repeats bound k free p q s good)
    (sum : total ≤ k + 1) (second : ∀ x t, good x → t.ahead.length + k ≤ s.ahead.length →
      Repeats (bound - k) 1 ends (f x) (g x) t goal) :
    Repeats bound total ends (p >>= f) (q >>= g) s goal :=
  first.bind sum second (.inl Nat.one_pos)

/-- What is made may be put together with something else. -/
theorem Repeats.still_bind {f g : α → Parser β} (first : Repeats bound least free p q s good)
    (second : ∀ x t, good x → Repeats (bound - least) 0 free (f x) (g x) t goal) :
    Repeats bound least free (p >>= f) (q >>= g) s goal :=
  first.bind (l := 0) (Nat.le_refl _) (fun x t isGood _ => second x t isGood) (.inr fun _ isFree => isFree)

/-- Silent attempts succeed. -/
theorem Repeats.attempt (repeats : Repeats bound least free p q s good) :
    Repeats bound least free (attempt p) (attempt q) s fun o => ∃ x, o = some x ∧ good x := by
  intro silent
  obtain ⟨x, ts, t, ran, isGood, crosses, enough, again⟩ := repeats silent
  refine ⟨some x, ts, t, by simp [Parser.attempt, ran], ⟨x, rfl, isGood⟩, crosses, enough, ?_⟩
  intro u v crossing small next
  simp [Parser.attempt, again u v crossing small next]

theorem Repeats.attempt_bind {k l : Nat} {f g : Option α → Parser β} (first : Repeats bound k free p q s good)
    (sum : total ≤ k + l) (second : ∀ x t, good x → t.ahead.length + k ≤ s.ahead.length →
      Repeats (bound - k) l ends (f (some x)) (g (some x)) t goal)
    (joint : 0 < l ∨ ∀ kind, ends kind → free kind) :
    Repeats bound total ends (Parser.attempt p >>= f) (Parser.attempt q >>= g) s goal := by
  refine first.attempt.bind sum ?_ joint
  rintro _ t ⟨x, rfl, isGood⟩ shorter
  exact second x t isGood shorter

/-! What reports is not silent. -/

theorem repeats_of_reports {e : Error} {span : Span} (reports : (s.report e span).Reaches (p.run s).2) :
    Repeats bound least free p q s good := by
  intro silent
  have grown := reports.errors.length_le
  rw [silent, State.report, List.length_append, List.length_singleton] at grown
  omega

theorem repeats_reject {e : Error} {span : Span} :
    Repeats bound least free (reject e span : Parser α) q s good :=
  repeats_of_reports (.refl _)

theorem repeats_report_bind {e : Error} {span : Span} {f : Unit → Parser β} {q : Parser β} :
    Repeats bound least free (report e span >>= f) q s goal :=
  repeats_of_reports ((f ()).reaches (s.report e span))

/-! ## Looking -/

section

variable {f g : Token → Parser β}

/-- What is seen of a token that is taken is all of it; of another one, no more than its kind is used. -/
theorem repeats_peek_kind_bind
    (next : ∀ token : Token, token.kind = s.kind ∨ free token.kind →
      Repeats bound least free (f s.current) (g token) s goal) :
    Repeats bound least free (peek >>= f) (peek >>= g) s goal := by
  intro silent
  obtain ⟨x, ts, t, ran, isGood, crosses, enough, -⟩ := next s.current (.inl rfl) silent
  refine ⟨x, ts, t, ran, isGood, crosses, enough, fun u v crossing small follows => ?_⟩
  have seen : u.current.kind = s.kind ∨ free u.current.kind := by
    cases ts with
    | nil =>
      cases crosses
      cases crossing
      exact follows
    | cons => exact .inl (congrArg Token.kind (crosses.current_eq crossing (by simp)))
  obtain ⟨_, us, _, ranAgain, -, crossesAgain, -, again⟩ := next u.current seen silent
  cases ran.symm.trans ranAgain
  cases crosses.unique crossesAgain
  exact again u v crossing small follows

theorem repeats_peek_bind (some : 0 < least)
    (next : Repeats bound least free (f s.current) (g s.current) s goal) :
    Repeats bound least free (peek >>= f) (peek >>= g) s goal := by
  intro silent
  obtain ⟨x, ts, t, ran, isGood, crosses, enough, again⟩ := next silent
  refine ⟨x, ts, t, ran, isGood, crosses, enough, fun u v crossing small follows => ?_⟩
  have ranAgain := again u v crossing small follows
  rw [← crosses.current_eq crossing (by omega)] at ranAgain
  exact ranAgain

theorem repeats_peekSecond_bind (two : 1 < least)
    (next : Repeats bound least free (f s.second) (g s.second) s goal) :
    Repeats bound least free (peekSecond >>= f) (peekSecond >>= g) s goal := by
  intro silent
  obtain ⟨x, ts, t, ran, isGood, crosses, enough, again⟩ := next silent
  refine ⟨x, ts, t, ran, isGood, crosses, enough, fun u v crossing small follows => ?_⟩
  have ranAgain := again u v crossing small follows
  rw [← crosses.second_eq crossing (by omega)] at ranAgain
  exact ranAgain

end

theorem repeats_ensure_bind {holds holdsAgain : State → Prop} {f g : Unit → Parser β}
    (next : Repeats bound least free (f ()) (g ()) s goal) :
    Repeats bound least free (ensure holds >>= f) (ensure holdsAgain >>= g) s goal :=
  next

theorem repeats_joined_bind {first last : Span} {f g : Span → Parser β}
    (next : Repeats bound least free (f (first.upTo last)) (g (first.upTo last)) s goal) :
    Repeats bound least free (joined first last >>= f) (joined first last >>= g) s goal :=
  next

/-- Rounds are counted by the tokens that there are. -/
theorem repeats_left_bind {f g : Nat → Parser β}
    (next : ∀ k, Repeats (min bound (k + 1)) least free (f s.ahead.length) (g k) s goal) :
    Repeats bound least free (left >>= f) (left >>= g) s goal := by
  intro silent
  obtain ⟨x, ts, t, ran, isGood, crosses, enough, -⟩ := next 0 silent
  refine ⟨x, ts, t, ran, isGood, crosses, enough, fun u v crossing small follows => ?_⟩
  obtain ⟨_, us, _, ranAgain, -, crossesAgain, -, again⟩ := next u.ahead.length silent
  cases ran.symm.trans ranAgain
  cases crosses.unique crossesAgain
  exact again u v crossing (by omega) follows

theorem isAtEnd_eq {u : State} {kinds : List TokenKind} (same : u.kind = s.kind) :
    u.isAtEnd kinds = s.isAtEnd kinds := by
  rw [State.isAtEnd, State.isAtEnd, same]

theorem repeats_atEnd_bind {kinds : List TokenKind} {f g : Bool → Parser β}
    (next : Repeats bound least Nothing (f (s.isAtEnd kinds)) (g (s.isAtEnd kinds)) s goal) :
    Repeats bound least Nothing (atEnd kinds >>= f) (atEnd kinds >>= g) s goal := by
  intro silent
  obtain ⟨x, ts, t, ran, isGood, crosses, enough, again⟩ := next silent
  refine ⟨x, ts, t, ran, isGood, crosses, enough, fun u v crossing small follows => ?_⟩
  have same : u.kind = s.kind := by
    cases ts with
    | nil =>
      cases crosses
      cases crossing
      exact follows.resolve_right id
    | cons => exact congrArg Token.kind (crosses.current_eq crossing (by simp))
  have ranAgain := again u v crossing small follows
  rw [← isAtEnd_eq same] at ranAgain
  exact ranAgain

/-! ## Single tokens -/

theorem repeats_advance (notEof : s.kind ≠ .eof) :
    Repeats bound 1 Anything advance advance s fun token => token = s.current := by
  refine fun _ => ⟨s.current, [s.current], s.advance, rfl, rfl, s.crosses_advance notEof, Nat.le_refl 1, ?_⟩
  rintro u v ⟨-, same, rfl⟩ _ _
  rw [← same]
  rfl

theorem repeats_expect {accepts : Token → Bool} {e : TokenKind → Error}
    (notEof : ∀ token, accepts token = true → token.kind ≠ .eof) :
    Repeats bound 1 Anything (expect accepts e) (expect accepts e) s fun token => accepts token = true := by
  cases accepted : accepts s.current with
  | false =>
    have run : (expect accepts e).run s = (none, s.report (e s.kind) s.current.span) := by simp [expect, accepted]
    exact repeats_of_reports (by rw [run]; exact .refl _)
  | true =>
    have run : ∀ u : State, u.current = s.current → (expect accepts e).run u = (some s.current, u.advance) := by
      intro u same
      simp [expect, same, accepted]
    refine fun _ => ⟨s.current, [s.current], s.advance, run s rfl, accepted,
      s.crosses_advance (notEof _ accepted), Nat.le_refl 1, ?_⟩
    rintro u v ⟨-, same, rfl⟩ _ _
    exact run u same

/-- Behind a token of its own, a production is followed by whatever may follow what is left of it. -/
theorem Repeats.token_bind {f g : α → Parser β} (first : Repeats bound 1 Anything p q s good)
    (second : ∀ x t, good x → t.ahead.length < s.ahead.length →
      Repeats (bound - 1) (least - 1) ends (f x) (g x) t goal) :
    Repeats bound least ends (p >>= f) (q >>= g) s goal :=
  first.bind (by omega) second (.inr fun _ _ => trivial)

section

variable {kinds : List TokenKind} {kind : TokenKind} {f g : Token → Parser β}

theorem repeats_consumeAny (noEof : TokenKind.eof ∉ kinds) :
    Repeats bound 1 Anything (consumeAny kinds) (consumeAny kinds) s fun token => token.kind ∈ kinds := by
  refine Repeats.imp (repeats_expect ?_) fun token accepted => of_decide_eq_true accepted
  exact fun token accepted eof => noEof (eof ▸ of_decide_eq_true accepted)

theorem repeats_consumeAny_bind (noEof : TokenKind.eof ∉ kinds)
    (next : ∀ (token : Token) (t : State), token.kind ∈ kinds → t.ahead.length < s.ahead.length →
      Repeats (bound - 1) (least - 1) free (f token) (g token) t goal) :
    Repeats bound least free (consumeAny kinds >>= f) (consumeAny kinds >>= g) s goal :=
  (repeats_consumeAny noEof).token_bind next

theorem repeats_consume (notEof : kind ≠ .eof) :
    Repeats bound 1 Anything (consume kind) (consume kind) s := by
  refine Repeats.imp (repeats_expect ?_) fun _ _ => trivial
  exact fun token accepted => of_decide_eq_true accepted ▸ notEof

theorem kind_of_consume {x : Token} {t : State} (ran : (consume kind).run s = (some x, t)) : s.kind = kind := by
  simp only [consume, expect] at ran
  split at ran
  next accepted => exact of_decide_eq_true accepted
  next => cases ran

theorem repeats_consume_bind (notEof : kind ≠ .eof)
    (next : ∀ (token : Token) (t : State), t.ahead.length < s.ahead.length →
      Repeats (bound - 1) (least - 1) free (f token) (g token) t goal) :
    Repeats bound least free (consume kind >>= f) (consume kind >>= g) s goal :=
  (repeats_consume notEof).token_bind fun token t _ shorter => next token t shorter

theorem repeats_consumeAssign : Repeats bound 1 Anything consumeAssign consumeAssign s := by
  refine Repeats.imp (repeats_expect ?_) fun _ _ => trivial
  intro token accepted eof
  simp [eof] at accepted

theorem repeats_consumeAssign_bind
    (next : ∀ (token : Token) (t : State), t.ahead.length < s.ahead.length →
      Repeats (bound - 1) (least - 1) free (f token) (g token) t goal) :
    Repeats bound least free (consumeAssign >>= f) (consumeAssign >>= g) s goal :=
  repeats_consumeAssign.token_bind fun token t _ shorter => next token t shorter

theorem run_take_bind (same : s.kind = kind) (h : Bool → Parser β) :
    (take kind >>= h).run s = (advance >>= fun _ => h true).run s := by
  simp [run_bind, take, advance, same]

theorem run_take_bind_of_ne (other : s.kind ≠ kind) (h : Bool → Parser β) :
    (take kind >>= h).run s = (h false).run s := by
  simp [run_bind, take, other]

theorem repeats_take_bind {f g : Bool → Parser β} (notEof : kind ≠ .eof)
    (taken : ∀ t : State, t.ahead.length < s.ahead.length →
      Repeats (bound - 1) (least - 1) free (f true) (g true) t goal)
    (left : s.kind ≠ kind → Repeats bound least free (f false) (g false) s goal)
    (joint : 0 < least ∨ ¬ free kind) :
    Repeats bound least free (take kind >>= f) (take kind >>= g) s goal := by
  intro silent
  by_cases same : s.kind = kind
  · have behind : Repeats bound (1 + (least - 1)) free (advance >>= fun _ => f true)
        (advance >>= fun _ => g true) s goal :=
      (repeats_advance (same ▸ notEof)).bind (Nat.le_refl _) (fun _ t _ shorter => taken t shorter)
        (.inr fun _ _ => trivial)
    rw [run_take_bind same] at silent ⊢
    obtain ⟨x, ts, t, ran, isGood, crosses, enough, again⟩ := behind silent
    refine ⟨x, ts, t, ran, isGood, crosses, by omega, fun u v crossing small next => ?_⟩
    have sameAgain : u.kind = kind := by rw [State.kind, crosses.current_eq crossing (by omega), ← same, State.kind]
    rw [run_take_bind sameAgain]
    exact again u v crossing small next
  · rw [run_take_bind_of_ne same] at silent ⊢
    obtain ⟨x, ts, t, ran, isGood, crosses, enough, again⟩ := left same silent
    refine ⟨x, ts, t, ran, isGood, crosses, enough, fun u v crossing small next => ?_⟩
    have other : u.kind ≠ kind := by
      cases ts with
      | nil =>
        cases crosses
        cases crossing
        intro found
        refine next.elim (fun again => same (again.symm.trans found)) fun isFree => ?_
        exact joint.resolve_left (by simp at enough; omega) (found ▸ isFree)
      | cons =>
        rw [State.kind, crosses.current_eq crossing (by simp)]
        exact same
    rw [run_take_bind_of_ne other]
    exact again u v crossing small next

end

end FrontEnd.Parser
