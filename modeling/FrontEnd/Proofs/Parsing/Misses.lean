import FrontEnd.Proofs.Grammar.Lacking
import FrontEnd.Proofs.Parsing.RepeatsExpression
import FrontEnd.Proofs.Parsing.SafeExpression

/-!
# Runs that miss a value

`Misses` says of a silent run that makes something with a value in it where the tokens of the value are, and what comes
of leaving them out: the tokens in front are read as they were, one error is reported at the token that followed the
value, and then the tokens behind are read as they were. What is made lacks the value.

This is said of a production and of a family of others that differ from it in their depths only, for the rounds of the
loops are counted by tokens of which some are left out.
-/

namespace FrontEnd.Parser

variable {α β γ ι : Type}

/-- Whether a token of the kind may be taken to end a value that is not there. -/
def Closes (kind : TokenKind) : Prop :=
  kind = .dot ∨ kind = .comma

/-- Whether an expression is read from the tokens wherever they are ahead and nothing behind them goes on. -/
def ReadFrom (e : Expr) (part : List Token) : Prop :=
  ∀ u v : State, u.Crosses part v → EndsName v.kind → (expression true).run u = (some e, v)

/-- Reports that an expression is missing in front of a token. -/
def State.lacks (s : State) (follow : Token) : State :=
  s.report (.expectedExpression follow.kind) follow.span

/-- The tokens from `s` to `t` are those of the value `e` and others around them. Without them, but else as before and
with fewer than `bound` tokens ahead, a production makes what lacks the value. At least `least` tokens are in front of
the value, and where there are none it `ends` with the token that follows. -/
structure Cut (bound : ι → Nat) (least : Nat) (ends : TokenKind → Prop) (e : Expr) (q : ι → Parser α)
    (lacking : Span → α) (s t : State) (front part back : List Token) (follow : Token) : Prop where
  crosses : s.Crosses (front ++ (part ++ back)) t
  enough : least ≤ front.length
  ends : front = [] → ends follow.kind
  follows : (back ++ [t.current]).head? = some follow
  closes : Closes follow.kind
  readFrom : ReadFrom e part
  again : ∀ (i : ι) (u v w : State), u.Crosses front v → (v.lacks follow).Crosses back w → w.current = t.current →
    u.ahead.length < bound i → (q i).run u = (some (lacking follow.span), w)

/-- Whether a silent run of `p` from `s` can miss each value that what it makes has, if what is `next` behind it is of
such a kind. -/
def Misses (bound : ι → Nat) (least : Nat) (next ends : TokenKind → Prop) (e : Expr) (hole : Hole α) (p : Parser α)
    (q : ι → Parser α) (s : State) : Prop :=
  ∀ x t lacking, p.run s = (some x, t) → t.errors = s.errors → next t.kind → hole x lacking →
    ∃ front part back follow, Cut bound least ends e q lacking s t front part back follow

variable {bound : ι → Nat} {i j k least : Nat} {next ends free : TokenKind → Prop} {e : Expr} {hole : Hole α}
  {goal : Hole β} {p : Parser α} {q : ι → Parser α} {s t r : State} {good : α → Prop}

/-! ## Cuts -/

section

variable {lacking : Span → α} {more : Span → β} {front part back tokens : List Token} {follow : Token}
  {g : ι → α → Parser β}

/-- Where a value is missing, the token that followed it is next. -/
theorem Cut.current_eq (cut : Cut bound least ends e q lacking s t front part back follow) {v w : State}
    (behind : (v.lacks follow).Crosses back w) (same : w.current = t.current) : v.current = follow := by
  have head := behind.head
  rw [same, cut.follows] at head
  exact (Option.some.inj head).symm

/-- Tokens may be in front that are read as they were, with any token of a value behind them or the one that follows. -/
theorem Cut.behind {x : α} (cut : Cut (bound · - k) j ends e (g · x) more t r front part back follow)
    (crosses : s.Crosses tokens t) (enough : k ≤ tokens.length)
    (again : ∀ (i : ι) (u v : State), u.Crosses tokens v → u.ahead.length < bound i → v.kind = t.kind ∨ free v.kind →
      (q i).run u = (some x, v))
    (joint : ∀ kind, ends kind → free kind) {begins : TokenKind → Prop}
    (first : 0 < k ∨ ∀ kind, ends kind → begins kind) :
    Cut bound (k + j) begins e (fun i => q i >>= g i) more s r (tokens ++ front) part back follow where
  crosses := by
    rw [List.append_assoc]
    exact crosses.append cut.crosses
  enough := by
    have := cut.enough
    rw [List.length_append]
    omega
  ends := by
    intro none
    obtain ⟨rfl, rfl⟩ := List.append_eq_nil_iff.mp none
    exact first.resolve_left (by simp at enough; omega) _ (cut.ends rfl)
  follows := cut.follows
  closes := cut.closes
  readFrom := cut.readFrom
  again := by
    intro i u v w crossing behind same small
    obtain ⟨middle, overFirst, overSecond⟩ := State.crosses_append_iff.mp crossing
    have length := overFirst.length
    have follows : middle.kind = t.kind ∨ free middle.kind := by
      cases front with
      | nil =>
        -- the value came at once, so that the token that followed it is next now
        cases overSecond
        rw [State.kind, cut.current_eq behind same]
        exact .inr (joint _ (cut.ends rfl))
      | cons =>
        obtain ⟨_, crossesFront, -⟩ := State.crosses_append_iff.mp cut.crosses
        exact .inl (congrArg Token.kind (crossesFront.current_eq overSecond (by simp)))
    rw [run_bind, again i u middle overFirst small follows]
    exact cut.again i middle v w overSecond behind same (by omega)

/-- Tokens may be behind that are read as they were. -/
theorem Cut.followed (cut : Cut bound least ends e q lacking s t front part back follow) (crosses : t.Crosses tokens r)
    (again : ∀ (i : ι) (u v : State), u.Crosses tokens v → u.ahead.length < bound i - least → v.kind = r.kind →
      (g i (lacking follow.span)).run u = (some (more follow.span), v)) :
    Cut bound least ends e (fun i => q i >>= g i) more s r front part (back ++ tokens) follow where
  crosses := by
    rw [← List.append_assoc part, ← List.append_assoc front]
    exact cut.crosses.append crosses
  enough := cut.enough
  ends := cut.ends
  follows := by
    have follows := cut.follows
    rw [List.head?_append, List.head?_singleton, ← crosses.head] at follows
    rw [List.append_assoc, List.head?_append, follows]
  closes := cut.closes
  readFrom := cut.readFrom
  again := by
    intro i u v w crossing behind same small
    obtain ⟨middle, behindFirst, behindSecond⟩ := State.crosses_append_iff.mp behind
    -- what is next behind the error is what was next behind the value, be it taken or not
    have sameMiddle : middle.current = t.current := by
      have head := behindSecond.head
      rw [same, crosses.head] at head
      exact (Option.some.inj head).symm
    have lengthFront := crossing.length
    have lengthBack : v.ahead.length = _ := behindFirst.length
    have enough := cut.enough
    rw [run_bind, cut.again i u v middle crossing behindFirst sameMiddle small]
    exact again i middle w behindSecond (by omega) (congrArg Token.kind same)

/-- Only what the runs do counts, and the token that they see first is as it was or the one that follows the value. -/
theorem Cut.change (cut : Cut bound least ends e q lacking s t front part back follow) {other : ι → Parser α}
    (same : ∀ (i : ι) (u : State), (u.current = s.current ∨ least = 0 ∧ ends u.kind) →
      (1 < least → u.second = s.second) → least < bound i → (other i).run u = (q i).run u) :
    Cut bound least ends e other lacking s t front part back follow := by
  refine { cut with again := fun i u v w crossing behind sameBehind small => ?_ }
  rw [← cut.again i u v w crossing behind sameBehind small]
  obtain ⟨_, crossesFront, -⟩ := State.crosses_append_iff.mp cut.crosses
  have enough := cut.enough
  have length := crossing.length
  refine same i u ?_ (fun two => crossesFront.second_eq crossing (by omega)) (by omega)
  cases front with
  | nil =>
    cases crossing
    rw [State.kind, cut.current_eq behind sameBehind]
    exact .inr ⟨Nat.le_zero.mp enough, cut.ends rfl⟩
  | cons => exact .inl (crossesFront.current_eq crossing (by simp))

end

/-! ## Composition -/

theorem run_bind_assoc {f : α → Parser β} {h : β → Parser γ} :
    ((p >>= f) >>= h).run s = (p >>= fun x => f x >>= h).run s := by
  simp only [run_bind]
  cases p.run s with
  | mk result t => cases result <;> rfl

theorem run_bind_congr {f g : α → Parser β} (same : ∀ x t, (f x).run t = (g x).run t) :
    (p >>= f).run s = (p >>= g).run s := by
  simp only [run_bind, same]

theorem misses_of_no_value (noValue : ∀ x t lacking, p.run s = (some x, t) → t.errors = s.errors → ¬ hole x lacking) :
    Misses bound least next ends e hole p q s :=
  fun x t lacking ran silent _ has => absurd has (noValue x t lacking ran silent)

theorem misses_none : Misses bound least next ends e .none p q s :=
  misses_of_no_value fun _ _ _ _ _ => id

/-- Less may be asked for than is in front of the value. -/
theorem Misses.fewer {fewer : Nat} (misses : Misses bound least next ends e hole p q s) (le : fewer ≤ least) :
    Misses bound fewer next ends e hole p q s := by
  intro x t lacking ran silent isNext has
  obtain ⟨front, part, back, follow, cut⟩ := misses x t lacking ran silent isNext has
  exact ⟨front, part, back, follow, { cut with enough := Nat.le_trans le cut.enough }⟩

/-- Only a full stop or a comma follows a value. -/
theorem Misses.closing (misses : Misses bound least next ends e hole p q s) :
    Misses bound least next Closes e hole p q s := by
  intro x t lacking ran silent isNext has
  obtain ⟨front, part, back, follow, cut⟩ := misses x t lacking ran silent isNext has
  exact ⟨front, part, back, follow, { cut with ends := fun _ => cut.closes }⟩

/-- Whether each silent run can miss each value where there are fewer than `n` tokens. -/
def MissesBelow (n : Nat) (bound : ι → Nat) (e : Expr) (hole : Hole α) (p : Parser α) (q : ι → Parser α) : Prop :=
  ∀ s : State, s.ahead.length < n → Misses bound 1 Anything Nothing e hole p q s

theorem MissesBelow.inside {n : Nat} {lower : ι → Nat} (misses : MissesBelow n bound e hole p q)
    (small : s.ahead.length < n) (deep : ∀ i, lower i ≤ bound i) : Misses lower 1 Anything ends e hole p q s := by
  intro x t lacking ran silent _ has
  obtain ⟨front, part, back, follow, cut⟩ := misses s small x t lacking ran silent trivial has
  exact ⟨front, part, back, follow, { cut with
    ends := fun none => (cut.ends none).elim
    again := fun i u v w crossing behind same small =>
      cut.again i u v w crossing behind same (Nat.lt_of_lt_of_le small (deep i)) }⟩

/-- Any others of a family may be looked at. -/
theorem MissesBelow.reindex {κ : Type} {n : Nat} (misses : MissesBelow n bound e hole p q) (h : κ → ι) :
    MissesBelow n (fun k => bound (h k)) e hole p fun k => q (h k) := by
  intro s small x t lacking ran silent isNext has
  obtain ⟨front, part, back, follow, cut⟩ := misses s small x t lacking ran silent isNext has
  exact ⟨front, part, back, follow, { cut with again := fun k => cut.again (h k) }⟩

/-- Only what the runs do counts, where there are tokens enough in front of the value. -/
theorem Misses.of_run {other : Parser α} {otherAgain : ι → Parser α}
    (misses : Misses bound least next ends e hole p q s) (same : other.run s = p.run s)
    (sameAgain : ∀ (i : ι) (u : State), (u.current = s.current ∨ least = 0 ∧ ends u.kind) →
      (1 < least → u.second = s.second) → least < bound i → (otherAgain i).run u = (q i).run u) :
    Misses bound least next ends e hole other otherAgain s := by
  intro x t lacking ran silent isNext has
  obtain ⟨front, part, back, follow, cut⟩ := misses x t lacking (same.symm.trans ran) silent isNext has
  exact ⟨front, part, back, follow, cut.change sameAgain⟩

section

variable {f : α → Parser β} {g : ι → α → Parser β} {begins : TokenKind → Prop}

/-- The value may be in what comes first, with something put around it. -/
theorem Misses.still_bind {c : α → β} (first : Misses bound least next ends e hole p q s)
    (still : ∀ x t, (f x).run t = (some (c x), t))
    (splits : ∀ x lacking, goal (c x) lacking → ∃ inner, hole x inner ∧ lacking = fun place => c (inner place)) :
    Misses bound least next ends e goal (p >>= f) (fun i => q i >>= f) s := by
  intro y r lacking ran silent isNext has
  obtain ⟨x, t, ranFirst, ranSecond⟩ := run_bind_eq_some ran
  rw [still] at ranSecond
  cases ranSecond
  obtain ⟨inner, hasInner, rfl⟩ := splits x lacking has
  obtain ⟨front, part, back, follow, cut⟩ := first x r inner ranFirst silent isNext hasInner
  refine ⟨front, part, back ++ [], follow, cut.followed rfl fun i u v crossing _ _ => ?_⟩
  cases crossing
  exact still _ u

variable [Inhabited ι]

/-- What a silent run rests on does not depend on which of a family repeats it. -/
theorem repeats_all (repeats : ∀ i, Repeats (bound i) k free p (q i) s good)
    (silent : (p.run s).2.errors = s.errors) :
    ∃ x ts t, p.run s = (some x, t) ∧ good x ∧ s.Crosses ts t ∧ k ≤ ts.length ∧
      ∀ (i : ι) (u v : State), u.Crosses ts v → u.ahead.length < bound i → v.kind = t.kind ∨ free v.kind →
        (q i).run u = (some x, v) := by
  obtain ⟨x, ts, t, ran, isGood, crosses, enough, -⟩ := repeats default silent
  refine ⟨x, ts, t, ran, isGood, crosses, enough, fun i => ?_⟩
  obtain ⟨_, _, _, ranAgain, -, crossesAgain, -, again⟩ := repeats i silent
  cases ran.symm.trans ranAgain
  cases crosses.unique crossesAgain
  exact again

/-- The value may be in what comes second. What comes first is followed by a token of that, or by the one behind the
value. -/
theorem Misses.second_bind (enough : least ≤ k + j) (first : ∀ i, Repeats (bound i) k free p (q i) s good)
    (second : ∀ x t, good x → t.ahead.length + k ≤ s.ahead.length →
      Misses (bound · - k) j next ends e goal (f x) (g · x) t)
    (joint : ∀ kind, ends kind → free kind) (begin : 0 < k ∨ ∀ kind, ends kind → begins kind) :
    Misses bound least next begins e goal (p >>= f) (fun i => q i >>= g i) s := by
  intro y r lacking ran silent isNext has
  obtain ⟨x, t, ranFirst, ranSecond⟩ := run_bind_eq_some ran
  have silentFirst := errors_eq_of_reaches (reaches_of_run ranFirst) (reaches_of_run ranSecond) silent
  obtain ⟨_, tokens, _, ranAgain, isGood, crosses, taken, again⟩ := repeats_all first (by rwa [ranFirst])
  cases ranFirst.symm.trans ranAgain
  have length := crosses.length
  obtain ⟨front, part, back, follow, cut⟩ := second x t isGood (by omega) y r lacking ranSecond
    (silent.trans silentFirst.symm) isNext has
  have whole := cut.behind crosses taken again joint begin
  exact ⟨tokens ++ front, part, back, follow, { whole with enough := Nat.le_trans enough whole.enough }⟩

/-- What comes first takes a token, and anything may follow it. -/
theorem Misses.token_bind (enough : least ≤ 1 + j) (first : ∀ i, Repeats (bound i) 1 Anything p (q i) s good)
    (second : ∀ x t, good x → t.ahead.length < s.ahead.length →
      Misses (bound · - 1) j next Closes e goal (f x) (g · x) t) :
    Misses bound least next begins e goal (p >>= f) (fun i => q i >>= g i) s :=
  .second_bind enough first second (fun _ _ => trivial) (.inl Nat.one_pos)

/-- What comes second has a token in front of the value. -/
theorem Misses.taking_bind (enough : least ≤ k + 1) (first : ∀ i, Repeats (bound i) k free p (q i) s good)
    (second : ∀ x t, good x → t.ahead.length + k ≤ s.ahead.length →
      Misses (bound · - k) 1 next Nothing e goal (f x) (g · x) t) :
    Misses bound least next begins e goal (p >>= f) (fun i => q i >>= g i) s :=
  .second_bind enough first second (fun _ => False.elim) (.inr fun _ => False.elim)

/-- The value may be in the first or in the second of two parts. -/
theorem Misses.bind {part : Hole γ} {rest : α → Parser γ} {again : ι → α → Parser γ} {c : α → γ → β}
    {close freeRest : TokenKind → Prop} {goodRest : γ → Prop} {l : Nat} (enough : least ≤ i ∧ least ≤ k + 1)
    (first : Misses bound i close begins e hole p q s) (firstAgain : ∀ i, Repeats (bound i) k free p (q i) s good)
    (second : ∀ x t, good x → t.ahead.length + k ≤ s.ahead.length →
      Misses (bound · - k) 1 next Nothing e part (rest x) (again · x) t)
    (secondAgain : ∀ x t, good x → t.ahead.length + k ≤ s.ahead.length →
      ∀ j, Repeats (bound j - i) l freeRest (rest x) (again j x) t goodRest)
    (splits : ∀ x z t r lacking, good x → t.ahead.length + k ≤ s.ahead.length → (rest x).run t = (some z, r) →
      r.errors = t.errors → next r.kind → goal (c x z) lacking →
        (close t.kind ∧ ∃ inner, hole x inner ∧ lacking = fun place => c (inner place) z) ∨
          ∃ inner, part z inner ∧ lacking = fun place => c x (inner place))
    (kept : ∀ j x inner place, hole x inner → again j (inner place) = again j x)
    (shape : ∀ x t, (f x).run t = (rest x >>= fun z => pure (c x z)).run t)
    (shapeAgain : ∀ j x t, (g j x).run t = (again j x >>= fun z => pure (c x z)).run t) :
    Misses bound least next begins e goal (p >>= f) (fun i => q i >>= g i) s := by
  intro y r lacking ran silent isNext has
  obtain ⟨x, t, ranFirst, ranBoth⟩ := run_bind_eq_some ran
  have silentFirst := errors_eq_of_reaches (reaches_of_run ranFirst) (reaches_of_run ranBoth) silent
  have silentSecond := silent.trans silentFirst.symm
  obtain ⟨_, tokens, _, ranAgain, isGood, crosses, taken, readAgain⟩ := repeats_all firstAgain (by rwa [ranFirst])
  cases ranFirst.symm.trans ranAgain
  have length := crosses.length
  rw [shape] at ranBoth
  obtain ⟨z, _, ranSecond, ⟨⟩⟩ := run_bind_eq_some ranBoth
  obtain ⟨isClose, inner, hasInner, rfl⟩ | ⟨inner, hasInner, rfl⟩ :=
    splits x z t r lacking isGood (by omega) ranSecond silentSecond isNext has
  -- without a value in the first part, the second one is read behind it as it was
  case inl =>
    obtain ⟨front, part, back, follow, cut⟩ := first x t inner ranFirst silentFirst isClose hasInner
    obtain ⟨_, more, _, ranAgain, -, crossesMore, -, readMore⟩ :=
      repeats_all (secondAgain x t isGood (by omega)) (by rwa [ranSecond])
    cases ranSecond.symm.trans ranAgain
    have whole : Cut bound i begins e (fun j => q j >>= g j) (fun place => c (inner place) z) s r front part
        (back ++ more) follow :=
      cut.followed crossesMore fun j u v crossing small same => by
        rw [shapeAgain, kept j x inner _ hasInner, run_bind, readMore j u v crossing small (.inl same)]
        rfl
    exact ⟨front, part, back ++ more, follow, { whole with enough := Nat.le_trans enough.1 whole.enough }⟩
  -- the first part is read as it was, and the second one lacks the value
  case inr =>
    obtain ⟨front, part, back, follow, cut⟩ :=
      second x t isGood (by omega) z r inner ranSecond silentSecond isNext hasInner
    have ofSecond : Cut (bound · - k) 1 Nothing e (fun j => again j x >>= fun z => pure (c x z))
        (fun place => c x (inner place)) t r front part (back ++ []) follow :=
      cut.followed rfl fun j u v crossing _ _ => by
        cases crossing
        rfl
    have whole : Cut bound (k + 1) begins e (fun j => q j >>= g j) (fun place => c x (inner place)) s r
        (tokens ++ front) part (back ++ []) follow :=
      (ofSecond.change fun j u _ _ _ => shapeAgain j x u).behind crosses taken readAgain (fun _ => False.elim)
        (.inr fun _ => False.elim)
    exact ⟨tokens ++ front, part, back ++ [], follow, { whole with enough := Nat.le_trans enough.2 whole.enough }⟩

/-- A silent attempt succeeds, also without the value. -/
theorem Misses.attempt_bind {f : Option α → Parser β} {g : ι → Option α → Parser β}
    (first : ∀ i, Repeats (bound i) k free p (q i) s good)
    (misses : Misses bound least next ends e goal (p >>= fun x => f (some x))
      (fun i => q i >>= fun x => g i (some x)) s) :
    Misses bound least next ends e goal (attempt p >>= f) (fun i => attempt (q i) >>= g i) s := by
  intro y r lacking ran silent isNext has
  obtain ⟨o, t, ranAttempt, ranBehind⟩ := run_bind_eq_some ran
  have silentFirst := errors_eq_of_reaches (reaches_of_run ranAttempt) (reaches_of_run ranBehind) silent
  have result : p.run s = (o, t) := by
    cases ranAttempt
    rfl
  obtain ⟨x, _, _, succeeds, -⟩ := repeats_all first (by rwa [result])
  cases result.symm.trans succeeds
  have ranBoth : (p >>= fun x => f (some x)).run s = (some y, r) := by
    rw [run_bind, succeeds]
    exact ranBehind
  obtain ⟨front, part, back, follow, cut⟩ := misses y r lacking ranBoth silent isNext has
  refine ⟨front, part, back, follow, { cut with again := fun i u v w crossing behind same small => ?_ }⟩
  obtain ⟨z, m, ranAgain, ranRest⟩ := run_bind_eq_some (cut.again i u v w crossing behind same small)
  simp only [run_bind, attempt, ranAgain, ranRest]

end

/-! ## Looking -/

theorem Misses.peek_bind {f : Token → Parser β} {g : ι → Token → Parser β}
    (some : 0 < least) (misses : Misses bound least next ends e goal (f s.current) (g · s.current) s) :
    Misses bound least next ends e goal (peek >>= f) (fun i => peek >>= g i) s :=
  misses.of_run rfl fun i u first _ _ => by
    rw [← first.resolve_right (by omega)]
    rfl

theorem Misses.peekSecond_bind {f : Token → Parser β} {g : ι → Token → Parser β}
    (two : 1 < least) (misses : Misses bound least next ends e goal (f s.second) (g · s.second) s) :
    Misses bound least next ends e goal (peekSecond >>= f) (fun i => peekSecond >>= g i) s :=
  misses.of_run rfl fun i u _ second _ => by
    rw [← second two]
    rfl

theorem Misses.atEnd_bind {kinds : List TokenKind} {f : Bool → Parser β} {g : ι → Bool → Parser β}
    (some : 0 < least) (misses : Misses bound least next ends e goal (f (s.isAtEnd kinds)) (g · (s.isAtEnd kinds)) s) :
    Misses bound least next ends e goal (atEnd kinds >>= f) (fun i => atEnd kinds >>= g i) s :=
  misses.of_run rfl fun i u first _ _ => by
    rw [← isAtEnd_eq (congrArg Token.kind (first.resolve_right (by omega)))]
    rfl

/-- Rounds are counted by the tokens that there are, which are fewer without the value. -/
theorem Misses.left_bind {f : Nat → Parser β} {g : ι → Nat → Parser β}
    (misses : Misses (fun i : ι × Nat => min (bound i.1) (i.2 + 1)) least next ends e goal (f s.ahead.length)
      (fun i => g i.1 i.2) s) :
    Misses bound least next ends e goal (left >>= f) (fun i => left >>= g i) s := by
  intro x t lacking ran silent isNext has
  obtain ⟨front, part, back, follow, cut⟩ := misses x t lacking ran silent isNext has
  exact ⟨front, part, back, follow, { cut with
    again := fun i u v w crossing behind same small =>
      cut.again (i, u.ahead.length) u v w crossing behind same (Nat.lt_min.mpr ⟨small, Nat.lt_succ_self _⟩) }⟩

/-- What is behind a token that may be taken may have a value, but not what is there where it is not taken. -/
theorem Misses.take_bind [Inhabited ι] {kind : TokenKind} {f : Bool → Parser β} {g : ι → Bool → Parser β}
    (notEof : kind ≠ .eof) (enough : 0 < least ∧ least ≤ 1 + j)
    (taken : ∀ t : State, t.ahead.length < s.ahead.length →
      Misses (bound · - 1) j next Closes e goal (f true) (g · true) t)
    (left : s.kind ≠ kind → ∀ x t lacking, (f false).run s = (some x, t) → ¬ goal x lacking) :
    Misses bound least next ends e goal (take kind >>= f) (fun i => take kind >>= g i) s := by
  by_cases same : s.kind = kind
  · have behind : Misses bound least next ends e goal (advance >>= fun _ => f true)
        (fun i => advance >>= fun _ => g i true) s :=
      .token_bind enough.2 (fun _ => repeats_advance (same ▸ notEof)) fun _ t _ shorter => taken t shorter
    exact behind.of_run (run_take_bind same f) fun i u first _ _ =>
      run_take_bind ((congrArg Token.kind (first.resolve_right (by omega))).trans same) (g i)
  · refine misses_of_no_value fun x t lacking ran _ => left same x t lacking ?_
    rwa [run_take_bind_of_ne same] at ran

end FrontEnd.Parser
