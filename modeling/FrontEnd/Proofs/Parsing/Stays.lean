import FrontEnd.Proofs.Parsing.Passes
import FrontEnd.Tree.Parser.Expression

/-!
# What is never passed over

Behind an error tokens are skipped, and inside of brackets this goes on to the closing bracket, whatever
stands before it. So nothing behind some tokens is safe from being skipped unless they close the brackets
that they open (`Closed`). But if they do, and if they belong to no block and no declaration (`Loose`), then
a production that starts among them stays among them: `s.LeadsTo stop` says that only such tokens are between
a state and the token at the head of `stop`, and `Stays stop p s` that a run of `p` keeps it so. The token at
the head has to be one that such a production does not take (`Bars`).

Inside of brackets there are two such tokens, the closing bracket and the one behind all the brackets. A list
stays in front of the first one (`State.Within`), and then the bracket is taken.
-/

namespace FrontEnd.Parser

variable {α β : Type}

/-! ## Brackets -/

/-- The bracket that closes a list of expressions, for the one that opens it. -/
def closer? : TokenKind → Option TokenKind
  | .lParen => some .rParen
  | .lBracket => some .rBracket
  | _ => none

/-- Whether all brackets that are opened are closed. Closing ones may be too many. -/
inductive Closed : List TokenKind → Prop
  | nil : Closed []
  | other {kind : TokenKind} {rest : List TokenKind} (notOpening : closer? kind = none)
      (behind : Closed rest) : Closed (kind :: rest)
  | bracket {opening close : TokenKind} {inner rest : List TokenKind}
      (closes : closer? opening = some close) (inside : Closed inner) (behind : Closed rest) :
      Closed (opening :: (inner ++ close :: rest))

theorem mem_of_closer? {opening close : TokenKind} (closes : closer? opening = some close) :
    close ∈ [TokenKind.rParen, .rBracket] := by
  cases opening <;> cases closes <;> decide

theorem closer?_of_closer? {opening close : TokenKind} (closes : closer? opening = some close) :
    closer? close = none := by
  cases opening <;> cases closes <;> rfl

theorem Closed.append {first second : List TokenKind} (closed : Closed first)
    (behind : Closed second) : Closed (first ++ second) := by
  induction closed with
  | nil => exact behind
  | other notOpening _ inductionHypothesis => exact .other notOpening inductionHypothesis
  | bracket closes inside _ _ inductionHypothesis =>
    rw [List.cons_append, List.append_assoc, List.cons_append]
    exact .bracket closes inside inductionHypothesis

/-- Without the first token all that is opened is still closed. -/
theorem Closed.tail {kind : TokenKind} {rest : List TokenKind} (closed : Closed (kind :: rest)) :
    Closed rest := by
  cases closed with
  | other _ behind => exact behind
  | bracket closes inside behind => exact inside.append (.other (closer?_of_closer? closes) behind)

theorem Closed.enter {opening close : TokenKind} {kinds : List TokenKind}
    (closed : Closed (opening :: kinds)) (closes : closer? opening = some close) :
    ∃ inner rest, kinds = inner ++ close :: rest ∧ Closed inner ∧ Closed rest := by
  cases closed with
  | other notOpening _ => rw [notOpening] at closes; cases closes
  | bracket found inside behind =>
    cases found.symm.trans closes
    exact ⟨_, _, rfl, inside, behind⟩

/-- Tokens that are no brackets may be left out. -/
theorem Closed.filter {kinds : List TokenKind} (closed : Closed kinds) {keeps : TokenKind → Bool}
    (brackets : ∀ opening close, closer? opening = some close →
      keeps opening = true ∧ keeps close = true) : Closed (kinds.filter keeps) := by
  induction closed with
  | nil => exact .nil
  | @other kind rest notOpening _ inductionHypothesis =>
    rw [List.filter_cons]
    split
    · exact .other notOpening inductionHypothesis
    · exact inductionHypothesis
  | bracket closes _ _ inside behind =>
    obtain ⟨keepsOpening, keepsClose⟩ := brackets _ _ closes
    rw [List.filter_cons_of_pos keepsOpening, List.filter_append, List.filter_cons_of_pos keepsClose]
    exact .bracket closes inside behind

/-- The words and signs of blocks and of declarations at the top level. -/
def blockWords : List TokenKind := [.lBrace, .rBrace, .kwBlock, .kwEnd, .kwFun, .kwDatatype]

/-- Whether tokens belong to no block and no declaration, and all brackets among them are closed. -/
structure Loose (kinds : List TokenKind) : Prop where
  closed : Closed kinds
  plain : ∀ kind ∈ kinds, kind ∉ blockWords

theorem Loose.tail {kind : TokenKind} {rest : List TokenKind} (loose : Loose (kind :: rest)) :
    Loose rest :=
  ⟨loose.closed.tail, fun kind member => loose.plain kind (List.mem_cons_of_mem _ member)⟩

/-! ## What is ahead -/

/-- The kinds of tokens that are never taken outside of brackets, blocks and declarations. -/
def barKinds : List TokenKind := [.rParen, .rBracket, .kwFun, .kwDatatype]

/-- Whether there is a first token, and it is of one of the kinds. -/
def Bars (kinds : List TokenKind) (stop : List Significant) : Prop :=
  ∃ t rest, stop = t :: rest ∧ t.token.kind ∈ kinds

theorem Bars.mono {kinds others : List TokenKind} {stop : List Significant} (bars : Bars kinds stop)
    (subset : kinds ⊆ others) : Bars others stop := by
  obtain ⟨t, rest, same, member⟩ := bars
  exact ⟨t, rest, same, subset member⟩

namespace State

variable {s t : State} {stop : List Significant}

/-- Whether only loose tokens are before `stop`. -/
def LeadsTo (s : State) (stop : List Significant) : Prop :=
  ∃ between, s.ahead = between ++ stop ∧ Loose (between.map fun t => t.token.kind)

/-- Whether a state is inside of brackets that are closed before `stop`. -/
def Within (s : State) (close : TokenKind) (stop : List Significant) : Prop :=
  ∃ t rest, t.token.kind = close ∧ Loose (rest.map fun t => t.token.kind) ∧
    s.LeadsTo (t :: (rest ++ stop))

theorem LeadsTo.congr (leads : s.LeadsTo stop) (ahead : t.ahead = s.ahead) : t.LeadsTo stop := by
  rw [LeadsTo, ahead]
  exact leads

theorem kind_of_cons {first : Significant} {rest : List Significant} (ahead : s.ahead = first :: rest) :
    s.kind = first.token.kind := by
  rw [kind, current, front, ahead, List.headD_cons]

/-- What is parsed next is a loose token or the head of what is led to. -/
theorem LeadsTo.cases (leads : s.LeadsTo stop) :
    s.ahead = stop ∨ ∃ first rest, s.ahead = first :: (rest ++ stop) ∧
      Loose (s.kind :: rest.map fun t => t.token.kind) := by
  obtain ⟨between, ahead, loose⟩ := leads
  cases between with
  | nil => exact .inl ahead
  | cons first rest =>
    refine .inr ⟨first, rest, ahead, ?_⟩
    rw [kind_of_cons ahead]
    exact loose

theorem kind_of_bars {kinds : List TokenKind} (bars : Bars kinds stop) (ahead : s.ahead = stop) :
    s.kind ∈ kinds := by
  obtain ⟨first, rest, rfl, member⟩ := bars
  rw [kind_of_cons ahead]
  exact member

/-- No block starts or ends here. -/
theorem LeadsTo.kind_ne (leads : s.LeadsTo stop) (bars : Bars barKinds stop) {word : TokenKind}
    (isWord : word ∈ blockWords) (notBar : word ∉ barKinds) : s.kind ≠ word := by
  rintro rfl
  obtain atStop | ⟨first, rest, -, loose⟩ := leads.cases
  · exact notBar (kind_of_bars bars atStop)
  · exact loose.plain s.kind List.mem_cons_self isWord

theorem LeadsTo.advance (leads : s.LeadsTo stop) (bars : Bars barKinds stop)
    (notBar : s.kind ∉ barKinds) : s.advance.LeadsTo stop := by
  obtain atStop | ⟨first, rest, ahead, loose⟩ := leads.cases
  · exact absurd (kind_of_bars bars atStop) notBar
  · exact ⟨rest, by rw [ahead_advance, ahead, List.tail_cons], loose.tail⟩

variable {opening close : TokenKind}

/-- Where a bracket is opened, it is closed before what is led to. -/
theorem LeadsTo.enter (leads : s.LeadsTo stop) (bars : Bars barKinds stop)
    (closes : closer? s.kind = some close) : s.advance.Within close stop := by
  obtain atStop | ⟨first, between, ahead, loose⟩ := leads.cases
  · have member := kind_of_bars bars atStop
    have noBar : ∀ kind ∈ barKinds, closer? kind = none := by decide
    rw [noBar _ member] at closes
    cases closes
  · obtain ⟨inner, rest, split, inside, behind⟩ := loose.closed.enter closes
    obtain ⟨innerAhead, others, rfl, rfl, found⟩ := List.map_eq_append_iff.mp split
    obtain ⟨t, restAhead, rfl, rfl, rfl⟩ := List.map_eq_cons_iff.mp found
    have plain := loose.tail.plain
    refine ⟨t, restAhead, rfl, ⟨behind, fun kind member => plain kind ?_⟩, innerAhead, ?_, inside,
      fun kind member => plain kind ?_⟩
    · simp only [List.map_append, List.map_cons, List.mem_append, List.mem_cons]
      exact .inr (.inr member)
    · rw [ahead_advance, ahead, List.tail_cons, List.append_assoc, List.cons_append]
    · rw [List.map_append, List.mem_append]
      exact .inl member

theorem Within.loose (within : s.Within close stop) (closes : closer? opening = some close) :
    ∃ between, between ≠ [] ∧ s.ahead = between ++ stop ∧
      Loose (between.map fun t => t.token.kind) := by
  obtain ⟨t, rest, rfl, behind, between, ahead, inside⟩ := within
  refine ⟨between ++ t :: rest, by simp, by rw [ahead, List.append_assoc, List.cons_append], ?_, ?_⟩
  · rw [List.map_append, List.map_cons]
    exact inside.closed.append (.other (closer?_of_closer? closes) behind.closed)
  · intro kind member
    have notWord : ∀ kind ∈ [TokenKind.rParen, .rBracket], kind ∉ blockWords := by decide
    simp only [List.map_append, List.map_cons, List.mem_append, List.mem_cons] at member
    rcases member with found | rfl | found
    · exact inside.plain kind found
    · exact notWord _ (mem_of_closer? closes)
    · exact behind.plain kind found

theorem Within.leadsTo (within : s.Within close stop) (closes : closer? opening = some close) :
    s.LeadsTo stop := by
  obtain ⟨between, -, ahead, loose⟩ := within.loose closes
  exact ⟨between, ahead, loose⟩

/-- From inside of brackets, any token may be taken. -/
theorem Within.advance (within : s.Within close stop) (closes : closer? opening = some close) :
    s.advance.LeadsTo stop := by
  obtain ⟨between, nonempty, ahead, loose⟩ := within.loose closes
  cases between with
  | nil => exact absurd rfl nonempty
  | cons first rest =>
    exact ⟨rest, by rw [ahead_advance, ahead, List.cons_append, List.tail_cons], loose.tail⟩

/-- Skipping does not go beyond a token that stops it. -/
theorem LeadsTo.skipTo (leads : s.LeadsTo stop) {resume : TokenKind} {stops : List TokenKind}
    (bars : Bars stops stop) (n : Nat) : (skipTo resume stops n s).2.LeadsTo stop := by
  induction n generalizing s with
  | zero => exact leads
  | succ n inductionHypothesis =>
    rw [State.skipTo]
    split
    next => exact leads
    next notAtEnd =>
      have next : s.advance.LeadsTo stop := by
        obtain atStop | ⟨first, rest, ahead, loose⟩ := leads.cases
        · have stopped := kind_of_bars bars atStop
          simp [isAtEnd, stopped] at notAtEnd
        · exact ⟨rest, by rw [ahead_advance, ahead, List.tail_cons], loose.tail⟩
      split
      · exact next
      · exact inductionHypothesis next

end State

/-! ## Productions -/

/-- Whether a run passes over nothing but loose tokens. -/
def Stays (stop : List Significant) (p : Parser α) (s : State) : Prop :=
  s.LeadsTo stop → (p.run s).2.LeadsTo stop

variable {stop : List Significant} {s : State}

theorem stays_of_same {p : Parser α} (same : (p.run s).2.ahead = s.ahead) : Stays stop p s :=
  fun leads => leads.congr same

theorem stays_pure {x : α} : Stays stop (pure x) s :=
  stays_of_same rfl

theorem stays_fail : Stays stop (fail : Parser α) s :=
  stays_of_same rfl

theorem stays_reject {e : Error} {span : Span} : Stays stop (reject e span : Parser α) s :=
  stays_of_same rfl

theorem stays_unreachable : Stays stop (unreachable : Parser α) s :=
  stays_of_same rfl

theorem Stays.bind {p : Parser α} {f : α → Parser β} (first : Stays stop p s)
    (second : ∀ x t, Stays stop (f x) t) : Stays stop (p >>= f) s := by
  intro leads
  have next := first leads
  rw [run_bind]
  cases ran : p.run s with
  | mk result t =>
    rw [ran] at next
    cases result with
    | none => exact next
    | some x => exact second x t next

theorem Stays.attempt_bind {p : Parser α} {f : Option α → Parser β} (first : Stays stop p s)
    (second : ∀ o t, Stays stop (f o) t) : Stays stop (attempt p >>= f) s := by
  have attempted : Stays stop (attempt p) s := first
  exact attempted.bind second

theorem stays_report_bind {e : Error} {span : Span} {f : Unit → Parser β}
    (next : ∀ t, Stays stop (f ()) t) : Stays stop (report e span >>= f) s :=
  have reported : Stays stop (report e span) s := stays_of_same rfl
  reported.bind fun _ t => next t

/-! Where the parser only looks, it stays where it is. -/

theorem stays_ensure_bind {holds : State → Prop} {f : Unit → Parser β}
    (next : Stays stop (f ()) s) : Stays stop (ensure holds >>= f) s :=
  next

theorem stays_joined_bind {first last : Span} {f : Span → Parser β}
    (next : ∀ span, Stays stop (f span) s) : Stays stop (joined first last >>= f) s :=
  next (first.upTo last)

theorem stays_peek_bind {f : Token → Parser β} (next : Stays stop (f s.current) s) :
    Stays stop (peek >>= f) s :=
  next

theorem stays_peekSecond_bind {f : Token → Parser β} (next : Stays stop (f s.second) s) :
    Stays stop (peekSecond >>= f) s :=
  next

theorem stays_left_bind {f : Nat → Parser β} (next : Stays stop (f s.ahead.length) s) :
    Stays stop (left >>= f) s :=
  next

theorem stays_atEnd_bind {kinds : List TokenKind} {f : Bool → Parser β}
    (next : Stays stop (f (s.isAtEnd kinds)) s) : Stays stop (atEnd kinds >>= f) s :=
  next

theorem stays_resync_bind {resume : TokenKind} {stops : List TokenKind} {f : Bool → Parser β}
    (stopped : Bars stops stop) (next : ∀ answer t, Stays stop (f answer) t) :
    Stays stop (resync resume stops >>= f) s := by
  have skipped : Stays stop (resync resume stops) s := fun leads => leads.skipTo stopped _
  exact skipped.bind next

/-! Tokens are taken that are none at the head of what is led to. -/

section

variable (bars : Bars barKinds stop)

include bars

theorem stays_take_bind {kind : TokenKind} {f : Bool → Parser β} (notBar : kind ∉ barKinds)
    (next : ∀ answer t, Stays stop (f answer) t) : Stays stop (take kind >>= f) s := by
  have taken : Stays stop (take kind) s := by
    intro leads
    rw [take]
    dsimp only
    split
    next same => exact leads.advance bars (same ▸ notBar)
    next => exact leads
  exact taken.bind next

theorem stays_expect {accepts : Token → Bool} {e : TokenKind → Error}
    (notBar : ∀ token, accepts token = true → token.kind ∉ barKinds) :
    Stays stop (expect accepts e) s := by
  intro leads
  rw [expect]
  dsimp only
  split
  next accepted => exact leads.advance bars (notBar _ accepted)
  next => exact leads.congr rfl

theorem stays_consume {kind : TokenKind} (notBar : kind ∉ barKinds) :
    Stays stop (consume kind) s :=
  stays_expect bars fun _ accepted => of_decide_eq_true accepted ▸ notBar

theorem stays_consumeAny {kinds : List TokenKind} (notBar : ∀ kind ∈ kinds, kind ∉ barKinds) :
    Stays stop (consumeAny kinds) s :=
  stays_expect bars fun token accepted => notBar token.kind (of_decide_eq_true accepted)

theorem stays_ident : Stays stop ident s :=
  (stays_consume bars (by decide)).bind fun _ _ => stays_pure

theorem stays_advance_bind {f : Token → Parser β} (notBar : s.kind ∉ barKinds)
    (next : ∀ t, Stays stop (f s.current) t) : Stays stop (advance >>= f) s :=
  fun leads => next s.advance (leads.advance bars notBar)

/-- Behind a bracket that opens, a production is inside of brackets. -/
theorem stays_enclosed {opening close : TokenKind} (closes : closer? opening = some close)
    {f : Token → Parser β}
    (inside : ∀ token t, t.Within close stop → ((f token).run t).2.LeadsTo stop) :
    Stays stop (consume opening >>= f) s := by
  intro leads
  rw [run_bind, consume, expect]
  dsimp only
  by_cases opens : s.current.kind = opening
  · have found : closer? s.kind = some close := by rw [State.kind, opens, closes]
    rw [if_pos (decide_eq_true opens)]
    exact inside s.current s.advance (leads.enter bars found)
  · rw [if_neg (by simpa using opens)]
    exact leads.congr rfl

end

/-! ## Lists -/

/-- Whether a production stays among loose tokens wherever it starts and whatever they lead to. -/
def AlwaysStays (p : Parser α) : Prop :=
  ∀ stop, Bars barKinds stop → ∀ s, Stays stop p s

variable {item : Parser α}

/-- Between brackets, what fails is skipped up to the closing one at most. -/
theorem stays_delimitedUpTo {close : TokenKind} (isClose : close ∈ barKinds)
    (stopped : Bars [close] stop) (items : AlwaysStays item) (n : Nat) :
    Stays stop (delimitedUpTo close item n) s := by
  have bars : Bars barKinds stop := stopped.mono (by simpa using isClose)
  induction n generalizing s with
  | zero => exact stays_ensure_bind stays_pure
  | succ n inductionHypothesis =>
    have others : ∀ x t, Stays stop (do return x :: (← delimitedUpTo close item n)) t :=
      fun x t => inductionHypothesis.bind fun _ _ => stays_pure
    refine stays_atEnd_bind ?_
    split
    · exact stays_pure
    · refine (items stop bars s).attempt_bind fun o t => ?_
      cases o with
      | none =>
        refine stays_resync_bind stopped fun resumed u => ?_
        cases resumed with
        | true => exact inductionHypothesis
        | false => exact stays_fail
      | some x =>
        refine stays_take_bind bars (by decide) fun continues u => ?_
        cases continues with
        | true => exact others x u
        | false =>
          refine stays_atEnd_bind ?_
          split
          · exact stays_pure
          · exact stays_peek_bind (stays_report_bind fun v => others x v)

theorem stays_delimited {close : TokenKind} (isClose : close ∈ barKinds)
    (stopped : Bars [close] stop) (items : AlwaysStays item) :
    Stays stop (delimited close item) s :=
  stays_ensure_bind <| stays_left_bind <|
    (stays_delimitedUpTo isClose stopped items _).bind fun _ _ => stays_ensure_bind stays_pure

theorem stays_separatedUpTo (bars : Bars barKinds stop) (items : AlwaysStays item) (n : Nat) :
    Stays stop (separatedUpTo item n) s := by
  induction n generalizing s with
  | zero => exact stays_unreachable
  | succ n inductionHypothesis =>
    refine (items stop bars s).bind fun x t => ?_
    refine stays_take_bind bars (by decide) fun continues u => ?_
    cases continues with
    | true => exact inductionHypothesis.bind fun _ _ => stays_pure
    | false => exact stays_pure

theorem stays_separated (bars : Bars barKinds stop) (items : AlwaysStays item) :
    Stays stop (separated item) s :=
  stays_left_bind (stays_separatedUpTo bars items _)

/-- A list and its closing bracket, from inside of the brackets. -/
theorem leadsTo_of_delimited {opening close : TokenKind} (closes : closer? opening = some close)
    (items : AlwaysStays item) {f : List α → Token → Parser β}
    (behind : ∀ xs last t, Stays stop (f xs last) t) (within : s.Within close stop) :
    ((do
      let xs ← delimited close item
      let last ← consume close
      f xs last : Parser β).run s).2.LeadsTo stop := by
  have isBar : close ∈ barKinds := by
    have brackets : ∀ kind ∈ [TokenKind.rParen, .rBracket], kind ∈ barKinds := by decide
    exact brackets close (mem_of_closer? closes)
  obtain ⟨t, rest, isClose, loose, leads⟩ := within
  have stopped : Bars [close] (t :: (rest ++ stop)) := ⟨t, _, rfl, by simp [isClose]⟩
  have inside : ((delimited close item).run s).2.Within close stop :=
    ⟨t, rest, isClose, loose, stays_delimited isBar stopped items leads⟩
  rw [run_bind]
  cases ran : (delimited close item).run s with
  | mk result u =>
    rw [ran] at inside
    cases result with
    | none => exact inside.leadsTo closes
    | some xs =>
      -- the closing bracket is taken here, or nothing
      have consumed : ((consume close).run u).2.LeadsTo stop := by
        rw [consume, expect]
        dsimp only
        split
        · exact inside.advance closes
        · exact (inside.leadsTo closes).congr rfl
      dsimp only
      rw [run_bind]
      cases taken : (consume close).run u with
      | mk result v =>
        rw [taken] at consumed
        cases result with
        | none => exact consumed
        | some last => exact behind xs last v consumed

end FrontEnd.Parser
