import FrontEnd.Proofs.Grammar.Solid
import FrontEnd.Proofs.Parsing.Safe

/-!
# Where a run puts what it makes

`Places tokens p s good` says of a run of `p` from `s` that what it makes is `good` at the state it arrives at, if the
tokens ahead are some of `tokens`, one behind the other (`State.InOrder`).

A production that makes something from `s` to `t` puts it in a row from the first byte of the current token
at `s` to the first byte of the current token at `t`. There is one exception: a value that is missing may
take the region of the separator behind it, which is not taken yet (`State.Clears`).

What is made is solid, too (`Placed`): every token but the end mark has something in it, and a node starts with a token
that was taken. So there is something in the region of each node, and what was read behind its first token is behind
its first byte.
-/

namespace FrontEnd

/-- Whether a token is one of some tokens and starts at a byte, and covers something before another. -/
structure Token.Taken (tokens : List Token) (first last : Nat) (t : Token) : Prop where
  member : t ∈ tokens
  lo : t.span.lo = first
  covers : t.span.lo < t.span.hi
  hi : t.span.hi ≤ last

section

variable {tokens : List Token} {first middle last start stop : Nat} {parts : List Outline} {closing : Span}

theorem Token.Taken.le_hi {t : Token} (taken : t.Taken tokens first last) : first ≤ t.span.hi := by
  have lo := taken.lo
  have covers := taken.covers
  omega

theorem Token.Taken.le {t : Token} (taken : t.Taken tokens first last) : first ≤ last :=
  Nat.le_trans taken.le_hi taken.hi

theorem Token.Taken.marked {t : Token} (taken : t.Taken tokens first last) : t.span.Marked tokens :=
  Span.marked_token taken.member

theorem Token.Taken.solid {t : Token} (taken : t.Taken tokens first last) : t.span.Solid :=
  taken.covers

/-! A row of parts makes up a node between two regions that are marked. -/

theorem Outline.InRow.joined {shared : List Span} {opening : Span}
    (row : Outline.InRow (Span.Marked tokens) first last parts)
    (borrowed : ∀ r ∈ shared, r.Marked tokens) (marked : opening.Marked tokens)
    (markedLast : closing.Marked tokens) (covers : opening.lo < opening.hi)
    (starts : start ≤ opening.lo ∧ opening.lo ≤ first) (ends : last ≤ closing.hi)
    (before : opening.hi ≤ stop ∧ closing.hi ≤ stop) :
    Outline.InRow (Span.Marked tokens) start stop [.node (opening.upTo closing) shared parts] := by
  have hi := opening.hi_upTo closing
  refine row.node (marked.upTo markedLast) borrowed starts ?_ ?_
  · rw [Span.lo_upTo]
    omega
  · omega

/-- The first region may be that of a token in front of the parts. -/
theorem Token.Taken.node {t : Token} (opens : t.Taken tokens first middle)
    (row : Outline.InRow (Span.Marked tokens) middle last parts) (marked : closing.Marked tokens)
    (ends : last ≤ closing.hi) (stops : closing.hi ≤ stop) :
    Outline.InRow (Span.Marked tokens) first stop [.node (t.span.upTo closing) [] parts] := by
  have lo := opens.lo
  have covers := opens.covers
  have hi := opens.hi
  have le := row.row.le
  exact row.joined (by simp) opens.marked marked covers ⟨by omega, by omega⟩ ends ⟨by omega, stops⟩

/-- The first region may be that of the first part. -/
theorem Outline.InRow.headed {o : Outline} {opening : Span} {shared : List Span}
    (head : Outline.InRow (Span.Marked tokens) first middle [o]) (same : o.span = opening)
    (row : Outline.InRow (Span.Marked tokens) middle last parts)
    (borrowed : ∀ r ∈ shared, r.Marked tokens) (marked : closing.Marked tokens)
    (ends : last ≤ closing.hi) (stops : closing.hi ≤ stop) :
    Outline.InRow (Span.Marked tokens) first stop [.node (opening.upTo closing) shared (o :: parts)] := by
  subst same
  obtain ⟨starts, covers, before⟩ := head.row
  have alone : Outline.InRow (Span.Marked tokens) o.span.lo middle [o] :=
    ⟨⟨Nat.le_refl _, covers, before⟩, head.each⟩
  have le := row.row.le
  have behind : o.span.hi ≤ last := Nat.le_trans before le
  exact (alone.append row).joined borrowed (head.each o List.mem_cons_self).markedSpan marked covers
    ⟨starts, Nat.le_refl _⟩ ends ⟨by omega, stops⟩

theorem Token.Taken.inRow {t : Token} (taken : t.Taken tokens first middle) (ends : middle ≤ last) :
    Outline.InRow (Span.Marked tokens) first last [.leaf t.span] :=
  Outline.inRow_leaf taken.marked (Nat.le_of_eq taken.lo.symm) taken.covers (Nat.le_trans taken.hi ends)

theorem Outline.InRow.solid {marked : Span → Prop} {o : Outline} (row : Outline.InRow marked first last [o]) :
    o.span.Solid :=
  row.row.2.1

end

/-- Whether things are in a row from one byte to another, and each of them is solid. -/
structure Placed {α : Type} (tokens : List Token) (outline : α → Outline) (solid : α → Prop) (first last : Nat)
    (xs : List α) : Prop where
  row : Outline.InRow (Span.Marked tokens) first last (xs.map outline)
  solid : ∀ x ∈ xs, solid x

namespace Placed

variable {α : Type} {tokens : List Token} {outline : α → Outline} {solid : α → Prop} {first middle last : Nat}
variable {x : α} {xs others : List α}

theorem nil (le : first ≤ last) : Placed tokens outline solid first last [] :=
  ⟨Outline.inRow_nil le, List.forall_mem_nil _⟩

theorem single (row : Outline.InRow (Span.Marked tokens) first last [outline x]) (own : solid x) :
    Placed tokens outline solid first last [x] :=
  ⟨row, List.forall_mem_singleton.mpr own⟩

theorem append (placed : Placed tokens outline solid first middle xs)
    (behind : Placed tokens outline solid middle last others) :
    Placed tokens outline solid first last (xs ++ others) := by
  refine ⟨?_, List.forall_mem_append.mpr ⟨placed.solid, behind.solid⟩⟩
  rw [List.map_append]
  exact placed.row.append behind.row

theorem mono (placed : Placed tokens outline solid first last xs) {start stop : Nat} (starts : start ≤ first)
    (ends : last ≤ stop) : Placed tokens outline solid start stop xs :=
  ⟨placed.row.mono starts ends, placed.solid⟩

theorem inRow (placed : Placed tokens outline solid first last [x]) :
    Outline.InRow (Span.Marked tokens) first last [outline x] :=
  placed.row

theorem own (placed : Placed tokens outline solid first last [x]) : solid x :=
  List.forall_mem_singleton.mp placed.solid

/-- Expressions in a row are behind each byte before it. -/
theorem eachSolid {es : List Expr} {before : Nat} (placed : Placed tokens Expr.outline Expr.Solid first last es)
    (later : before < first) : Expr.EachSolid before es := by
  refine Expr.eachSolid_iff.mpr fun e member => ⟨?_, placed.solid e member⟩
  have inside := placed.row.row.inside e.outline.span (List.mem_map_of_mem (List.mem_map_of_mem member))
  rw [Expr.span_outline] at inside
  exact Nat.lt_of_lt_of_le later inside.1

theorem outlines {es : List Expr} (placed : Placed tokens Expr.outline Expr.Solid first last es) :
    Outline.InRow (Span.Marked tokens) first last (Expr.outlines es) := by
  rw [Expr.outlines_eq_map]
  exact placed.row

end Placed

namespace Parser

open Outline (InRow inRow_nil)

variable {α β : Type} {tokens : List Token}

namespace State

/-- The first byte of the token that is parsed next. -/
def lo (s : State) : Nat :=
  s.current.span.lo

/-- Whether the tokens ahead, with what was skipped between them, are some of `tokens`, one behind the other,
and there is nothing in the end mark. -/
structure InOrder (tokens : List Token) (s : State) : Prop where
  row : Span.Row s.lo s.final.token.span.lo (s.ahead.map fun t => t.token.span)
  final : s.final.token.span.len = 0
  members : ∀ t ∈ s.final :: s.ahead, t.token ∈ tokens ∧ ∀ u ∈ t.skipped, u ∈ tokens

/-- Whether a region that ends at some byte is behind a state, or ends with a separator that is parsed
next. -/
def Clears (s : State) (stop : Nat) : Prop :=
  stop ≤ s.lo ∨ (s.kind = .dot ∨ s.kind = .comma) ∧ stop ≤ s.current.span.hi

variable {s t : State}

/-- A row of the tokens ahead starts with the current one. -/
theorem row_ahead {first : Nat}
    (row : Span.Row first s.final.token.span.lo (s.ahead.map fun t => t.token.span)) :
    first ≤ s.lo ∧ Span.Row s.lo s.final.token.span.lo (s.ahead.map fun t => t.token.span) := by
  cases found : s.ahead with
  | nil =>
    rw [found] at row
    rw [lo, current, front, found]
    exact ⟨row, Nat.le_refl _⟩
  | cons t rest =>
    rw [found] at row
    rw [lo, current, front, found]
    exact ⟨row.1, Nat.le_refl _, row.2⟩

theorem front_mem (s : State) : s.front ∈ s.final :: s.ahead := by
  rw [front]
  cases s.ahead with
  | nil => simp
  | cons t rest => simp

namespace InOrder

variable (inOrder : s.InOrder tokens)

include inOrder

theorem current_mem : s.current ∈ tokens :=
  (inOrder.members _ s.front_mem).1

theorem second_mem : s.second ∈ tokens := by
  rw [second]
  cases found : s.ahead.tail with
  | nil => exact (inOrder.members _ (by simp)).1
  | cons t rest =>
    have member : t ∈ s.ahead := List.mem_of_mem_tail (by simp [found])
    exact (inOrder.members t (List.mem_cons_of_mem _ member)).1

theorem reaches (reaches : s.Reaches t) : t.InOrder tokens := by
  obtain ⟨passed, split⟩ := reaches.ahead
  have row := inOrder.row
  rw [← split, List.map_append] at row
  obtain ⟨start, -, behind⟩ := row.behind
  rw [← reaches.final] at behind
  refine ⟨(row_ahead behind).2, reaches.final ▸ inOrder.final, fun u member => ?_⟩
  apply inOrder.members u
  rw [List.mem_cons, reaches.final] at member
  rw [List.mem_cons, ← split, List.mem_append]
  cases member with
  | inl final => exact .inl final
  | inr ahead => exact .inr (.inr ahead)

theorem covers (notEof : s.kind ≠ .eof) : s.lo < s.current.span.hi := by
  have row := inOrder.row
  cases found : s.ahead with
  | nil => exact absurd (s.kind_eq_eof_iff.mpr found) notEof
  | cons t rest =>
    have front : s.front = t := by rw [State.front, found, List.headD_cons]
    rw [found] at row
    rw [lo, current, front]
    exact row.2.1

/-- On the way to a state either nothing was taken, or the current token and maybe more. -/
theorem stays_or_passes (reaches : s.Reaches t) :
    t.ahead = s.ahead ∧ t.current = s.current ∨ s.kind ≠ .eof ∧ s.current.span.hi ≤ t.lo := by
  have row := inOrder.row
  obtain ⟨suffix, final, -⟩ := reaches
  -- the tokens ahead are all that the current token depends on
  by_cases same : t.ahead = s.ahead
  · exact .inl ⟨same, by rw [current, current, front, front, same, final]⟩
  · cases found : s.ahead with
    | nil => exact absurd (by rw [found] at suffix ⊢; exact List.suffix_nil.mp suffix) same
    | cons first rest =>
      rw [found] at suffix same row
      have front : s.front = first := by rw [State.front, found, List.headD_cons]
      obtain ⟨passed, split⟩ := (List.suffix_cons_iff.mp suffix).resolve_left same
      have tail := row.2.2
      rw [← split, List.map_append, ← final] at tail
      obtain ⟨start, later, behind⟩ := tail.behind
      refine .inr ⟨fun eof => ?_, ?_⟩
      · have empty := s.kind_eq_eof_iff.mp eof
        simp [found] at empty
      · rw [current, front]
        exact Nat.le_trans later (row_ahead behind).1

theorem lo_le (reaches : s.Reaches t) : s.lo ≤ t.lo := by
  cases inOrder.stays_or_passes reaches with
  | inl stays => exact Nat.le_of_eq (by rw [lo, lo, stays.2])
  | inr passes =>
    have := inOrder.covers passes.1
    omega

theorem hi_le_advance (notEof : s.kind ≠ .eof) : s.current.span.hi ≤ s.advance.lo := by
  cases inOrder.stays_or_passes s.reaches_advance with
  | inl stays =>
    have shorter := s.length_advance notEof
    rw [stays.1] at shorter
    exact absurd shorter (Nat.lt_irrefl _)
  | inr passes => exact passes.2

/-- Whatever is ahead of it, the current token is taken by moving on. -/
theorem taken (notEof : s.kind ≠ .eof) : s.current.Taken tokens s.lo s.advance.lo :=
  ⟨inOrder.current_mem, rfl, inOrder.covers notEof, inOrder.hi_le_advance notEof⟩

/-- The end mark ends where it starts. -/
theorem hi_of_eof (eof : s.kind = .eof) : s.current.span.hi = s.lo := by
  have empty := s.kind_eq_eof_iff.mp eof
  have final : s.current = s.final.token := by rw [current, front, empty, List.headD_nil]
  rw [lo, Span.hi, final, inOrder.final, Nat.add_zero]

end InOrder

/-! ## Separators -/

variable {stop : Nat}

theorem clears_of_le (le : stop ≤ s.lo) : s.Clears stop :=
  .inl le

/-- Once the separator is taken, the region is behind. -/
theorem Clears.le_hi {first last : Nat} (clears : s.Clears stop)
    (taken : s.current.Taken tokens first last) : stop ≤ s.current.span.hi := by
  have covers := taken.covers
  cases clears with
  | inl before => exact Nat.le_trans before (Nat.le_of_lt covers)
  | inr upTo => exact upTo.2

theorem Clears.le_lo (clears : s.Clears stop) (notDot : s.kind ≠ .dot) (notComma : s.kind ≠ .comma) :
    stop ≤ s.lo := by
  obtain before | ⟨dot | comma, -⟩ := clears
  · exact before
  · exact absurd dot notDot
  · exact absurd comma notComma

end State

/-- Whether what a run from a state makes is good where it arrives, if the tokens ahead are in order. -/
def Places (tokens : List Token) (p : Parser α) (s : State) (good : α → State → Prop) : Prop :=
  s.InOrder tokens → ∀ x t, p.run s = (some x, t) → good x t

variable {good : α → State → Prop} {goal : β → State → Prop} {s : State}

/-! ## Composition -/

theorem places_pure {x : α} (h : good x s) : Places tokens (pure x) s good := by
  rintro _ _ _ ⟨⟩
  exact h

theorem Places.imp {better : α → State → Prop} {p : Parser α} (places : Places tokens p s good)
    (imp : ∀ x t, s.lo ≤ t.lo → good x t → better x t) : Places tokens p s better :=
  fun inOrder x t ran => imp x t (inOrder.lo_le (reaches_of_run ran)) (places inOrder x t ran)

theorem places_any (p : Parser α) : Places tokens p s fun _ _ => True :=
  fun _ _ _ _ => trivial

/-- The tokens ahead are in order at every state, so that no production has to say so. -/
theorem Places.assuming {p : Parser α} (places : s.InOrder tokens → Places tokens p s good) :
    Places tokens p s good :=
  fun inOrder => places inOrder inOrder

theorem Places.bind_of_reaches {p : Parser α} {f : α → Parser β} (first : Places tokens p s good)
    (second : ∀ x t, s.Reaches t → s.lo ≤ t.lo → good x t → Places tokens (f x) t goal) :
    Places tokens (p >>= f) s goal := by
  intro inOrder y u ran
  obtain ⟨x, t, ranFirst, ranSecond⟩ := run_bind_eq_some ran
  have reaches := reaches_of_run ranFirst
  have isGood := first inOrder x t ranFirst
  exact second x t reaches (inOrder.lo_le reaches) isGood (inOrder.reaches reaches) y u ranSecond

theorem Places.bind {p : Parser α} {f : α → Parser β} (first : Places tokens p s good)
    (second : ∀ x t, s.lo ≤ t.lo → good x t → Places tokens (f x) t goal) :
    Places tokens (p >>= f) s goal :=
  first.bind_of_reaches fun x t _ => second x t

theorem Places.attempt_bind {p : Parser α} {f : Option α → Parser β} (first : Places tokens p s good)
    (made : ∀ x t, s.Reaches t → s.lo ≤ t.lo → good x t → Places tokens (f (some x)) t goal)
    (failed : ∀ t, s.Reaches t → s.lo ≤ t.lo → Places tokens (f none) t goal) :
    Places tokens (attempt p >>= f) s goal := by
  have attempted : Places tokens (attempt p) s fun o t => ∀ x ∈ o, good x t := by
    intro inOrder o t ran x member
    have same : p.run s = (some x, t) := by
      simp only [attempt, Prod.mk.injEq, Option.some.injEq] at ran
      exact Prod.ext (ran.1.trans member) ran.2
    exact first inOrder x t same
  refine attempted.bind_of_reaches ?_
  intro o t reaches later each
  cases o with
  | none => exact failed t reaches later
  | some x => exact made x t reaches later (each x rfl)

theorem places_fail : Places tokens (fail : Parser α) s good := by
  rintro _ _ _ ⟨⟩

theorem places_reject {e : Error} {span : Span} : Places tokens (reject e span : Parser α) s good := by
  rintro _ _ _ ⟨⟩

theorem places_report_bind {e : Error} {span : Span} {f : Unit → Parser β}
    (next : Places tokens (f ()) (s.report e span) goal) : Places tokens (report e span >>= f) s goal := by
  have reported : Places tokens (report e span) s fun _ t => t = s.report e span := by
    rintro _ _ _ ⟨⟩
    rfl
  refine reported.bind ?_
  rintro _ _ - rfl
  exact next

/-! ## What is taken for granted

It makes no difference to a run. -/

theorem places_unreachable : Places tokens (unreachable : Parser α) s good :=
  places_fail

theorem places_ensure_bind {holds : State → Prop} {f : Unit → Parser β}
    (next : Places tokens (f ()) s goal) : Places tokens (ensure holds >>= f) s goal :=
  next

theorem places_joined_bind {first last : Span} {f : Span → Parser β}
    (next : Places tokens (f (first.upTo last)) s goal) :
    Places tokens (joined first last >>= f) s goal :=
  next

/-! ## Looking -/

theorem places_looking_bind {look : State → Option α} {x : α} {f : α → Parser β}
    (looks : look s = some x) (next : Places tokens (f x) s goal) :
    Places tokens (looking look >>= f) s goal := by
  have same : (looking look >>= f).run s = (f x).run s := by simp [run_bind, looking, looks]
  rw [Places, same]
  exact next

theorem places_peek_bind {f : Token → Parser β}
    (next : s.current ∈ tokens → Places tokens (f s.current) s goal) :
    Places tokens (peek >>= f) s goal :=
  .assuming fun inOrder => places_looking_bind rfl (next inOrder.current_mem)

theorem places_peekSecond_bind {f : Token → Parser β} (next : Places tokens (f s.second) s goal) :
    Places tokens (peekSecond >>= f) s goal :=
  places_looking_bind rfl next

theorem places_left_bind {f : Nat → Parser β} (next : Places tokens (f s.ahead.length) s goal) :
    Places tokens (left >>= f) s goal :=
  places_looking_bind rfl next

theorem places_atEnd_bind {kinds : List TokenKind} {f : Bool → Parser β}
    (next : Places tokens (f (s.isAtEnd kinds)) s goal) : Places tokens (atEnd kinds >>= f) s goal :=
  places_looking_bind rfl next

/-! ## Single tokens -/

/-- A production that takes the current token. -/
theorem places_of_taken {p : Parser Token} (ran : p.run s = (some s.current, s.advance))
    (notEof : s.kind ≠ .eof) :
    Places tokens p s fun token t => token = s.current ∧ token.Taken tokens s.lo t.lo := by
  intro inOrder
  rw [ran]
  rintro _ _ ⟨⟩
  exact ⟨rfl, inOrder.taken notEof⟩

theorem places_advance (notEof : s.kind ≠ .eof) :
    Places tokens advance s fun token t => token = s.current ∧ token.Taken tokens s.lo t.lo :=
  places_of_taken rfl notEof

theorem places_expect {accepts : Token → Bool} {e : TokenKind → Error}
    (notEof : ∀ token, accepts token = true → token.kind ≠ .eof) :
    Places tokens (expect accepts e) s fun token t =>
      token = s.current ∧ token.Taken tokens s.lo t.lo := by
  by_cases accepted : accepts s.current = true
  · exact places_of_taken (by simp [expect, accepted]) (notEof _ accepted)
  · intro _
    simp only [expect, accepted, Bool.false_eq_true, if_false]
    rintro _ _ ⟨⟩

theorem places_consume {kind : TokenKind} (notEof : kind ≠ .eof) :
    Places tokens (consume kind) s fun token t =>
      token = s.current ∧ token.Taken tokens s.lo t.lo := by
  refine places_expect fun token accepted => ?_
  rwa [of_decide_eq_true accepted]

theorem places_consumeAny {kinds : List TokenKind} (notEof : TokenKind.eof ∉ kinds) :
    Places tokens (consumeAny kinds) s fun token t =>
      token = s.current ∧ token.Taken tokens s.lo t.lo := by
  refine places_expect fun token accepted eof => ?_
  exact notEof (eof ▸ of_decide_eq_true accepted)

theorem places_consumeAssign :
    Places tokens consumeAssign s fun token t =>
      token = s.current ∧ token.Taken tokens s.lo t.lo := by
  refine places_expect fun token accepted eof => ?_
  simp [eof] at accepted

theorem places_take_bind {kind : TokenKind} (notEof : kind ≠ .eof) {f : Bool → Parser β}
    (taken : ∀ t : State, t.ahead.length < s.ahead.length → s.current.Taken tokens s.lo t.lo →
      Places tokens (f true) t goal)
    (left : s.kind ≠ kind → Places tokens (f false) s goal) :
    Places tokens (take kind >>= f) s goal := by
  have took : Places tokens (take kind) s fun answer t =>
      if answer then t.ahead.length < s.ahead.length ∧ s.current.Taken tokens s.lo t.lo
        else t = s ∧ s.kind ≠ kind := by
    intro inOrder
    simp only [take]
    split
    next same =>
      rintro _ _ ⟨⟩
      exact ⟨s.length_advance (same ▸ notEof), inOrder.taken (same ▸ notEof)⟩
    next other =>
      rintro _ _ ⟨⟩
      exact ⟨rfl, other⟩
  refine took.bind ?_
  intro answer t _ found
  cases answer with
  | true => exact taken t found.1 found.2
  | false =>
    obtain ⟨rfl, other⟩ := found
    exact left other

/-- Where no token of the kind can be taken, nothing moves. -/
theorem places_attempt_consume {kind : TokenKind} (notEof : kind ≠ .eof) :
    Places tokens (attempt (consume kind)) s fun o t =>
      if o.isSome then s.current.Taken tokens s.lo t.lo else t.lo = s.lo ∧ s.kind ≠ kind := by
  intro inOrder
  by_cases same : s.kind = kind
  · have ran : (consume kind).run s = (some s.current, s.advance) :=
      if_pos (decide_eq_true same)
    simp only [attempt, ran]
    rintro _ _ ⟨⟩
    exact inOrder.taken (same ▸ notEof)
  · have ran : (consume kind).run s = (none, s.report (.unexpected s.kind kind) s.current.span) :=
      if_neg fun accepted => same (of_decide_eq_true accepted)
    simp only [attempt, ran]
    rintro _ _ ⟨⟩
    exact ⟨rfl, same⟩

theorem places_ident :
    Places tokens Parser.ident s fun ident t =>
      InRow (Span.Marked tokens) s.lo t.lo [ident.outline] := by
  refine (places_consume (by simp)).bind ?_
  rintro token t - ⟨-, taken⟩
  exact places_pure (taken.inRow (Nat.le_refl _))

theorem places_resync_bind {resume : TokenKind} {stops : List TokenKind} {f : Bool → Parser β}
    (next : ∀ answer t, s.lo ≤ t.lo → Places tokens (f answer) t goal) :
    Places tokens (resync resume stops >>= f) s goal :=
  (places_any (resync resume stops)).bind fun answer t later _ => next answer t later

/-! ## Lists -/

/-- Whether a production puts what it makes in a row from where it starts to where it ends, and makes it solid. -/
def PlacesEach (tokens : List Token) (outline : α → Outline) (solid : α → Prop) (p : Parser α) : Prop :=
  ∀ s, Places tokens p s fun x t => Placed tokens outline solid s.lo t.lo [x]

section

variable {outline : α → Outline} {solid : α → Prop} {item : Parser α}

theorem places_delimitedUpTo {close : TokenKind} (items : PlacesEach tokens outline solid item) (n : Nat)
    {s : State} :
    Places tokens (delimitedUpTo close item n) s fun xs t => Placed tokens outline solid s.lo t.lo xs := by
  induction n generalizing s with
  | zero => exact places_ensure_bind (places_pure (.nil (Nat.le_refl _)))
  | succ n inductionHypothesis =>
    apply places_atEnd_bind
    split
    next => exact places_pure (.nil (Nat.le_refl _))
    next =>
      refine (items s).attempt_bind ?made ?failed
      case failed =>
        intro t _ later
        refine places_resync_bind fun answer u laterStill => ?_
        cases answer with
        | false => exact places_fail
        | true =>
          exact inductionHypothesis.imp fun xs v _ placed =>
            placed.mono (Nat.le_trans later laterStill) (Nat.le_refl _)
      case made =>
        intro x t _ later placed
        -- whatever the separator is like, the others are behind the item
        have others : ∀ u : State, t.lo ≤ u.lo → Places tokens (do
            return x :: (← delimitedUpTo close item n)) u fun xs v => Placed tokens outline solid s.lo v.lo xs := by
          intro u between
          refine inductionHypothesis.bind fun xs v _ rest => places_pure ?_
          exact (placed.mono (Nat.le_refl _) between).append rest
        refine places_take_bind (by simp) (fun u _ taken => ?_) fun _ => places_atEnd_bind ?_
        · exact others u taken.le
        · split
          · exact places_pure placed
          · exact places_peek_bind fun _ => places_report_bind (others _ (Nat.le_refl _))

theorem places_delimited {close : TokenKind} (items : PlacesEach tokens outline solid item) :
    Places tokens (delimited close item) s fun xs t => Placed tokens outline solid s.lo t.lo xs := by
  refine places_ensure_bind (places_left_bind ?_)
  exact (places_delimitedUpTo items _).bind fun xs t _ placed => places_ensure_bind (places_pure placed)

/-- The last item may end with a separator that is left to what follows. -/
theorem places_separatedUpTo {ends : Nat → State → Prop} (clears : ∀ stop t, ends stop t → t.Clears stop)
    (items : ∀ s, Places tokens item s fun x t =>
      ∃ stop, Placed tokens outline solid s.lo stop [x] ∧ ends stop t) (n : Nat) {s : State} :
    Places tokens (separatedUpTo item n) s fun xs t =>
      ∃ stop, Placed tokens outline solid s.lo stop xs ∧ ends stop t := by
  induction n generalizing s with
  | zero => exact places_unreachable
  | succ n inductionHypothesis =>
    refine (items s).bind ?_
    rintro x t later ⟨stop, placed, ended⟩
    refine places_take_bind (by simp) (fun u _ taken => ?_) fun _ => ?_
    · refine inductionHypothesis.bind ?_
      rintro xs v - ⟨last, rest, endedLast⟩
      have before := (clears stop t ended).le_hi taken
      have := taken.hi
      exact places_pure ⟨last, (placed.mono (Nat.le_refl _) (by omega)).append rest, endedLast⟩
    · exact places_pure ⟨stop, placed, ended⟩

theorem places_separated {ends : Nat → State → Prop} (clears : ∀ stop t, ends stop t → t.Clears stop)
    (items : ∀ s, Places tokens item s fun x t =>
      ∃ stop, Placed tokens outline solid s.lo stop [x] ∧ ends stop t) :
    Places tokens (separated item) s fun xs t =>
      ∃ stop, Placed tokens outline solid s.lo stop xs ∧ ends stop t :=
  places_left_bind (places_separatedUpTo clears items _)

end

end Parser

end FrontEnd
