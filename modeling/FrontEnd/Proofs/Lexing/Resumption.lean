import FrontEnd.Proofs.Grammar.Recast
import FrontEnd.Proofs.Lexing.Counters
import FrontEnd.Proofs.Lexing.Errors

/-!
# Reading taken up again

No state but the position survives a token. So a lexer that starts anew on what is left of a text reads what the
first one goes on to read, only that it counts its places from there. Bytes and lines are then shifted by those
that are behind, but columns on the first line only, for the next line starts at column zero for both
(`Span.shift`). A step is shifted as a whole (`read_shift`), and so is any number of steps (`stream_shift`).

There is no end to the steps: the last one is made again and again (`stream_of_steps`).

A lexer that starts anew has smaller numbers to count with, so as far as the counters of the first one reach, those of
the new one do (`streamAsserts_of_shift`). The other way round it need not be so.
-/

namespace FrontEnd

namespace Lexer

variable {style : CommentStyle} {source : String} {cursor : Cursor}

/-! ## Behind the end -/

theorem next_of_nil (ended : cursor.rest = []) : (cursor.read style).next = cursor := by
  simp only [Cursor.read, ended]

theorem stream_of_nil (ended : cursor.rest = []) (count : Nat) :
    cursor.stream style count = List.replicate count (cursor.read style) := by
  induction count with
  | zero => rfl
  | succ count inductionHypothesis =>
    rw [Cursor.stream, next_of_nil ended, inductionHypothesis, List.replicate_succ]

theorem steps_ne_nil : cursor.steps style ≠ [] := by
  cases found : cursor.rest with
  | nil => simp [steps_of_nil found]
  | cons c ahead => simp [steps_of_cons found]

/-- The stream gives the steps to the end, and then the last of them without end. -/
theorem stream_of_steps {body : List Step} {last : Step} (steps : cursor.steps style = body ++ [last])
    {count more : Nat} (enough : count ≤ more) :
    cursor.stream style count = (body ++ [last] ++ List.replicate more last).take count := by
  induction body generalizing cursor count with
  | nil =>
    cases found : cursor.rest with
    | nil =>
      rw [steps_of_nil found, List.nil_append, List.singleton_inj] at steps
      rw [stream_of_nil found, steps, List.nil_append, List.singleton_append, ← List.replicate_succ,
        List.take_replicate, Nat.min_eq_left (Nat.le_succ_of_le enough)]
    | cons c ahead =>
      rw [steps_of_cons found, List.nil_append, List.cons.injEq] at steps
      exact absurd steps.2 steps_ne_nil
  | cons step body inductionHypothesis =>
    cases found : cursor.rest with
    | nil =>
      rw [steps_of_nil found, List.cons_append, List.cons.injEq] at steps
      simp at steps
    | cons c ahead =>
      rw [steps_of_cons found, List.cons_append, List.cons.injEq] at steps
      obtain ⟨rfl, others⟩ := steps
      cases count with
      | zero => rfl
      | succ count =>
        rw [Cursor.stream, inductionHypothesis others (Nat.le_of_succ_le enough)]
        rfl

/-- What is taken for granted on the way to the end is all that is taken for granted. -/
theorem streamAsserts_of_steps (asserts : cursor.StreamAsserts style (cursor.steps style).length) (count : Nat) :
    cursor.StreamAsserts style count := by
  induction count generalizing cursor with
  | zero => trivial
  | succ count inductionHypothesis =>
    cases found : cursor.rest with
    | nil =>
      rw [steps_of_nil found] at asserts
      refine ⟨asserts.1, inductionHypothesis ?_⟩
      rw [next_of_nil found, steps_of_nil found]
      exact asserts
    | cons c ahead =>
      rw [steps_of_cons found, List.length_cons] at asserts
      exact ⟨asserts.1, inductionHypothesis asserts.2⟩

/-! ## Cursors in a text -/

/-- Whether a cursor is between what is left of a text and what is behind. -/
def Cursor.StandsIn (source : String) (cursor : Cursor) : Prop :=
  ∃ before, source.toList = before ++ cursor.rest ∧ cursor.position = Position.start.afterAll before

/-- The cursor behind the next `count` tokens. -/
def Cursor.behind (style : CommentStyle) : Nat → Cursor → Cursor
  | 0, cursor => cursor
  | count + 1, cursor => (cursor.read style).next.behind style count

/-- What is left of a text behind a number of bytes. -/
def remaining (source : String) (bytes : Nat) : String :=
  String.ofList (dropBytes bytes source.toList)

theorem standsIn_ofString (source : String) : (Cursor.ofString source).StandsIn source :=
  ⟨[], rfl, rfl⟩

theorem Cursor.StandsIn.next (stands : cursor.StandsIn source) :
    (cursor.read style).next.StandsIn source := by
  obtain ⟨position, rest⟩ := cursor
  obtain ⟨before, split, rfl⟩ := stands
  cases rest with
  | nil => exact ⟨before, split, rfl⟩
  | cons c ahead =>
    obtain ⟨text, behind, -, whole, -, -, next⟩ := read_lexeme style before c ahead
    rw [next]
    exact ⟨before ++ text, by rw [List.append_assoc, ← whole, split], rfl⟩

theorem Cursor.StandsIn.behind (stands : cursor.StandsIn source) (count : Nat) :
    (cursor.behind style count).StandsIn source := by
  induction count generalizing cursor with
  | zero => exact stands
  | succ count inductionHypothesis => exact inductionHypothesis stands.next

theorem Cursor.StandsIn.remaining (stands : cursor.StandsIn source) :
    (remaining source cursor.position.byte).toList = cursor.rest := by
  obtain ⟨before, split, position⟩ := stands
  rw [Lexer.remaining, String.toList_ofList, position, afterAll_start, split, dropBytes_utf8Len]

theorem Cursor.StandsIn.one_le_line (stands : cursor.StandsIn source) : 1 ≤ cursor.position.line := by
  obtain ⟨before, -, position⟩ := stands
  rw [position, afterAll_start]
  exact Nat.le_add_right _ _

theorem stream_add (style : CommentStyle) (cursor : Cursor) (count more : Nat) :
    cursor.stream style (count + more) =
      cursor.stream style count ++ (cursor.behind style count).stream style more := by
  induction count generalizing cursor with
  | zero =>
    rw [Nat.zero_add]
    rfl
  | succ count inductionHypothesis =>
    rw [Nat.succ_add, Cursor.stream, inductionHypothesis]
    rfl

theorem streamAsserts_add (style : CommentStyle) (cursor : Cursor) (count more : Nat) :
    cursor.StreamAsserts style (count + more) ↔
      cursor.StreamAsserts style count ∧ (cursor.behind style count).StreamAsserts style more := by
  induction count generalizing cursor with
  | zero =>
    rw [Nat.zero_add]
    exact (iff_of_eq (true_and _)).symm
  | succ count inductionHypothesis =>
    rw [Nat.succ_add, Cursor.StreamAsserts, inductionHypothesis, ← and_assoc]
    rfl

/-- However far a lexer has come, its errors are told by its tokens. -/
theorem errors_stream (stands : cursor.StandsIn source) (count : Nat) :
    (cursor.stream style count).filterMap Step.error =
      ((cursor.stream style count).map Step.token).filterMap (Token.fault? source) := by
  induction count generalizing cursor with
  | zero => rfl
  | succ count inductionHypothesis =>
    have first : (cursor.read style).error = (cursor.read style).token.fault? source := by
      obtain ⟨position, rest⟩ := cursor
      obtain ⟨before, split, rfl⟩ := stands
      exact error_read style split
    rw [Cursor.stream, List.map_cons, List.filterMap_cons, List.filterMap_cons, first,
      inductionHypothesis stands.next]

end Lexer

/-! ## Places counted from elsewhere -/

/-- The region of a text that `s` is of what is left behind the place `origin`. -/
def Span.shift (origin : Lexer.Position) (s : Span) : Span where
  lo := origin.byte + s.lo
  len := s.len
  line := origin.line - 1 + s.line
  column := if s.line = 1 then origin.column + s.column else s.column

namespace Lexer

/-- The place in a text that `p` is in what is left behind the place `origin`. -/
def Position.shift (origin p : Position) : Position where
  byte := origin.byte + p.byte
  line := origin.line - 1 + p.line
  column := if p.line = 1 then origin.column + p.column else p.column

def Cursor.shift (origin : Position) (cursor : Cursor) : Cursor :=
  { cursor with position := origin.shift cursor.position }

def Step.shift (origin : Position) (step : Step) : Step where
  token := step.token.relocate (Span.shift origin)
  error := step.error.map (Located.relocate (Span.shift origin))
  next := step.next.shift origin

variable {style : CommentStyle} {source : String} {cursor : Cursor} {origin p : Position}

theorem after_shift (line : 1 ≤ p.line) (c : Char) :
    (origin.shift p).after c = origin.shift (p.after c) := by
  by_cases isBreak : c = '\n'
  -- behind a line break no place is on the first line
  · have later : p.line + 1 ≠ 1 := by omega
    simp only [Position.after, Position.shift, isBreak, if_true, if_neg later, Nat.add_assoc]
  · simp only [Position.after, Position.shift, isBreak, if_false, Position.mk.injEq, true_and, Nat.add_assoc]
    split <;> rfl

theorem line_le_after (p : Position) (c : Char) : p.line ≤ (p.after c).line := by
  rw [Position.after]
  dsimp only
  split
  · exact Nat.le_succ _
  · exact Nat.le_refl _

theorem line_le_afterAll (p : Position) (text : List Char) : p.line ≤ (p.afterAll text).line := by
  induction text generalizing p with
  | nil => exact Nat.le_refl _
  | cons c text inductionHypothesis => exact Nat.le_trans (line_le_after p c) (inductionHypothesis (p.after c))

theorem afterAll_shift (line : 1 ≤ p.line) (text : List Char) :
    (origin.shift p).afterAll text = origin.shift (p.afterAll text) := by
  induction text generalizing p with
  | nil => rfl
  | cons c text inductionHypothesis =>
    have behind := inductionHypothesis (Nat.le_trans line (line_le_after p c))
    rw [← after_shift line] at behind
    exact behind

theorem span_shift (origin p q : Position) :
    (origin.shift p).span (origin.shift q) = (p.span q).shift origin := by
  simp only [Position.span, Position.shift, Span.shift, Nat.add_sub_add_left]
  rfl

theorem shift_start (line : 1 ≤ origin.line) : origin.shift .start = origin := by
  have same : origin.line - 1 + 1 = origin.line := Nat.sub_add_cancel line
  simp [Position.shift, Position.start, same]

theorem region_shift (origin : Position) (span : Span) (e : Error) :
    e.region (span.shift origin) = (e.region span).shift origin := by
  cases e <;> rfl

/-- The step of the lexer: what is read next does not hang on where the cursor stands, only its place does. -/
theorem read_shift (line : 1 ≤ cursor.position.line) :
    (cursor.shift origin).read style = (cursor.read style).shift origin := by
  obtain ⟨p, rest⟩ := cursor
  cases rest with
  | nil => simp [Cursor.read, Cursor.shift, Step.shift, Token.relocate, span_shift]
  | cons c ahead =>
    have behind := @afterAll_shift origin p line (c :: (scan style c ahead).tail)
    simp only [Cursor.read, Cursor.shift, Step.shift, Token.relocate, behind, span_shift, Option.map_map]
    congr 2
    funext e
    rw [Function.comp_apply, Located.relocate, region_shift]

theorem line_le_next (cursor : Cursor) : cursor.position.line ≤ (cursor.read style).next.position.line := by
  obtain ⟨p, rest⟩ := cursor
  cases rest with
  | nil => exact Nat.le_refl _
  | cons c ahead => exact line_le_afterAll p _

theorem stream_shift (line : 1 ≤ cursor.position.line) (count : Nat) :
    (cursor.shift origin).stream style count = (cursor.stream style count).map (Step.shift origin) := by
  induction count generalizing cursor with
  | zero => rfl
  | succ count inductionHypothesis =>
    rw [Cursor.stream, read_shift line]
    show _ :: ((cursor.read style).next.shift origin).stream style count = _
    rw [inductionHypothesis (Nat.le_trans line (line_le_next cursor))]
    rfl

theorem counted_of_shift (counted : (origin.shift p).Counted) : p.Counted where
  line := Nat.lt_of_le_of_lt (Nat.le_add_left _ _) counted.line
  column := by
    have held := counted.column
    rw [Position.shift] at held
    dsimp only at held
    split at held <;> omega

theorem countsThrough_of_shift {text : List Char} (line : 1 ≤ p.line)
    (counts : (origin.shift p).CountsThrough text) : p.CountsThrough text := by
  induction text generalizing p with
  | nil => trivial
  | cons c text inductionHypothesis =>
    obtain ⟨first, others⟩ := counts
    rw [after_shift line] at first others
    exact ⟨counted_of_shift first, inductionHypothesis (Nat.le_trans line (line_le_after p c)) others⟩

theorem asserts_of_shift (line : 1 ≤ cursor.position.line) (asserts : (cursor.shift origin).Asserts style) :
    cursor.Asserts style where
  lexeme := asserts.lexeme
  counted := countsThrough_of_shift line asserts.counted
  short := by
    have short := asserts.short
    rw [read_shift line] at short
    exact short

/-- As far as the counters of a lexer reach that has come some way, those of one that starts anew do. -/
theorem streamAsserts_of_shift (line : 1 ≤ cursor.position.line) {count : Nat}
    (asserts : (cursor.shift origin).StreamAsserts style count) : cursor.StreamAsserts style count := by
  induction count generalizing cursor with
  | zero => trivial
  | succ count inductionHypothesis =>
    obtain ⟨first, others⟩ := asserts
    rw [read_shift line] at others
    exact ⟨asserts_of_shift line first, inductionHypothesis (Nat.le_trans line (line_le_next cursor)) others⟩

/-! ## From any place on -/

/-- The tokens and errors that a lexer has given of a text after `count` tokens. -/
def streamed (style : CommentStyle) (source : String) (count : Nat) : Outcome Error (List Token) :=
  outcome ((Cursor.ofString source).stream style count)

/-- The place where a lexer stands in a text after `count` tokens. -/
def reached (style : CommentStyle) (source : String) (count : Nat) : Position :=
  ((Cursor.ofString source).behind style count).position

/-- A lexer that starts anew on what is left stands where the first one stands, but for the places. -/
theorem shift_remaining (style : CommentStyle) (source : String) (count : Nat) :
    (Cursor.ofString (remaining source (reached style source count).byte)).shift (reached style source count) =
      (Cursor.ofString source).behind style count := by
  have stands : ((Cursor.ofString source).behind style count).StandsIn source :=
    (standsIn_ofString source).behind count
  rw [Cursor.ofString, reached, stands.remaining, Cursor.shift, shift_start stands.one_le_line]

/-- What is read on from any place is what is read anew from there, shifted. -/
theorem stream_reached (style : CommentStyle) (source : String) (count more : Nat) :
    ((Cursor.ofString source).behind style count).stream style more =
      ((Cursor.ofString (remaining source (reached style source count).byte)).stream style more).map
        (Step.shift (reached style source count)) := by
  rw [← stream_shift (Nat.le_refl 1), shift_remaining]

theorem outcome_append (first second : List Step) :
    outcome (first ++ second) =
      ⟨(outcome first).value ++ (outcome second).value, (outcome first).errors ++ (outcome second).errors⟩ := by
  rw [outcome, List.map_append, List.filterMap_append]
  rfl

theorem outcome_shift (origin : Position) (steps : List Step) :
    outcome (steps.map (Step.shift origin)) =
      ⟨(outcome steps).value.map (Token.relocate (Span.shift origin)),
        (outcome steps).errors.map (Located.relocate (Span.shift origin))⟩ := by
  simp only [outcome, List.map_map, List.filterMap_map, List.map_filterMap]
  rfl

/-- A lexer that is asked for token after token gives the tokens of the text and then the end mark again and again,
and at any time the errors are those of the tokens that it gave. Its counters reach as far as is asked, if they reach to
the end of the text. Wherever it stands between two tokens, all that follows and that its counters reach is what a lexer
that starts anew makes of the rest of the text, shifted by the bytes and lines that are behind and, on the first line of
the rest, by the columns. -/
theorem tokenize_resumes (style : CommentStyle) (source : String) :
    ∃ o body last, tokenize style source = (if source = "" then .error .emptySource else .ok o) ∧
      o.value = body ++ [last] ∧ last.kind = .eof ∧ (∀ t ∈ body, t.kind ≠ .eof) ∧
      o.errors = o.value.filterMap (Token.fault? source) ∧
      (Asserts style source ↔ Countable source o.value) ∧
      ∀ count,
        (Asserts style source → (Cursor.ofString source).StreamAsserts style count) ∧
        ((Cursor.ofString source).StreamAsserts style count →
          (streamed style source count).value = (o.value ++ List.replicate count last).take count ∧
          (streamed style source count).errors =
            (streamed style source count).value.filterMap (Token.fault? source)) ∧
        ∀ more, (Cursor.ofString source).StreamAsserts style (count + more) →
          (Cursor.ofString (remaining source (reached style source count).byte)).StreamAsserts style more ∧
          (streamed style source (count + more)).value = (streamed style source count).value ++
            (streamed style (remaining source (reached style source count).byte) more).value.map
              (Token.relocate (Span.shift (reached style source count))) ∧
          (streamed style source (count + more)).errors = (streamed style source count).errors ++
            (streamed style (remaining source (reached style source count).byte) more).errors.map
              (Located.relocate (Span.shift (reached style source count))) := by
  obtain ⟨body, last, steps, inside, isEof⟩ := steps_end style (Cursor.ofString source)
  refine ⟨outcome ((Cursor.ofString source).steps style), body.map Step.token, last.token,
    by simp only [tokenize, String.isEmpty_iff], ?_, isEof, ?_, ?_, asserts_iff_steps style source,
    fun count => ⟨(streamAsserts_of_steps · count), fun _ => ⟨?given, ?told⟩, fun more asserts => ⟨?anew, ?on⟩⟩⟩
  · rw [outcome, steps, List.map_append, List.map_singleton]
  · rw [List.forall_mem_map]
    exact fun step member => (inside step member).1
  · exact errors_steps style (List.nil_append source.toList).symm
  case given =>
    rw [streamed, stream_of_steps steps (Nat.le_refl count), outcome, outcome, steps, List.map_take, List.map_append,
      List.map_replicate]
  case told => exact errors_stream (standsIn_ofString source) count
  case anew =>
    have others := ((streamAsserts_add style _ count more).mp asserts).2
    rw [← shift_remaining] at others
    exact streamAsserts_of_shift (Nat.le_refl 1) others
  case on =>
    have on : streamed style source (count + more) = _ := congrArg outcome (stream_add style _ count more)
    rw [stream_reached, outcome_append, outcome_shift] at on
    exact ⟨congrArg Outcome.value on, congrArg Outcome.errors on⟩

/-- Behind a character of two bytes and a line break, a string is read that is not closed. -/
theorem tokenize_resumes_unclosed :
    Asserts .line "é \n\"x" ∧ ∃ o last, tokenize .line "é \n\"x" = .ok o ∧
      (streamed .line "é \n\"x" 2).value = (o.value ++ List.replicate 2 last).take 2 ∧
      (Cursor.ofString (remaining "é \n\"x" (reached .line "é \n\"x" 2).byte)).StreamAsserts .line 2 ∧
      (streamed .line "é \n\"x" (2 + 2)).value = (streamed .line "é \n\"x" 2).value ++
        (streamed .line (remaining "é \n\"x" (reached .line "é \n\"x" 2).byte) 2).value.map
          (Token.relocate (Span.shift (reached .line "é \n\"x" 2))) := by
  obtain ⟨o, body, last, tokenized, -, -, -, -, -, each⟩ := tokenize_resumes .line "é \n\"x"
  rw [if_neg (by decide)] at tokenized
  have asserts : Asserts .line "é \n\"x" := asserts_of_small .line (by decide)
  have ofAll := (each (2 + 2)).1 asserts
  obtain ⟨-, first, later⟩ := each 2
  obtain ⟨anew, values, -⟩ := later 2 ofAll
  exact ⟨asserts, o, last, tokenized, (first ((streamAsserts_add ..).mp ofAll).1).1, anew, values⟩

/-! ## Counters that do not reach -/

/-- A line break and a dot in front of further line breaks. -/
def dotted (count : Nat) : String :=
  String.ofList ('\n' :: '.' :: List.replicate count '\n')

/-- What is behind the first line break. -/
def undotted (count : Nat) : String :=
  String.ofList ('.' :: List.replicate count '\n')

theorem rest_dotted (count : Nat) :
    (Cursor.ofString (dotted count)).rest = '\n' :: '.' :: List.replicate count '\n' :=
  String.toList_ofList

theorem scan_dotted (style : CommentStyle) (count : Nat) :
    scan style '\n' ('.' :: List.replicate count '\n') = .plain .whitespace '\n' [] := by
  rw [scan, if_pos (by decide), List.takeWhile_cons_of_neg (by decide)]

theorem read_dotted (style : CommentStyle) (count : Nat) :
    (Cursor.ofString (dotted count)).read style =
      ⟨⟨.whitespace, "\n", ⟨0, 1, 1, 0⟩⟩, none, ⟨⟨1, 2, 0⟩, '.' :: List.replicate count '\n'⟩⟩ := by
  simp only [Cursor.read, rest_dotted, scan_dotted]
  rfl

theorem asserts_read_dotted (style : CommentStyle) (count : Nat) : (Cursor.ofString (dotted count)).Asserts style := by
  rw [asserts_of_cons (rest_dotted count), read_dotted, Cursor.taken]
  simp only [rest_dotted, scan_dotted]
  have counted : (Position.start.after '\n').Counted := ⟨by decide, by decide⟩
  have notInt : TokenKind.whitespace ≠ .int := by decide
  exact ⟨⟨counted, trivial⟩, by decide, fun isInt => absurd isInt notInt⟩

theorem remaining_dotted (style : CommentStyle) (count : Nat) :
    remaining (dotted count) (reached style (dotted count) 1).byte = undotted count := by
  have place : reached style (dotted count) 1 = ⟨1, 2, 0⟩ := by
    rw [reached, Cursor.behind, read_dotted]
    rfl
  rw [place, remaining, dotted, String.toList_ofList, undotted]
  rfl

theorem asserts_undotted {count : Nat} (few : 1 + count < UInt32.size) : Asserts style (undotted count) := by
  have text : (undotted count).toList = '.' :: List.replicate count '\n' := String.toList_ofList
  have nonempty : undotted count ≠ "" := by
    intro empty
    rw [empty] at text
    cases text
  have tokenized := tokenize_of_nonempty style nonempty
  have tiles := (lexed_of_tokenize tokenized).tiles
  have breakSize : Char.utf8Size '\n' = 1 := rfl
  have size : (undotted count).utf8ByteSize = 1 + count := by
    rw [← utf8Len_toList, text, String.utf8Len_cons, utf8Len_replicate, breakSize, Nat.mul_one, Nat.add_comm]
    rfl
  have breaks : (undotted count).toList.count '\n' = count := by simp [text]
  have digits : (undotted count).toList.countP Char.isDigit = 0 := by simp [text, List.countP_replicate]
  refine (asserts_iff tokenized).mpr (.of_short tiles ?_ ?_ fun t member isInt => ?_)
  · rwa [size]
  · rwa [breaks]
  · have none := tiles.digits_le member isInt
    omega

theorem not_asserts_dotted {count : Nat} (many : UInt32.size ≤ 2 + count) : ¬ Asserts style (dotted count) := by
  intro asserts
  have lines := ((asserts_iff_steps style (dotted count)).mp asserts).lines
  have breaks : (dotted count).toList.count '\n' = count + 1 := by
    simp [dotted]
  omega

/-- The text without characters has no tokens, whatever a lexer gives of it. And where a lexer that starts anew still
counts the last of so many line breaks, one that has come from the start does not. -/
theorem tokenize_resumes_overrun :
    (∀ o, tokenize .line "" ≠ .ok o) ∧ (Cursor.ofString (dotted 4294967294)).StreamAsserts .line 1 ∧
      Asserts .line (remaining (dotted 4294967294) (reached .line (dotted 4294967294) 1).byte) ∧
      ¬ Asserts .line (dotted 4294967294) := by
  refine ⟨fun o => nofun, ⟨asserts_read_dotted _ _, trivial⟩, ?_, not_asserts_dotted (by decide)⟩
  rw [remaining_dotted]
  exact asserts_undotted (by decide)

end Lexer

end FrontEnd
