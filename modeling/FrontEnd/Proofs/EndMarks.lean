import FrontEnd.Proofs.Diagnostics
import FrontEnd.Proofs.Grammar.SolidRegions
import FrontEnd.Proofs.Mistakes

/-!
# Tokens without an end mark

Where the tokens of a text lack the end mark, the parser supplies one behind the last token. It stands at the
right byte, but has the line and the column of the last token and not those of its end. Nothing in a tree starts at
the end mark, so that the program is the same; but an error that stands there is shown at the last token
(`parse_unmarked`).

The run over the tokens without their end mark is the run over all of them told again, by an account that moves only
what starts where the text ends.
-/

namespace FrontEnd

open String (utf8Len)

/-! ## Places of tokens -/

namespace Lexer

theorem columnAfter_append {before text : List Char} (oneLine : '\n' ∉ text) :
    columnAfter (before ++ text) = text.length + columnAfter before := by
  have noBreak : ∀ c ∈ text.reverse, decide (c ≠ '\n') = true := by
    intro c member
    rw [decide_eq_true_iff]
    rintro rfl
    exact oneLine (List.mem_reverse.mp member)
  rw [columnAfter, List.reverse_append, List.takeWhile_append_of_pos noBreak, List.length_append,
    List.length_reverse, columnAfter]

/-- What stands behind a token has another line or another column. -/
theorem Covers.apart {t u : Token} {before text behind : List Char} (covers : Covers t before text)
    (next : Covers u (before ++ text) behind) (some : text ≠ []) :
    u.span.line ≠ t.span.line ∨ u.span.column ≠ t.span.column := by
  rw [covers.line, covers.column, next.line, next.column, List.count_append]
  by_cases oneLine : '\n' ∈ text
  · left
    have := List.count_pos_iff.mpr oneLine
    omega
  · right
    rw [columnAfter_append oneLine]
    have := List.length_pos_iff.mpr some
    omega

variable {style : CommentStyle} {source : String} {tokens body : List Token} {last mark : Token}

/-- Of two tokens of a text, one right behind the other, the first covers the text between their starts. -/
theorem Tiles.covers_next (tiles : Tiles source tokens) (member : last ∈ tokens) (memberNext : mark ∈ tokens)
    (next : mark.span.lo = last.span.hi) :
    ∃ before text behind, Covers last before text ∧ Covers mark (before ++ text) behind := by
  obtain ⟨before, text, _, split, -, covers⟩ := tiles.placed last member
  obtain ⟨start, behind, _, splitNext, -, coversNext⟩ := tiles.placed mark memberNext
  have ends : utf8Len start = utf8Len (before ++ text) := by rw [← coversNext.lo, next, covers.hi]
  have first : before ++ text <+: source.toList := ⟨_, by rw [split, List.append_assoc]⟩
  have second : start <+: source.toList := ⟨_, splitNext.symm⟩
  -- of two beginnings of a text with as many bytes each is the beginning of the other
  have shorter := prefix_of_utf8Len_le second first (Nat.le_of_eq ends)
  have longer := prefix_of_utf8Len_le first second (Nat.le_of_eq ends.symm)
  have same : start = before ++ text := shorter.eq_of_length_le longer.length_le
  exact ⟨before, text, behind, covers, same ▸ coversNext⟩

/-- There is nothing in the literal of an end mark. -/
theorem Lexed.literal_last {before rest : List Char} (lexed : Lexed style before rest tokens)
    (isLast : mark ∈ tokens.getLast?) (isEof : mark.kind = .eof) : mark.literal = "" := by
  have literal := (lexed.covers_last mark isLast).literal
  rw [Spells, if_neg (by simp [isEof])] at literal
  exact String.toList_eq_nil_iff.mp literal

end Lexer

/-! ## The end mark in another place -/

/-- A region put at the line and the column of another one, if it starts at a byte `stop`. Any other stays. -/
def Span.movedAt (stop : Nat) (other span : Span) : Span :=
  if span.lo = stop then { span with line := other.line, column := other.column } else span

theorem Span.movedAt_of_ne {stop : Nat} {span : Span} (apart : span.lo ≠ stop) (other : Span) :
    Span.movedAt stop other span = span :=
  if_neg apart

namespace Parser

/-- What starts at a byte is put at the line and the column of some token. -/
def Account.moved (stop : Nat) (t : Token) : Account where
  place := Span.movedAt stop t.span
  place_upTo r s := by
    by_cases atStop : r.lo = stop <;> by_cases atStopToo : s.lo = stop <;>
      simp [Span.movedAt, Span.upTo, Span.hi, atStop, atStopToo]
  before := []
  illegal := true

theorem Account.errors_moved (stop : Nat) (t : Token) (errors : List (Located Error)) :
    (Account.moved stop t).errors errors = errors.map (Located.relocate (Span.movedAt stop t.span)) := by
  have all : errors.filter (Account.moved stop t).tells = errors :=
    List.filter_eq_self.mpr fun _ _ => rfl
  rw [Account.errors, all]
  rfl

/-- Tokens in other places are arranged in the same way. -/
theorem arrange_relocate (account : Account) (illegal : account.illegal = true) (missing : Token)
    (skipped tokens : List Token) :
    arrange (missing.relocate account.place) (skipped.map (Token.relocate account.place))
        (tokens.map (Token.relocate account.place)) =
      ((arrange missing skipped tokens).1.map account.significant,
        account.significant (arrange missing skipped tokens).2) := by
  induction tokens generalizing skipped with
  | nil => simp [arrange, Account.significant, illegal]
  | cons t rest inductionHypothesis =>
    have others := inductionHypothesis (skipped ++ [t])
    have fresh := inductionHypothesis []
    rw [List.map_append, List.map_singleton] at others
    rw [List.map_nil] at fresh
    have sameEof : (t.relocate account.place).isEof = t.isEof := rfl
    rw [List.map_cons, arrange, arrange, sameEof, Token.kind_relocate, inductionHypothesis, others, fresh]
    split
    · simp [Account.significant, illegal]
    · split
      · rfl
      · split
        · rfl
        · simp [Account.significant, illegal]

variable {body : List Token} {last mark : Token}

/-- The state before tokens without their end mark, told of as the state before all of them. -/
theorem State.before_unmarked (isEof : mark.kind = .eof)
    (stays : ∀ t ∈ body, t.span.lo ≠ mark.span.lo)
    (moves : mark.relocate (Span.movedAt mark.span.lo last.span) = endAfter last) :
    State.before body last =
      (Account.moved mark.span.lo last).state (State.before (body ++ [mark]) mark) := by
  have same : body.map (Token.relocate (Account.moved mark.span.lo last).place) = body :=
    map_eq_self fun t member =>
      congrArg (Token.mk t.kind t.literal) (Span.movedAt_of_ne (stays t member) last.span)
  have arranged := arrange_relocate (Account.moved mark.span.lo last) rfl mark [] body
  have moved : mark.relocate (Account.moved mark.span.lo last).place = endAfter last := moves
  rw [same, moved, ← @arrange_eof (endAfter mark) mark isEof body [], List.map_nil, Prod.ext_iff] at arranged
  rw [State.before, State.before, ← Account.reportSkipped_state]
  exact congrArg State.reportSkipped (State.eq_of arranged.1 arranged.2 rfl)

/-- What is parsed of tokens without their end mark is told of as what is parsed of all of them. -/
theorem parse_moved (isEof : mark.kind = .eof) (isLast : body.getLast? = some last)
    (stays : ∀ t ∈ body, t.span.lo ≠ mark.span.lo)
    (moves : mark.relocate (Span.movedAt mark.span.lo last.span) = endAfter last)
    {program : Outcome Error Program} (parsed : Program.parse (body ++ [mark]) = .ok program) :
    Program.parse body = .ok ⟨Program.relocate (Span.movedAt mark.span.lo last.span) program.value,
      program.errors.map (Located.relocate (Span.movedAt mark.span.lo last.span))⟩ := by
  obtain ⟨p, t, ran, parsedMarked⟩ := parse_eq (List.getLast?_concat (l := body) (a := mark))
  obtain ⟨q, u, ranAgain, parsedAgain⟩ := parse_eq isLast
  cases parsed.symm.trans parsedMarked
  have again := retold_program (.moved mark.span.lo last) (State.before (body ++ [mark]) mark)
  rw [← State.before_unmarked isEof stays moves, ran, ranAgain, Prod.mk.injEq] at again
  obtain ⟨programs, states⟩ := again
  have errors : u.errors = t.errors.map (Located.relocate (Span.movedAt mark.span.lo last.span)) :=
    (congrArg State.errors states).trans (Account.errors_moved _ _ _)
  rw [parsedAgain, errors, Option.some.inj programs]
  rfl

end Parser

/-! ## Texts -/

section

variable {tokens body : List Token} {mark : Token} {p : Program} {t : Parser.State}

theorem ReadsText.lo_lt (reads : ReadsText tokens body mark p t) : ∀ u ∈ body, u.span.lo < mark.span.lo := by
  intro u member
  have isSpan : u.span ∈ body.map Token.span := List.mem_map_of_mem member
  exact Nat.lt_of_lt_of_le (reads.row.covers _ isSpan) (reads.row.inside _ isSpan).2

/-- A text that is not empty has a token in front of its end mark, which ends there and has another place. -/
theorem ReadsText.exists_last (reads : ReadsText tokens body mark p t) {source : String}
    (tiles : Lexer.Tiles source tokens) (nonempty : source ≠ "") :
    ∃ others last, body = others ++ [last] ∧ mark.span.lo = last.span.hi ∧
      (mark.span.line ≠ last.span.line ∨ mark.span.column ≠ last.span.column) := by
  have split := reads.split
  subst split
  have some : body ≠ [] := by
    -- otherwise the text would start where it ends
    rintro rfl
    have first := tiles.first mark rfl
    have size := tiles.last mark rfl
    rw [Span.hi, reads.nothing, first] at size
    exact nonempty (String.utf8ByteSize_eq_zero_iff.mp size.symm)
  obtain ⟨others, last, rfl⟩ := (List.eq_nil_or_concat' body).resolve_left some
  have next : mark.span.lo = last.span.hi := by
    have contiguous := tiles.contiguous
    rw [List.append_assoc, List.isChain_append] at contiguous
    simpa using contiguous.2.1
  obtain ⟨before, text, behind, covers, coversNext⟩ :=
    tiles.covers_next (List.mem_append_left _ (by simp)) (by simp) next
  refine ⟨others, last, rfl, next, covers.apart coversNext ?_⟩
  rintro rfl
  have solid := reads.lo_lt last (by simp)
  rw [next, Span.hi, covers.len, String.utf8Len_nil] at solid
  exact absurd solid (Nat.lt_irrefl _)

/-- No region in the tree of a text starts at the end mark. -/
theorem ReadsText.relocate_movedAt (reads : ReadsText tokens body mark p t) (other : Span) :
    Program.relocate (Span.movedAt mark.span.lo other) p = p := by
  have nests := (reads.places Parser.places_program).row.each
  obtain ⟨-, -, solid⟩ := reads.solid
  have ends : ∀ u ∈ tokens, u.span.hi ≤ mark.span.lo := by
    rw [reads.split, List.forall_mem_append, List.forall_mem_singleton, Span.hi, reads.nothing]
    exact ⟨fun u member => (reads.row.inside u.span (List.mem_map_of_mem member)).2, Nat.le_refl _⟩
  have fixed : ∀ r : Span, r.Marked tokens ∧ r.Solid → Span.movedAt mark.span.lo other r = r := by
    rintro r ⟨marked, covers⟩
    obtain ⟨u, member, hi⟩ := marked.ends
    have before : r.lo < mark.span.lo := Nat.lt_of_lt_of_le covers (hi ▸ ends u member)
    exact Span.movedAt_of_ne (Nat.ne_of_lt before) other
  refine Program.recast_of_every (Recast.keeps_placing fixed) fun s member => ?_
  exact ((nests _ (List.mem_map_of_mem member)).and_every (Statement.every_solid s (solid s member))).every

end

/-- An error with the line and the column of another region. -/
def Located.shownAt {α : Type} (e : Located α) (other : Span) : Located α :=
  ⟨e.value, { e.span with line := other.line, column := other.column }⟩

/-- The parser supplies the end mark that some tokens lack at the right byte, but at the line and the column of the
last token. So without the end mark of a text the program is the same, and so are the errors but for those at the end
of the text, which are shown where the last token starts. All is the same exactly if there are none of these. -/
theorem parse_unmarked (style : Lexer.CommentStyle) {source : String} (nonempty : source ≠ "") :
    ∃ tokens program others last mark, Lexer.tokenize style source = .ok tokens ∧
      tokens.value = others ++ [last, mark] ∧ mark.kind = .eof ∧
      Program.parse tokens.value = .ok program ∧
      Program.parse tokens.value.dropLast = .ok ⟨program.value,
        program.errors.map fun e => if e.span = mark.span then e.shownAt last.span else e⟩ ∧
      (Program.parse tokens.value.dropLast = Program.parse tokens.value ↔
        ∀ e ∈ program.errors, e.span ≠ mark.span) := by
  obtain ⟨tokens, program, library, all⟩ := exists_placesAll style nonempty
  have lexed := Lexer.lexed_of_tokenize all.tokenize
  obtain ⟨body, mark, t, reads, -⟩ := exists_readsText lexed all.parse
  obtain ⟨others, last, rfl, next, apart⟩ := reads.exists_last all.tiles nonempty
  have split := reads.split
  have dropped : tokens.value.dropLast = others ++ [last] := by rw [split, List.dropLast_concat]
  -- moved to the last token, the end mark is the one the parser supplies where there is none
  have supplied : mark.relocate (Span.movedAt mark.span.lo last.span) = Parser.endAfter last := by
    have literal := lexed.literal_last (split ▸ List.getLast?_concat) reads.isEof
    rw [Token.relocate, Span.movedAt, if_pos rfl, reads.isEof, literal, reads.nothing, next, Parser.endAfter]
  have moved : ∀ e ∈ program.errors, e.relocate (Span.movedAt mark.span.lo last.span) =
      if e.span = mark.span then e.shownAt last.span else e := by
    intro e found
    obtain ⟨u, member, same, -⟩ := all.placed.reports e found
    rw [split, List.mem_append, List.mem_singleton] at member
    -- only the end mark starts where the text ends
    rcases member with inBody | rfl
    · have before : e.span.lo < mark.span.lo := same ▸ reads.lo_lt u inBody
      rw [if_neg (fun atEnd => absurd (congrArg Span.lo atEnd) (Nat.ne_of_lt before)), Located.relocate,
        Span.movedAt_of_ne (Nat.ne_of_lt before)]
    · rw [if_pos same, Located.relocate, Span.movedAt, if_pos (congrArg Span.lo same), Located.shownAt]
  have parsed := Parser.parse_moved reads.isEof List.getLast?_concat
    (fun u member => Nat.ne_of_lt (reads.lo_lt u member)) supplied (split ▸ all.parse)
  rw [reads.relocate_movedAt, List.map_congr_left moved] at parsed
  refine ⟨tokens, program, others, last, mark, all.tokenize, ?_, reads.isEof, all.parse, dropped ▸ parsed, ?_⟩
  · rw [split, List.append_assoc]
    rfl
  rw [dropped, parsed, all.parse]
  constructor
  · intro same e found atEnd
    have errors := congrArg Outcome.errors (Except.ok.inj same)
    have stays := List.map_inj_left.mp (errors.trans (List.map_id _).symm) e found
    rw [if_pos atEnd, id, Located.shownAt] at stays
    have place := atEnd ▸ congrArg Located.span stays
    exact apart.elim (fun line => line (congrArg Span.line place).symm)
      fun column => column (congrArg Span.column place).symm
  · intro none
    rw [map_eq_self fun e found => if_neg (none e found)]

/-- A string that is not closed runs over a line break, behind characters of two bytes, and a full stop is missing. -/
def unendedText : String :=
  "é = \"ü\n"

theorem parse_unmarked_unended :
    unendedText ≠ "" ∧
      ∃ tokens program others last mark, Lexer.tokenize .line unendedText = .ok tokens ∧
        tokens.value = others ++ [last, mark] ∧ mark.kind = .eof ∧
        Program.parse tokens.value = .ok program ∧
        Program.parse tokens.value.dropLast = .ok ⟨program.value,
          program.errors.map fun e => if e.span = mark.span then e.shownAt last.span else e⟩ ∧
        (Program.parse tokens.value.dropLast = Program.parse tokens.value ↔
          ∀ e ∈ program.errors, e.span ≠ mark.span) :=
  ⟨by decide, parse_unmarked .line (by decide)⟩

/-- Where a closing bracket is missing at the end, the error is shown in another column without the end mark. -/
theorem parse_unmarked_misplaced :
    ∃ tokens, Lexer.tokenize .line "f(" = .ok tokens ∧
      Program.parse tokens.value = .ok ⟨[], [⟨.unexpected .eof .rParen, ⟨2, 0, 1, 2⟩⟩]⟩ ∧
      Program.parse tokens.value.dropLast = .ok ⟨[], [⟨.unexpected .eof .rParen, ⟨2, 0, 1, 1⟩⟩]⟩ ∧
      Program.parse tokens.value.dropLast ≠ Program.parse tokens.value := by
  have lexed := Lexer.tokenize_of_nonempty .line (show "f(" ≠ "" by decide)
  have values : (Lexer.outcome ((Lexer.Cursor.ofString "f(").steps .line)).value =
      [⟨.identifier, "f", ⟨0, 1, 1, 0⟩⟩, ⟨.lParen, "(", ⟨1, 1, 1, 1⟩⟩, ⟨.eof, "", ⟨2, 0, 1, 2⟩⟩] := by
    repeat rw [Lexer.steps_of_cons rfl]
    rw [Lexer.steps_of_nil rfl]
    rfl
  refine ⟨_, lexed, ?_⟩
  rw [values]
  have marked : Program.parse
      [⟨.identifier, "f", ⟨0, 1, 1, 0⟩⟩, ⟨.lParen, "(", ⟨1, 1, 1, 1⟩⟩, ⟨.eof, "", ⟨2, 0, 1, 2⟩⟩] =
        .ok ⟨[], [⟨.unexpected .eof .rParen, ⟨2, 0, 1, 2⟩⟩]⟩ := rfl
  have unmarked : Program.parse [⟨.identifier, "f", ⟨0, 1, 1, 0⟩⟩, ⟨.lParen, "(", ⟨1, 1, 1, 1⟩⟩] =
      .ok ⟨[], [⟨.unexpected .eof .rParen, ⟨2, 0, 1, 1⟩⟩]⟩ := rfl
  refine ⟨marked, unmarked, fun same => ?_⟩
  have spans := congrArg (fun program => program.errors.map Located.span)
    (Except.ok.inj (unmarked.symm.trans (same.trans marked)))
  exact absurd spans (by decide)

end FrontEnd
