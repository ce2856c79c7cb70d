import FrontEnd.Proofs.Faults
import FrontEnd.Proofs.Parsing.Invariants
import FrontEnd.Proofs.Parsing.PlacesStatement
import FrontEnd.Proofs.Relayout

/-!
# Where the parts of a text are

The tokens of a text stand one behind the other, and so does what the parser makes of them: whatever is wrong
with the text, each region in the tree starts where a token starts and ends where a token ends, the parts of
every node are inside of it, and no two of them overlap. Every error of the parser is at a token. None of this
depends on the length of the text.
-/

namespace FrontEnd

namespace Lexer

variable {style : CommentStyle} {before rest : List Char} {tokens body : List Token} {last : Token}

/-- Tokens side by side are a row. -/
theorem row_of_contiguous (contiguous : (body ++ [last]).IsChain fun t u => u.span.lo = t.span.hi)
    (covers : ∀ t ∈ body, 0 < t.span.len) {first : Nat}
    (starts : ∀ t ∈ (body ++ [last]).head?, first ≤ t.span.lo) :
    Span.Row first last.span.lo (body.map Token.span) := by
  induction body generalizing first with
  | nil => simpa [Span.Row] using starts
  | cons t body inductionHypothesis =>
    rw [List.cons_append, List.isChain_cons] at contiguous
    rw [List.forall_mem_cons] at covers
    have length : t.span.lo < t.span.hi := Nat.lt_add_of_pos_right covers.1
    refine ⟨starts t (by simp), length, inductionHypothesis contiguous.2 covers.2 fun u member => ?_⟩
    exact Nat.le_of_eq (contiguous.1 u member).symm

end Lexer

namespace Parser

variable {tokens body : List Token} {missing last : Token}

/-- What is arranged stays in its order. -/
theorem row_arrange (noEof : ∀ t ∈ body, t.kind ≠ .eof) (isEof : last.kind = .eof) {first : Nat}
    (row : Span.Row first last.span.lo (body.map Token.span)) (skipped : List Token) :
    (arrange missing skipped (body ++ [last])).2.token = last ∧
      Span.Row first last.span.lo
        ((arrange missing skipped (body ++ [last])).1.map fun t => t.token.span) := by
  induction body generalizing first skipped with
  | nil => exact ⟨by simp [arrange, Token.isEof, isEof], by simpa [arrange, Token.isEof, isEof] using row⟩
  | cons t body inductionHypothesis =>
    obtain ⟨starts, covers, tail⟩ := row
    rw [List.forall_mem_cons] at noEof
    -- a token that is passed over leaves a gap
    have wider : Span.Row first last.span.lo (body.map Token.span) :=
      tail.mono (Nat.le_trans starts (Nat.le_of_lt covers)) (Nat.le_refl _)
    rw [List.cons_append, arrange, if_neg (by simpa [Token.isEof] using noEof.1)]
    split
    next => exact inductionHypothesis noEof.2 wider skipped
    next =>
      split
      next => exact inductionHypothesis noEof.2 wider (skipped ++ [t])
      next =>
        obtain ⟨final, ahead⟩ := inductionHypothesis noEof.2 tail []
        exact ⟨final, starts, covers, ahead⟩

/-- What is before the parser at first, and what was skipped on the way to it, are tokens of the text. -/
theorem members_before (noEof : ∀ t ∈ body, t.kind ≠ .eof) (isEof : last.kind = .eof)
    (final : (State.before (body ++ [last]) last).final.token = last) :
    ∀ t ∈ (State.before (body ++ [last]) last).final :: (State.before (body ++ [last]) last).ahead,
      t.token ∈ body ++ [last] ∧ ∀ u ∈ t.skipped, u ∈ body ++ [last] := by
  have skipped : ∀ u ∈ (State.before (body ++ [last]) last).ahead.flatMap Significant.skipped ++
      (State.before (body ++ [last]) last).final.skipped, u ∈ body ++ [last] := by
    intro u member
    rw [State.ahead_before, State.final_before, skipped_arrange (endAfter last) [] noEof isEof, List.nil_append]
      at member
    exact List.mem_append_left _ (List.mem_of_mem_filter member)
  rw [List.forall_mem_cons]
  constructor
  · exact ⟨by simp [final], fun u member => skipped u (List.mem_append_right _ member)⟩
  · intro t member
    refine ⟨(mem_arrange t (State.ahead_before .. ▸ member)).1, fun u inSkipped =>
      skipped u (List.mem_append_left _ ?_)⟩
    exact List.mem_flatMap.mpr ⟨t, member, inSkipped⟩

/-- Before the tokens of a text all are in order, and what is reported there is at tokens. -/
theorem inOrder_before (noEof : ∀ t ∈ body, t.kind ≠ .eof) (isEof : last.kind = .eof)
    (nothing : last.span.len = 0) {first : Nat}
    (row : Span.Row first last.span.lo (body.map Token.span)) :
    (State.before (body ++ [last]) last).InOrder (body ++ [last]) ∧
      (State.before (body ++ [last]) last).ReportsAt (body ++ [last]) := by
  obtain ⟨arranged, rowAhead⟩ := @row_arrange body (endAfter last) last noEof isEof first row []
  have final : (State.before (body ++ [last]) last).final.token = last := arranged
  have members := members_before noEof isEof final
  have rowBefore : Span.Row first (State.before (body ++ [last]) last).final.token.span.lo
      ((State.before (body ++ [last]) last).ahead.map fun t => t.token.span) := by
    rw [final]
    exact rowAhead
  have inOrder : (State.before (body ++ [last]) last).InOrder (body ++ [last]) := {
    row := (State.row_ahead rowBefore).2
    final := by rw [final, nothing]
    members := members }
  refine ⟨inOrder, fun e found => ?_⟩
  -- nothing is reported yet but the illegal characters in front of the first token
  rw [State.errors_before] at found
  obtain ⟨u, skipped, rfl⟩ := List.mem_map.mp found
  exact ⟨u, (members _ (State.front_mem _)).2 u skipped, rfl, trivial⟩

end Parser

/-- Whether a program is put together in the order of its tokens, and its errors are at tokens that they suit. -/
structure IsPlaced (tokens : List Token) (program : Outcome Parser.Error Program) : Prop where
  ordered : Span.Ordered (program.value.map Statement.span)
  nests : ∀ s ∈ program.value, s.outline.Nests (Span.Marked tokens)
  reports : ∀ e ∈ program.errors, ∃ t ∈ tokens, e.span = t.span ∧ e.value.Suits t

/-- How the parser goes over the tokens of a text: they are in a row, and an end mark with nothing in it is behind
them. -/
structure ReadsText (tokens body : List Token) (last : Token) (p : Program) (t : Parser.State) : Prop where
  split : tokens = body ++ [last]
  noEof : ∀ t ∈ body, t.kind ≠ .eof
  isEof : last.kind = .eof
  nothing : last.span.len = 0
  row : Span.Row 0 last.span.lo (body.map Token.span)
  ran : Parser.program.run (.before tokens last) = (some p, t)

theorem exists_readsText {style : Lexer.CommentStyle} {source : String} {tokens : List Token}
    {program : Outcome Parser.Error Program} (lexed : Lexer.Lexed style [] source.toList tokens)
    (parsed : Program.parse tokens = .ok program) :
    ∃ body last t, ReadsText tokens body last program.value t ∧ program.errors = t.errors := by
  obtain ⟨body, last, split, isEof, inside⟩ := lexed.tiles.ended
  have isLast : tokens.getLast? = some last := split ▸ List.getLast?_concat
  have nothing : last.span.len = 0 := (lexed.covers_last last isLast).len
  have contiguous := lexed.tiles.contiguous
  rw [split] at contiguous
  have row : Span.Row 0 last.span.lo (body.map Token.span) :=
    Lexer.row_of_contiguous contiguous (fun t member => (inside t member).2) fun _ _ => Nat.zero_le _
  obtain ⟨p, t, ran, parsedAgain⟩ := Parser.parse_eq isLast
  rw [parsed] at parsedAgain
  cases parsedAgain
  exact ⟨body, last, t, ⟨split, fun t member => (inside t member).1, isEof, nothing, row, ran⟩, rfl⟩

/-- What holds of all that is made of tokens in order holds of what is made of a text. -/
theorem ReadsText.places {tokens body : List Token} {last : Token} {p : Program} {t : Parser.State}
    (reads : ReadsText tokens body last p t) {good : Program → Parser.State → Prop}
    (places : Parser.Places tokens Parser.program (.before tokens last) good) : good p t := by
  have before := Parser.inOrder_before reads.noEof reads.isEof reads.nothing reads.row
  rw [← reads.split] at before
  exact places before.1 p t reads.ran

/-- What is reported on reading a text is at its tokens. -/
theorem ReadsText.reportsAt {tokens body : List Token} {last : Token} {p : Program} {t : Parser.State}
    (reads : ReadsText tokens body last p t) : t.ReportsAt tokens := by
  have before := Parser.inOrder_before reads.noEof reads.isEof reads.nothing reads.row
  rw [← reads.split] at before
  exact ((Parser.reporting tokens).of_program before reads.ran).1.2

/-- The tree of any text and the errors of reading it are placed by its tokens. -/
theorem isPlaced_of_parse {style : Lexer.CommentStyle} {source : String} {tokens : List Token}
    {program : Outcome Parser.Error Program} (lexed : Lexer.Lexed style [] source.toList tokens)
    (parsed : Program.parse tokens = .ok program) : IsPlaced tokens program := by
  obtain ⟨body, last, t, reads, errors⟩ := exists_readsText lexed parsed
  obtain ⟨rowMade, nests⟩ := (reads.places Parser.places_program).row
  rw [Statement.map_span_outline] at rowMade
  exact {
    ordered := rowMade.ordered
    nests := fun s member => nests _ (List.mem_map_of_mem member)
    reports := errors ▸ reads.reportsAt }

/-- How all stages go over a text, with where they find what they find. -/
structure PlacesAll (style : Lexer.CommentStyle) (source : String)
    (tokens : Outcome Lexer.Error (List Token)) (program : Outcome Parser.Error Program)
    (library : Library) : Prop where
  tokenize : Lexer.tokenize style source = .ok tokens
  parse : Program.parse tokens.value = .ok program
  tiles : Lexer.Tiles source tokens.value
  placed : IsPlaced tokens.value program
  result : check style source = .ok ⟨⟨program.value, program.value.globals⟩,
    tokens.diagnostics ++ program.diagnostics ++ (program.value.found library).map Located.diagnostic⟩

theorem exists_placesAll (style : Lexer.CommentStyle) {source : String} (nonempty : source ≠ "") :
    ∃ tokens program library, PlacesAll style source tokens program library := by
  have tokenized := Lexer.tokenize_of_nonempty style nonempty
  have lexed := Lexer.lexed_of_tokenize tokenized
  obtain ⟨p, t, ran, parsed⟩ :=
    Parser.parse_eq (List.getLast?_eq_some_getLast (Lexer.tokens_ne_nil tokenized))
  obtain ⟨library, standard, -⟩ := Library.exists_standard
  have checked := Program.check_eq_globals library (Parser.holdsCalls_of_run ran)
  exact ⟨_, _, library, {
    tokenize := tokenized
    parse := parsed
    tiles := lexed.tiles
    placed := isPlaced_of_parse lexed parsed
    result := check_eq_of_stages (readProgram_eq tokenized parsed) standard checked }⟩

/-- Whatever is wrong with a text, the regions of its tree nest: each of them starts where a token starts and
ends where a token ends, and the parts of every node are inside of it, one behind the other. So are the
statements of the program. -/
theorem parse_nests (style : Lexer.CommentStyle) {source : String} (nonempty : source ≠ "") :
    ∃ tokens program, Lexer.tokenize style source = .ok tokens ∧
      Program.parse tokens.value = .ok program ∧
      Span.Ordered (program.value.map Statement.span) ∧
      ∀ s ∈ program.value, s.outline.Nests (Span.Marked tokens.value) := by
  obtain ⟨tokens, program, library, all⟩ := exists_placesAll style nonempty
  exact ⟨tokens, program, all.tokenize, all.parse, all.placed.ordered, all.placed.nests⟩

/-- Values are missing before commas and a full stop, a comma is missing between two arguments, and two blocks
are not closed. -/
def gappedText : String :=
  "int x = , y = 2.\nif f(x) \x7b return , f(1 2). \x7d \x7b loop \x7b z = ."

theorem parse_nests_gapped :
    gappedText ≠ "" ∧
      ∃ tokens program, Lexer.tokenize .line gappedText = .ok tokens ∧
        Program.parse tokens.value = .ok program ∧
        Span.Ordered (program.value.map Statement.span) ∧
        ∀ s ∈ program.value, s.outline.Nests (Span.Marked tokens.value) :=
  ⟨by decide, parse_nests .line (by decide)⟩

end FrontEnd
