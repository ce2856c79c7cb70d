import FrontEnd.Proofs.Acceptance
import FrontEnd.Proofs.Parsing.OnceStatement
import FrontEnd.Proofs.Parsing.PlacesStatement
import FrontEnd.Proofs.Placement
import FrontEnd.Proofs.Typing.DistinctStatement
import FrontEnd.Proofs.Typing.LibraryCalls

/-!
# No mistake is reported twice

Whatever is wrong with a text, the parser reports each mistake once, and at most one at the end of input
(`parse_errors_nodup`). A production that fails leaves the token it refused in place, and it may be tried again from
there or from further out; the ledgers say that the token is passed or that nothing more is said of it.

Nor does the check of names and types report a mistake again (`check_diagnostics_nodup`), apart from two: a type
that is shared by a chain of declarations is checked for each of them, and a field that is declared twice is missed
twice (`check_repeats`).
-/

namespace FrontEnd

theorem length_le_one_of_nodup {α : Type} {l : List α} (nodup : l.Nodup) (same : ∀ x ∈ l, ∀ y ∈ l, x = y) :
    l.length ≤ 1 := by
  cases l with
  | nil => exact Nat.zero_le _
  | cons x rest =>
    rw [List.eq_replicate_of_mem fun y member => same y member x List.mem_cons_self] at nodup
    exact List.nodup_replicate.mp nodup

namespace Parser

variable {body : List Token} {missing last : Token}

/-- What was skipped on the way to a token is between it and the token before, or where the tokens start. -/
theorem gaps_arrange (noEof : ∀ t ∈ body, t.kind ≠ .eof) (isEof : last.kind = .eof) {first : Nat}
    {skipped : List Token}
    (row : Span.Row first last.span.lo (skipped.map Token.span ++ body.map Token.span)) :
    (∀ u ∈ ((arrange missing skipped (body ++ [last])).1 ++
        [(arrange missing skipped (body ++ [last])).2]).head?,
      Span.Row first u.token.span.lo (u.skipped.map Token.span)) ∧
      ((arrange missing skipped (body ++ [last])).1 ++
        [(arrange missing skipped (body ++ [last])).2]).IsChain Gap := by
  induction body generalizing first skipped with
  | nil => simpa [arrange, Token.isEof, isEof] using row
  | cons t body inductionHypothesis =>
    rw [List.forall_mem_cons] at noEof
    rw [List.map_cons] at row
    rw [List.cons_append, arrange, if_neg (by simpa [Token.isEof] using noEof.1)]
    split
    next => exact inductionHypothesis noEof.2 row.without
    next =>
      split
      next => exact inductionHypothesis noEof.2 (by simpa using row)
      next =>
        obtain ⟨start, -, -, -, tail⟩ := row.behind
        obtain ⟨gap, gaps⟩ := @inductionHypothesis noEof.2 t.span.hi [] tail
        refine ⟨?_, ?_⟩
        · rintro _ ⟨⟩
          exact row.front
        · rw [List.cons_append, List.isChain_cons]
          exact ⟨gap, gaps⟩

theorem spaced_before (noEof : ∀ t ∈ body, t.kind ≠ .eof) (isEof : last.kind = .eof)
    (nothing : last.span.len = 0) {first : Nat}
    (row : Span.Row first last.span.lo (body.map Token.span)) :
    (State.before (body ++ [last]) last).Spaced (body ++ [last]) :=
  ⟨(inOrder_before noEof isEof nothing row).1, (gaps_arrange noEof isEof row).2⟩

/-- Before the tokens of a text only the illegal characters in front of the first are reported. -/
theorem fresh_before (noEof : ∀ t ∈ body, t.kind ≠ .eof) (isEof : last.kind = .eof) {first : Nat}
    (row : Span.Row first last.span.lo (body.map Token.span)) :
    (State.before (body ++ [last]) last).Fresh := by
  have isFront : (State.before (body ++ [last]) last).front ∈
      ((arrange (endAfter last) [] (body ++ [last])).1 ++
        [(arrange (endAfter last) [] (body ++ [last])).2]).head? := by
    rw [State.front, State.ahead_before, State.final_before]
    cases (arrange (endAfter last) [] (body ++ [last])).1 <;> simp
  have gap := (@gaps_arrange body (endAfter last) last noEof isEof first [] row).1 _ isFront
  obtain ⟨nodup, inside⟩ := illegal_of_row gap
  have behind : ∀ e ∈ (State.before (body ++ [last]) last).errors,
      e.span.lo < (State.before (body ++ [last]) last).lo :=
    fun e member => (inside e (State.errors_before .. ▸ member)).2
  refine ⟨State.errors_before .. ▸ nodup, fun e member => .inl (behind e member), fun _ e member _ _ here _ => ?_⟩
  have before := behind e member
  rw [here] at before
  exact absurd before (Nat.lt_irrefl _)

end Parser

/-- The errors of a whole run, of which those at the end mark are one at most. -/
theorem ReadsText.once {tokens body : List Token} {last : Token} {p : Program} {t : Parser.State}
    (reads : ReadsText tokens body last p t) : t.errors.Nodup ∧
      ∀ e ∈ t.errors, ∀ e' ∈ t.errors, e.span = last.span → e'.span = last.span → e = e' := by
  obtain ⟨split, noEof, isEof, nothing, row, ran⟩ := reads
  subst split
  have spaced := Parser.spaced_before noEof isEof nothing row
  have fresh := Parser.fresh_before noEof isEof row
  have settled := (Parser.once_program fresh spaced (Nat.le_refl _)).2.1 p t ran
  have empty : t.ahead = [] := by
    have atEnd := Parser.ahead_program (.before (body ++ [last]) last)
    rwa [ran] at atEnd
  have same : t.current = last := by
    rw [Parser.State.current, Parser.State.front, empty, List.headD_nil, (Parser.reaches_of_run ran).final]
    exact (Parser.row_arrange noEof isEof row []).1
  exact ⟨settled.nodup, same ▸ settled.single (t.kind_eq_eof_iff.mpr empty)⟩

/-- The parser reports each mistake in a text once: no two of its errors are equal, and at the end mark there is at
most one. -/
theorem parse_errors_nodup (style : Lexer.CommentStyle) {source : String} (nonempty : source ≠ "") :
    ∃ tokens program last, Lexer.tokenize style source = .ok tokens ∧
      Program.parse tokens.value = .ok program ∧
      tokens.value.getLast? = some last ∧ last.kind = .eof ∧
      program.errors.Nodup ∧ (program.errors.filter fun e => e.span = last.span).length ≤ 1 := by
  obtain ⟨tokens, program, library, all⟩ := exists_placesAll style nonempty
  obtain ⟨body, last, t, reads, errors⟩ := exists_readsText (Lexer.lexed_of_tokenize all.tokenize) all.parse
  obtain ⟨nodup, single⟩ := reads.once
  rw [← errors] at nodup single
  refine ⟨tokens, program, last, all.tokenize, all.parse, ?_, reads.isEof, nodup, ?_⟩
  · rw [reads.split]
    exact List.getLast?_concat
  · have atEnd : ∀ e ∈ program.errors.filter fun e => e.span = last.span, e ∈ program.errors ∧ e.span = last.span :=
      fun e member => by simpa using List.mem_filter.mp member
    refine length_le_one_of_nodup (nodup.filter _) fun e member e' memberAgain => ?_
    obtain ⟨first, here⟩ := atEnd e member
    obtain ⟨second, hereAgain⟩ := atEnd e' memberAgain
    exact single e first e' second here hereAgain

/-- Two blocks and a call that are not closed, and a comma that is missing between two arguments. -/
def unclosedText : String :=
  "loop \x7b if true \x7b f(1 2, g("

theorem parse_errors_nodup_unclosed :
    unclosedText ≠ "" ∧
      ∃ tokens program last, Lexer.tokenize .line unclosedText = .ok tokens ∧
        Program.parse tokens.value = .ok program ∧
        tokens.value.getLast? = some last ∧ last.kind = .eof ∧
        program.errors.Nodup ∧ (program.errors.filter fun e => e.span = last.span).length ≤ 1 :=
  ⟨by decide, parse_errors_nodup .line (by decide)⟩

/-! ## Names and types -/

/-- The tree of a text is solid, and its statements are in a row. -/
theorem ReadsText.solid {tokens body : List Token} {last : Token} {p : Program} {t : Parser.State}
    (reads : ReadsText tokens body last p t) :
    ∃ stop, Span.Row 0 stop (p.map Statement.span) ∧ ∀ s ∈ p, s.Solid := by
  have placed := reads.places Parser.places_program
  have row := placed.row.row
  rw [Statement.map_span_outline] at row
  exact ⟨_, row.mono (Nat.zero_le _) (Nat.le_refl _), placed.solid⟩

theorem Outcome.stage_of_mem_diagnostics {ε α : Type} [Reportable ε] {o : Outcome ε α} {d : Diagnostic}
    (member : d ∈ o.diagnostics) : d.stage = Reportable.stage ε := by
  obtain ⟨e, -, rfl⟩ := List.mem_map.mp member
  rfl

/-- The check of names and types reports each mistake once: no two of its diagnostics are equal, if the datatypes of
all chained declarations are declared and no record lacks a field that its datatype declares more than once. -/
theorem check_diagnostics_nodup (style : Lexer.CommentStyle) {source : String} (nonempty : source ≠ "") :
    ∃ p diagnostics c, readProgram style source = .ok (p, diagnostics) ∧ check style source = .ok c ∧
      ((∀ type ∈ p.chainedTypes, Typing.Knows p.globals.getDatatype? type) →
        (∀ record ∈ p.records, Typing.LacksOnce p.globals.getDatatype? record) →
        (c.diagnostics.filter fun d => d.stage = .analyzer).Nodup) := by
  obtain ⟨tokens, program, library, all⟩ := exists_placesAll style nonempty
  obtain ⟨body, last, t, reads, -⟩ := exists_readsText (Lexer.lexed_of_tokenize all.tokenize) all.parse
  obtain ⟨stop, row, solid⟩ := reads.solid
  refine ⟨_, _, _, readProgram_eq all.tokenize all.parse, all.result, fun known once => ?_⟩
  have distinct := @Program.distinct_found _ library _ _ _ row all.placed.nests solid known once
  -- what is reported of tokens and of syntax is of other stages
  have ofOthers : ∀ d ∈ tokens.diagnostics ++ program.diagnostics, ¬ decide (d.stage = .analyzer) := by
    intro d member
    obtain read | parsed := List.mem_append.mp member
    · rw [Outcome.stage_of_mem_diagnostics read]
      decide
    · rw [Outcome.stage_of_mem_diagnostics parsed]
      decide
  rw [List.filter_append, List.filter_eq_nil_iff.mpr ofOthers, List.nil_append]
  exact distinct.nodup.filter _

/-- A record without one field of its datatype and with an unknown value for another, which is declared twice, and
two calls of a function that is not declared. -/
def fieldlessText : String :=
  "datatype D { int a, int a, int b } D x = D{a: u}, y = f(). f(x)."

instance (find : String → Option DatatypeSymbol) (type : TypeName) : Decidable (Typing.Knows find type) :=
  inferInstanceAs (Decidable (∀ name ∈ type.scalar.datatype?, (find name).isSome))

instance (find : String → Option DatatypeSymbol) (record : String × List String) :
    Decidable (Typing.LacksOnce find record) :=
  inferInstanceAs (Decidable (∀ d ∈ find record.1, (d.missing record.2).Nodup))

theorem check_diagnostics_nodup_mistaken :
    fieldlessText ≠ "" ∧
      ∃ p diagnostics c, readProgram .line fieldlessText = .ok (p, diagnostics) ∧
        (∀ type ∈ p.chainedTypes, Typing.Knows p.globals.getDatatype? type) ∧
        (∀ record ∈ p.records, Typing.LacksOnce p.globals.getDatatype? record) ∧
        check .line fieldlessText = .ok c ∧ (c.diagnostics.filter fun d => d.stage = .analyzer).Nodup := by
  have nonempty : fieldlessText ≠ "" := by decide
  -- the conditions are found by reading the text
  have conditions : (readProgram .line fieldlessText).toOption.all (fun read =>
      (∀ type ∈ read.1.chainedTypes, Typing.Knows read.1.globals.getDatatype? type) ∧
        ∀ record ∈ read.1.records, Typing.LacksOnce read.1.globals.getDatatype? record) := by
    decide +kernel
  obtain ⟨p, diagnostics, c, read, checked, nodup⟩ := check_diagnostics_nodup .line nonempty
  rw [read] at conditions
  obtain ⟨known, once⟩ := of_decide_eq_true conditions
  exact ⟨nonempty, p, diagnostics, c, read, known, once, checked, nodup known once⟩

/-- A datatype with a field that is declared twice, a record of it without the field, and two declarations in a chain
that share a type which is not declared. -/
def repeatingText : String :=
  "datatype D { int a, int a }\nE x = D{}, y = 1."

/-- What is found in it: the field that is missing twice, and the type that is reported for both declarations. -/
def repeatingFound : List Diagnostic :=
  [⟨.analyzer, "A004", "field `a` of `D` is given more than once", ⟨24, 1, 1, 24⟩⟩,
    ⟨.analyzer, "A006", "datatype `E` is not declared", ⟨28, 1, 2, 0⟩⟩,
    ⟨.analyzer, "A010", "missing field `a` of `D`", ⟨34, 1, 2, 6⟩⟩,
    ⟨.analyzer, "A010", "missing field `a` of `D`", ⟨34, 1, 2, 6⟩⟩,
    ⟨.analyzer, "A006", "datatype `E` is not declared", ⟨28, 1, 2, 0⟩⟩]

/-- A field that is declared twice is missing twice, and a type that is shared is reported twice. -/
theorem check_repeats :
    ∃ c, check .line repeatingText = .ok c ∧ c.diagnostics = repeatingFound ∧
      ¬ (c.diagnostics.filter fun d => d.stage = .analyzer).Nodup := by
  obtain ⟨tokens, program, library, all⟩ := exists_placesAll .line (by decide : repeatingText ≠ "")
  -- the text calls nothing of the library, which therefore need not be loaded
  have evaluated : (readProgram .line repeatingText).toOption.all (fun read =>
      read.2 = [] ∧ read.1.libraryCalls = [] ∧ (read.1.found .empty).map Located.diagnostic = repeatingFound) := by
    decide +kernel
  rw [readProgram_eq all.tokenize all.parse] at evaluated
  obtain ⟨silent, noCalls, found⟩ : tokens.diagnostics ++ program.diagnostics = [] ∧
      program.value.libraryCalls = [] ∧
      (program.value.found .empty).map Located.diagnostic = repeatingFound := of_decide_eq_true evaluated
  have same : Typing.SameCalls .empty library program.value.libraryCalls := by
    rw [noCalls]
    exact List.forall_mem_nil _
  have diagnostics : tokens.diagnostics ++ program.diagnostics ++
      (program.value.found library).map Located.diagnostic = repeatingFound := by
    rw [silent, List.nil_append, Program.found_under same, found]
  refine ⟨_, all.result, diagnostics, ?_⟩
  show ¬ (List.filter _ (_ ++ _)).Nodup
  rw [diagnostics]
  decide

end FrontEnd
