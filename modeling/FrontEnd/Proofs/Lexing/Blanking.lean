import FrontEnd.Proofs.Lexing.Errors

/-!
# Comments as blanks

A text keeps its tokens, all but blanks and comments, if every character of a comment is replaced by a space
(`tokenize_blanked`). Comments end words, numbers and signs as spaces do, so that what stands in front of one is a
lexeme in front of a space as well (`Legible.masked`); and as blanks are dropped, it does not matter that a space joins
the blanks around it (`shown_blanks`). Places stay where they are, for no line breaks in a comment and its characters
are of one byte, as a space is.
-/

namespace FrontEnd

/-- The text of a token of a source, with a space for every character of a comment. -/
def Token.blankedText (source : String) (t : Token) : List Char :=
  (t.span.text source).toList.map fun c => if t.kind = .comment then ' ' else c

/-- Whether a token is no comment, or one of ASCII characters only. -/
def Token.HasAsciiComment (t : Token) : Prop :=
  t.kind = .comment → ∀ c ∈ t.literal.toList, c.toNat < 128

namespace Lexer

/-- A source text with a space for every character of its comments. It is put together from its tokens, whose texts
one behind the other are the source (`Lexed.texts`). -/
def blanked (style : CommentStyle) (source : String) : String :=
  match tokenize style source with
  | .ok tokens => String.ofList (tokens.value.flatMap (Token.blankedText source))
  | .error _ => source

/-- Whether the comments of a source consist of ASCII characters. -/
def AsciiComments (style : CommentStyle) (source : String) : Prop :=
  ∀ tokens, tokenize style source = .ok tokens → ∀ t ∈ tokens.value, t.HasAsciiComment

/-- The tokens of a text but for blanks and comments, and its errors. -/
def withoutTrivia (o : Outcome Error (List Token)) : Outcome Error (List Token) where
  value := o.value.filter fun t => !t.kind.isTrivia
  errors := o.errors

variable {style other : CommentStyle} {source : String} {kind : TokenKind} {text rest instead before : List Char}

/-! ## What follows a lexeme -/

/-- Whether two texts start alike, or the one with a space where the other starts with a comment. -/
def Masks (rest instead : List Char) : Prop :=
  instead.head? = rest.head? ∨ rest.head? = some marker ∧ instead.head? = some ' '

theorem Masks.ends {p : Char → Bool} (masks : Masks rest instead) (space : p ' ' = false) (ends : Ends p rest) :
    Ends p instead := by
  rintro d starts
  obtain same | ⟨-, isSpace⟩ := masks
  · exact ends d (same ▸ starts)
  · rw [isSpace] at starts
    obtain rfl := Option.some.inj starts
    exact space

theorem Masks.head?_ne {c : Char} (masks : Masks rest instead) (notSpace : c ≠ ' ') (apart : rest.head? ≠ some c) :
    instead.head? ≠ some c := by
  obtain same | ⟨-, isSpace⟩ := masks
  · rwa [same]
  · rw [isSpace]
    exact fun found => notSpace (Option.some.inj found).symm

theorem Masks.head?_eq {c : Char} (masks : Masks rest instead) (notMarker : c ≠ marker) (starts : rest.head? = some c) :
    instead.head? = some c := by
  obtain same | ⟨isMarker, -⟩ := masks
  · exact same.trans starts
  · exact absurd (Option.some.inj (starts.symm.trans isMarker)) notMarker

theorem Masks.eq_nil_iff (masks : Masks rest instead) : instead = [] ↔ rest = [] := by
  rw [← List.head?_eq_none_iff, ← List.head?_eq_none_iff]
  obtain same | ⟨isMarker, isSpace⟩ := masks
  · rw [same]
  · simp [isMarker, isSpace]

/-- A lexeme in front of a comment is one in front of a space. How far comments reach does not matter to it, unless it
is one. -/
theorem Legible.masked (legible : Legible style rest kind text) (notTrivia : kind.isTrivia = false)
    (masks : Masks rest instead) : Legible other instead kind text := by
  have noWord : continuesWord ' ' = false := continuesWord_of_isBlank (by decide)
  cases legible with
  | blanks | markers | remark => cases notTrivia
  | reserved isWord member ends => exact .reserved isWord member (masks.ends noWord ends)
  | identifier isWord notReserved ends => exact .identifier isWord notReserved (masks.ends noWord ends)
  | digits each ends => exact .digits each (masks.ends rfl ends)
  | negative each ends => exact .negative each (masks.ends rfl ends)
  | loneMinus noDigit noArrow noParen =>
    exact .loneMinus (masks.ends rfl noDigit) (masks.head?_ne (by decide) noArrow) (masks.head?_ne (by decide) noParen)
  | arrow => exact .arrow
  | minus opens => exact .minus (masks.head?_eq (by decide) opens)
  | doubleColon => exact .doubleColon
  | colon single => exact .colon (masks.head?_ne (by decide) single)
  | string noQuote => exact .string noQuote
  | unclosed noQuote atEnd => exact .unclosed noQuote (masks.eq_nil_iff.mpr atEnd)
  | mark member => exact .mark member

theorem IsLexeme.masked (lexeme : IsLexeme style kind text rest) (notTrivia : kind.isTrivia = false)
    (masks : Masks rest instead) : IsLexeme other kind text instead := by
  obtain legible | illegal := id lexeme
  · exact .inl (legible.masked notTrivia masks)
  · obtain ⟨rfl, c, rfl, -⟩ := illegal
    -- what starts no lexeme of the one style starts none of the other
    have strange : Strange c := strange_of_scan lexeme.scan.1
    exact .inr ⟨rfl, c, rfl, fun _ _ _ legible => legible.not_strange strange⟩

/-! ## Reading a lexeme -/

/-- Where a lexeme stands the token is read that covers it, with what can be seen to be wrong with it. -/
theorem read_of_lexeme {t : Token} (lexeme : IsLexeme style t.kind text rest) (covers : Covers t before text)
    (same : t.span.text source = String.ofList text) :
    (⟨Position.start.afterAll before, text ++ rest⟩ : Cursor).read style =
      ⟨t, t.fault? source, ⟨Position.start.afterAll (before ++ text), rest⟩⟩ := by
  obtain ⟨c, run, rfl⟩ := List.exists_cons_of_ne_nil lexeme.nonempty
  obtain ⟨kind, tail⟩ := lexeme.scan
  obtain ⟨_, -, spells, -⟩ := isLexeme_scan style c (run ++ rest)
  rw [tail] at spells
  have token := covers_unique (covers_span spells) covers kind
  have reported : (scan style c (run ++ rest)).error = _ := reported_scan style c (run ++ rest)
  have fault := @fault?_token source c (scan style c (run ++ rest)) t.span (by rw [same, tail])
  rw [← reported] at fault
  have span := congrArg Token.span token
  dsimp only at span
  simp only [Cursor.read, List.cons_append, tail, ← afterAll_append, span, fault, List.drop_left]
  rw [span] at token
  rw [token]

/-! ## Blanks in front -/

/-- What is shown of a text from a cursor on: its tokens but for blanks and comments, and its errors. -/
def Cursor.shown (style : CommentStyle) (cursor : Cursor) : Outcome Error (List Token) :=
  withoutTrivia (outcome (cursor.steps style))

theorem shown_gap {gap : List Char} (blank : gap.all Text.isBlank = true) (ends : Ends Text.isBlank rest)
    (p : Position) : (⟨p, gap ++ rest⟩ : Cursor).shown style = (⟨p.afterAll gap, rest⟩ : Cursor).shown style := by
  cases gap with
  | nil => rfl
  | cons c gap =>
    have read : (⟨p, c :: gap ++ rest⟩ : Cursor).read style =
        ⟨⟨.whitespace, String.ofList (c :: gap), p.span (p.afterAll (c :: gap))⟩, none,
          ⟨p.afterAll (c :: gap), rest⟩⟩ := by
      simp only [Cursor.read, List.cons_append, scan_blanks blank ends, Lexeme.plain, List.drop_left, Option.map_none]
    rw [Cursor.shown, steps_of_cons rfl, read]
    rfl

/-- Blanks move what follows, and show nothing themselves. They are one token with those that follow. -/
theorem shown_blanks {gap : List Char} (blank : gap.all Text.isBlank = true) (p : Position) (rest : List Char) :
    (⟨p, gap ++ rest⟩ : Cursor).shown style = (⟨p.afterAll gap, rest⟩ : Cursor).shown style := by
  obtain ⟨behind, split, ends⟩ := split_run Text.isBlank rest
  have run : (rest.takeWhile Text.isBlank).all Text.isBlank = true := List.all_takeWhile
  have joined : (gap ++ rest.takeWhile Text.isBlank).all Text.isBlank = true := by
    rw [List.all_append, blank, run]
    rfl
  calc (⟨p, gap ++ rest⟩ : Cursor).shown style
      = (⟨p, (gap ++ rest.takeWhile Text.isBlank) ++ behind⟩ : Cursor).shown style := by
        rw [List.append_assoc, ← split]
    _ = (⟨(p.afterAll gap).afterAll (rest.takeWhile Text.isBlank), behind⟩ : Cursor).shown style := by
        rw [shown_gap joined ends, afterAll_append]
    _ = (⟨p.afterAll gap, rest⟩ : Cursor).shown style := by
        rw [← shown_gap run ends, ← split]

/-! ## Comments -/

/-- There is no line break in a comment. -/
theorem IsLexeme.noBreak (lexeme : IsLexeme style .comment text rest) : ∀ c ∈ text, c ≠ '\n' := by
  obtain ⟨run, rfl, ⟨-, each⟩ | ⟨-, inLine⟩⟩ := lexeme.shape
  · exact List.forall_mem_cons.mpr ⟨by decide, fun c member => each c member ▸ by decide⟩
  · exact List.forall_mem_cons.mpr ⟨by decide, inLine⟩

/-- In a comment that is a run of markers there is nothing but markers, which are ASCII characters. -/
theorem Lexed.asciiComments {tokens : List Token} (lexed : Lexed .markerRun before rest tokens) :
    ∀ t ∈ tokens, t.HasAsciiComment := by
  intro t member isComment
  obtain ⟨_, _, -, lexeme⟩ := lexed.isLexeme member (by simp [isComment]) (by simp [isComment])
  rw [isComment] at lexeme
  obtain ⟨run, same, ⟨-, each⟩ | ⟨⟨⟩, -⟩⟩ := lexeme.shape
  rw [same]
  exact List.forall_mem_cons.mpr ⟨by decide, fun c member => each c member ▸ by decide⟩

/-- Of a character on the line that is of one byte, one can see afterwards only that it was there. -/
theorem after_eq_after_space {c : Char} (ascii : c.toNat < 128) (noBreak : c ≠ '\n') (p : Position) :
    p.after c = p.after ' ' := by
  have size : c.utf8Size = 1 := by
    rw [Char.utf8Size_eq_one_iff, UInt32.le_iff_toNat_le]
    exact Nat.le_of_lt_succ ascii
  have space : ' '.utf8Size = 1 := by decide
  simp [Position.after, noBreak, size, space]

theorem afterAll_spaces (ascii : ∀ c ∈ text, c.toNat < 128) (noBreak : ∀ c ∈ text, c ≠ '\n') (p : Position) :
    p.afterAll (text.map fun _ => ' ') = p.afterAll text := by
  induction text generalizing p with
  | nil => rfl
  | cons c text inductionHypothesis =>
    rw [List.forall_mem_cons] at ascii noBreak
    have first := after_eq_after_space ascii.1 noBreak.1 p
    have others := inductionHypothesis ascii.2 noBreak.2 (p.after ' ')
    show (p.after ' ').afterAll _ = (p.after c).afterAll text
    rw [first, others]

/-! ## The blanked text -/

theorem Covers.blankedText {t : Token} (covers : Covers t before text)
    (split : source.toList = before ++ (text ++ rest)) :
    t.blankedText source = if t.kind = .comment then text.map fun _ => ' ' else text := by
  rw [Token.blankedText, covers.text split, String.toList_ofList]
  split
  · rfl
  · exact List.map_id' text

/-- The blanked text starts as the text does, or with a space where that starts with a comment. -/
theorem Lexed.masks {tokens : List Token} (lexed : Lexed style before rest tokens)
    (split : source.toList = before ++ rest) : Masks rest (tokens.flatMap (Token.blankedText source)) := by
  cases lexed with
  | @nil _ t isEof covers =>
    have nothing := covers.blankedText split
    simp only [isEof, reduceCtorEq, if_false] at nothing
    exact .inl (by rw [List.flatMap_singleton, nothing])
  | @cons _ _ text rest t tokens splitToken lexeme covers =>
    subst splitToken
    obtain ⟨c, run, rfl⟩ := List.exists_cons_of_ne_nil lexeme.nonempty
    rw [List.flatMap_cons, covers.blankedText split]
    split
    next isComment =>
      rw [isComment] at lexeme
      obtain ⟨_, ⟨⟩, -⟩ := lexeme.shape
      exact .inr ⟨rfl, rfl⟩
    next => exact .inl rfl

theorem fault?_of_isTrivia {t : Token} (isTrivia : t.kind.isTrivia = true) : t.fault? source = none := by
  have notInt : t.kind ≠ .int := fun isInt => by simp [isInt, TokenKind.isTrivia] at isTrivia
  have notString : t.kind ≠ .string := fun isString => by simp [isString, TokenKind.isTrivia] at isTrivia
  simp [Token.fault?, Token.loneMinus?, Token.unclosed?, notInt, notString]

/-- Of a blank or a comment, only blanks are left, which come to the same place. -/
theorem blanked_trivia {t : Token} (isTrivia : t.kind.isTrivia = true) (lexeme : IsLexeme style t.kind text rest)
    (covers : Covers t before text) (ascii : t.HasAsciiComment) :
    let blanks := if t.kind = .comment then text.map fun _ => ' ' else text
    blanks.all Text.isBlank = true ∧ ∀ p : Position, p.afterAll blanks = p.afterAll text := by
  dsimp only
  split
  next isComment =>
    have literal : t.literal.toList = text := by simpa [Spells, isComment] using covers.literal
    rw [isComment] at lexeme
    have space : Text.isBlank ' ' = true := by decide
    exact ⟨by simp [space], afterAll_spaces (literal ▸ ascii isComment) lexeme.noBreak⟩
  next notComment =>
    have isWhitespace : t.kind = .whitespace := by simpa [TokenKind.isTrivia, notComment] using isTrivia
    exact ⟨(isWhitespace ▸ lexeme).shape, fun p => rfl⟩

/-- Of the blanked text the same is shown as of the text, from the start of any token on. -/
theorem Lexed.shown_blanked {tokens : List Token} (lexed : Lexed style before rest tokens)
    (split : source.toList = before ++ rest) (ascii : ∀ t ∈ tokens, t.HasAsciiComment) :
    (⟨Position.start.afterAll before, tokens.flatMap (Token.blankedText source)⟩ : Cursor).shown other =
      withoutTrivia ⟨tokens, tokens.filterMap (Token.fault? source)⟩ := by
  induction lexed with
  -- the end mark is read where no text is left, and covers none
  | @nil before t isEof covers =>
    have nothing : t.blankedText source = [] := by
      rw [covers.blankedText split, isEof]
      rfl
    have spells : Spells .eof [] [] := rfl
    have token := covers_unique (covers_span spells) covers isEof.symm
    have noFault : t.fault? source = none := by simp [Token.fault?, Token.loneMinus?, Token.unclosed?, isEof]
    rw [List.append_nil] at token
    rw [List.flatMap_singleton, nothing, Cursor.shown, steps_of_nil rfl, Cursor.read, List.filterMap_cons, noFault,
      ← token]
    rfl
  | @cons before whole text rest t tokens splitToken lexeme covers tail inductionHypothesis =>
    subst splitToken
    rw [List.forall_mem_cons] at ascii
    have splitBehind : source.toList = (before ++ text) ++ rest := by rw [split, List.append_assoc]
    have behind := inductionHypothesis splitBehind ascii.2
    rw [List.flatMap_cons, covers.blankedText split]
    cases isTrivia : t.kind.isTrivia with
    -- what the token leaves is blank, so it is not seen apart from the blanks that follow
    | true =>
      obtain ⟨blank, place⟩ := blanked_trivia isTrivia lexeme covers ascii.1
      rw [shown_blanks blank, place, ← afterAll_append, behind]
      simp [withoutTrivia, isTrivia, fault?_of_isTrivia isTrivia]
    -- the text stays, and it is the same lexeme in front of what is left of the others
    | false =>
      have notComment : t.kind ≠ .comment := fun isComment => by simp [isComment, TokenKind.isTrivia] at isTrivia
      have masked : IsLexeme other t.kind text _ := lexeme.masked isTrivia (tail.masks splitBehind)
      have read := read_of_lexeme masked covers (covers.text split)
      obtain ⟨c, run, rfl⟩ := List.exists_cons_of_ne_nil lexeme.nonempty
      have values := congrArg Outcome.value behind
      have errors := congrArg Outcome.errors behind
      simp only [Cursor.shown, withoutTrivia, outcome] at values errors
      rw [if_neg notComment, Cursor.shown, steps_of_cons rfl, read]
      simp [withoutTrivia, outcome, List.filterMap_cons, isTrivia, values, errors]

/-! ## Whole texts -/

theorem toList_blanked {o : Outcome Error (List Token)} (tokenized : tokenize style source = .ok o) :
    (blanked style source).toList = o.value.flatMap (Token.blankedText source) := by
  rw [blanked, tokenized, String.toList_ofList]

theorem AsciiComments.of_markerRun (source : String) : AsciiComments .markerRun source := by
  intro tokens tokenized
  exact (lexed_of_tokenize tokenized).asciiComments

/-- A text of ASCII characters has no others in its comments. -/
theorem AsciiComments.of_ascii (ascii : ∀ c ∈ source.toList, c.toNat < 128) : AsciiComments style source := by
  intro tokens tokenized t member isComment c memberLiteral
  obtain ⟨start, text, behind, split, covers, -⟩ := (lexed_of_tokenize tokenized).placed t member
  have literal : t.literal.toList = text := by simpa [Spells, isComment] using covers.literal
  rw [List.nil_append] at split
  rw [literal] at memberLiteral
  exact ascii c (split ▸ List.mem_append_right start (List.mem_append_left behind memberLiteral))

/-- Comments are blanks: to blank them changes neither the other tokens of a text nor its errors, and as no comment is
left then, it does not matter how far comments reach. -/
theorem tokenize_blanked (style other : CommentStyle) (source : String) (ascii : AsciiComments style source) :
    (tokenize other (blanked style source)).map withoutTrivia = (tokenize style source).map withoutTrivia := by
  by_cases isEmpty : source = ""
  · rw [isEmpty]
    rfl
  have tokenized := tokenize_of_nonempty style isEmpty
  have split : source.toList = [] ++ source.toList := rfl
  have lexed := lexed_of_tokenize tokenized
  have text := toList_blanked tokenized
  have nonempty : blanked style source ≠ "" := by
    intro none
    have masks := lexed.masks split
    rw [← text, none] at masks
    exact isEmpty (String.toList_eq_nil_iff.mp (masks.eq_nil_iff.mp rfl))
  have shown : (⟨Position.start.afterAll [], _⟩ : Cursor).shown other = _ :=
    lexed.shown_blanked split (ascii _ tokenized)
  rw [← text] at shown
  rw [tokenized, tokenize_of_nonempty other nonempty]
  refine congrArg Except.ok (shown.trans (congrArg withoutTrivia ?_))
  rw [← errors_of_tokenize tokenized]

end Lexer

end FrontEnd
