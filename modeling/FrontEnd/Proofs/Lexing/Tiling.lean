import FrontEnd.Proofs.Lexing.Lexemes
import FrontEnd.Proofs.Lexing.Tokens
import Mathlib.Data.List.Chain
import Mathlib.Data.List.Induction
import Mathlib.Data.String.Basic

/-!
# The tokens of a text tile it

`Lexed style before rest tokens` says that the tokens split `rest`, which stands behind `before`, into
lexemes, each in its place, with the end mark last. The lexer makes such a list from any text, and there is
no other (`tokenize_unique`). What the list looks like follows from that alone (`Lexed.tiles`): its
regions lie side by side from the first byte to the last, and their texts make up the source.
-/

namespace FrontEnd.Lexer

open String (utf8Len)

/-! ## Places -/

/-- The number of characters of a text behind its last line break. -/
def columnAfter (text : List Char) : Nat :=
  (text.reverse.takeWhile (· ≠ '\n')).length

theorem afterAll_append (p : Position) (first second : List Char) :
    p.afterAll (first ++ second) = (p.afterAll first).afterAll second :=
  List.foldl_append

/-- The place behind a text is known from its bytes, its line breaks and its last line. -/
theorem afterAll_start (text : List Char) :
    Position.start.afterAll text = ⟨utf8Len text, 1 + text.count '\n', columnAfter text⟩ := by
  induction text using List.reverseRecOn with
  | nil => rfl
  | append_singleton text c inductionHypothesis =>
    rw [afterAll_append, inductionHypothesis]
    simp only [Position.afterAll, List.foldl_cons, List.foldl_nil, Position.after]
    by_cases isBreak : c = '\n'
    · subst isBreak
      simp [columnAfter, String.utf8Len_append, Nat.add_assoc]
    · simp [columnAfter, String.utf8Len_append, isBreak]

theorem dropBytes_utf8Len (before rest : List Char) :
    dropBytes (utf8Len before) (before ++ rest) = rest := by
  induction before with
  | nil => simp [dropBytes]
  | cons c before inductionHypothesis =>
    have positive := c.utf8Size_pos
    obtain ⟨n, more⟩ := Nat.exists_eq_add_one.mpr (by omega : 0 < utf8Len before + c.utf8Size)
    rw [String.utf8Len_cons, more, List.cons_append, dropBytes, ← more, Nat.add_sub_cancel]
    exact inductionHypothesis

theorem takeBytes_utf8Len (text rest : List Char) :
    takeBytes (utf8Len text) (text ++ rest) = text := by
  induction text with
  | nil => simp [takeBytes]
  | cons c text inductionHypothesis =>
    have positive := c.utf8Size_pos
    obtain ⟨n, more⟩ := Nat.exists_eq_add_one.mpr (by omega : 0 < utf8Len text + c.utf8Size)
    rw [String.utf8Len_cons, more, List.cons_append, takeBytes, ← more, Nat.add_sub_cancel,
      inductionHypothesis]

/-! ## Tokens in their places -/

/-- Whether a token stands right behind `before`, covers `text` and has its literal. -/
structure Covers (t : Token) (before text : List Char) : Prop where
  lo : t.span.lo = utf8Len before
  len : t.span.len = utf8Len text
  line : t.span.line = 1 + before.count '\n'
  column : t.span.column = columnAfter before
  literal : Spells t.kind text t.literal.toList

/-- Whether tokens split a text into lexemes, given the text before it. The end mark is the last token. -/
inductive Lexed (style : CommentStyle) : List Char → List Char → List Token → Prop
  | nil {before : List Char} {t : Token} (isEof : t.kind = .eof) (covers : Covers t before []) :
      Lexed style before [] [t]
  | cons {before whole text rest : List Char} {t : Token} {tokens : List Token}
      (split : whole = text ++ rest) (lexeme : IsLexeme style t.kind text rest)
      (covers : Covers t before text) (tail : Lexed style (before ++ text) rest tokens) :
      Lexed style before whole (t :: tokens)

variable {style : CommentStyle} {before rest : List Char} {tokens : List Token}

theorem covers_span {kind : TokenKind} {literal text : List Char} (spells : Spells kind text literal) :
    Covers ⟨kind, String.ofList literal, (Position.start.afterAll before).span
      (Position.start.afterAll (before ++ text))⟩ before text := by
  constructor <;> simp [Position.span, afterAll_start, String.utf8Len_append, spells]

/-- Where a text has not ended, one step reads a lexeme in its place and goes on behind it. -/
theorem read_lexeme (style : CommentStyle) (before : List Char) (c : Char) (ahead : List Char) :
    ∃ text behind, (⟨Position.start.afterAll before, c :: ahead⟩ : Cursor).taken style = text ∧
      c :: ahead = text ++ behind ∧
      IsLexeme style ((⟨Position.start.afterAll before, c :: ahead⟩ : Cursor).read style).token.kind text behind ∧
      Covers ((⟨Position.start.afterAll before, c :: ahead⟩ : Cursor).read style).token before text ∧
      ((⟨Position.start.afterAll before, c :: ahead⟩ : Cursor).read style).next =
        ⟨Position.start.afterAll (before ++ text), behind⟩ := by
  obtain ⟨behind, split, spells, lexeme⟩ := isLexeme_scan style c ahead
  have drop : ahead.drop (scan style c ahead).tail.length = behind :=
    (congrArg (List.drop _) split).trans List.drop_left
  have whole : c :: ahead = (c :: (scan style c ahead).tail) ++ behind := by
    rw [List.cons_append, ← split]
  refine ⟨c :: (scan style c ahead).tail, behind, rfl, whole, lexeme, ?_, ?_⟩
  · simp only [Cursor.read, ← afterAll_append]
    exact covers_span spells
  · simp only [Cursor.read, drop, afterAll_append]

/-- What the lexer makes of a text are its lexemes. -/
theorem lexed_steps (style : CommentStyle) (before rest : List Char) :
    Lexed style before rest
      (((⟨Position.start.afterAll before, rest⟩ : Cursor).steps style).map Step.token) := by
  generalize length : rest.length = n
  induction n using Nat.strongRecOn generalizing before rest with
  | ind n inductionHypothesis =>
    cases rest with
    | nil =>
      rw [steps_of_nil rfl]
      have spells : Spells .eof [] [] := rfl
      have noText : Covers ⟨.eof, String.ofList [], _⟩ before [] := covers_span spells
      rw [List.append_nil] at noText
      exact .nil rfl noText
    | cons c ahead =>
      obtain ⟨text, behind, -, split, lexeme, covers, next⟩ := read_lexeme style before c ahead
      have tail := inductionHypothesis _ (length ▸ lexeme.shorter split) (before ++ text) behind rfl
      rw [← next] at tail
      rw [steps_of_cons rfl, List.map_cons]
      exact .cons split lexeme covers tail

/-! ## No other list of tokens -/

theorem spells_unique {kind : TokenKind} {text literal other : List Char}
    (first : Spells kind text literal) (second : Spells kind text other) : literal = other := by
  unfold Spells at first second
  split at first
  next isString =>
    rw [if_pos isString] at second
    obtain ⟨noQuote, closed | open'⟩ := first <;> obtain ⟨noQuote', closed' | open''⟩ := second
    · simpa using closed.symm.trans closed'
    -- a literal without quotes cannot be one that still has the closing quote
    · have same := closed.symm.trans open''
      simp only [List.cons.injEq, true_and] at same
      exact absurd (same ▸ List.mem_append_right literal List.mem_cons_self) noQuote'
    · have same := open'.symm.trans closed'
      simp only [List.cons.injEq, true_and] at same
      exact absurd (same ▸ List.mem_append_right other List.mem_cons_self) noQuote
    · simpa using open'.symm.trans open''
  next notString =>
    rw [if_neg notString] at second
    exact first.trans second.symm

theorem covers_unique {t u : Token} {before text : List Char} (first : Covers t before text)
    (second : Covers u before text) (kind : t.kind = u.kind) : t = u := by
  obtain ⟨kind', literal, lo, len, line, column⟩ := t
  obtain ⟨_, literal', lo', len', line', column'⟩ := u
  have lo : lo = lo' := first.lo.trans second.lo.symm
  have len : len = len' := first.len.trans second.len.symm
  have line : line = line' := first.line.trans second.line.symm
  have column : column = column' := first.column.trans second.column.symm
  cases kind
  have literal : literal = literal' :=
    String.toList_injective (spells_unique first.literal second.literal)
  subst lo len line column literal
  rfl

theorem IsLexeme.unique {kind other : TokenKind} {text text' rest rest' : List Char}
    (first : IsLexeme style kind text rest) (second : IsLexeme style other text' rest')
    (same : text ++ rest = text' ++ rest') : kind = other ∧ text = text' ∧ rest = rest' := by
  obtain ⟨c, run, rfl⟩ := List.exists_cons_of_ne_nil first.nonempty
  obtain ⟨d, run', rfl⟩ := List.exists_cons_of_ne_nil second.nonempty
  rw [List.cons_append, List.cons_append, List.cons.injEq] at same
  obtain ⟨rfl, same⟩ := same
  obtain ⟨rfl, tail⟩ := first.scan
  obtain ⟨rfl, tail'⟩ := second.scan
  rw [same] at tail
  have runs : run = run' := tail.symm.trans tail'
  subst runs
  exact ⟨by rw [same], rfl, List.append_cancel_left same⟩

theorem Lexed.unique {others : List Token} (first : Lexed style before rest tokens)
    (second : Lexed style before rest others) : tokens = others := by
  induction first generalizing others with
  | nil isEof covers =>
    cases second with
    | nil isEof' covers' => rw [covers_unique covers covers' (isEof.trans isEof'.symm)]
    | cons split lexeme => exact absurd (List.append_eq_nil_iff.mp split.symm).1 lexeme.nonempty
  | cons split lexeme covers tail inductionHypothesis =>
    cases second with
    | nil => exact absurd (List.append_eq_nil_iff.mp split.symm).1 lexeme.nonempty
    | cons split' lexeme' covers' tail' =>
      obtain ⟨kind, rfl, rfl⟩ := lexeme.unique lexeme' (split.symm.trans split')
      rw [covers_unique covers covers' kind, inductionHypothesis tail']

/-- The lexer splits every text into lexemes, the longest that there are, and this is the only way to do
so: another list of tokens that does is the same list. Only the text without any character has no
tokens. -/
theorem tokenize_unique (style : CommentStyle) (source : String) :
    ∃ o, tokenize style source = (if source = "" then .error .emptySource else .ok o) ∧
      ∀ tokens, Lexed style [] source.toList tokens ↔ tokens = o.value := by
  have lexed : Lexed style [] source.toList (((Cursor.ofString source).steps style).map Step.token) :=
    lexed_steps style [] source.toList
  refine ⟨outcome ((Cursor.ofString source).steps style), ?_, fun tokens => ?_⟩
  · simp only [tokenize, String.isEmpty_iff]
  · exact ⟨fun other => other.unique lexed, fun same => same ▸ lexed⟩

/-! ## Side by side -/

theorem Lexed.ended (lexed : Lexed style before rest tokens) :
    ∃ body last, tokens = body ++ [last] ∧ last.kind = .eof ∧
      ∀ t ∈ body, t.kind ≠ .eof ∧ 0 < t.span.len := by
  induction lexed with
  | @nil _ t isEof => exact ⟨[], t, rfl, isEof, by simp⟩
  | @cons _ _ text _ t _ _ lexeme covers _ inductionHypothesis =>
    obtain ⟨body, last, rfl, isEof, inside⟩ := inductionHypothesis
    refine ⟨t :: body, last, rfl, isEof, ?_⟩
    have length : 0 < t.span.len := by
      rw [covers.len, Nat.pos_iff_ne_zero, Ne, String.utf8Len_eq_zero]
      exact lexeme.nonempty
    simpa using ⟨⟨lexeme.ne_eof, length⟩, inside⟩

theorem Covers.hi {t : Token} {text : List Char} (covers : Covers t before text) :
    t.span.hi = utf8Len (before ++ text) := by
  rw [Span.hi, covers.lo, covers.len, String.utf8Len_append]

theorem Lexed.head (lexed : Lexed style before rest tokens) :
    ∀ t ∈ tokens.head?, t.span.lo = utf8Len before := by
  cases lexed with
  | nil _ covers => simpa using covers.lo
  | cons _ _ covers => simpa using covers.lo

theorem Lexed.contiguous (lexed : Lexed style before rest tokens) :
    tokens.IsChain fun t u => u.span.lo = t.span.hi := by
  induction lexed with
  | nil => exact .singleton _
  | cons _ _ covers tail inductionHypothesis =>
    rw [List.isChain_cons]
    exact ⟨fun u member => (tail.head u member).trans covers.hi.symm, inductionHypothesis⟩

/-- The end mark stands behind all of the text and covers nothing. -/
theorem Lexed.covers_last (lexed : Lexed style before rest tokens) :
    ∀ t ∈ tokens.getLast?, Covers t (before ++ rest) [] := by
  induction lexed with
  | nil _ covers => simpa using covers
  | cons split _ _ tail inductionHypothesis =>
    obtain ⟨body, last, same, _⟩ := tail.ended
    subst same split
    rw [List.getLast?_concat] at inductionHypothesis
    rwa [← List.cons_append, List.getLast?_concat, ← List.append_assoc]

/-- Every token covers some text in its place, and is a lexeme there unless it is the end mark. -/
theorem Lexed.placed (lexed : Lexed style before rest tokens) :
    ∀ t ∈ tokens, ∃ start text behind, before ++ rest = start ++ (text ++ behind) ∧
      Covers t start text ∧ (t.kind = .eof ∨ IsLexeme style t.kind text behind) := by
  induction lexed with
  | @nil before t isEof covers =>
    intro u member
    rw [List.mem_singleton.mp member]
    exact ⟨before, [], [], rfl, covers, .inl isEof⟩
  | @cons before _ text rest t tokens split lexeme covers _ inductionHypothesis =>
    subst split
    intro u member
    rcases List.mem_cons.mp member with rfl | later
    · exact ⟨before, text, rest, rfl, covers, .inr lexeme⟩
    · rw [← List.append_assoc]
      exact inductionHypothesis u later

/-- Of a token that is no string, the literal is a lexeme in its place. -/
theorem Lexed.isLexeme (lexed : Lexed style before rest tokens) {t : Token} (member : t ∈ tokens)
    (notEof : t.kind ≠ .eof) (notString : t.kind ≠ .string) :
    ∃ start behind, Covers t start t.literal.toList ∧ IsLexeme style t.kind t.literal.toList behind := by
  obtain ⟨start, text, behind, -, covers, kinds⟩ := lexed.placed t member
  have literal : t.literal.toList = text := by simpa [Spells, notString] using covers.literal
  subst literal
  exact ⟨start, behind, covers, kinds.resolve_left notEof⟩

theorem Lexed.isName (lexed : Lexed style before rest tokens) {t : Token} (member : t ∈ tokens)
    (isIdentifier : t.kind = .identifier) : IsName t.literal := by
  obtain ⟨_, _, -, lexeme⟩ := lexed.isLexeme member (by simp [isIdentifier]) (by simp [isIdentifier])
  rw [isIdentifier] at lexeme
  have isName : IsName (String.ofList t.literal.toList) := lexeme.shape
  rwa [String.ofList_toList] at isName

theorem Covers.text {source : String} {t : Token} {text behind : List Char}
    (covers : Covers t before text) (split : source.toList = before ++ (text ++ behind)) :
    t.span.text source = String.ofList text := by
  rw [Span.text, covers.lo, covers.len, split, dropBytes_utf8Len, takeBytes_utf8Len]

theorem Lexed.texts {source : String} (lexed : Lexed style before rest tokens)
    (split : source.toList = before ++ rest) :
    String.join (tokens.map fun t => t.span.text source) = String.ofList rest := by
  induction lexed with
  | nil _ covers =>
    rw [List.map_singleton, covers.text (split.trans (congrArg _ (List.append_nil []).symm))]
    simp [String.join]
  | cons split' _ covers _ inductionHypothesis =>
    subst split'
    rw [List.map_cons, String.join_cons, covers.text split,
      inductionHypothesis (by rw [split, List.append_assoc]), ← String.ofList_append]

/-- Whether tokens tile a source text. -/
structure Tiles (source : String) (tokens : List Token) : Prop where
  /-- There is one end mark, and it is the last token. All others cover something. -/
  ended : ∃ body last, tokens = body ++ [last] ∧ last.kind = .eof ∧
    ∀ t ∈ body, t.kind ≠ .eof ∧ 0 < t.span.len
  first : ∀ t ∈ tokens.head?, t.span.lo = 0
  contiguous : tokens.IsChain fun t u => u.span.lo = t.span.hi
  last : ∀ t ∈ tokens.getLast?, t.span.hi = source.utf8ByteSize
  texts : String.join (tokens.map fun t => t.span.text source) = source
  /-- Every token starts and ends between characters, and knows its line, its column and its text. -/
  placed : ∀ t ∈ tokens, ∃ before text behind, source.toList = before ++ (text ++ behind) ∧
    t.span.text source = String.ofList text ∧ Covers t before text

theorem Lexed.tiles {source : String} (lexed : Lexed style [] source.toList tokens) :
    Tiles source tokens where
  ended := lexed.ended
  first := lexed.head
  contiguous := lexed.contiguous
  last := by
    intro t member
    rw [(lexed.covers_last t member).hi, List.append_nil, List.nil_append, ← String.utf8ByteSize_ofList,
      String.ofList_toList]
  texts := (lexed.texts rfl).trans String.ofList_toList
  placed := by
    intro t member
    obtain ⟨before, text, behind, split, covers, -⟩ := lexed.placed t member
    exact ⟨before, text, behind, split, covers.text split, covers⟩

theorem Tiles.hi_le {source : String} (tiles : Tiles source tokens) : ∀ t ∈ tokens, t.span.hi ≤ source.utf8ByteSize := by
  intro t member
  obtain ⟨before, text, behind, split, -, covers⟩ := tiles.placed t member
  have size := congrArg utf8Len split
  rw [← String.utf8ByteSize_ofList, String.ofList_toList, String.utf8Len_append, String.utf8Len_append] at size
  rw [covers.hi, String.utf8Len_append, size]
  omega

theorem Tiles.len_le {source : String} (tiles : Tiles source tokens) (t : Token) (member : t ∈ tokens) :
    t.span.len ≤ source.utf8ByteSize :=
  Nat.le_trans (Nat.le_add_left _ _) (tiles.hi_le t member)

/-- Only the text without any character is refused. -/
theorem tokenize_of_nonempty (style : CommentStyle) {source : String} (nonempty : source ≠ "") :
    tokenize style source = .ok (outcome ((Cursor.ofString source).steps style)) := by
  have notEmpty : source.isEmpty = false := by simpa [String.isEmpty_iff] using nonempty
  rw [tokenize, notEmpty]
  rfl

section

variable {style : CommentStyle} {source : String} {o : Outcome Error (List Token)}

theorem outcome_of_tokenize (tokenized : tokenize style source = .ok o) :
    o = outcome ((Cursor.ofString source).steps style) := by
  rw [tokenize] at tokenized
  split at tokenized
  next => cases tokenized
  next => exact (Except.ok.inj tokenized).symm

theorem lexed_of_tokenize (tokenized : tokenize style source = .ok o) :
    Lexed style [] source.toList o.value := by
  rw [outcome_of_tokenize tokenized]
  exact lexed_steps style [] source.toList

end

end FrontEnd.Lexer
