import FrontEnd.Proofs.Lexing.Tiling

/-!
# How far the lexer counts

Lines, columns, the bytes of a token and the digits of an integer are counted in 32 bits. A text over which no counter
runs over is `Countable`, and these are just the texts over which all goes well that the lexer takes for granted
(`asserts_iff`). Their tokens tile them (`tokenize_tiles`), and every text of less than two to the 31 bytes is one of
them (`Countable.of_short`). A text that only consists of line breaks, or of digits, shows that there are others.
-/

namespace FrontEnd

namespace Lexer

/-! ## Places -/

theorem countsThrough_append (p : Position) (first second : List Char) :
    p.CountsThrough (first ++ second) ↔ p.CountsThrough first ∧ (p.afterAll first).CountsThrough second := by
  induction first generalizing p with
  | nil => exact (iff_of_eq (true_and _)).symm
  | cons c first inductionHypothesis =>
    rw [List.cons_append, Position.CountsThrough, Position.CountsThrough, inductionHypothesis, and_assoc]
    rfl

/-- The counters hold all places of a text if they hold those behind its beginnings. -/
theorem countsThrough_iff {p : Position} (held : p.Counted) (text : List Char) :
    p.CountsThrough text ↔ ∀ start, start <+: text → (p.afterAll start).Counted := by
  induction text generalizing p with
  | nil => exact iff_of_true trivial fun start isStart => List.prefix_nil.mp isStart ▸ held
  | cons c text inductionHypothesis =>
    constructor
    · rintro ⟨first, others⟩ start isStart
      cases start with
      | nil => exact held
      | cons d start =>
        obtain ⟨rfl, isRest⟩ := List.cons_prefix_cons.mp isStart
        exact (inductionHypothesis first).mp others start isRest
    · intro each
      have first : (p.after c).Counted := each [c] (List.cons_prefix_cons.mpr ⟨rfl, List.nil_prefix⟩)
      exact ⟨first, (inductionHypothesis first).mpr fun start isStart =>
        each (c :: start) (List.cons_prefix_cons.mpr ⟨rfl, isStart⟩)⟩

theorem countsThrough_start (text : List Char) :
    Position.start.CountsThrough text ↔
      1 + text.count '\n' < UInt32.size ∧ ∀ start, start <+: text → columnAfter start < UInt32.size := by
  rw [countsThrough_iff ⟨by decide, by decide⟩]
  constructor
  · intro each
    refine ⟨?_, fun start isStart => ?_⟩
    · simpa only [afterAll_start] using (each text List.prefix_rfl).line
    · simpa only [afterAll_start] using (each start isStart).column
  · rintro ⟨lines, columns⟩ start isStart
    rw [afterAll_start]
    exact ⟨Nat.lt_of_le_of_lt (Nat.add_le_add_left (isStart.sublist.count_le _) 1) lines, columns start isStart⟩

end Lexer

/-! ## Tokens -/

/-- Whether 32 bits are enough for the bytes of a token and, one of them being the sign, for the digits of an integer. -/
structure Token.Counted (t : Token) : Prop where
  short : t.span.len < UInt32.size
  digits : t.kind = .int → t.literal.toList.countP Char.isDigit < 2147483648

namespace Lexer

open String (utf8Len)

variable {style : CommentStyle} {source : String} {before text rest : List Char} {tokens : List Token}

/-- At the end of a text, nothing is taken for granted that could fail. -/
theorem asserts_of_nil {cursor : Cursor} (ended : cursor.rest = []) : cursor.Asserts style where
  lexeme _ _ more := by rw [ended] at more; cases more
  counted := by rw [Cursor.taken, ended]; trivial
  short := by simp [Cursor.read, ended, Position.span]

theorem counted_of_nil {cursor : Cursor} (ended : cursor.rest = []) : (cursor.read style).token.Counted where
  short := (asserts_of_nil ended).short
  digits isInt := by simp [Cursor.read, ended] at isInt

/-- What is taken for granted of a token is that its places and the token itself can be counted: the routine for
strings is entered at a quote in any case. -/
theorem asserts_of_cons {cursor : Cursor} {c : Char} {ahead : List Char} (more : cursor.rest = c :: ahead) :
    cursor.Asserts style ↔
      cursor.position.CountsThrough (cursor.taken style) ∧ (cursor.read style).token.Counted := by
  have token : (cursor.read style).token.kind = (scan style c ahead).kind ∧
      (cursor.read style).token.literal.toList = (scan style c ahead).literal := by
    simp [Cursor.read, more]
  constructor
  · intro asserts
    refine ⟨asserts.counted, asserts.short, fun isInt => ?_⟩
    rw [token.2]
    exact (asserts.lexeme c ahead more).digits (token.1 ▸ isInt)
  · rintro ⟨counted, short, digits⟩
    refine ⟨fun d behind same => ?_, counted, short⟩
    obtain ⟨rfl, rfl⟩ := List.cons.inj (more.symm.trans same)
    refine ⟨fun isString => ?_, fun isInt => ?_⟩
    · obtain ⟨behind, -, -, lexeme⟩ := isLexeme_scan style c ahead
      rw [isString] at lexeme
      obtain ⟨content, opens, -⟩ := lexeme.shape
      exact (List.cons.inj opens).1
    · rw [← token.2]
      exact digits (token.1.trans isInt)

/-- On the way to the end, what is taken for granted is that all places and all tokens can be counted. -/
theorem streamAsserts_steps (style : CommentStyle) (before rest : List Char) :
    (⟨Position.start.afterAll before, rest⟩ : Cursor).StreamAsserts style
        ((⟨Position.start.afterAll before, rest⟩ : Cursor).steps style).length ↔
      (Position.start.afterAll before).CountsThrough rest ∧
        ∀ t ∈ ((⟨Position.start.afterAll before, rest⟩ : Cursor).steps style).map Step.token, t.Counted := by
  generalize length : rest.length = n
  induction n using Nat.strongRecOn generalizing before rest with
  | ind n inductionHypothesis =>
    cases rest with
    | nil =>
      rw [steps_of_nil rfl, List.map_singleton, List.forall_mem_singleton]
      exact iff_of_true ⟨asserts_of_nil rfl, trivial⟩ ⟨trivial, counted_of_nil rfl⟩
    | cons c ahead =>
      obtain ⟨text, behind, taken, split, lexeme, -, next⟩ := read_lexeme style before c ahead
      have others := inductionHypothesis _ (length ▸ lexeme.shorter split) (before ++ text) behind rfl
      rw [← next] at others
      have places := countsThrough_append (Position.start.afterAll before) text behind
      rw [← split, ← afterAll_append] at places
      rw [steps_of_cons rfl, List.length_cons, Cursor.StreamAsserts, List.map_cons, List.forall_mem_cons, others,
        asserts_of_cons rfl, taken, places]
      exact and_and_and_comm

/-! ## Texts -/

/-- Whether 32 bits are enough for all that the lexer counts of a text with these tokens: its lines, the characters of
each of its lines, and the bytes and digits of each token. -/
structure Countable (source : String) (tokens : List Token) : Prop where
  lines : 1 + source.toList.count '\n' < UInt32.size
  columns : ∀ start, start <+: source.toList → columnAfter start < UInt32.size
  tokens : ∀ t ∈ tokens, t.Counted

theorem asserts_iff_steps (style : CommentStyle) (source : String) :
    Asserts style source ↔ Countable source (outcome ((Cursor.ofString source).steps style)).value := by
  have places := streamAsserts_steps style [] source.toList
  rw [show Position.start.afterAll [] = .start from rfl, countsThrough_start] at places
  refine places.trans ⟨fun ⟨⟨lines, columns⟩, each⟩ => ⟨lines, columns, each⟩, fun countable => ?_⟩
  exact ⟨⟨countable.lines, countable.columns⟩, countable.tokens⟩

/-- All that the lexer takes for granted is so just if no counter runs over. -/
theorem asserts_iff {o : Outcome Error (List Token)} (tokenized : tokenize style source = .ok o) :
    Asserts style source ↔ Countable source o.value := by
  rw [asserts_iff_steps, outcome_of_tokenize tokenized]

theorem length_le_utf8Len (text : List Char) : text.length ≤ utf8Len text := by
  induction text with
  | nil => exact Nat.le_refl 0
  | cons c text inductionHypothesis =>
    rw [List.length_cons, String.utf8Len_cons]
    exact Nat.add_le_add inductionHypothesis c.utf8Size_pos

theorem columnAfter_le_utf8Len (text : List Char) : columnAfter text ≤ utf8Len text :=
  calc columnAfter text
    _ ≤ text.reverse.length := (List.takeWhile_prefix _).length_le
    _ = text.length := List.length_reverse
    _ ≤ utf8Len text := length_le_utf8Len text

theorem utf8Len_toList (source : String) : utf8Len source.toList = source.utf8ByteSize := by
  rw [← String.utf8ByteSize_ofList, String.ofList_toList]

theorem countP_le_utf8ByteSize (source : String) (p : Char → Bool) : source.toList.countP p ≤ source.utf8ByteSize :=
  utf8Len_toList source ▸ Nat.le_trans List.countP_le_length (length_le_utf8Len source.toList)

/-- Where the bytes of a text are counted in 32 bits, only lines and digits can be too many. -/
theorem Countable.of_short (tiles : Tiles source tokens) (short : source.utf8ByteSize < UInt32.size)
    (lines : 1 + source.toList.count '\n' < UInt32.size)
    (digits : ∀ t ∈ tokens, t.kind = .int → t.literal.toList.countP Char.isDigit < 2147483648) :
    Countable source tokens where
  lines := lines
  columns := by
    rintro start ⟨behind, split⟩
    have size := congrArg utf8Len split
    rw [String.utf8Len_append, utf8Len_toList] at size
    have column := columnAfter_le_utf8Len start
    omega
  tokens t member := ⟨Nat.lt_of_le_of_lt (tiles.len_le t member) short, digits t member⟩

theorem Tiles.digits_le (tiles : Tiles source tokens) {t : Token} (member : t ∈ tokens) (isInt : t.kind = .int) :
    t.literal.toList.countP Char.isDigit ≤ source.toList.countP Char.isDigit := by
  obtain ⟨before, text, behind, split, -, covers⟩ := tiles.placed t member
  have literal : t.literal.toList = text := by simpa [Spells, isInt] using covers.literal
  rw [literal, split, List.countP_append, List.countP_append]
  omega

/-- A text of less than two to the 31 bytes is countable. -/
theorem Countable.of_small (tiles : Tiles source tokens) (small : source.utf8ByteSize < 2147483648) :
    Countable source tokens := by
  have lines := countP_le_utf8ByteSize source (· == '\n')
  have digits := countP_le_utf8ByteSize source Char.isDigit
  have limit : UInt32.size = 2 ^ 32 := rfl
  refine .of_short tiles (by omega) (by rw [List.count]; omega) fun t member isInt => ?_
  exact Nat.lt_of_le_of_lt (Nat.le_trans (tiles.digits_le member isInt) digits) small

theorem asserts_of_small (style : CommentStyle) (small : source.utf8ByteSize < 2147483648) : Asserts style source :=
  (asserts_iff_steps style source).mpr (.of_small (lexed_steps style [] source.toList).tiles small)

/-- Over a text with any character in it, the lexer comes to the end just if no counter runs over, and then its tokens
tile the text. -/
theorem tokenize_tiles (style : CommentStyle) {source : String} (nonempty : source ≠ "") :
    ∃ o, tokenize style source = .ok o ∧ (Asserts style source ↔ Countable source o.value) ∧
      (Asserts style source → Tiles source o.value) := by
  have tokenized := tokenize_of_nonempty style nonempty
  exact ⟨_, tokenized, asserts_iff tokenized, fun _ => (lexed_of_tokenize tokenized).tiles⟩

/-- An unclosed string runs over a line break, behind a character of two bytes. -/
theorem tokenize_tiles_unclosed :
    "é\n\"ab\n" ≠ "" ∧ Asserts .line "é\n\"ab\n" ∧
      ∃ o, tokenize .line "é\n\"ab\n" = .ok o ∧ (Asserts .line "é\n\"ab\n" ↔ Countable "é\n\"ab\n" o.value) ∧
        (Asserts .line "é\n\"ab\n" → Tiles "é\n\"ab\n" o.value) := by
  obtain ⟨o, tokenized, counts, tiles⟩ := tokenize_tiles .line (show "é\n\"ab\n" ≠ "" by decide)
  exact ⟨by decide, asserts_of_small .line (by decide), o, tokenized, counts, tiles⟩

/-! ## Texts with too much of something -/

/-- A text of line breaks. -/
def lineBreaks (count : Nat) : String :=
  String.ofList (List.replicate count '\n')

/-- A text of digits. -/
def zeros (count : Nat) : String :=
  String.ofList (List.replicate count '0')

theorem utf8Len_replicate (count : Nat) (c : Char) : utf8Len (List.replicate count c) = count * c.utf8Size := by
  induction count with
  | zero => simp
  | succ count inductionHypothesis =>
    rw [List.replicate_succ, String.utf8Len_cons, inductionHypothesis, Nat.succ_mul]

theorem utf8ByteSize_ofList_replicate (count : Nat) (c : Char) :
    (String.ofList (List.replicate count c)).utf8ByteSize = count * c.utf8Size := by
  rw [String.utf8ByteSize_ofList, utf8Len_replicate]

theorem ofList_replicate_ne {count : Nat} (positive : 0 < count) (c : Char) :
    String.ofList (List.replicate count c) ≠ "" := by
  intro empty
  have none := congrArg String.toList empty
  rw [String.toList_ofList, String.toList_empty, List.replicate_eq_nil_iff] at none
  omega

theorem not_asserts_lineBreaks {count : Nat} (many : UInt32.size ≤ 1 + count) : ¬ Asserts style (lineBreaks count) := by
  intro asserts
  have lines := ((asserts_iff_steps style (lineBreaks count)).mp asserts).lines
  rw [lineBreaks, String.toList_ofList, List.count_replicate_self] at lines
  omega

theorem not_asserts_zeros {count : Nat} (many : 2147483648 ≤ count) : ¬ Asserts style (zeros count) := by
  obtain ⟨more, rfl⟩ : ∃ more, count = more + 1 := ⟨count - 1, by omega⟩
  have rest : (Cursor.ofString (zeros (more + 1))).rest = '0' :: List.replicate more '0' := String.toList_ofList
  -- all of the text is one integer
  have scanned : scan style '0' (List.replicate more '0' ++ []) = .plain .int '0' (List.replicate more '0') :=
    scan_integer (by decide) (List.all_replicate.trans (by simp)) (by simp)
  have all : (List.replicate (more + 1) '0').countP Char.isDigit = more + 1 := by
    rw [List.countP_replicate, if_pos (by decide)]
  intro asserts
  rw [Asserts, steps_of_cons rest, List.length_cons] at asserts
  have digits := (asserts.1.lexeme _ _ rest).digits
  rw [← List.append_nil (List.replicate more '0'), scanned] at digits
  exact absurd (all ▸ digits rfl) (Nat.not_lt.mpr many)

/-- The last of so many line breaks is not counted any more. -/
theorem tokenize_tiles_overrun :
    ¬ (lineBreaks 4294967295 ≠ "" → Asserts .line (lineBreaks 4294967295) ∧
      ∃ o, tokenize .line (lineBreaks 4294967295) = .ok o ∧ Tiles (lineBreaks 4294967295) o.value) := by
  intro tiled
  have nonempty : lineBreaks 4294967295 ≠ "" := ofList_replicate_ne (by decide) '\n'
  exact not_asserts_lineBreaks (by decide) (tiled nonempty).1

end Lexer

end FrontEnd
