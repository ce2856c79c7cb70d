import FrontEnd.Proofs.Lexing.Scan

/-!
# Lexemes

The lexical grammar: which texts are tokens of which kind, given the text that follows. A run is always as
long as can be, a word that is reserved is no identifier, and the meaning of a minus sign or a colon hangs
on the next character. The scanner finds a lexeme at the start of every text (`isLexeme_scan`), and whatever
is a lexeme in front of the text that follows it is what the scanner finds (`IsLexeme.scan`).
-/

namespace FrontEnd.Lexer

/-- Whether no character of a class stands at the start of a text. -/
def Ends (p : Char → Bool) (rest : List Char) : Prop :=
  ∀ d ∈ rest.head?, p d = false

/-- A character that starts a word, and any number of those that continue one. -/
def IsWord (text : List Char) : Prop :=
  ∃ c run, text = c :: run ∧ startsWord c = true ∧ run.all continuesWord = true

/-- Whether `text` is a token of a kind, illegal characters apart, where `rest` follows. -/
inductive Legible (style : CommentStyle) (rest : List Char) : TokenKind → List Char → Prop
  | blanks {c : Char} {run : List Char} (blank : (c :: run).all Text.isBlank = true)
      (ends : Ends Text.isBlank rest) : Legible style rest .whitespace (c :: run)
  | markers {run : List Char} (isStyle : style = .markerRun) (each : run.all (· = marker) = true)
      (ends : Ends (· = marker) rest) : Legible style rest .comment (marker :: run)
  | remark {run : List Char} (isStyle : style = .line) (inLine : run.all (· ≠ '\n') = true)
      (ends : Ends (· ≠ '\n') rest) : Legible style rest .comment (marker :: run)
  | reserved {kind : TokenKind} {text : List Char} (isWord : IsWord text)
      (member : (String.ofList text, kind) ∈ TokenKind.reserved) (ends : Ends continuesWord rest) :
      Legible style rest kind text
  | identifier {text : List Char} (isWord : IsWord text)
      (notReserved : ∀ kind, (String.ofList text, kind) ∉ TokenKind.reserved)
      (ends : Ends continuesWord rest) : Legible style rest .identifier text
  | digits {d : Char} {run : List Char} (each : (d :: run).all Char.isDigit = true)
      (ends : Ends Char.isDigit rest) : Legible style rest .int (d :: run)
  | negative {d : Char} {run : List Char} (each : (d :: run).all Char.isDigit = true)
      (ends : Ends Char.isDigit rest) : Legible style rest .int ('-' :: d :: run)
  | loneMinus (noDigit : Ends Char.isDigit rest) (noArrow : rest.head? ≠ some '>')
      (noParen : rest.head? ≠ some '(') : Legible style rest .int ['-']
  | arrow : Legible style rest .arrow ['-', '>']
  /-- The sign of a subtraction. -/
  | minus (opens : rest.head? = some '(') : Legible style rest .operator ['-']
  | doubleColon : Legible style rest .doubleColon [':', ':']
  | colon (single : rest.head? ≠ some ':') : Legible style rest .colon [':']
  | string {content : List Char} (noQuote : '"' ∉ content) :
      Legible style rest .string ('"' :: (content ++ ['"']))
  | unclosed {content : List Char} (noQuote : '"' ∉ content) (atEnd : rest = []) :
      Legible style rest .string ('"' :: content)
  | mark {kind : TokenKind} {c : Char} (member : (c, kind) ∈ marks) : Legible style rest kind [c]

/-- Whether `text` is a token of a kind where `rest` follows. An illegal character is one that nothing else
starts with. -/
def IsLexeme (style : CommentStyle) (kind : TokenKind) (text rest : List Char) : Prop :=
  Legible style rest kind text ∨
    kind = .illegal ∧ ∃ c, text = [c] ∧
      ∀ other run behind, ¬ Legible style behind other (c :: run)

variable {style : CommentStyle} {kind : TokenKind} {rest : List Char}

/-! ## What the grammar says, the scanner does -/

theorem scan_blanks {c : Char} {run : List Char} (blank : (c :: run).all Text.isBlank = true)
    (ends : Ends Text.isBlank rest) : scan style c (run ++ rest) = .plain .whitespace c run := by
  simp only [List.all_cons, Bool.and_eq_true] at blank
  simp [scan, blank.1, takeWhile_of_run blank.2 ends]

theorem all_ne_of_notMem {c : Char} {text : List Char} (absent : c ∉ text) :
    text.all (· ≠ c) = true := by
  rw [List.all_eq_true]
  intro d member
  simpa using fun same : d = c => absent (same ▸ member)

theorem ofWord_of_mem {word : String} (member : (word, kind) ∈ TokenKind.reserved) :
    TokenKind.ofWord word = kind := by
  have found : ∀ p ∈ TokenKind.reserved, TokenKind.ofWord p.1 = p.2 := by decide +kernel
  exact found _ member

theorem ofWord_of_notMem {word : String} (absent : ∀ kind, (word, kind) ∉ TokenKind.reserved) :
    TokenKind.ofWord word = .identifier := by
  have none : TokenKind.ofReserved? word = none := by
    rw [TokenKind.ofReserved?, List.lookup_eq_none_iff]
    intro p member
    rw [bne_iff_ne]
    rintro rfl
    exact absent p.2 member
  simp [TokenKind.ofWord, none]

/-- A lexeme and what follows it are scanned as just that. -/
theorem Legible.scan {c : Char} {run : List Char} (legible : Legible style rest kind (c :: run)) :
    (Lexer.scan style c (run ++ rest)).kind = kind ∧ (Lexer.scan style c (run ++ rest)).tail = run := by
  cases legible with
  | blanks blank ends => rw [scan_blanks blank ends]; exact ⟨rfl, rfl⟩
  | markers isStyle each ends =>
    subst isStyle
    rw [scan_marker, Lexeme.comment, takeWhile_of_run each ends]
    exact ⟨rfl, rfl⟩
  | remark isStyle inLine ends =>
    subst isStyle
    rw [scan_marker, Lexeme.comment, takeWhile_of_run inLine ends]
    exact ⟨rfl, rfl⟩
  | reserved isWord member ends =>
    obtain ⟨_, _, ⟨⟩, starts, continues⟩ := isWord
    rw [scan_word starts continues ends]
    exact ⟨ofWord_of_mem member, rfl⟩
  | identifier isWord notReserved ends =>
    obtain ⟨_, _, ⟨⟩, starts, continues⟩ := isWord
    rw [scan_word starts continues ends]
    exact ⟨ofWord_of_notMem notReserved, rfl⟩
  | digits each ends =>
    simp only [List.all_cons, Bool.and_eq_true] at each
    rw [scan_integer each.1 each.2 ends]
    exact ⟨rfl, rfl⟩
  | negative each ends =>
    simp only [List.all_cons, Bool.and_eq_true] at each
    rw [scan_negative each.1 each.2 ends]
    exact ⟨rfl, rfl⟩
  | loneMinus noDigit noArrow noParen =>
    have none : ([] ++ rest).takeWhile Char.isDigit = [] := takeWhile_of_run rfl noDigit
    rw [List.nil_append] at none ⊢
    rw [scan_minus, if_neg noArrow, if_neg noParen, Lexeme.integer, none]
    exact ⟨rfl, rfl⟩
  | arrow => exact ⟨rfl, rfl⟩
  | minus opens =>
    rw [List.nil_append, scan_minus, if_neg (by simp [opens]), if_pos opens]
    exact ⟨rfl, rfl⟩
  | doubleColon => exact ⟨rfl, rfl⟩
  | colon single =>
    rw [List.nil_append, scan_colon, if_neg single]
    exact ⟨rfl, rfl⟩
  | string noQuote =>
    rw [List.append_assoc, List.singleton_append, scan_string noQuote]
    exact ⟨rfl, rfl⟩
  | unclosed noQuote atEnd =>
    have taken : (run ++ rest).takeWhile (· ≠ '"') = run :=
      takeWhile_of_run (all_ne_of_notMem noQuote) (by simp [atEnd])
    rw [scan_quote, Lexeme.string, taken]
    simp [atEnd]
  | mark member =>
    rw [scan_mark member]
    exact ⟨rfl, rfl⟩

/-! ## What the scanner does, the grammar says -/

/-- How the text of a token gives its literal: a string leaves its quotes out. -/
def Spells (kind : TokenKind) (text literal : List Char) : Prop :=
  if kind = .string then
    '"' ∉ literal ∧ (text = '"' :: (literal ++ ['"']) ∨ text = '"' :: literal)
  else literal = text

variable {c : Char} {ahead : List Char}

/-- Whether a lexeme agrees with the grammar where its first character is `c` and `ahead` follows that. -/
def Lexeme.Agrees (style : CommentStyle) (c : Char) (ahead : List Char) (lexeme : Lexeme) : Prop :=
  ∃ rest, ahead = lexeme.tail ++ rest ∧ Spells lexeme.kind (c :: lexeme.tail) lexeme.literal ∧
    (Legible style rest lexeme.kind (c :: lexeme.tail) ∨
      lexeme.kind = .illegal ∧ lexeme.tail = [])

theorem spells_plain {kind : TokenKind} (notString : kind ≠ .string) (text : List Char) :
    Spells kind text text := by
  simp [Spells, notString]

theorem split_run (p : Char → Bool) (text : List Char) :
    ∃ rest, text = text.takeWhile p ++ rest ∧ Ends p rest := by
  refine ⟨text.dropWhile p, List.takeWhile_append_dropWhile.symm, ?_⟩
  intro d found
  have stops := List.head?_dropWhile_not p text
  rwa [Option.mem_def.mp found] at stops

theorem ofWord_ne {kind : TokenKind} (notName : kind ≠ .identifier)
    (notReserved : ∀ p ∈ TokenKind.reserved, p.2 ≠ kind) (word : String) :
    TokenKind.ofWord word ≠ kind := by
  rw [TokenKind.ofWord]
  cases found : TokenKind.ofReserved? word with
  | none => exact notName.symm
  | some reserved =>
    obtain ⟨before, behind, split, -⟩ := List.lookup_eq_some_iff.mp found
    exact notReserved _ (split ▸ List.mem_append_right before List.mem_cons_self)

theorem legible_word {text : List Char} (isWord : IsWord text) (ends : Ends continuesWord rest) :
    Legible style rest (.ofWord (String.ofList text)) text := by
  cases found : TokenKind.ofReserved? (String.ofList text) with
  | none =>
    rw [TokenKind.ofWord, found]
    refine .identifier isWord (fun kind member => ?_) ends
    have apart := List.lookup_eq_none_iff.mp found _ member
    simp at apart
  | some kind =>
    rw [TokenKind.ofWord, found]
    obtain ⟨before, behind, split, -⟩ := List.lookup_eq_some_iff.mp found
    exact .reserved isWord (split ▸ List.mem_append_right before List.mem_cons_self) ends

theorem agrees_word (starts : startsWord c = true) : (Lexeme.word c ahead).Agrees style c ahead := by
  obtain ⟨rest, split, ends⟩ := split_run continuesWord ahead
  have isWord : IsWord (c :: ahead.takeWhile continuesWord) :=
    ⟨c, _, rfl, starts, List.all_takeWhile⟩
  exact ⟨rest, split, spells_plain (ofWord_ne (by decide) (by decide) _) _, .inl (legible_word isWord ends)⟩

theorem agrees_integer (digit : c.isDigit = true) : (Lexeme.integer c ahead).Agrees style c ahead := by
  obtain ⟨rest, split, ends⟩ := split_run Char.isDigit ahead
  have each : (c :: ahead.takeWhile Char.isDigit).all Char.isDigit = true := by simp [digit]
  exact ⟨rest, split, spells_plain (by simp [Lexeme.integer, Lexeme.plain]) _, .inl (.digits each ends)⟩

theorem agrees_negative (noArrow : ahead.head? ≠ some '>') (noParen : ahead.head? ≠ some '(') :
    (Lexeme.integer '-' ahead).Agrees style '-' ahead := by
  obtain ⟨rest, split, ends⟩ := split_run Char.isDigit ahead
  refine ⟨rest, split, spells_plain (by simp [Lexeme.integer, Lexeme.plain]) _, .inl ?_⟩
  have each : (ahead.takeWhile Char.isDigit).all Char.isDigit = true := List.all_takeWhile
  rw [Lexeme.integer]
  cases run : ahead.takeWhile Char.isDigit with
  | nil =>
    rw [run, List.nil_append] at split
    subst split
    exact .loneMinus ends noArrow noParen
  | cons d digits => exact .negative (run ▸ each) ends

theorem agrees_string : (Lexeme.string ahead).Agrees style '"' ahead := by
  obtain ⟨rest, split, ends⟩ := split_run (· ≠ '"') ahead
  have noQuote : '"' ∉ ahead.takeWhile (· ≠ '"') := by
    intro member
    have each : (ahead.takeWhile (· ≠ '"')).all (· ≠ '"') = true := List.all_takeWhile
    simpa using List.all_eq_true.mp each '"' member
  have length := congrArg List.length split
  rw [List.length_append] at length
  cases rest with
  | nil =>
    -- the quote that is missing would be the next character
    rw [List.append_nil] at split
    rw [Lexeme.string, if_neg (by rw [List.length_nil] at length; omega)]
    exact ⟨[], by simpa using split, ⟨noQuote, .inr rfl⟩, .inl (.unclosed noQuote rfl)⟩
  | cons d rest =>
    have quote : d = '"' := by simpa using ends d rfl
    subst quote
    rw [Lexeme.string, if_pos (by rw [List.length_cons] at length; omega)]
    exact ⟨rest, by simpa using split, ⟨noQuote, .inl rfl⟩, .inl (.string noQuote)⟩

theorem agrees_comment : (Lexeme.comment style marker ahead).Agrees style marker ahead := by
  cases style with
  | markerRun =>
    obtain ⟨rest, split, ends⟩ := split_run (· = marker) ahead
    exact ⟨rest, split, spells_plain (by simp [Lexeme.comment, Lexeme.plain]) _,
      .inl (.markers rfl List.all_takeWhile ends)⟩
  | line =>
    obtain ⟨rest, split, ends⟩ := split_run (· ≠ '\n') ahead
    exact ⟨rest, split, spells_plain (by simp [Lexeme.comment, Lexeme.plain]) _,
      .inl (.remark rfl List.all_takeWhile ends)⟩

theorem agrees_mark {kind : TokenKind} (member : (c, kind) ∈ marks) :
    (Lexeme.plain kind c []).Agrees style c ahead := by
  have notString : ∀ p ∈ marks, p.2 ≠ .string := by decide
  exact ⟨ahead, rfl, spells_plain (notString _ member) _, .inl (.mark member)⟩

theorem agrees_blanks (blank : Text.isBlank c = true) :
    (Lexeme.plain .whitespace c (ahead.takeWhile Text.isBlank)).Agrees style c ahead := by
  obtain ⟨rest, split, ends⟩ := split_run Text.isBlank ahead
  have each : (c :: ahead.takeWhile Text.isBlank).all Text.isBlank = true := by simp [blank]
  exact ⟨rest, split, spells_plain (by simp [Lexeme.plain]) _, .inl (.blanks each ends)⟩

theorem agrees_scan (style : CommentStyle) (c : Char) (ahead : List Char) :
    (scan style c ahead).Agrees style c ahead := by
  cases c, ahead using scan_cases style with
  | blanks c ahead blank scanned => rw [scanned]; exact agrees_blanks blank
  | string ahead scanned => rw [scanned]; exact agrees_string
  | comment ahead scanned => rw [scanned]; exact agrees_comment
  | integer c ahead digit scanned => rw [scanned]; exact agrees_integer digit
  | arrow ahead scanned => rw [scanned]; exact ⟨ahead, rfl, spells_plain (by simp [Lexeme.plain]) _, .inl .arrow⟩
  | minus ahead opens scanned =>
    rw [scanned]
    exact ⟨ahead, rfl, spells_plain (by simp [Lexeme.plain]) _, .inl (.minus opens)⟩
  | negative ahead noArrow noParen scanned => rw [scanned]; exact agrees_negative noArrow noParen
  | doubleColon ahead scanned =>
    rw [scanned]
    exact ⟨ahead, rfl, spells_plain (by simp [Lexeme.plain]) _, .inl .doubleColon⟩
  | colon ahead single scanned =>
    rw [scanned]
    exact ⟨ahead, rfl, spells_plain (by simp [Lexeme.plain]) _, .inl (.colon single)⟩
  | mark c kind ahead member scanned => rw [scanned]; exact agrees_mark member
  | word c ahead starts scanned => rw [scanned]; exact agrees_word starts
  | strange c ahead _ scanned =>
    rw [scanned]
    exact ⟨ahead, rfl, spells_plain (by simp [Lexeme.plain]) _, .inr ⟨rfl, rfl⟩⟩

/-! ## One lexeme for each text -/

theorem Legible.not_strange {run : List Char} (legible : Legible style rest kind (c :: run)) :
    ¬ Strange c := by
  rintro ⟨noBlank, noDigit, noWord, noSign, noMark⟩
  cases legible with
  | blanks blank => simp [noBlank] at blank
  | reserved isWord | identifier isWord =>
    obtain ⟨_, _, ⟨⟩, starts, -⟩ := isWord
    simp [noWord] at starts
  | digits each => simp [noDigit] at each
  | mark member => exact noMark _ member
  | _ => simp at noSign

theorem kind_string (ahead : List Char) : (Lexeme.string ahead).kind = .string := by
  rw [Lexeme.string]
  split <;> rfl

/-- Only a character that nothing else starts with is illegal. -/
theorem strange_of_scan (illegal : (scan style c ahead).kind = .illegal) : Strange c := by
  have legal : ∀ p ∈ marks, p.2 ≠ .illegal := by decide
  cases c, ahead using scan_cases style with
  | strange c ahead strange scanned => exact strange
  | string ahead scanned => rw [scanned, kind_string] at illegal; cases illegal
  | mark c kind ahead member scanned => rw [scanned] at illegal; exact absurd illegal (legal _ member)
  | word c ahead starts scanned => rw [scanned] at illegal; exact absurd illegal (ofWord_ne (by decide) (by decide) _)
  | _ => simp_all [Lexeme.plain, Lexeme.comment, Lexeme.integer]

theorem isLexeme_scan (style : CommentStyle) (c : Char) (ahead : List Char) :
    ∃ rest, ahead = (scan style c ahead).tail ++ rest ∧
      Spells (scan style c ahead).kind (c :: (scan style c ahead).tail) (scan style c ahead).literal ∧
      IsLexeme style (scan style c ahead).kind (c :: (scan style c ahead).tail) rest := by
  obtain ⟨rest, split, spells, legible | ⟨illegal, single⟩⟩ := agrees_scan style c ahead
  · exact ⟨rest, split, spells, .inl legible⟩
  · refine ⟨rest, split, spells, .inr ⟨illegal, c, by rw [single], fun other run behind legible => ?_⟩⟩
    -- whether a character is illegal does not hang on what follows it
    exact legible.not_strange (strange_of_scan illegal)

theorem IsLexeme.scan {run : List Char} (lexeme : IsLexeme style kind (c :: run) rest) :
    (Lexer.scan style c (run ++ rest)).kind = kind ∧ (Lexer.scan style c (run ++ rest)).tail = run := by
  obtain legible | ⟨rfl, _, ⟨⟩, strange⟩ := lexeme
  · exact legible.scan
  · obtain ⟨_, -, -, legible | illegal⟩ := agrees_scan style c ([] ++ rest)
    · exact absurd legible (strange _ _ _)
    · exact illegal

theorem IsLexeme.nonempty {text : List Char} (lexeme : IsLexeme style kind text rest) : text ≠ [] := by
  obtain legible | ⟨-, c, rfl, -⟩ := lexeme
  · cases legible with
    | reserved isWord | identifier isWord => obtain ⟨c, run, rfl, -⟩ := isWord; simp
    | _ => simp
  · simp

theorem IsLexeme.shorter {whole text : List Char} (lexeme : IsLexeme style kind text rest)
    (split : whole = text ++ rest) : rest.length < whole.length := by
  have positive := List.length_pos_iff.mpr lexeme.nonempty
  rw [split, List.length_append]
  omega

/-! ## What lexemes of a kind look like -/

/-- The kinds whose lexemes can be of different spellings, and that of the end mark, which has none. -/
def shaped : List TokenKind :=
  [.whitespace, .comment, .identifier, .int, .string, .eof]

/-- What a lexeme of a kind looks like where `rest` follows. Of a reserved word or a mark there is no more to say than
which one it is. -/
def Shape (style : CommentStyle) (rest : List Char) : TokenKind → List Char → Prop
  | .whitespace, text => text.all Text.isBlank = true
  | .comment, text => ∃ run, text = marker :: run ∧
      (style = .markerRun ∧ (∀ c ∈ run, c = marker) ∨ style = .line ∧ ∀ c ∈ run, c ≠ '\n')
  | .identifier, text => IsName (String.ofList text)
  | .int, text => text = ['-'] ∨ IsNumeral (String.ofList text)
  | .string, text => ∃ content, text = '"' :: content ∧ ('"' ∉ content → rest = [])
  | .eof, _ => False
  | _, _ => True

theorem shape_of_notMem {text : List Char} (fixed : kind ∉ shaped) : Shape style rest kind text := by
  cases kind <;> first | exact True.intro | exact absurd (by decide) fixed

theorem Legible.shape {text : List Char} (legible : Legible style rest kind text) : Shape style rest kind text := by
  have words : ∀ p ∈ TokenKind.reserved, p.2 ∉ shaped := by decide
  have signs : ∀ p ∈ marks, p.2 ∉ shaped := by decide
  cases legible with
  | blanks blank => exact blank
  | markers isStyle each => exact ⟨_, rfl, .inl ⟨isStyle, by simpa using each⟩⟩
  | remark isStyle inLine => exact ⟨_, rfl, .inr ⟨isStyle, by simpa using inLine⟩⟩
  | reserved _ member => exact shape_of_notMem (words _ member)
  | identifier isWord notReserved =>
    obtain ⟨c, run, rfl, starts, continues⟩ := isWord
    refine ⟨List.lookup_eq_none_iff.mpr ?_, c, run, String.toList_ofList, starts, continues⟩
    rintro ⟨word, kind⟩ member
    rw [bne_iff_ne]
    rintro rfl
    exact notReserved kind member
  | digits each => exact .inr ⟨_, List.cons_ne_nil _ _, each, .inl String.toList_ofList⟩
  | negative each => exact .inr ⟨_, List.cons_ne_nil _ _, each, .inr String.toList_ofList⟩
  | loneMinus => exact .inl rfl
  | string => exact ⟨_, rfl, fun noQuote => absurd (List.mem_append_right _ List.mem_cons_self) noQuote⟩
  | unclosed _ atEnd => exact ⟨_, rfl, fun _ => atEnd⟩
  | mark member => exact shape_of_notMem (signs _ member)
  | arrow | minus | doubleColon | colon => exact trivial

/-- Whatever can be said of the lexemes of a kind is said of each of them. -/
theorem IsLexeme.shape {text : List Char} (lexeme : IsLexeme style kind text rest) : Shape style rest kind text := by
  obtain legible | ⟨rfl, -⟩ := lexeme
  · exact legible.shape
  · exact trivial

theorem IsLexeme.ne_eof {text : List Char} (lexeme : IsLexeme style kind text rest) : kind ≠ .eof := by
  rintro rfl
  exact lexeme.shape

/-- There is no minus sign in a word. -/
theorem IsWord.notMem_minus {text : List Char} (isWord : IsWord text) : '-' ∉ text := by
  obtain ⟨c, run, rfl, starts, continues⟩ := isWord
  have word : ∀ d ∈ c :: run, continuesWord d = true :=
    List.forall_mem_cons.mpr ⟨continuesWord_of_startsWord starts, List.all_eq_true.mp continues⟩
  intro member
  have bound : 48 ≤ '-'.toNat := toNat_of_continuesWord (word '-' member)
  exact absurd bound (by decide)

end FrontEnd.Lexer
