import FrontEnd.Proofs.Grammar.Terminal
import FrontEnd.Proofs.Lexing.Classes

/-!
# Scanning one token

What is scanned without an error is a terminal or stands between terminals, and every terminal is scanned
as itself where a blank or the end of the text follows it. The exception is the minus sign of a
subtraction, which is one only in front of a parenthesis.
-/

namespace FrontEnd.Lexer

open Terminal

/-! ## Runs of characters -/

theorem takeWhile_of_run {p : Char → Bool} {tail rest : List Char} (run : tail.all p = true)
    (ends : ∀ d ∈ rest.head?, p d = false) : (tail ++ rest).takeWhile p = tail := by
  rw [List.takeWhile_append_of_pos (List.all_eq_true.mp run)]
  cases rest with
  | nil => simp
  | cons d rest => simp [ends d rfl]

theorem scan_of_startsWord {style : CommentStyle} {c : Char} {ahead : List Char}
    (starts : startsWord c = true) : scan style c ahead = .word c ahead := by
  -- no character that is asked for before words starts one
  have others : ['"', marker, '-', '(', ')', '{', '}', '[', ']', ',', '.', ':', '+', '*', '/', '='].all
      (fun d => !startsWord d) = true := by decide
  have apart : ∀ d ∈ ['"', marker, '-', '(', ')', '{', '}', '[', ']', ',', '.', ':', '+', '*', '/', '='],
      c ≠ d := by
    rintro d member rfl
    have noWord := List.all_eq_true.mp others c member
    simp [starts] at noWord
  have noBlank : Text.isBlank c = false := by
    cases blank : Text.isBlank c with
    | false => rfl
    | true =>
      have continues := continuesWord_of_startsWord starts
      rw [continuesWord_of_isBlank blank] at continues
      cases continues
  have noDigit : c.isDigit = false := by
    cases digit : c.isDigit with
    | false => rfl
    | true =>
      have := toNat_of_isDigit digit
      have := toNat_of_startsWord starts
      omega
  simp only [List.mem_cons, List.not_mem_nil, or_false, forall_eq_or_imp, forall_eq] at apart
  simp [scan, Lexeme.sign, noBlank, noDigit, apart, starts]

theorem scan_word {style : CommentStyle} {c : Char} {tail rest : List Char}
    (starts : startsWord c = true) (continues : tail.all continuesWord = true)
    (ends : ∀ d ∈ rest.head?, continuesWord d = false) :
    scan style c (tail ++ rest) = .plain (.ofWord (String.ofList (c :: tail))) c tail := by
  rw [scan_of_startsWord starts, Lexeme.word, takeWhile_of_run continues ends]

theorem scan_integer {style : CommentStyle} {c : Char} {digits rest : List Char}
    (digit : c.isDigit = true) (run : digits.all Char.isDigit = true)
    (ends : ∀ d ∈ rest.head?, d.isDigit = false) :
    scan style c (digits ++ rest) = .plain .int c digits := by
  have noMinus : c ≠ '-' := by rintro rfl; cases digit
  have noQuote : c ≠ '"' := by rintro rfl; cases digit
  have noMarker : c ≠ marker := by rintro rfl; cases digit
  have noBlank : Text.isBlank c = false := by
    cases blank : Text.isBlank c with
    | false => rfl
    | true => rw [isDigit_of_isBlank blank] at digit; cases digit
  simp [scan, noBlank, noQuote, noMarker, digit, Lexeme.integer, takeWhile_of_run run ends, noMinus,
    Lexeme.plain]

theorem scan_negative {style : CommentStyle} {d : Char} {digits rest : List Char}
    (digit : d.isDigit = true) (run : digits.all Char.isDigit = true)
    (ends : ∀ d ∈ rest.head?, d.isDigit = false) :
    scan style '-' (d :: digits ++ rest) = .plain .int '-' (d :: digits) := by
  -- a digit behind the minus sign makes it neither an arrow nor a subtraction
  have noArrow : d ≠ '>' := by rintro rfl; cases digit
  have noParen : d ≠ '(' := by rintro rfl; cases digit
  have noBlank : Text.isBlank '-' = false := by decide
  have runAll : (d :: digits).all Char.isDigit = true := by simp [digit, run]
  have taken := takeWhile_of_run runAll ends
  simp only [List.cons_append] at taken ⊢
  simp [scan, noBlank, noArrow, noParen, Lexeme.integer, taken, Lexeme.plain, marker]

theorem scan_string {style : CommentStyle} {content rest : List Char} (noQuote : '"' ∉ content) :
    scan style '"' (content ++ '"' :: rest) = ⟨.string, content ++ ['"'], content, none⟩ := by
  have run : content.all (· ≠ '"') = true := by
    rw [List.all_eq_true]
    intro c member
    simp only [decide_eq_true_eq]
    rintro rfl
    exact noQuote member
  have taken : (content ++ '"' :: rest).takeWhile (· ≠ '"') = content :=
    takeWhile_of_run run (by simp)
  have noBlank : Text.isBlank '"' = false := by decide
  simp only [scan, noBlank, if_true, Lexeme.string, taken]
  simp

/-- The tokens of a single character that nothing behind them changes. -/
def marks : List (Char × TokenKind) :=
  [('(', .lParen), (')', .rParen), ('{', .lBrace), ('}', .rBrace), ('[', .lBracket), (']', .rBracket),
   (',', .comma), ('.', .dot), ('+', .operator), ('*', .operator), ('/', .operator), ('=', .operator)]

theorem scan_mark {style : CommentStyle} {c : Char} {kind : TokenKind} {ahead : List Char}
    (member : (c, kind) ∈ marks) : scan style c ahead = .plain kind c [] := by
  simp only [marks, List.mem_cons, List.not_mem_nil, or_false, Prod.mk.injEq] at member
  rcases member with h | h | h | h | h | h | h | h | h | h | h | h <;> obtain ⟨rfl, rfl⟩ := h <;> rfl

/-! ## The ways to scan -/

/-- Whether no token but an illegal character starts with `c`. -/
structure Strange (c : Char) : Prop where
  noBlank : Text.isBlank c = false
  noDigit : c.isDigit = false
  noWord : startsWord c = false
  noSign : c ∉ ['"', marker, '-', ':']
  noMark : ∀ kind, (c, kind) ∉ marks

section

variable {style : CommentStyle} {ahead : List Char}

theorem scan_quote : scan style '"' ahead = .string ahead := rfl

theorem scan_marker : scan style marker ahead = .comment style marker ahead := by
  have noBlank : Text.isBlank marker = false := by decide
  have noQuote : marker ≠ '"' := by decide
  simp [scan, noBlank, noQuote]

theorem scan_minus :
    scan style '-' ahead =
      if ahead.head? = some '>' then .plain .arrow '-' ['>']
      else if ahead.head? = some '(' then .plain .operator '-' []
      else .integer '-' ahead := rfl

theorem scan_colon :
    scan style ':' ahead =
      if ahead.head? = some ':' then .plain .doubleColon ':' [':'] else .plain .colon ':' [] := rfl

theorem scan_strange {c : Char} (strange : Strange c) : scan style c ahead = .plain .illegal c [] := by
  obtain ⟨noBlank, noDigit, noWord, noSign, noMark⟩ := strange
  have apart : ∀ d ∈ marks.map Prod.fst, c ≠ d := by
    rintro d member rfl
    obtain ⟨⟨_, kind⟩, inMarks, rfl⟩ := List.mem_map.mp member
    exact noMark kind inMarks
  simp only [marks, List.map_cons, List.map_nil, List.mem_cons, List.not_mem_nil, or_false, forall_eq_or_imp,
    forall_eq] at apart
  simp only [List.mem_cons, List.not_mem_nil, or_false, not_or] at noSign
  simp [scan, Lexeme.sign, noBlank, noDigit, noWord, noSign, apart]

/-- What is shown of each way to scan is shown of all that is scanned. -/
@[elab_as_elim]
theorem scan_cases (style : CommentStyle) {motive : Char → List Char → Prop}
    (blanks : ∀ c ahead, Text.isBlank c = true →
      scan style c ahead = .plain .whitespace c (ahead.takeWhile Text.isBlank) → motive c ahead)
    (string : ∀ ahead, scan style '"' ahead = .string ahead → motive '"' ahead)
    (comment : ∀ ahead, scan style marker ahead = .comment style marker ahead → motive marker ahead)
    (integer : ∀ c ahead, c.isDigit = true → scan style c ahead = .integer c ahead → motive c ahead)
    (arrow : ∀ ahead, scan style '-' ('>' :: ahead) = .plain .arrow '-' ['>'] → motive '-' ('>' :: ahead))
    (minus : ∀ ahead, ahead.head? = some '(' → scan style '-' ahead = .plain .operator '-' [] → motive '-' ahead)
    (negative : ∀ ahead, ahead.head? ≠ some '>' → ahead.head? ≠ some '(' →
      scan style '-' ahead = .integer '-' ahead → motive '-' ahead)
    (doubleColon : ∀ ahead, scan style ':' (':' :: ahead) = .plain .doubleColon ':' [':'] → motive ':' (':' :: ahead))
    (colon : ∀ ahead, ahead.head? ≠ some ':' → scan style ':' ahead = .plain .colon ':' [] → motive ':' ahead)
    (mark : ∀ c kind ahead, (c, kind) ∈ marks → scan style c ahead = .plain kind c [] → motive c ahead)
    (word : ∀ c ahead, startsWord c = true → scan style c ahead = .word c ahead → motive c ahead)
    (strange : ∀ c ahead, Strange c → scan style c ahead = .plain .illegal c [] → motive c ahead)
    (c : Char) (ahead : List Char) : motive c ahead := by
  by_cases isBlank : Text.isBlank c = true
  · exact blanks c ahead isBlank (by rw [scan, if_pos isBlank])
  by_cases isQuote : c = '"'
  · subst isQuote
    exact string ahead scan_quote
  by_cases isMarker : c = marker
  · subst isMarker
    exact comment ahead scan_marker
  by_cases isDigit : c.isDigit = true
  · exact integer c ahead isDigit (by rw [scan, if_neg isBlank, if_neg isQuote, if_neg isMarker, if_pos isDigit])
  by_cases isMinus : c = '-'
  · subst isMinus
    by_cases isArrow : ahead.head? = some '>'
    · obtain ⟨rest, rfl⟩ := List.head?_eq_some_iff.mp isArrow
      exact arrow rest rfl
    by_cases opens : ahead.head? = some '('
    · exact minus ahead opens (by rw [scan_minus, if_neg isArrow, if_pos opens])
    · exact negative ahead isArrow opens (by rw [scan_minus, if_neg isArrow, if_neg opens])
  by_cases isColon : c = ':'
  · subst isColon
    by_cases isDouble : ahead.head? = some ':'
    · obtain ⟨rest, rfl⟩ := List.head?_eq_some_iff.mp isDouble
      exact doubleColon rest rfl
    · exact colon ahead isDouble (by rw [scan_colon, if_neg isDouble])
  by_cases isMark : ∃ kind, (c, kind) ∈ marks
  · obtain ⟨kind, member⟩ := isMark
    exact mark c kind ahead member (scan_mark member)
  by_cases starts : startsWord c = true
  · exact word c ahead starts (scan_of_startsWord starts)
  · have isStrange : Strange c :=
      ⟨by simpa using isBlank, by simpa using isDigit, by simpa using starts,
        by simp [isQuote, isMarker, isMinus, isColon], not_exists.mp isMark⟩
    exact strange c ahead isStrange (scan_strange isStrange)

end

/-! ## Terminals -/

/-- Whether `t` in front of `rest` is scanned as itself. -/
def ScannedAs (style : CommentStyle) (t : Terminal) (rest : List Char) : Prop :=
  ∃ c tail, t.text = c :: tail ∧
    scan style c (tail ++ rest) = ⟨t.kind, tail, t.literal.toList, none⟩

theorem text_of_ne_string {t : Terminal} (h : t.kind ≠ .string) : t.text = t.literal.toList := by
  simp [text, h]

variable {style : CommentStyle} {rest : List Char}

theorem scannedAs_mark {t : Terminal} {c : Char} (member : (c, t.kind) ∈ marks)
    (written : t.literal.toList = [c]) : ScannedAs style t rest := by
  have notString : t.kind ≠ .string := by
    intro isString
    rw [isString] at member
    simp [marks] at member
  refine ⟨c, [], by rw [text_of_ne_string notString, written], ?_⟩
  rw [scan_mark member, written]
  rfl

theorem scannedAs_reserved {t : Terminal} (member : (t.literal, t.kind) ∈ TokenKind.reserved)
    (ends : ∀ d ∈ rest.head?, Text.isBlank d = true) : ScannedAs style t rest := by
  -- every entry of the table is a word, and is found under itself
  have words : ∀ p ∈ TokenKind.reserved, p.2 ≠ .string ∧ TokenKind.ofWord p.1 = p.2 ∧
      p.1.toList.head?.any startsWord = true ∧ p.1.toList.tail.all continuesWord = true := by
    decide +kernel
  obtain ⟨notString, kind, starts, continues⟩ := words _ member
  cases spelled : t.literal.toList with
  | nil => simp [spelled] at starts
  | cons c tail =>
    simp only [spelled, List.head?_cons, Option.any_some, List.tail_cons] at starts continues
    refine ⟨c, tail, by rw [text_of_ne_string notString, spelled], ?_⟩
    rw [scan_word starts continues fun d found => continuesWord_of_isBlank (ends d found), ← spelled,
      String.ofList_toList, kind, spelled]
    rfl

theorem scannedAs_identifier {literal : String} (isName : IsName literal)
    (ends : ∀ d ∈ rest.head?, Text.isBlank d = true) : ScannedAs style ⟨.identifier, literal⟩ rest := by
  obtain ⟨notReserved, c, tail, spelled, starts, continues⟩ := isName
  refine ⟨c, tail, spelled, ?_⟩
  rw [scan_word starts continues fun d found => continuesWord_of_isBlank (ends d found), ← spelled,
    String.ofList_toList, TokenKind.ofWord, notReserved, spelled]
  rfl

theorem scannedAs_int {literal : String} (isNumeral : IsNumeral literal)
    (ends : ∀ d ∈ rest.head?, Text.isBlank d = true) : ScannedAs style ⟨.int, literal⟩ rest := by
  have endsDigits : ∀ d ∈ rest.head?, d.isDigit = false := fun d found => isDigit_of_isBlank (ends d found)
  obtain ⟨digits, nonempty, run, spelled⟩ := isNumeral
  cases digits with
  | nil => exact absurd rfl nonempty
  | cons d digits =>
    simp only [List.all_cons, Bool.and_eq_true] at run
    rcases spelled with positive | negative
    · refine ⟨d, digits, positive, ?_⟩
      rw [scan_integer run.1 run.2 endsDigits, positive]
      rfl
    · refine ⟨'-', d :: digits, negative, ?_⟩
      rw [scan_negative run.1 run.2 endsDigits, negative]
      rfl

theorem scannedAs_string {literal : String} (noQuote : '"' ∉ literal.toList) :
    ScannedAs style ⟨.string, literal⟩ rest := by
  refine ⟨'"', literal.toList ++ ['"'], rfl, ?_⟩
  rw [List.append_assoc]
  exact scan_string noQuote

/-- What has to stand behind a terminal. -/
def Apart (t : Terminal) (rest : List Char) : Prop :=
  if t = minus then rest.head? = some '(' else ∀ d ∈ rest.head?, Text.isBlank d = true

theorem scannedAs_operator {op : Operator} (apart : Apart (ofOperator op) rest) :
    ScannedAs style (ofOperator op) rest := by
  cases op with
  | sub =>
    refine ⟨'-', [], rfl, ?_⟩
    -- the sign of a subtraction is told by the parenthesis behind it
    have opens : rest.head? = some '(' := apart
    have noBlank : Text.isBlank '-' = false := by decide
    simp [scan, noBlank, marker, opens, Lexeme.plain, ofOperator, Operator.symbol]
  | add | mul | div | eq => exact scannedAs_mark (by decide) rfl
  | and | or | not | lt | gt | lte | gte => exact scannedAs_reserved (by decide) apart

theorem scannedAs_sign {kind : TokenKind} (isSign : kind.spelling?.isSome)
    (ends : ∀ d ∈ rest.head?, Text.isBlank d = true) : ScannedAs style (sign kind) rest := by
  -- a colon is followed by a blank, and so it is not the first half of a double one
  have notColon : rest.head? ≠ some ':' := by
    intro colon
    have blank := ends ':' colon
    revert blank
    decide
  cases kind with
  | colon =>
    refine ⟨':', [], rfl, ?_⟩
    have noBlank : Text.isBlank ':' = false := by decide
    simp [scan, noBlank, marker, Lexeme.sign, notColon, Lexeme.plain, sign, TokenKind.spelling?]
  | doubleColon => exact ⟨':', [':'], rfl, rfl⟩
  | arrow => exact ⟨'-', ['>'], rfl, rfl⟩
  | lParen | rParen | lBrace | rBrace | lBracket | rBracket | comma | dot =>
    exact scannedAs_mark (by decide) rfl
  | operator | identifier | int | string | bool | whitespace | comment | illegal | eof =>
    simp [TokenKind.spelling?] at isSign
  | _ => exact scannedAs_reserved (by decide) ends

theorem scannedAs_of_lexical {t : Terminal} (lexical : t.Lexical) (apart : Apart t rest) :
    ScannedAs style t rest := by
  -- only for the minus sign it matters that a parenthesis follows, and not a blank
  by_cases isMinus : t = minus
  · subst isMinus
    exact scannedAs_operator apart
  · have ends : ∀ d ∈ rest.head?, Text.isBlank d = true := by simpa [Apart, isMinus] using apart
    obtain ⟨kind, literal⟩ := t
    cases kind with
    | identifier => exact scannedAs_identifier lexical ends
    | int => exact scannedAs_int lexical ends
    | string => exact scannedAs_string lexical
    | bool =>
      obtain ⟨value, same⟩ := lexical
      rw [same]
      cases value <;> exact scannedAs_reserved (by decide) ends
    | operator =>
      obtain ⟨op, same⟩ := lexical
      rw [same] at apart ⊢
      exact scannedAs_operator apart
    | whitespace | comment | illegal | eof => cases lexical
    | _ =>
      rw [show (⟨_, literal⟩ : Terminal) = sign _ from lexical]
      exact scannedAs_sign rfl ends

/-! ## What is scanned -/

theorem lexical_of_reserved : ∀ p ∈ TokenKind.reserved, (⟨p.2, p.1⟩ : Terminal).Lexical := by
  have boolean : ∀ value : Bool, (ofBool value).Lexical := fun value => ⟨value, rfl⟩
  have operator : ∀ op : Operator, (ofOperator op).Lexical := fun op => ⟨op, rfl⟩
  simp only [TokenKind.reserved, List.forall_mem_cons]
  exact ⟨rfl, rfl, rfl, rfl, rfl, rfl, rfl, rfl, rfl, rfl, rfl, rfl, rfl, rfl, rfl, boolean true,
    boolean false, operator .and, operator .or, operator .not, operator .lt, operator .gt,
    operator .lte, operator .gte, by simp⟩

theorem lexical_of_mark : ∀ p ∈ marks, (⟨p.2, String.ofList [p.1]⟩ : Terminal).Lexical := by
  have operator : ∀ op : Operator, (ofOperator op).Lexical := fun op => ⟨op, rfl⟩
  simp only [marks, List.forall_mem_cons]
  exact ⟨rfl, rfl, rfl, rfl, rfl, rfl, rfl, rfl, operator .add, operator .mul, operator .div, operator .eq, by simp⟩

/-- Whether a lexeme is a terminal, or stands between terminals. -/
def Lexeme.Sound (lexeme : Lexeme) : Prop :=
  lexeme.kind ≠ .eof ∧ (lexeme.error = none → lexeme.kind.isTrivia = false → lexeme.kind ≠ .illegal →
    (⟨lexeme.kind, String.ofList lexeme.literal⟩ : Terminal).Lexical)

theorem sound_of_lexical {lexeme : Lexeme}
    (lexical : (⟨lexeme.kind, String.ofList lexeme.literal⟩ : Terminal).Lexical) : lexeme.Sound := by
  refine ⟨?_, fun _ _ _ => lexical⟩
  intro eof
  rw [eof] at lexical
  exact lexical

theorem sound_word {c : Char} {ahead : List Char} (starts : startsWord c = true) :
    (Lexeme.word c ahead).Sound := by
  apply sound_of_lexical
  have spelled : (String.ofList (c :: ahead.takeWhile continuesWord)).toList = _ :=
    String.toList_ofList
  show (⟨.ofWord _, String.ofList (c :: ahead.takeWhile continuesWord)⟩ : Terminal).Lexical
  -- a word is looked up among the reserved ones, and is a name if it is none of them
  cases found : TokenKind.ofReserved? (String.ofList (c :: ahead.takeWhile continuesWord)) with
  | none =>
    rw [TokenKind.ofWord, found]
    exact ⟨found, c, _, spelled, starts, List.all_takeWhile⟩
  | some kind =>
    rw [TokenKind.ofWord, found]
    obtain ⟨before, behind, split, -⟩ := List.lookup_eq_some_iff.mp found
    have member := split ▸ List.mem_append_right before List.mem_cons_self
    exact lexical_of_reserved _ member

theorem sound_integer {c : Char} {ahead : List Char} (starts : c.isDigit = true ∨ c = '-') :
    (Lexeme.integer c ahead).Sound := by
  refine ⟨by simp [Lexeme.integer, Lexeme.plain], fun noError _ _ => ?_⟩
  show IsNumeral (String.ofList (c :: ahead.takeWhile Char.isDigit))
  rcases starts with digit | rfl
  · exact ⟨c :: ahead.takeWhile Char.isDigit, by simp, by simp [digit], .inl String.toList_ofList⟩
  -- a minus sign without a digit behind it is reported
  · have digits : ahead.takeWhile Char.isDigit ≠ [] := by
      intro none
      simp [Lexeme.integer, none] at noError
    exact ⟨_, digits, List.all_takeWhile, .inr String.toList_ofList⟩

theorem sound_string (ahead : List Char) : (Lexeme.string ahead).Sound := by
  have noQuote : '"' ∉ ahead.takeWhile (· ≠ '"') := by
    intro member
    have run : (ahead.takeWhile (· ≠ '"')).all (· ≠ '"') = true := List.all_takeWhile
    simpa using List.all_eq_true.mp run '"' member
  simp only [Lexeme.string]
  split
  · apply sound_of_lexical
    simpa [Terminal.Lexical] using noQuote
  · exact ⟨by simp, by simp⟩

theorem sound_of_isTrivia {lexeme : Lexeme} (isTrivia : lexeme.kind.isTrivia = true) : lexeme.Sound := by
  refine ⟨?_, fun _ notTrivia _ => ?_⟩
  · intro eof
    rw [eof] at isTrivia
    cases isTrivia
  · rw [isTrivia] at notTrivia
    cases notTrivia

theorem sound_scan (style : CommentStyle) (c : Char) (ahead : List Char) :
    (scan style c ahead).Sound := by
  cases c, ahead using scan_cases style with
  | blanks c ahead _ scanned => rw [scanned]; exact sound_of_isTrivia rfl
  | string ahead scanned => rw [scanned]; exact sound_string ahead
  | comment ahead scanned => rw [scanned]; exact sound_of_isTrivia rfl
  | integer c ahead digit scanned => rw [scanned]; exact sound_integer (.inl digit)
  | minus ahead _ scanned => rw [scanned]; exact sound_of_lexical ⟨.sub, rfl⟩
  | negative ahead _ _ scanned => rw [scanned]; exact sound_integer (.inr rfl)
  | mark c kind ahead member scanned => rw [scanned]; exact sound_of_lexical (lexical_of_mark _ member)
  | word c ahead starts scanned => rw [scanned]; exact sound_word starts
  | strange c ahead _ scanned => rw [scanned]; exact ⟨by simp [Lexeme.plain], fun _ _ legal => absurd rfl legal⟩
  | arrow ahead scanned | doubleColon ahead scanned | colon ahead _ scanned =>
    rw [scanned]
    exact sound_of_lexical rfl

end FrontEnd.Lexer
