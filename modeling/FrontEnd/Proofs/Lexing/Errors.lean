import FrontEnd.Proofs.Lexing.Tiling

/-!
# Errors of the lexer

The lexer reports an error where it makes a token from less than it should have: an integer without a digit, or a
string without its closing quote. Both can be seen of the token afterwards. An integer has the literal `-` only if
nothing but the minus sign was there to be read; and of a string, the text is its literal behind one quote only if
there was no other. So the errors of a text are told by its tokens alone (`errors_steps`), and as a string that is
not closed takes all that is left, at most one of them is of that kind and it is the last (`Lexed.faults`).
-/

namespace FrontEnd

/-! ## Tokens at fault -/

namespace Token

/-- What is reported of an integer that is a minus sign only. -/
def loneMinus? (t : Token) : Option (Located Lexer.Error) :=
  if t.kind = .int ∧ t.literal = "-" then some ⟨.loneMinus, { t.span with len := 1 }⟩ else none

/-- What is reported of a string without a second quote. -/
def unclosed? (source : String) (t : Token) : Option (Located Lexer.Error) :=
  if t.kind = .string ∧ t.span.text source = "\"" ++ t.literal then some ⟨.unclosedString, t.span⟩ else none

/-- What is reported of a token of a text. -/
def fault? (source : String) (t : Token) : Option (Located Lexer.Error) :=
  t.loneMinus?.or (t.unclosed? source)

end Token

namespace Lexer

open String (utf8Len)

variable {style : CommentStyle} {source : String} {before rest : List Char}

/-! ## One lexeme -/

/-- What is wrong with a lexeme that starts with `c`, as far as it can be seen of the lexeme. -/
def Lexeme.fault? (c : Char) (lexeme : Lexeme) : Option Error :=
  if lexeme.kind = .int ∧ lexeme.literal = ['-'] then some .loneMinus
  else if lexeme.kind = .string ∧ c :: lexeme.tail = '"' :: lexeme.literal then some .unclosedString
  else none

/-- Whether what is reported of a lexeme can be seen of it. -/
def Lexeme.Reported (c : Char) (lexeme : Lexeme) : Prop :=
  lexeme.error = lexeme.fault? c

theorem reported_plain {kind : TokenKind} (notInt : kind ≠ .int) (notString : kind ≠ .string) (c : Char)
    (tail : List Char) : (Lexeme.plain kind c tail).Reported c := by
  simp [Lexeme.Reported, Lexeme.fault?, Lexeme.plain, notInt, notString]

theorem reported_integer (c : Char) (ahead : List Char) : (Lexeme.integer c ahead).Reported c := by
  simp [Lexeme.Reported, Lexeme.fault?, Lexeme.integer, Lexeme.plain]

theorem reported_string (ahead : List Char) : (Lexeme.string ahead).Reported '"' := by
  simp only [Lexeme.Reported, Lexeme.string]
  split <;> simp [Lexeme.fault?]

theorem reported_word (c : Char) (ahead : List Char) : (Lexeme.word c ahead).Reported c :=
  reported_plain (ofWord_ne (by decide) (by decide) _) (ofWord_ne (by decide) (by decide) _) c _

theorem reported_scan (style : CommentStyle) (c : Char) (ahead : List Char) :
    (scan style c ahead).Reported c := by
  have others : ∀ p ∈ marks, p.2 ≠ .int ∧ p.2 ≠ .string := by decide
  cases c, ahead using scan_cases style with
  | string ahead scanned => rw [scanned]; exact reported_string ahead
  | integer c ahead _ scanned => rw [scanned]; exact reported_integer c ahead
  | negative ahead _ _ scanned => rw [scanned]; exact reported_integer '-' ahead
  | mark c kind ahead member scanned =>
    rw [scanned]
    exact reported_plain (others _ member).1 (others _ member).2 c []
  | word c ahead _ scanned => rw [scanned]; exact reported_word c ahead
  | blanks c ahead _ scanned | comment ahead scanned | arrow ahead scanned | minus ahead _ scanned
  | doubleColon ahead scanned | colon ahead _ scanned | strange c ahead _ scanned =>
    rw [scanned]
    exact reported_plain (by decide) (by decide) _ _

/-! ## All tokens -/

/-- The token of a lexeme shows what the lexeme shows. -/
theorem fault?_token {c : Char} {lexeme : Lexeme} {span : Span}
    (text : span.text source = String.ofList (c :: lexeme.tail)) :
    (lexeme.fault? c).map (fun e => (⟨e, e.region span⟩ : Located Error)) =
      Token.fault? source ⟨lexeme.kind, String.ofList lexeme.literal, span⟩ := by
  have minus : String.ofList lexeme.literal = "-" ↔ lexeme.literal = ['-'] := by
    rw [← String.toList_inj, String.toList_ofList]
    rfl
  have quote : String.ofList (c :: lexeme.tail) = "\"" ++ String.ofList lexeme.literal ↔
      c :: lexeme.tail = '"' :: lexeme.literal := by
    rw [← String.toList_inj, String.toList_append, String.toList_ofList, String.toList_ofList,
      String.toList_ofList]
    rfl
  simp only [Lexeme.fault?, Token.fault?, Token.loneMinus?, Token.unclosed?, text, minus, quote]
  split
  · rfl
  · split <;> rfl

/-- The step of the lexer: what is reported of a token can be seen of it. -/
theorem error_read (style : CommentStyle) (split : source.toList = before ++ rest) :
    ((⟨Position.start.afterAll before, rest⟩ : Cursor).read style).error =
      ((⟨Position.start.afterAll before, rest⟩ : Cursor).read style).token.fault? source := by
  cases rest with
  | nil => rfl
  | cons c ahead =>
    obtain ⟨behind, tail, spells, -⟩ := isLexeme_scan style c ahead
    have splitToken : source.toList = before ++ ((c :: (scan style c ahead).tail) ++ behind) := by
      rw [split, List.cons_append, ← tail]
    have covers : Covers _ before _ := covers_span spells
    have text := covers.text splitToken
    have reported : (scan style c ahead).error = (scan style c ahead).fault? c := reported_scan style c ahead
    simp only [Cursor.read, ← afterAll_append, reported]
    exact fault?_token text

/-- The errors of a text are told by its tokens. -/
theorem errors_steps (style : CommentStyle) (split : source.toList = before ++ rest) :
    ((⟨Position.start.afterAll before, rest⟩ : Cursor).steps style).filterMap Step.error =
      (((⟨Position.start.afterAll before, rest⟩ : Cursor).steps style).map Step.token).filterMap
        (Token.fault? source) := by
  -- by induction on what is left of the text
  generalize length : rest.length = n
  induction n using Nat.strongRecOn generalizing before rest with
  | ind n inductionHypothesis =>
    have first := error_read style split
    cases rest with
    | nil => rw [steps_of_nil rfl, List.map_singleton, List.filterMap_cons, List.filterMap_cons, first]; rfl
    | cons c ahead =>
      obtain ⟨text, behind, -, tail, lexeme, -, next⟩ := read_lexeme style before c ahead
      have splitBehind : source.toList = (before ++ text) ++ behind := by
        rw [split, tail, List.append_assoc]
      have others := inductionHypothesis _ (length ▸ lexeme.shorter tail) splitBehind rfl
      rw [steps_of_cons rfl, List.map_cons, List.filterMap_cons, List.filterMap_cons, first, next, others]

theorem errors_of_tokenize {o : Outcome Error (List Token)} (tokenized : tokenize style source = .ok o) :
    o.errors = o.value.filterMap (Token.fault? source) := by
  rw [outcome_of_tokenize tokenized]
  exact errors_steps style (List.nil_append source.toList).symm

/-! ## Integers and strings -/

theorem Lexed.isNumeral {tokens : List Token} (lexed : Lexed style before rest tokens) {t : Token}
    (member : t ∈ tokens) (isInt : t.kind = .int) (notMinus : t.literal ≠ "-") : IsNumeral t.literal := by
  obtain ⟨_, _, -, lexeme⟩ := lexed.isLexeme member (by simp [isInt]) (by simp [isInt])
  rw [isInt] at lexeme
  obtain minus | numeral := lexeme.shape
  · exact absurd (String.toList_injective minus) notMinus
  · rwa [String.ofList_toList] at numeral

theorem rest_of_unclosed {t : Token} {text behind : List Char} (covers : Covers t before text)
    (lexeme : IsLexeme style t.kind text behind) (split : source.toList = before ++ (text ++ behind))
    {e : Located Error} (unclosed : t.unclosed? source = some e) : t.kind = .string ∧ behind = [] := by
  obtain ⟨⟨isString, read⟩, -⟩ := Option.ite_some_none_eq_some.mp unclosed
  have literal := covers.literal
  rw [isString] at lexeme literal
  rw [covers.text split, ← String.toList_inj, String.toList_ofList, String.toList_append] at read
  -- where a string has no other quote than the first, nothing is left behind it
  rw [read] at lexeme
  obtain ⟨_, ⟨⟩, atEnd⟩ := lexeme.shape
  exact ⟨isString, atEnd literal.1⟩

theorem Lexed.length_of_nil {tokens : List Token} (lexed : Lexed style before [] tokens) : tokens.length = 1 := by
  cases lexed with
  | nil => rfl
  | cons split lexeme => exact absurd (List.append_eq_nil_iff.mp split.symm).1 lexeme.nonempty

/-- A string that is not closed is the last token before the end mark, so it is reported behind all others. -/
theorem Lexed.faults {body : List Token} {last : Token} (lexed : Lexed style before rest (body ++ [last]))
    (split : source.toList = before ++ rest) :
    (body ++ [last]).filterMap (Token.fault? source) =
      body.filterMap Token.loneMinus? ++ (body.getLast?.bind (Token.unclosed? source)).toList := by
  induction body generalizing before rest with
  | nil =>
    cases lexed with
    | nil isEof => simp [Token.fault?, Token.loneMinus?, Token.unclosed?, isEof]
    | cons _ _ _ tail =>
      obtain ⟨body, mark, none, -⟩ := tail.ended
      simp at none
  | cons t body inductionHypothesis =>
    rw [List.cons_append] at lexed ⊢
    generalize whole : body ++ [last] = tokens at lexed
    cases lexed with
    | nil => simp at whole
    | cons splitToken lexeme covers tail =>
      subst whole
      have splitBehind := split.trans (congrArg (before ++ ·) splitToken)
      have others := inductionHypothesis tail (splitBehind.trans (List.append_assoc ..).symm)
      rw [List.filterMap_cons, others, Token.fault?]
      cases unclosed : t.unclosed? source with
      | some e =>
        obtain ⟨isString, rfl⟩ := rest_of_unclosed covers lexeme splitBehind unclosed
        obtain rfl : body = [] := by simpa using tail.length_of_nil
        simp [Token.loneMinus?, isString, unclosed]
      | none =>
        have behind : (t :: body).getLast?.bind (Token.unclosed? source) =
            body.getLast?.bind (Token.unclosed? source) := by
          cases body with
          | nil => exact unclosed
          | cons u body => rfl
        rw [behind, Option.or_none, List.filterMap_cons]
        cases t.loneMinus? <;> rfl

theorem Lexed.lo_le {tokens : List Token} (lexed : Lexed style before rest tokens) :
    ∀ t ∈ tokens, utf8Len before ≤ t.span.lo := by
  induction lexed with
  | nil _ covers => exact List.forall_mem_singleton.mpr covers.lo.ge
  | cons _ _ covers _ inductionHypothesis =>
    refine List.forall_mem_cons.mpr ⟨covers.lo.ge, fun u member => ?_⟩
    have later := inductionHypothesis u member
    rw [String.utf8Len_append] at later
    exact Nat.le_of_add_right_le later

theorem Lexed.rising {tokens : List Token} (lexed : Lexed style before rest tokens) :
    tokens.Pairwise fun t u => t.span.lo < u.span.lo := by
  induction lexed with
  | nil => exact List.pairwise_singleton _ _
  | @cons before _ text _ t _ _ lexeme covers tail inductionHypothesis =>
    refine List.pairwise_cons.mpr ⟨fun u member => Nat.lt_of_lt_of_le ?_ (tail.lo_le u member), inductionHypothesis⟩
    have positive : 0 < utf8Len text := Nat.pos_of_ne_zero (mt String.utf8Len_eq_zero.mp lexeme.nonempty)
    rw [covers.lo, String.utf8Len_append]
    exact Nat.lt_add_of_pos_right positive

/-- What is reported of a token is reported at its region. -/
theorem Lexed.span_of_fault? {tokens : List Token} (lexed : Lexed style before rest tokens) {t : Token}
    (member : t ∈ tokens) {e : Located Error} (fault : t.fault? source = some e) : e.span = t.span := by
  rcases Option.or_eq_some_iff.mp fault with minus | ⟨-, unclosed⟩
  · obtain ⟨⟨isInt, isMinus⟩, rfl⟩ := Option.ite_some_none_eq_some.mp minus
    -- the error is one byte long, and so is the token, for it covers its literal
    obtain ⟨_, _, covers, -⟩ := lexed.isLexeme member (by simp [isInt]) (by simp [isInt])
    have len : t.span.len = 1 := covers.len.trans (by rw [isMinus]; rfl)
    rw [← len]
  · obtain ⟨-, rfl⟩ := Option.ite_some_none_eq_some.mp unclosed
    rfl

theorem span_of_mem_errors {o : Outcome Error (List Token)} (tokenized : tokenize style source = .ok o) :
    ∀ e ∈ o.errors, ∃ t ∈ o.value, e.span = t.span := by
  intro e found
  rw [errors_of_tokenize tokenized] at found
  obtain ⟨t, member, fault⟩ := List.mem_filterMap.mp found
  exact ⟨t, member, (lexed_of_tokenize tokenized).span_of_fault? member fault⟩

/-- The errors of the lexer are those of its tokens, in the order of the text: one for each integer that is a minus
sign only, at that sign, and, over all of it, one for the last token if that is a string whose text is its literal
behind a quote. Every other integer is a numeral. -/
theorem tokenize_errors (style : CommentStyle) (source : String) :
    ∃ o body last, tokenize style source = (if source = "" then .error .emptySource else .ok o) ∧
      o.value = body ++ [last] ∧ last.kind = .eof ∧ (∀ t ∈ body, t.kind ≠ .eof) ∧
      o.errors = body.filterMap Token.loneMinus? ++ (body.getLast?.bind (Token.unclosed? source)).toList ∧
      o.errors.Pairwise (fun e f => e.span.lo < f.span.lo) ∧
      ∀ t ∈ body, t.kind = .int → ⟨.loneMinus, { t.span with len := 1 }⟩ ∉ o.errors → IsNumeral t.literal := by
  have lexed : Lexed style [] source.toList (outcome ((Cursor.ofString source).steps style)).value :=
    lexed_steps style [] source.toList
  have told : (outcome ((Cursor.ofString source).steps style)).errors =
      (outcome ((Cursor.ofString source).steps style)).value.filterMap (Token.fault? source) :=
    errors_steps style (List.nil_append source.toList).symm
  obtain ⟨body, last, whole, isEof, inside⟩ := lexed.ended
  have faults := (whole ▸ lexed).faults (List.nil_append _).symm
  rw [← whole, ← told] at faults
  refine ⟨outcome ((Cursor.ofString source).steps style), body, last, by simp only [tokenize, String.isEmpty_iff],
    whole, isEof, fun t member => (inside t member).1, faults, ?order, ?numerals⟩
  case order =>
    rw [told, List.pairwise_filterMap]
    refine lexed.rising.imp_of_mem fun {t u} member memberLater before e fault f faultLater => ?_
    rw [lexed.span_of_fault? member fault, lexed.span_of_fault? memberLater faultLater]
    exact before
  case numerals =>
    intro t member isInt clean
    refine lexed.isNumeral (whole ▸ List.mem_append_left _ member) isInt fun minus => clean ?_
    rw [faults]
    exact List.mem_append_left _ (List.mem_filterMap.mpr ⟨t, member, if_pos ⟨isInt, minus⟩⟩)

end Lexer

end FrontEnd
