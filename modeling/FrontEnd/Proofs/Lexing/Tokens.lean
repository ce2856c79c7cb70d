import FrontEnd.Proofs.Grammar.Layout
import FrontEnd.Proofs.Lexing.Scan

/-!
# The tokens of a text

Whatever the text, its tokens end with the only end mark among them, and those that were read without an
error are terminals or stand between terminals. And if terminals are laid out in a text, then they are its
tokens.
-/

namespace FrontEnd.Lexer

open Terminal

variable {style : CommentStyle}

/-- The terminals among some tokens: all but blanks, comments and end marks. -/
def significant (tokens : List Token) : List Terminal :=
  (tokens.filter fun t => !(t.kind.isTrivia || t.isEof)).map Token.terminal

theorem significant_append (first second : List Token) :
    significant (first ++ second) = significant first ++ significant second := by
  simp [significant]

/-! ## Steps -/

theorem steps_of_nil {cursor : Cursor} (h : cursor.rest = []) :
    cursor.steps style = [cursor.read style] := by
  unfold Cursor.steps
  split
  next => rfl
  next c ahead found => rw [h] at found; cases found

theorem steps_of_cons {cursor : Cursor} {c : Char} {ahead : List Char} (h : cursor.rest = c :: ahead) :
    cursor.steps style = cursor.read style :: (cursor.read style).next.steps style := by
  rw [Cursor.steps]
  split
  next found => rw [h] at found; cases found
  next => rfl

/-- Whether a token that was read without an error is a terminal or stands between terminals. -/
def Step.Sound (step : Step) : Prop :=
  step.error = none → step.token.kind.isTrivia = false → step.token.kind ≠ .illegal →
    step.token.terminal.Lexical

theorem sound_read {cursor : Cursor} {c : Char} {ahead : List Char} (h : cursor.rest = c :: ahead) :
    (cursor.read style).token.kind ≠ .eof ∧ (cursor.read style).Sound := by
  obtain ⟨notEof, lexical⟩ := sound_scan style c ahead
  simp only [Cursor.read, h]
  refine ⟨notEof, fun noError => lexical ?_⟩
  simpa using noError

theorem steps_end (style : CommentStyle) (cursor : Cursor) : ∃ body last, cursor.steps style = body ++ [last] ∧
    (∀ step ∈ body, step.token.kind ≠ .eof ∧ step.Sound) ∧ last.token.kind = .eof := by
  -- by induction on what is left of the text, which every step makes shorter
  generalize length : cursor.rest.length = n
  induction n using Nat.strongRecOn generalizing cursor with
  | ind n inductionHypothesis =>
    cases found : cursor.rest with
    | nil => exact ⟨[], _, steps_of_nil found, by simp, by simp [Cursor.read, found]⟩
    | cons c ahead =>
      have shorter := cursor.length_rest_read style found
      obtain ⟨body, last, steps, sound, isEof⟩ :=
        inductionHypothesis _ (by omega) (cursor.read style).next rfl
      refine ⟨cursor.read style :: body, last, ?_, ?_, isEof⟩
      · rw [steps_of_cons found, steps, List.cons_append]
      · simpa using ⟨sound_read found, sound⟩

/-! ## Texts of terminals -/

/-- Whether a text is split into some terminals, without an error, wherever it starts. -/
def SplitsInto (style : CommentStyle) (text : List Char) (terminals : List Terminal) : Prop :=
  ∀ position : Position,
    significant (((⟨position, text⟩ : Cursor).steps style).map Step.token) = terminals ∧
      ((⟨position, text⟩ : Cursor).steps style).filterMap Step.error = []

theorem splitsInto_nil : SplitsInto style [] [] := by
  intro position
  rw [steps_of_nil rfl]
  simp [Cursor.read, significant, Token.isEof]

/-- One lexeme, which is one of the terminals or none. -/
theorem splitsInto_lexeme {c : Char} {tail rest literal : List Char} {kind : TokenKind}
    (scanned : scan style c (tail ++ rest) = ⟨kind, tail, literal, none⟩) {first terminals : List Terminal}
    (kept : ∀ span, significant [⟨kind, String.ofList literal, span⟩] = first)
    (behind : SplitsInto style rest terminals) :
    SplitsInto style (c :: tail ++ rest) (first ++ terminals) := by
  intro position
  obtain ⟨split, clean⟩ := behind (position.afterAll (c :: tail))
  rw [steps_of_cons rfl]
  simp only [Cursor.read, List.cons_append, scanned, List.drop_left, List.map_cons,
    List.filterMap_cons, Option.map_none]
  refine ⟨?_, clean⟩
  rw [← split, ← kept _, ← significant_append]
  rfl

theorem kind_of_lexical {t : Terminal} (lexical : t.Lexical) :
    t.kind.isTrivia = false ∧ t.kind ≠ .illegal ∧ t.kind ≠ .eof := by
  obtain ⟨kind, literal⟩ := t
  cases kind <;> first | exact lexical.elim | exact ⟨rfl, by simp, by simp⟩

theorem splitsInto_terminal {t : Terminal} (lexical : t.Lexical) {rest : List Char}
    (apart : Apart t rest) {terminals : List Terminal} (behind : SplitsInto style rest terminals) :
    SplitsInto style (t.text ++ rest) (t :: terminals) := by
  obtain ⟨c, tail, spelled, scanned⟩ := scannedAs_of_lexical lexical apart
  obtain ⟨notTrivia, -, notEof⟩ := kind_of_lexical lexical
  have kept : ∀ span, significant [⟨t.kind, String.ofList t.literal.toList, span⟩] = [t] := by
    intro span
    simp [significant, Token.isEof, notTrivia, notEof, Token.terminal]
  rw [spelled]
  exact splitsInto_lexeme scanned kept behind

theorem splitsInto_gap {gap text : List Char} (blank : gap.all Text.isBlank = true)
    (ends : ∀ d ∈ text.head?, Text.isBlank d = false) {terminals : List Terminal}
    (behind : SplitsInto style text terminals) : SplitsInto style (gap ++ text) terminals := by
  cases gap with
  | nil => exact behind
  | cons c gap =>
    simp only [List.all_cons, Bool.and_eq_true] at blank
    -- blanks are one token, and that is dropped
    have scanned : scan style c (gap ++ text) = ⟨.whitespace, gap, c :: gap, none⟩ := by
      simp [scan, blank.1, takeWhile_of_run blank.2 ends, Lexeme.plain]
    have dropped : ∀ span, significant [⟨.whitespace, String.ofList (c :: gap), span⟩] = [] :=
      fun _ => rfl
    exact splitsInto_lexeme scanned dropped behind

theorem isBlank_head_text {t : Terminal} (lexical : t.Lexical) :
    ∃ c tail, t.text = c :: tail ∧ Text.isBlank c = false := by
  have apart : Apart t (if t = minus then ['('] else []) := by
    unfold Apart
    split <;> simp
  obtain ⟨c, tail, spelled, scanned⟩ : ScannedAs .line t _ := scannedAs_of_lexical lexical apart
  refine ⟨c, tail, spelled, ?_⟩
  cases blank : Text.isBlank c with
  | false => rfl
  | true =>
    -- scanned from a blank, it would be a token between terminals
    have kind : TokenKind.whitespace = t.kind := by
      have same := congrArg Lexeme.kind scanned
      simpa [scan, blank, Lexeme.plain] using same
    have notTrivia := (kind_of_lexical lexical).1
    rw [← kind] at notTrivia
    cases notTrivia

theorem isBlank_head_written {terminals : List Terminal} {text : List Char}
    (written : Written terminals text) (lexical : ∀ t ∈ terminals, t.Lexical) :
    ∀ d ∈ text.head?, Text.isBlank d = false := by
  cases written with
  | nil => simp
  | @minus rest text =>
    obtain ⟨c, tail, spelled, notBlank⟩ := isBlank_head_text (lexical minus List.mem_cons_self)
    simpa [spelled] using notBlank
  | @cons t rest gap text =>
    obtain ⟨c, tail, spelled, notBlank⟩ := isBlank_head_text (lexical t List.mem_cons_self)
    simpa [spelled] using notBlank

theorem splitsInto_of_written {terminals : List Terminal} {text : List Char}
    (written : Written terminals text) (lexical : ∀ t ∈ terminals, t.Lexical) :
    SplitsInto style text terminals := by
  -- what is apart from its successor is scanned by itself
  induction written with
  | nil => exact splitsInto_nil
  | @minus rest text tail inductionHypothesis =>
    simp only [List.mem_cons, forall_eq_or_imp] at lexical
    have opens : text.head? = some '(' := by
      cases tail with
      | cons => rfl
    exact splitsInto_terminal lexical.1 opens (inductionHypothesis (by simpa using lexical.2))
  | @cons t rest gap text notMinus blank apart tail inductionHypothesis =>
    simp only [List.mem_cons, forall_eq_or_imp] at lexical
    have ends := isBlank_head_written tail lexical.2
    refine splitsInto_terminal lexical.1 ?_ (splitsInto_gap blank ends (inductionHypothesis lexical.2))
    rw [Apart, if_neg notMinus]
    cases gap with
    | cons d gap =>
      simp only [List.all_cons, Bool.and_eq_true] at blank
      simpa using blank.1
    | nil =>
      -- without a gap, this was the last of the terminals
      have none : rest = [] := by
        cases rest with
        | nil => rfl
        | cons => exact absurd rfl (apart (by simp))
      subst none
      cases tail
      simp

/-- A text in which terminals are laid out is split into them. -/
theorem splitsInto_of_laidOut {terminals : List Terminal} {source : String}
    (laidOut : LaidOut terminals source) (lexical : ∀ t ∈ terminals, t.Lexical) :
    SplitsInto style source.toList terminals := by
  obtain ⟨gap, text, blank, written, spelled⟩ := laidOut
  rw [spelled]
  exact splitsInto_gap blank (isBlank_head_written written lexical)
    (splitsInto_of_written written lexical)

end FrontEnd.Lexer
