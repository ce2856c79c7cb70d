import FrontEnd.Proofs.Headers
import FrontEnd.Proofs.Typing.Assertions

/-!
# Faults

A mistake in a text is reported and stops no stage. What does stop them is a fault: that there is no text at
all, or that a stage was relied on for more than it does. Of these two only the first comes up
(`check_faults`): all stages go over any text whose bytes and lines 32 bits can count, and each finds what it takes
for granted, if no integer has more digits than are counted.
-/

namespace FrontEnd

/-- How all stages go over a text, with what each of them makes. -/
structure GoesThrough (style : Lexer.CommentStyle) (source : String)
    (tokens : Outcome Lexer.Error (List Token)) (program : Outcome Parser.Error Program)
    (library : Library) (checked : Outcome Typing.Error CheckedProgram) : Prop where
  read : IsRead style source tokens program
  load : IsLoaded Header.standard library
  asserts : program.value.Asserts library
  check : program.value.check library = .ok checked
  result : FrontEnd.check style source =
    .ok ⟨checked.value, tokens.diagnostics ++ program.diagnostics ++ checked.diagnostics⟩

theorem ok_bind {ε α β : Type} (x : α) (f : α → Except ε β) : (Except.ok x >>= f) = f x := rfl

theorem readProgram_eq {style : Lexer.CommentStyle} {source : String}
    {tokens : Outcome Lexer.Error (List Token)} {program : Outcome Parser.Error Program}
    (tokenized : Lexer.tokenize style source = .ok tokens) (parsed : Program.parse tokens.value = .ok program) :
    readProgram style source = .ok (program.value, tokens.diagnostics ++ program.diagnostics) := by
  rw [readProgram, tokenized, ok_bind, parsed, ok_bind]
  rfl

-- the library is named before the steps behind it are unfolded, so that it is not loaded by unification
theorem check_eq_of_stages {style : Lexer.CommentStyle} {source : String} {program : Program}
    {diagnostics : List Diagnostic} {library : Library} {checked : Outcome Typing.Error CheckedProgram}
    (read : readProgram style source = .ok (program, diagnostics))
    (standard : Library.standard = .ok library) (ran : program.check library = .ok checked) :
    check style source = .ok ⟨checked.value, diagnostics ++ checked.diagnostics⟩ := by
  rw [check, read, ok_bind, standard]
  show program.check library >>= _ = _
  rw [ran]
  rfl

theorem exists_goesThrough (style : Lexer.CommentStyle) {source : String} (nonempty : source ≠ "")
    (short : source.utf8ByteSize < UInt32.size) (asserts : Lexer.Asserts style source) :
    ∃ tokens program library checked, GoesThrough style source tokens program library checked := by
  obtain ⟨tokens, program, read, calls, named⟩ := exists_isRead style nonempty short asserts
  obtain ⟨library, standard, load⟩ := Library.exists_standard
  obtain ⟨globals, checked⟩ := Program.check_eq library calls
  have result := check_eq_of_stages (readProgram_eq read.tokenize read.parse) standard checked
  exact ⟨tokens, program, library, _, read, load, Program.asserts load.proper named calls, checked, result⟩

theorem check_empty (style : Lexer.CommentStyle) : check style "" = .error .emptySource := rfl

/-- The only fault is that there is no text. Over any other text that is short enough, has fewer lines than 32 bits
count and no integer with more digits than are counted, all stages come to their end, and nothing that they take for
granted fails on the way. -/
theorem check_faults (style : Lexer.CommentStyle) {source : String}
    (short : source.utf8ByteSize < UInt32.size) (lines : 1 + source.toList.count '\n' < UInt32.size)
    (digits : ∀ tokens, Lexer.tokenize style source = .ok tokens →
      ∀ t ∈ tokens.value, t.kind = .int → t.literal.toList.countP Char.isDigit < 2147483648) :
    (∀ fault, check style source = .error fault ↔ source = "" ∧ fault = .emptySource) ∧
      (source ≠ "" → ∃ tokens program library checked,
        GoesThrough style source tokens program library checked) := by
  have through : source ≠ "" → ∃ tokens program library checked,
      GoesThrough style source tokens program library checked := by
    intro nonempty
    have tokenized := Lexer.tokenize_of_nonempty style nonempty
    have countable := Lexer.Countable.of_short (Lexer.lexed_of_tokenize tokenized).tiles short lines
      (digits _ tokenized)
    exact exists_goesThrough style nonempty short ((Lexer.asserts_iff tokenized).mpr countable)
  refine ⟨fun fault => ?_, through⟩
  by_cases empty : source = ""
  · subst empty
    simp [check_empty, eq_comm]
  · obtain ⟨_, _, _, _, goes⟩ := through empty
    simp [goes.result, empty]

/-- A text in which nothing is right: the type of a parameter has a name that starts like the text of a list,
a list of lists is compared with a difference without operands, a call statement holds no call, a block and a
string are not closed, and there is an illegal character. -/
def malformedText : String :=
  "fun f(listof list-int x -> \x7b =([[]], -()) (f) - $ \""

theorem check_faults_malformed :
    malformedText.utf8ByteSize < UInt32.size ∧
      (∀ fault, check .line malformedText = .error fault ↔ malformedText = "" ∧ fault = .emptySource) ∧
      (malformedText ≠ "" → ∃ tokens program library checked,
        GoesThrough .line malformedText tokens program library checked) := by
  have short : malformedText.utf8ByteSize < UInt32.size := by decide
  refine ⟨short, check_faults .line short (by decide) fun tokens tokenized t member isInt => ?_⟩
  have digits := (Lexer.lexed_of_tokenize tokenized).tiles.digits_le member isInt
  exact Nat.lt_of_le_of_lt digits (by decide)

/-- Within the same bounds on their bytes, a text with one line too many and one with too many digits are not gone
through. -/
theorem check_faults_overrun :
    ((Lexer.lineBreaks 4294967295).utf8ByteSize < UInt32.size ∧ Lexer.lineBreaks 4294967295 ≠ "" ∧
      ¬ ∃ tokens program library checked,
        GoesThrough .line (Lexer.lineBreaks 4294967295) tokens program library checked) ∧
    (Lexer.zeros 2147483648).utf8ByteSize < UInt32.size ∧ Lexer.zeros 2147483648 ≠ "" ∧
      ¬ ∃ tokens program library checked,
        GoesThrough .line (Lexer.zeros 2147483648) tokens program library checked := by
  have breaks : (Lexer.lineBreaks 4294967295).utf8ByteSize = 4294967295 * 1 := Lexer.utf8ByteSize_ofList_replicate _ _
  have zeros : (Lexer.zeros 2147483648).utf8ByteSize = 2147483648 * 1 := Lexer.utf8ByteSize_ofList_replicate _ _
  refine ⟨⟨breaks ▸ by decide, Lexer.ofList_replicate_ne (by decide) _, ?_⟩,
    zeros ▸ by decide, Lexer.ofList_replicate_ne (by decide) _, ?_⟩
  · rintro ⟨_, _, _, _, through⟩
    exact Lexer.not_asserts_lineBreaks (by decide) through.read.asserts
  · rintro ⟨_, _, _, _, through⟩
    exact Lexer.not_asserts_zeros (by decide) through.read.asserts

end FrontEnd
