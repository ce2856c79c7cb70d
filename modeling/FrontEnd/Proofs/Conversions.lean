import FrontEnd.Proofs.Grammar.Decimals
import FrontEnd.Proofs.Lexing.Errors
import FrontEnd.Proofs.Placement

/-!
# Literals without a value

The parser reads the values of operators, booleans and integers from their literals again, and reports those that have
none. Of the tokens of a text every operator and every boolean has a value, for the lexer makes such tokens of the very
words and signs that the parser knows (`Lexed.exists_operator`, `Lexed.exists_bool`). Only an integer can be without
one: if it is a minus sign only, of which the lexer has told, or if it is out of range.
-/

namespace FrontEnd

open Literal (Fits Denotes)

namespace Lexer

variable {style : CommentStyle} {source : String} {before rest text : List Char} {tokens : List Token} {t : Token}

/-- The parser knows all operators that are words, and all that are signs. -/
theorem IsLexeme.exists_operator (lexeme : IsLexeme style .operator text rest) :
    ∃ op, Operator.ofSymbol? (String.ofList text) = some op := by
  have words : ∀ p ∈ TokenKind.reserved, p.2 = .operator → (Operator.ofSymbol? p.1).isSome := by decide
  have signs : ∀ p ∈ marks, p.2 = .operator → (Operator.ofSymbol? (String.ofList [p.1])).isSome := by decide
  obtain legible | ⟨⟨⟩, -⟩ := lexeme
  cases legible with
  | reserved _ member => exact Option.isSome_iff_exists.mp (words _ member rfl)
  | minus => exact ⟨.sub, by decide⟩
  | mark member => exact Option.isSome_iff_exists.mp (signs _ member rfl)

/-- The parser knows all words that are booleans, and no sign is one. -/
theorem IsLexeme.exists_bool (lexeme : IsLexeme style .bool text rest) :
    ∃ value, Literal.readBoolean? (String.ofList text) = some value := by
  have words : ∀ p ∈ TokenKind.reserved, p.2 = .bool → (Literal.readBoolean? p.1).isSome := by decide
  have signs : ∀ p ∈ marks, p.2 ≠ .bool := by decide
  obtain legible | ⟨⟨⟩, -⟩ := lexeme
  cases legible with
  | reserved _ member => exact Option.isSome_iff_exists.mp (words _ member rfl)
  | mark member => exact absurd rfl (signs _ member)

theorem Lexed.exists_operator (lexed : Lexed style before rest tokens) (member : t ∈ tokens)
    (isOperator : t.kind = .operator) : ∃ op, Operator.ofSymbol? t.literal = some op := by
  obtain ⟨_, _, -, lexeme⟩ := lexed.isLexeme member (by simp [isOperator]) (by simp [isOperator])
  rw [isOperator] at lexeme
  have known := lexeme.exists_operator
  rwa [String.ofList_toList] at known

theorem Lexed.exists_bool (lexed : Lexed style before rest tokens) (member : t ∈ tokens)
    (isBool : t.kind = .bool) : ∃ value, Literal.readBoolean? t.literal = some value := by
  obtain ⟨_, _, -, lexeme⟩ := lexed.isLexeme member (by simp [isBool]) (by simp [isBool])
  rw [isBool] at lexeme
  have known := lexeme.exists_bool
  rwa [String.ofList_toList] at known

/-- A minus sign only is reported over all of it. -/
theorem Lexed.fault?_minus (lexed : Lexed style before rest tokens) (member : t ∈ tokens) (isInt : t.kind = .int)
    (isMinus : t.literal = "-") : t.fault? source = some ⟨.loneMinus, t.span⟩ := by
  have fault : t.fault? source = some ⟨.loneMinus, { t.span with len := 1 }⟩ := by
    simp [Token.fault?, Token.loneMinus?, isInt, isMinus]
  have same : { t.span with len := 1 } = t.span := lexed.span_of_fault? member fault
  rw [fault, same]

end Lexer

namespace Literal

theorem exists_denotes {text : String} (numeral : IsNumeral text) : ∃ value, Denotes text value := by
  obtain ⟨digits, nonempty, each, same | same⟩ := numeral
  · exact ⟨_, String.toList_injective (same.trans String.toList_ofList.symm) ▸ denotes_ofList nonempty each⟩
  · exact ⟨_, String.toList_injective (same.trans String.toList_ofList.symm) ▸ denotes_ofList_minus nonempty each⟩

/-- A numeral that is not read is out of range. -/
theorem exists_unfit {text : String} {e : IntegerError} (numeral : IsNumeral text)
    (read : readInteger text = .error e) : ∃ value, Denotes text value ∧ ¬ Fits value := by
  obtain ⟨value, denotes⟩ := exists_denotes numeral
  refine ⟨value, denotes, fun fits => ?_⟩
  rw [readInteger_ok_iff.mpr ⟨denotes, fits⟩] at read
  cases read

end Literal

/-- Whatever is wrong with a text, the parser finds a value for every operator and every boolean. It reports an integer
only if that is a minus sign, which the lexer reports at the same place, or a numeral whose value is out of range. -/
theorem parse_converts (style : Lexer.CommentStyle) {source : String} (nonempty : source ≠ "") :
    ∃ tokens program, Lexer.tokenize style source = .ok tokens ∧ Program.parse tokens.value = .ok program ∧
      ∀ e ∈ program.errors,
        (∀ literal, e.value ≠ .unknownOperator literal) ∧ (∀ literal, e.value ≠ .invalidBoolean literal) ∧
        ∀ literal, e.value = .invalidInteger literal →
          ∃ t ∈ tokens.value, t.kind = .int ∧ t.literal = literal ∧ t.span = e.span ∧
            (literal = "-" ∧ ⟨.loneMinus, e.span⟩ ∈ tokens.errors ∨
              IsNumeral literal ∧ ∃ value, Denotes literal value ∧ ¬ Fits value) := by
  obtain ⟨tokens, program, library, all⟩ := exists_placesAll style nonempty
  have lexed := Lexer.lexed_of_tokenize all.tokenize
  refine ⟨tokens, program, all.tokenize, all.parse, fun e member => ?_⟩
  -- each of the three errors is about a token of its kind, with a literal that has no value
  obtain ⟨t, memberTokens, same, suits⟩ := all.placed.reports e member
  refine ⟨fun literal isError => ?operator, fun literal isError => ?boolean, fun literal isError => ?integer⟩
  all_goals
    rw [isError] at suits
    obtain ⟨kind, isLiteral, unread⟩ := suits
    subst isLiteral
  case operator =>
    obtain ⟨op, found⟩ := lexed.exists_operator memberTokens kind
    simp [found] at unread
  case boolean =>
    obtain ⟨value, found⟩ := lexed.exists_bool memberTokens kind
    simp [found] at unread
  case integer =>
    obtain ⟨error, read⟩ := unread
    refine ⟨t, memberTokens, kind, rfl, same.symm, ?_⟩
    by_cases isMinus : t.literal = "-"
    · refine .inl ⟨isMinus, ?_⟩
      rw [Lexer.errors_of_tokenize all.tokenize, same]
      exact List.mem_filterMap.mpr ⟨t, memberTokens, lexed.fault?_minus memberTokens kind isMinus⟩
    · have numeral := lexed.isNumeral memberTokens kind isMinus
      exact .inr ⟨numeral, Literal.exists_unfit numeral read⟩

/-- A minus sign by itself, an integer that is out of range on one side of zero only, and a word that is an operator. -/
def stragglingText : String :=
  "int x = -, y = -9223372036854775809, z = -9223372036854775808. loop not(<= true) \x7b"

theorem parse_converts_straggling :
    stragglingText ≠ "" ∧
      ∃ tokens program, Lexer.tokenize .line stragglingText = .ok tokens ∧
        Program.parse tokens.value = .ok program ∧
        ∀ e ∈ program.errors,
          (∀ literal, e.value ≠ .unknownOperator literal) ∧ (∀ literal, e.value ≠ .invalidBoolean literal) ∧
          ∀ literal, e.value = .invalidInteger literal →
            ∃ t ∈ tokens.value, t.kind = .int ∧ t.literal = literal ∧ t.span = e.span ∧
              (literal = "-" ∧ ⟨.loneMinus, e.span⟩ ∈ tokens.errors ∨
                IsNumeral literal ∧ ∃ value, Denotes literal value ∧ ¬ Fits value) :=
  ⟨by decide, parse_converts .line (by decide)⟩

end FrontEnd
