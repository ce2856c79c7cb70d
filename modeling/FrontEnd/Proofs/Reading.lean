import FrontEnd.Check
import FrontEnd.Proofs.Lexing.Counters
import FrontEnd.Proofs.Parsing.Ending
import FrontEnd.Proofs.Parsing.Invariants
import FrontEnd.Proofs.Typing.Proper

/-!
# Reading a text

Every text whose bytes 32 bits can count, but for the text without any character, is read if the counters of the
lexer reach to its end: the lexer makes tokens of it and the parser makes a program of these, and nothing that the two
take for granted fails on the way (`exists_isRead`). Whatever the text, the program can be checked: a call statement
holds a call, and since a word has no minus sign, no datatype is named like a list.
-/

namespace FrontEnd

variable {source : String} {style : Lexer.CommentStyle}

/-! ## Names of datatypes -/

theorem IsName.notMem_minus {name : String} (isName : IsName name) : '-' ∉ name.toList :=
  Lexer.IsWord.notMem_minus isName.2

theorem IsName.isScalarName {name : String} (isName : IsName name) : TypeTag.IsScalarName name :=
  TypeTag.isScalarName_of_notMem isName.notMem_minus

/-! ## Tokens and programs -/

namespace Lexer

theorem Lexed.fits {tokens : List Token} (lexed : Lexed style [] source.toList tokens)
    (short : source.utf8ByteSize < UInt32.size) : ∀ t ∈ tokens, t.span.Fits :=
  fun t member => Nat.lt_of_le_of_lt (lexed.tiles.hi_le t member) short

theorem Lexed.worded {tokens : List Token} (lexed : Lexed style [] source.toList tokens) :
    ∀ t ∈ tokens, t.Worded IsName :=
  fun _ member identifier => lexed.isName member identifier

end Lexer

/-- How a text is read, with its tokens and its program. -/
structure IsRead (style : Lexer.CommentStyle) (source : String)
    (tokens : Outcome Lexer.Error (List Token)) (program : Outcome Parser.Error Program) : Prop where
  tokenize : Lexer.tokenize style source = .ok tokens
  /-- The text is only ever cut between characters. -/
  tiles : Lexer.Tiles source tokens.value
  asserts : Lexer.Asserts style source
  parse : Program.parse tokens.value = .ok program
  /-- The parser comes to the end mark with the program, and keeps to all that it takes for granted. -/
  ends : ∃ last t, tokens.value.getLast? = some last ∧
    Parser.ComesToEnd tokens.value last program.value t

/-- Every text but the empty one is read, as far as the lexer counts, and the program can be checked. -/
theorem exists_isRead (style : Lexer.CommentStyle) (nonempty : source ≠ "")
    (short : source.utf8ByteSize < UInt32.size) (asserts : Lexer.Asserts style source) :
    ∃ tokens program, IsRead style source tokens program ∧ Statement.EachHoldsCalls program.value ∧
      Statement.EachNamed TypeTag.IsScalarName program.value := by
  have tokenized := Lexer.tokenize_of_nonempty style nonempty
  have lexed := Lexer.lexed_of_tokenize tokenized
  generalize Lexer.outcome ((Lexer.Cursor.ofString source).steps style) = tokens at tokenized lexed
  obtain ⟨body, last, split, -⟩ := lexed.tiles.ended
  have isLast : tokens.value.getLast? = some last := split ▸ List.getLast?_concat
  obtain ⟨p, t, ends, parsed, calls⟩ := Parser.comesToEnd_of_fits isLast (lexed.fits short)
  have worded : ∀ u ∈ tokens.value, u.Worded TypeTag.IsScalarName :=
    fun u member identifier => (lexed.worded u member identifier).isScalarName
  refine ⟨tokens, ⟨p, t.errors⟩, ?_, calls, Parser.eachNamed_of_run worded ends.run⟩
  exact {
    tokenize := tokenized
    tiles := lexed.tiles
    asserts := asserts
    parse := parsed
    ends := ⟨last, t, isLast, ends⟩ }

end FrontEnd
