import FrontEnd.Proofs.Lexing.Blanking
import FrontEnd.Proofs.Placement

/-!
# Comments make no difference

The parser drops blanks and comments where it arranges the tokens (`arrange_shown`), so that the tree of a text,
with its places, is told by the other tokens. As these and the errors are the same if each comment is replaced by
spaces, all stages find the same in the text without comments.
-/

namespace FrontEnd

open Lexer (withoutTrivia blanked AsciiComments)

namespace Parser

theorem arrange_shown (missing : Token) (skipped tokens : List Token) :
    arrange missing skipped (tokens.filter fun t => !t.kind.isTrivia) = arrange missing skipped tokens := by
  induction tokens generalizing skipped with
  | nil => rfl
  | cons t rest inductionHypothesis =>
    cases isTrivia : t.kind.isTrivia with
    | true =>
      have notEof : t.isEof = false := by
        cases kind : t.kind <;> simp_all [TokenKind.isTrivia, Token.isEof]
      simp [arrange, isTrivia, notEof, inductionHypothesis]
    | false => simp [arrange, isTrivia, inductionHypothesis]

end Parser

/-- Without blanks and comments, tokens that end with an end mark are parsed as they are with these. -/
theorem Program.parse_shown {body : List Token} {last : Token} (isEof : last.kind = .eof) :
    Program.parse ((body ++ [last]).filter fun t => !t.kind.isTrivia) = Program.parse (body ++ [last]) := by
  have shown : (body ++ [last]).filter (fun t => !t.kind.isTrivia) =
      body.filter (fun t => !t.kind.isTrivia) ++ [last] := by
    simp [isEof, TokenKind.isTrivia]
  have same : Parser.State.before ((body ++ [last]).filter fun t => !t.kind.isTrivia) last =
      Parser.State.before (body ++ [last]) last := by
    simp only [Parser.State.before, Parser.arrange_shown]
  rw [Program.parse, Program.parse, Parser.State.ofTokens?, Parser.State.ofTokens?, shown, List.getLast?_concat,
    List.getLast?_concat, Option.map_some, Option.map_some, ← shown, same]

variable {style other : Lexer.CommentStyle} {source again : String}

/-- Of a text, the stages behind the lexer see no blanks and no comments. -/
theorem readProgram_shown {tokens : Outcome Lexer.Error (List Token)}
    (tokenized : Lexer.tokenize style source = .ok tokens) :
    readProgram style source = (Program.parse (withoutTrivia tokens).value).map fun program =>
      (program.value, (withoutTrivia tokens).diagnostics ++ program.diagnostics) := by
  obtain ⟨body, last, whole, isEof, -⟩ := (Lexer.lexed_of_tokenize tokenized).ended
  have parse : Program.parse (withoutTrivia tokens).value = Program.parse tokens.value := by
    rw [withoutTrivia, whole, Program.parse_shown isEof]
  rw [readProgram, tokenized, ok_bind, parse]
  cases Program.parse tokens.value <;> rfl

theorem readProgram_agrees
    (agree : (Lexer.tokenize other again).map withoutTrivia = (Lexer.tokenize style source).map withoutTrivia) :
    readProgram other again = readProgram style source := by
  cases tokenizedAgain : Lexer.tokenize other again <;> cases tokenized : Lexer.tokenize style source <;>
    rw [tokenizedAgain, tokenized] at agree
  case error.error => rw [readProgram, readProgram, tokenizedAgain, tokenized, Except.error.inj agree]
  case ok.ok =>
    rw [readProgram_shown tokenizedAgain, readProgram_shown tokenized, Except.ok.inj agree]
  all_goals cases agree

/-- A minus sign and a colon in front of remarks, one with a quote in it, and a marker in a string that is open. -/
def remarkedText : String :=
  "f(-# \"a\n3):#:\n\"#"

end FrontEnd
