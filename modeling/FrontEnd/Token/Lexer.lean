import FrontEnd.Diagnostic
import FrontEnd.Text.Alphabetic
import FrontEnd.Text.Blank
import FrontEnd.Text.Numeric
import FrontEnd.Token

/-!
# Splitting a source text into tokens

`scan` decides from the text ahead which token comes next and takes the longest run that belongs to
it. `Cursor.read` adds the region, and `tokenize` repeats it to the end of the text. No state but the
position survives a token, and an error stops nothing: the token at fault is made from what there is.

Lines, columns, the bytes of a token and the digits of an integer are counted in 32 bits, and a counter
that runs over ends the run. As with a parser, what is taken for granted stands beside what is done:
`Lexeme.Asserts` and `Position.CountsThrough` beside `scan` and `Position.afterAll`, `Cursor.Asserts`
beside `Cursor.read`, and `Asserts` beside `tokenize`. It changes nothing in a run.
-/

namespace FrontEnd.Lexer

/-- How far a comment reaches. -/
inductive CommentStyle where
  /-- Only the run of markers is a comment; what follows on the line is read on. -/
  | markerRun
  /-- All up to the line break is a comment. -/
  | line
  deriving DecidableEq, Inhabited

/-- What can be wrong with a token. -/
inductive Error where
  | unclosedString
  | loneMinus
  deriving DecidableEq

instance : Reportable Error where
  stage := .lexer
  code
    | .unclosedString => "L001"
    | .loneMinus => "L002"
  message
    | .unclosedString => "unclosed string literal"
    | .loneMinus => "`-` must be followed by at least one digit"

/-- The marker that starts a comment. -/
def marker : Char := '#'

/-- Whether a character may start a word. -/
def startsWord (c : Char) : Bool :=
  Text.isAlphabetic c || c == '_'

/-- Whether a character may continue a word. -/
def continuesWord (c : Char) : Bool :=
  Text.isAlphabetic c || Text.isNumeric c || c == '_'

/-- What is read of a text from its first character on. -/
structure Lexeme where
  kind : TokenKind
  /-- The characters taken after the first. -/
  tail : List Char
  literal : List Char
  error : Option Error
  deriving DecidableEq

namespace Lexeme

/-- A lexeme that stands for its own text. -/
def plain (kind : TokenKind) (c : Char) (tail : List Char) : Lexeme :=
  ⟨kind, tail, c :: tail, none⟩

/-- The longest word that starts with `c`. -/
def word (c : Char) (ahead : List Char) : Lexeme :=
  let tail := ahead.takeWhile continuesWord
  .plain (.ofWord (String.ofList (c :: tail))) c tail

/-- A digit or a minus sign, and all digits after it. A minus sign alone is an error. -/
def integer (c : Char) (ahead : List Char) : Lexeme :=
  let tail := ahead.takeWhile Char.isDigit
  { Lexeme.plain .int c tail with
    error := if c = '-' ∧ tail = [] then some .loneMinus else none }

/-- A string, from behind its opening quote to the next quote or, in error, to the end of the text. -/
def string (ahead : List Char) : Lexeme :=
  let content := ahead.takeWhile (· ≠ '"')
  if content.length < ahead.length then
    ⟨.string, content ++ ['"'], content, none⟩
  else
    ⟨.string, content, content, some .unclosedString⟩

/-- A comment that starts with the marker `c`. -/
def comment (style : CommentStyle) (c : Char) (ahead : List Char) : Lexeme :=
  .plain .comment c <|
    match style with
    | .markerRun => ahead.takeWhile (· = marker)
    | .line => ahead.takeWhile (· ≠ '\n')

/-- A sign, a word or, failing these, an illegal character. -/
def sign (c : Char) (ahead : List Char) : Lexeme :=
  match c with
  | '(' => .plain .lParen c []
  | ')' => .plain .rParen c []
  | '{' => .plain .lBrace c []
  | '}' => .plain .rBrace c []
  | '[' => .plain .lBracket c []
  | ']' => .plain .rBracket c []
  | ',' => .plain .comma c []
  | '.' => .plain .dot c []
  | ':' => if ahead.head? = some ':' then .plain .doubleColon c [':'] else .plain .colon c []
  | '+' | '*' | '/' | '=' => .plain .operator c []
  | c => if startsWord c then .word c ahead else .plain .illegal c []

/-- What is taken for granted when a lexeme is read from the character `c` on. -/
structure Asserts (c : Char) (lexeme : Lexeme) : Prop where
  /-- The routine for strings is entered at a quote. -/
  opens : lexeme.kind = .string → c = '"'
  /-- The routine for integers counts the digits in 32 bits, of which one is the sign. -/
  digits : lexeme.kind = .int → lexeme.literal.countP Char.isDigit < 2147483648

end Lexeme

/-- Reads the token that starts with `c`, given the text ahead of it. -/
def scan (style : CommentStyle) (c : Char) (ahead : List Char) : Lexeme :=
  if Text.isBlank c then .plain .whitespace c (ahead.takeWhile Text.isBlank)
  else if c = '"' then .string ahead
  else if c = marker then .comment style c ahead
  else if c.isDigit then .integer c ahead
  else if c = '-' then
    if ahead.head? = some '>' then .plain .arrow c ['>']
    else if ahead.head? = some '(' then .plain .operator c []
    else .integer c ahead
  else .sign c ahead

/-- A place between two characters of the text. -/
structure Position where
  byte : Nat
  line : Nat
  column : Nat
  deriving DecidableEq

/-- The start of the text. -/
def Position.start : Position := ⟨0, 1, 0⟩

/-- The place behind a character. -/
def Position.after (p : Position) (c : Char) : Position where
  byte := p.byte + c.utf8Size
  line := if c = '\n' then p.line + 1 else p.line
  column := if c = '\n' then 0 else p.column + 1

/-- The place behind a piece of text. -/
def Position.afterAll (p : Position) (text : List Char) : Position :=
  text.foldl Position.after p

/-- Whether the counters of lines and columns, of 32 bits each, hold a place. The counter of bytes has more. -/
structure Position.Counted (p : Position) : Prop where
  line : p.line < UInt32.size
  column : p.column < UInt32.size

/-- What is taken for granted when a piece of text is passed: behind each of its characters, the counters hold the
place. -/
def Position.CountsThrough (p : Position) : List Char → Prop
  | [] => True
  | c :: text => (p.after c).Counted ∧ (p.after c).CountsThrough text

/-- The region between two places. -/
def Position.span (p q : Position) : Span :=
  ⟨p.byte, q.byte - p.byte, p.line, p.column⟩

/-- A place in the text, and what remains from there on. -/
structure Cursor where
  position : Position
  rest : List Char
  deriving DecidableEq

/-- The cursor before a text. -/
def Cursor.ofString (source : String) : Cursor :=
  ⟨.start, source.toList⟩

/-- A token, what is wrong with it, and where reading goes on. -/
structure Step where
  token : Token
  error : Option (Located Error)
  next : Cursor
  deriving DecidableEq

/-- Where the error of a token is shown: over all of a string, but at a minus sign only. -/
def Error.region (span : Span) : Error → Span
  | .unclosedString => span
  | .loneMinus => { span with len := 1 }

/-- Reads one token. At the end of the text this is the end mark, again and again. -/
def Cursor.read (style : CommentStyle) (cursor : Cursor) : Step :=
  match cursor.rest with
  | [] =>
    { token := ⟨.eof, "", cursor.position.span cursor.position⟩, error := none, next := cursor }
  | c :: ahead =>
    let lexeme := scan style c ahead
    let behind := cursor.position.afterAll (c :: lexeme.tail)
    let span := cursor.position.span behind
    { token := ⟨lexeme.kind, String.ofList lexeme.literal, span⟩
      error := lexeme.error.map fun e => ⟨e, e.region span⟩
      next := ⟨behind, ahead.drop lexeme.tail.length⟩ }

/-- The characters that the next token is read from. -/
def Cursor.taken (style : CommentStyle) (cursor : Cursor) : List Char :=
  match cursor.rest with
  | [] => []
  | c :: ahead => c :: (scan style c ahead).tail

/-- What is taken for granted when one token is read. -/
structure Cursor.Asserts (style : CommentStyle) (cursor : Cursor) : Prop where
  lexeme : ∀ c ahead, cursor.rest = c :: ahead → (scan style c ahead).Asserts c
  counted : cursor.position.CountsThrough (cursor.taken style)
  /-- The bytes of a token, and so those of its error, are counted in 32 bits. -/
  short : (cursor.read style).token.span.len < UInt32.size

/-- Reading shortens a text that has not ended. -/
theorem Cursor.length_rest_read (style : CommentStyle) {cursor : Cursor} {c : Char}
    {ahead : List Char} (h : cursor.rest = c :: ahead) :
    (cursor.read style).next.rest.length < cursor.rest.length := by
  simp only [Cursor.read, h, List.length_drop, List.length_cons]
  omega

/-- The steps to the end of the text, the end mark included. -/
def Cursor.steps (style : CommentStyle) (cursor : Cursor) : List Step :=
  match _h : cursor.rest with
  | [] => [cursor.read style]
  | _ :: _ => cursor.read style :: (cursor.read style).next.steps style
termination_by cursor.rest.length
decreasing_by exact cursor.length_rest_read style _h

/-- The next `count` steps. The end mark repeats. -/
def Cursor.stream (style : CommentStyle) : Nat → Cursor → List Step
  | 0, _ => []
  | count + 1, cursor => cursor.read style :: (cursor.read style).next.stream style count

/-- What is taken for granted in the next `count` steps. -/
def Cursor.StreamAsserts (style : CommentStyle) : Nat → Cursor → Prop
  | 0, _ => True
  | count + 1, cursor => cursor.Asserts style ∧ (cursor.read style).next.StreamAsserts style count

/-- The tokens of some steps, with their errors. -/
def outcome (steps : List Step) : Outcome Error (List Token) where
  value := steps.map Step.token
  errors := steps.filterMap Step.error

/-- The tokens of a text, up to and including the end mark. Only a text without any character has
none. -/
def tokenize (style : CommentStyle) (source : String) : Except Fault (Outcome Error (List Token)) :=
  if source.isEmpty then .error .emptySource
  else .ok (outcome ((Cursor.ofString source).steps style))

/-- What is taken for granted on the way to the end of a text. -/
def Asserts (style : CommentStyle) (source : String) : Prop :=
  (Cursor.ofString source).StreamAsserts style ((Cursor.ofString source).steps style).length

end FrontEnd.Lexer
