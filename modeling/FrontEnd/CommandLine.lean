import FrontEnd.Check
import FrontEnd.Symbol.Printer
import FrontEnd.Token.Listing

/-!
# The command line

One input file, and two options: how far to go (`-m`, `--mode`) and how far comments reach (`-c`,
`--comments`). What is found is printed whether or not it is complete; anything to complain of makes
the exit code one, and a command line that is not understood makes it two.
-/

namespace FrontEnd.CommandLine

/-- How far to go, and what to print. -/
inductive Mode where
  /-- Print the tokens. -/
  | lex
  /-- Print the tree. -/
  | parse
  /-- Print the declarations of the checked program. -/
  | check
  deriving DecidableEq, Inhabited

/-- The mode of a name. -/
def Mode.ofName? : String → Option Mode
  | "lex" => some lex
  | "parse" => some parse
  | "check" => some check
  | _ => none

/-- The comment style of a name. -/
def styleOfName? : String → Option Lexer.CommentStyle
  | "marker-run" => some .markerRun
  | "line" => some .line
  | _ => none

/-- What a command line asks for. -/
structure Request where
  input : String
  mode : Mode
  style : Lexer.CommentStyle

/-- What has been read of a command line. -/
structure Draft where
  input : Option String
  mode : Option Mode
  style : Option Lexer.CommentStyle

/-- The options. -/
inductive Setting where
  | mode
  | comments

namespace Draft

/-- Sets the input. It is no empty text, and it is given once. -/
def setInput (d : Draft) (input : String) : Option Draft :=
  if input.isEmpty ∨ d.input.isSome then none else some { d with input := some input }

/-- Sets an option to the value of a name. It is given once. -/
def set (d : Draft) : Setting → String → Option Draft
  | .mode, name => do
    if d.mode.isSome then failure
    return { d with mode := some (← Mode.ofName? name) }
  | .comments, name => do
    if d.style.isSome then failure
    return { d with style := some (← styleOfName? name) }

/-- What the command line asks for. An option that is not given has a default. -/
def request (d : Draft) : Option Request :=
  d.input.map fun input => ⟨input, d.mode.getD .check, d.style.getD .markerRun⟩

end Draft

/-- An argument by its form. -/
inductive Argument where
  | input (text : String)
  /-- Behind it, every argument is an input. -/
  | endOfOptions
  /-- An option that has its value with it, or in the next argument. -/
  | setting (setting : Setting) (value : Option String)
  | unknown

/-- A long option: its name, and its value behind an equals sign. -/
def longOption (text : List Char) : Argument :=
  let name := text.takeWhile (· ≠ '=')
  let value := (text.drop name.length).tail?.map String.ofList
  if name = "mode".toList then .setting .mode value
  else if name = "comments".toList then .setting .comments value
  else .unknown

/-- A short option: its letter, and its value directly or behind an equals sign. -/
def shortOption (letter : Char) (text : List Char) : Argument :=
  let value :=
    match text with
    | [] => none
    | '=' :: value => some (String.ofList value)
    | value => some (String.ofList value)
  match letter with
  | 'm' => .setting .mode value
  | 'c' => .setting .comments value
  | _ => .unknown

/-- What an argument is. -/
def Argument.ofText (text : String) : Argument :=
  match text.toList with
  | ['-', '-'] => .endOfOptions
  | '-' :: '-' :: option => longOption option
  | '-' :: letter :: value => shortOption letter value
  | _ => .input text

/-- Reads arguments onto what has been read before them. -/
def Draft.read (d : Draft) : List String → Option Draft
  | [] => some d
  | text :: rest =>
    match Argument.ofText text with
    | .input input => do (← d.setInput input).read rest
    | .endOfOptions => rest.foldlM setInput d
    | .setting setting (some value) => do (← d.set setting value).read rest
    | .setting setting none =>
      match rest with
      | [] => none
      | value :: rest =>
        match Argument.ofText value with
        | .input value => do (← d.set setting value).read rest
        | _ => none
    | .unknown => none

/-- What a command line asks for, if it is understood. -/
def Request.ofArguments? (args : List String) : Option Request := do
  (← Draft.read ⟨none, none, none⟩ args).request

/-- How the program ends: its exit code, what it prints and what it complains of. -/
structure Exit where
  code : Nat
  output : String
  complaints : List String

namespace Exit

/-- Ends with a single complaint and without output. -/
def failed (code : Nat) (complaint : String) : Exit :=
  ⟨code, "", [complaint]⟩

/-- Ends with output. The diagnostics are complained of. -/
def finished (output : String) (diagnostics : List Diagnostic) : Exit where
  code := if diagnostics.isEmpty then 0 else 1
  output := output
  complaints := diagnostics.map Diagnostic.describe

/-- Ends as a computation did. -/
def ofResult : Except Fault (String × List Diagnostic) → Exit
  | .error fault => failed 1 fault.message
  | .ok (output, diagnostics) => finished output diagnostics

end Exit

/-- What is printed for a source text, and the diagnostics of the stages that were asked for. -/
def Request.answer (r : Request) (source : String) : Except Fault (String × List Diagnostic) :=
  match r.mode with
  | .lex => do
    let tokens ← Lexer.tokenize r.style source
    return (Token.listing tokens.value, tokens.diagnostics)
  | .parse => do
    let (program, diagnostics) ← readProgram r.style source
    return (program.print, diagnostics)
  | .check => do
    let checked ← FrontEnd.check r.style source
    return (checked.result.globals.print, checked.diagnostics)

/-- Does what was asked for, given the content of the input if it is a file. -/
def Request.execute (r : Request) (content : Option ByteArray) : Exit :=
  match content with
  | none => .failed 1 ("no proper input file: " ++ r.input)
  | some bytes =>
    match String.fromUTF8? bytes with
    | none => .failed 1 ("the input file is not text: " ++ r.input)
    | some source => .ofResult (r.answer source)

/-- The end of a run whose command line is not understood. -/
def usage : Exit :=
  .failed 2 "usage: <input> [--mode lex|parse|check] [--comments marker-run|line]"

end FrontEnd.CommandLine
