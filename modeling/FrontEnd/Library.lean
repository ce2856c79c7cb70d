import FrontEnd.Symbol
import FrontEnd.Token.Lexer
import FrontEnd.Tree.Parser.Statement

/-!
# The standard library

Functions that every program may call, kept in spaces: a function is known by its space and its name.
Their signatures are declared in the language itself, by one header for each space, where a function
is called by its space, an underscore and its name, and has no body.
-/

namespace FrontEnd

/-- A function of the library, and what it is called by. -/
structure LibraryEntry where
  space : String
  name : String
  function : FunctionSymbol

/-- The functions of the library, in the order in which they were added. -/
structure Library where
  entries : List LibraryEntry

/-- The declarations of one space: the signatures of its functions. -/
structure Header where
  space : String
  signatures : List String

/-- The text of a header: its signatures, each on a line and with an empty body. The blanks before a line
count in the regions of the functions behind them. -/
def Header.text (h : Header) : String :=
  "\n         ".intercalate (h.signatures.map (· ++ " \x7b\x7d")) ++ "\n        "

/-- The headers of the standard library. -/
def Header.standard : List Header :=
  [⟨"Stdout",
    ["fun Stdout_println(string s)",
     "fun Stdout_print(string s)"]⟩,
   ⟨"Math",
    ["fun Math_mod(int a, int b) -> int",
     "fun Math_pow(int base, int exponent) -> int",
     "fun Math_sqrt(int n) -> int"]⟩,
   ⟨"String",
    ["fun String_from_int(int n) -> string",
     "fun String_from_bool(bool b) -> string",
     "fun String_concat(string a, string b) -> string",
     "fun String_index(string s, string needle) -> int"]⟩,
   ⟨"Int",
    ["fun Int_from_string(string s) -> int"]⟩,
   ⟨"List",
    ["fun List_replace_int(listof int xs, int at, int value) -> listof int",
     "fun List_replace_string(listof string xs, int at, string value) -> listof string",
     "fun List_replace_bool(listof bool xs, int at, bool value) -> listof bool"]⟩]

/-- The space whose header holds a byte of all headers, one after the other. A byte behind them belongs
to the last. -/
def Header.spaceAt : List Header → Nat → String
  | [], _ => ""
  | [h], _ => h.space
  | h :: headers, byte =>
    if byte < h.text.utf8ByteSize then h.space
    else spaceAt headers (byte - h.text.utf8ByteSize)

namespace Library

/-- The library without functions. -/
def empty : Library := ⟨[]⟩

/-- The function that is called by a space and a name. -/
def getFunction? (l : Library) (space name : String) : Option FunctionSymbol :=
  (l.entries.find? fun e => e.space = space ∧ e.name = name).map LibraryEntry.function

/-- Whether there are functions in a space. -/
def hasSpace (l : Library) (space : String) : Bool :=
  l.entries.any fun e => e.space = space

/-- Adds a function, to be called by a space and a name. -/
def add (l : Library) (space name : String) (f : FunctionSymbol) : Except Fault Library :=
  if (l.getFunction? space name).isSome then
    .error (.duplicateSymbol .function (space ++ "::" ++ name) 0)
  else
    .ok ⟨l.entries ++ [⟨space, name, f⟩]⟩

/-- The space and the name in the full name of a function. -/
def splitName? (full : String) : Option (String × String) :=
  let space := full.toList.takeWhile (· ≠ '_')
  match full.toList.drop space.length with
  | [] => none
  | _ :: name => some (String.ofList space, String.ofList name)

/-- Adds the function that a statement of a header declares. -/
def addDeclared (headers : List Header) (l : Library) (s : Statement) : Except Fault Library :=
  let malformed (reason : String) : Except Fault Library :=
    .error (.malformedLibrary (Header.spaceAt headers s.span.lo) reason)
  match s with
  | .function decl span =>
    match splitName? decl.name.name with
    | some (space, name) => l.add space name (.ofDecl name decl span)
    | none => malformed s!"`{decl.name.name}` has no namespace prefix"
  | _ => malformed "only functions may be declared"

/-- Fails with the first error of a stage that reads the headers. -/
def requireClean {ε α : Type} [Reportable ε] (headers : List Header) (o : Outcome ε α) :
    Except Fault α :=
  match o.errors with
  | [] => .ok o.value
  | e :: _ => .error (.malformedLibrary (Header.spaceAt headers e.span.lo) (Reportable.message e.value))

/-- The library that some headers declare. -/
def ofHeaders (headers : List Header) : Except Fault Library := do
  let source := String.join (headers.map Header.text)
  let tokens ← requireClean headers (← Lexer.tokenize .markerRun source)
  let program ← requireClean headers (← Program.parse tokens)
  program.foldlM (addDeclared headers) empty

/-- The standard library. -/
def standard : Except Fault Library :=
  ofHeaders Header.standard

end Library

end FrontEnd
