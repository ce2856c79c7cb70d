import FrontEnd.Library

/-!
# The store of the library

The functions of the library as they are kept: a table of the spaces, and in each space a table of its functions.
A function is added in place. Its space is opened first, and only then is its name looked up in it, so that a
function that is refused may leave its space behind.
-/

namespace FrontEnd

namespace Library

/-- The functions of a space, each with its name. -/
abbrev Space := List (String × FunctionSymbol)

/-- The spaces, each with its name. -/
structure Store where
  spaces : List (String × Space)

namespace Store

/-- The store without spaces. -/
def empty : Store := ⟨[]⟩

/-- The function that is called by a space and a name. -/
def getFunction? (s : Store) (space name : String) : Option FunctionSymbol :=
  (s.spaces.lookup space).bind fun table => table.lookup name

/-- Whether there is a space. -/
def hasSpace (s : Store) (space : String) : Bool :=
  (s.spaces.lookup space).isSome

/-- With an empty space, unless there is one of its name. -/
def openSpace (s : Store) (space : String) : Store :=
  if s.hasSpace space then s else ⟨s.spaces ++ [(space, [])]⟩

/-- With another table for a space. -/
def setSpace (s : Store) (space : String) (table : Space) : Store :=
  ⟨s.spaces.map fun entry => if entry.1 = space then (space, table) else entry⟩

/-- Adds a function, to be called by a space and a name: the answer, and the store behind it. -/
def add (s : Store) (space name : String) (f : FunctionSymbol) : Except Fault Unit × Store :=
  let opened := s.openSpace space
  let table := (opened.spaces.lookup space).getD []
  if (table.lookup name).isSome then
    (.error (.duplicateSymbol .function (space ++ "::" ++ name) 0), opened)
  else (.ok (), opened.setSpace space (table ++ [(name, f)]))

/-- The store behind some calls of `add`. -/
def addAll (s : Store) (calls : List LibraryEntry) : Store :=
  calls.foldl (fun s call => (s.add call.space call.name call.function).2) s

/-- The store that the functions of a library were added to, in their order. -/
def ofLibrary (l : Library) : Store :=
  empty.addAll l.entries

/-- The store of the standard library. -/
def standard : Except Fault Store :=
  Library.standard.map ofLibrary

end Store

end Library

end FrontEnd
