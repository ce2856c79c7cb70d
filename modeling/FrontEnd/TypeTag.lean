/-!
# Type tags

A type as a flat text: the name of a scalar, or `list-` and the name of a scalar. Lists do not nest,
so the tag of a type is all there is to know about it.
-/

namespace FrontEnd

/-- A type: a scalar, or a list of a scalar. -/
structure TypeTag where
  isList : Bool
  scalar : String
  deriving DecidableEq, Inhabited

namespace TypeTag

/-- What the text of a list type starts with. -/
def listMark : String := "list-"

/-- The type of single values. -/
def ofScalar (name : String) : TypeTag := ⟨false, name⟩

/-- The type of lists. -/
def listOf (element : String) : TypeTag := ⟨true, element⟩

def int : TypeTag := ofScalar "int"

def string : TypeTag := ofScalar "string"

def bool : TypeTag := ofScalar "bool"

/-- The text of a type. -/
def text (t : TypeTag) : String :=
  if t.isList then listMark ++ t.scalar else t.scalar

/-- The characters that remain of `text` behind `start`, if it starts so. -/
def remainder? : List Char → List Char → Option (List Char)
  | [], text => some text
  | _ :: _, [] => none
  | c :: start, d :: text => if c = d then remainder? start text else none

/-- The type with a given text. -/
def ofText (text : String) : TypeTag :=
  match remainder? listMark.toList text.toList with
  | some element => listOf (String.ofList element)
  | none => ofScalar text

end TypeTag

end FrontEnd
