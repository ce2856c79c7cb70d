import FrontEnd.Symbol
import FrontEnd.Tree.Printer

/-!
# Printing declarations

One line for each function, datatype and variable of a table, in this order. Within a group the lines
stand in the order of the places they were declared at, whatever the order of the table.
-/

namespace FrontEnd

/-- The line of a function: its name and the types it takes and returns. -/
def FunctionSymbol.print (f : FunctionSymbol) : String :=
  indented 0
    ["function ", f.name, "(", separated "" ", " (f.takes.map TypeTag.text), ")",
     separated " -> " ", " (f.returns.map TypeTag.text), f.span.mark]

/-- A field with its type. -/
def DatatypeSymbol.describeField (field : TypeTag × String) : String :=
  field.1.text ++ " " ++ field.2

/-- The line of a datatype: its name and its fields in braces. -/
def DatatypeSymbol.print (d : DatatypeSymbol) : String :=
  indented 0
    ["datatype ", d.name, " \x7b", separated " " ", " (d.fields.map describeField),
     if d.fields.isEmpty then "" else " ", "\x7d", d.span.mark]

/-- The line of a variable: its type and its name. -/
def VariableSymbol.print (v : VariableSymbol) : String :=
  indented 0 ["variable ", v.type.text, " ", v.name, v.span.mark]

/-- The values in the order of their regions. Those that start together keep their order. -/
def inOrder {α : Type} (span : α → Span) (values : List α) : List α :=
  values.mergeSort fun a b => (span a).lo ≤ (span b).lo

/-- The lines of a table. -/
def SymbolTable.print (t : SymbolTable) : String :=
  String.join ((inOrder FunctionSymbol.span t.functions).map FunctionSymbol.print) ++
    String.join ((inOrder DatatypeSymbol.span t.datatypes).map DatatypeSymbol.print) ++
    String.join ((inOrder VariableSymbol.span t.vars).map VariableSymbol.print)

end FrontEnd
