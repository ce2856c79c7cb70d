import FrontEnd.Text.Quoted
import FrontEnd.Tree

/-!
# Printing trees

One line for each node, two spaces deeper than the line of its parent, with the place it was read
from. The line of a function shows its parameters and its results as they are written, and the
statements of its body follow directly.
-/

namespace FrontEnd

/-- A line at a depth, from its parts. -/
def indented (depth : Nat) (parts : List String) : String :=
  String.ofList (List.replicate (2 * depth) ' ') ++ String.join parts ++ "\n"

/-- The place of a node, as it ends a line. -/
def Span.mark (s : Span) : String :=
  " (" ++ s.place ++ ")"

/-- Texts with `lead` before the first of them and `separator` before each other. -/
def separated (lead separator : String) : List String → String
  | [] => ""
  | first :: others => lead ++ first ++ String.join (others.map (separator ++ ·))

/-- A parameter as it is written. -/
def Param.describe (p : Param) : String :=
  p.type.describe ++ " " ++ p.name.name

mutual

/-- The lines of an expression. -/
def Expr.print (depth : Nat) : Expr → String
  | .int value span => indented depth ["int ", toString value, span.mark]
  | .string value span => indented depth ["string ", Text.Quoted.encode value, span.mark]
  | .bool value span => indented depth ["bool ", if value then "true" else "false", span.mark]
  | .name ident span => indented depth ["ident ", ident.name, span.mark]
  | .record name fields span =>
    indented depth ["datatype ", name.name, span.mark] ++ printFields (depth + 1) fields
  | .operation op operands span =>
    indented depth ["prefix ", op.symbol, span.mark] ++ printExprs (depth + 1) operands
  | .call function args span =>
    indented depth ["call ", function.name, span.mark] ++ printExprs (depth + 1) args
  | .libraryCall space function args span =>
    indented depth ["call ", space.name, "::", function.name, span.mark] ++
      printExprs (depth + 1) args
  | .list items span => indented depth ["list", span.mark] ++ printExprs (depth + 1) items
  | .missing span => indented depth ["dummy", span.mark]

/-- The lines of expressions, one after the other. -/
def printExprs (depth : Nat) : List Expr → String
  | [] => ""
  | e :: es => e.print depth ++ printExprs depth es

/-- The lines of the fields of a record. -/
def printFields (depth : Nat) : List FieldValue → String
  | [] => ""
  | ⟨name, value⟩ :: fields =>
    indented depth ["field ", name.name] ++ value.print (depth + 1) ++ printFields depth fields

end

/-- The lines of a condition that may be absent. -/
def printCondition (depth : Nat) : Option Expr → String
  | none => ""
  | some condition => condition.print depth

/-- The line of a datatype and the lines of its fields. -/
def DatatypeDecl.print (depth : Nat) (decl : DatatypeDecl) (span : Span) : String :=
  indented depth ["datatype ", decl.name.name, span.mark] ++
    String.join (decl.fields.map fun field => indented (depth + 1) ["field ", field.describe])

mutual

/-- The lines of a statement. -/
def Statement.print (depth : Nat) : Statement → String
  | .function ⟨name, params, returns, body⟩ span =>
    indented depth
      ["fun ", name.name, "(", separated "" ", " (params.map Param.describe), ")",
       separated " -> " ", " (returns.map TypeName.describe), span.mark] ++
      body.printBody (depth + 1)
  | .datatype decl span => decl.print depth span
  | .declaration chained decl span =>
    indented depth
      [if chained then "chained var " else "var ", decl.type.describe, " ", decl.name.name,
       span.mark] ++
      decl.value.print (depth + 1)
  | .reassignment target value span =>
    indented depth ["reassign ", target.name, span.mark] ++ value.print (depth + 1)
  | .conditional branches otherwise span =>
    indented depth ["if", span.mark] ++ printBranches (depth + 1) branches ++
      printOtherwise (depth + 1) otherwise
  | .loop condition body span =>
    indented depth ["loop", span.mark] ++ printCondition (depth + 1) condition ++
      body.print (depth + 1)
  | .block body _ => body.print depth
  | .result values span => indented depth ["return", span.mark] ++ printExprs (depth + 1) values
  | .call call _ => call.print depth
  | .control kind span => indented depth [kind.word, span.mark]

/-- The lines of statements, one after the other. -/
def printStatements (depth : Nat) : List Statement → String
  | [] => ""
  | s :: rest => s.print depth ++ printStatements depth rest

/-- The lines of the statements of a block, without a line for the block. -/
def Block.printBody (depth : Nat) : Block → String
  | ⟨statements, _⟩ => printStatements depth statements

/-- The line of a block and the lines of its statements. -/
def Block.print (depth : Nat) : Block → String
  | ⟨statements, span⟩ =>
    indented depth ["block", span.mark] ++ printStatements (depth + 1) statements

/-- The lines of the branches of a conditional. -/
def printBranches (depth : Nat) : List Branch → String
  | [] => ""
  | ⟨condition, body⟩ :: branches =>
    indented depth ["branch"] ++ condition.print (depth + 1) ++ body.print (depth + 1) ++
      printBranches depth branches

/-- The lines of the alternative of a conditional. -/
def printOtherwise (depth : Nat) : Option Block → String
  | none => ""
  | some body => indented depth ["else"] ++ body.print (depth + 1)

end

/-- The lines of a program. -/
def Program.print (program : Program) : String :=
  printStatements 0 program

end FrontEnd
