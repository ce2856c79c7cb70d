import FrontEnd.Proofs.Grammar.Terminal

/-!
# How trees are spelled

The surface grammar, as a relation between trees and sequences of terminals. A tree leaves open the
signs around a block, the digits of an integer and whether a comma stands behind the last item of a
bracketed list; all else is fixed. The relation says nothing of the regions in a tree.
-/

namespace FrontEnd

open Terminal

/-! ## Lists -/

/-- Parts with a comma between any two of them, and perhaps one behind the last. -/
inductive Separated : List (List Terminal) → List Terminal → Prop
  | nil : Separated [] []
  | last (part : List Terminal) : Separated [part] part
  | cons (part : List Terminal) {parts : List (List Terminal)} {rest : List Terminal}
      (tail : Separated parts rest) : Separated (part :: parts) (part ++ sign .comma :: rest)

/-- Parts with a comma between any two of them, and none behind the last. -/
def commaList (parts : List (List Terminal)) : List Terminal :=
  List.intercalate [sign .comma] parts

theorem commaList_cons_cons (part second : List Terminal) (parts : List (List Terminal)) :
    commaList (part :: second :: parts) = part ++ sign .comma :: commaList (second :: parts) := by
  simp [commaList, List.intercalate]

@[simp] theorem commaList_singleton (part : List Terminal) : commaList [part] = part := by
  simp [commaList]

theorem commaList_starts (first : Terminal) (rest : List Terminal) (parts : List (List Terminal)) :
    ∃ others, commaList ((first :: rest) :: parts) = first :: others := by
  cases parts with
  | nil => exact ⟨rest, commaList_singleton _⟩
  | cons second parts => exact ⟨_, commaList_cons_cons _ _ _⟩

theorem length_le_commaList (part : List Terminal) (parts : List (List Terminal)) :
    parts.length ≤ (commaList (part :: parts)).length := by
  induction parts generalizing part with
  | nil => simp
  | cons second parts inductionHypothesis =>
    have smaller := inductionHypothesis second
    rw [commaList_cons_cons, List.length_append, List.length_cons, List.length_cons]
    omega

/-! ## Types -/

def Scalar.terminal : Scalar → Terminal
  | .int => sign .kwInt
  | .string => sign .kwString
  | .bool => sign .kwBool
  | .datatype name => ⟨.identifier, name⟩

def TypeName.terminals (type : TypeName) : List Terminal :=
  (if type.isList then [sign .kwListOf] else []) ++ [type.scalar.terminal]

def Param.terminals (param : Param) : List Terminal :=
  param.type.terminals ++ [param.name.terminal]

/-- The types that a function returns, behind an arrow if there are any. -/
def returnTerminals : List TypeName → List Terminal
  | [] => []
  | type :: types => sign .arrow :: commaList ((type :: types).map TypeName.terminals)

/-! ## Expressions -/

mutual

inductive Expr.Spelled : Expr → List Terminal → Prop
  /-- An integer is spelled by any digits that have its value. -/
  | int {value : Int} {span : Span} {literal : String}
      (numeral : IsNumeral literal) (reads : Literal.readInteger literal = .ok value) :
      Expr.Spelled (.int value span) [⟨.int, literal⟩]
  | string {value : String} {span : Span} : Expr.Spelled (.string value span) [⟨.string, value⟩]
  | bool {value : Bool} {span : Span} : Expr.Spelled (.bool value span) [ofBool value]
  | name {ident : Ident} {span : Span} : Expr.Spelled (.name ident span) [ident.terminal]
  | record {name : Ident} {fields : List FieldValue} {span : Span} {parts : List (List Terminal)}
      {inner : List Terminal} (each : FieldValue.EachSpelled fields parts)
      (listed : Separated parts inner) :
      Expr.Spelled (.record name fields span)
        (name.terminal :: sign .lBrace :: (inner ++ [sign .rBrace]))
  | operation {op : Operator} {operands : List Expr} {span : Span} {parts : List (List Terminal)}
      {inner : List Terminal} (each : Expr.EachSpelled operands parts)
      (listed : Separated parts inner) :
      Expr.Spelled (.operation op operands span)
        (ofOperator op :: sign .lParen :: (inner ++ [sign .rParen]))
  | call {function : Ident} {args : List Expr} {span : Span} {parts : List (List Terminal)}
      {inner : List Terminal} (each : Expr.EachSpelled args parts) (listed : Separated parts inner) :
      Expr.Spelled (.call function args span)
        (function.terminal :: sign .lParen :: (inner ++ [sign .rParen]))
  | libraryCall {space function : Ident} {args : List Expr} {span : Span}
      {parts : List (List Terminal)} {inner : List Terminal} (each : Expr.EachSpelled args parts)
      (listed : Separated parts inner) :
      Expr.Spelled (.libraryCall space function args span)
        (space.terminal :: sign .doubleColon :: function.terminal :: sign .lParen ::
          (inner ++ [sign .rParen]))
  | list {items : List Expr} {span : Span} {parts : List (List Terminal)} {inner : List Terminal}
      (each : Expr.EachSpelled items parts) (listed : Separated parts inner) :
      Expr.Spelled (.list items span) (sign .lBracket :: (inner ++ [sign .rBracket]))

inductive Expr.EachSpelled : List Expr → List (List Terminal) → Prop
  | nil : Expr.EachSpelled [] []
  | cons {e : Expr} {es : List Expr} {part : List Terminal} {parts : List (List Terminal)}
      (head : Expr.Spelled e part) (tail : Expr.EachSpelled es parts) :
      Expr.EachSpelled (e :: es) (part :: parts)

inductive FieldValue.EachSpelled : List FieldValue → List (List Terminal) → Prop
  | nil : FieldValue.EachSpelled [] []
  | cons {name : Ident} {value : Expr} {fields : List FieldValue} {part : List Terminal}
      {parts : List (List Terminal)} (head : Expr.Spelled value part)
      (tail : FieldValue.EachSpelled fields parts) :
      FieldValue.EachSpelled (⟨name, value⟩ :: fields)
        ((name.terminal :: sign .colon :: part) :: parts)

end

/-! ## Statements -/

/-- The further declarations of a chain, each behind a comma. -/
inductive Statement.ChainSpelled : List Statement → List Terminal → Prop
  | nil : Statement.ChainSpelled [] []
  | cons {decl : VariableDecl} {span : Span} {rest : List Statement} {part terminals : List Terminal}
      (value : Expr.Spelled decl.value part) (tail : Statement.ChainSpelled rest terminals) :
      Statement.ChainSpelled (.declaration true decl span :: rest)
        (sign .comma :: decl.name.terminal :: assign :: (part ++ terminals))

/-- The terminal of the word that a statement consists of. -/
def LoopControl.terminal : LoopControl → Terminal
  | .exit => sign .kwBreak
  | .next => sign .kwContinue

/-- The condition of a loop, if it has one. -/
inductive Expr.OptionSpelled : Option Expr → List Terminal → Prop
  | none : Expr.OptionSpelled none []
  | some {e : Expr} {terminals : List Terminal} (spelled : Expr.Spelled e terminals) :
      Expr.OptionSpelled (some e) terminals

mutual

/-- What one statement of the grammar makes: one statement of the tree or, for a chain of declarations,
one for each name. -/
inductive Statement.Spelled : List Statement → List Terminal → Prop
  | function {name : Ident} {params : List Param} {returns : List TypeName} {body : Block}
      {span : Span} {inner terminals : List Terminal}
      (listed : Separated (params.map Param.terminals) inner) (inside : Block.Spelled body terminals) :
      Statement.Spelled [.function ⟨name, params, returns, body⟩ span]
        (sign .kwFun :: name.terminal :: sign .lParen ::
          (inner ++ sign .rParen :: (returnTerminals returns ++ terminals)))
  | datatype {name : Ident} {fields : List Param} {span : Span} {inner : List Terminal}
      (listed : Separated (fields.map Param.terminals) inner) :
      Statement.Spelled [.datatype ⟨name, fields⟩ span]
        (sign .kwDatatype :: name.terminal :: sign .lBrace :: (inner ++ [sign .rBrace]))
  | declarations {decl : VariableDecl} {span : Span} {others : List Statement}
      {first second : List Terminal} (value : Expr.Spelled decl.value first)
      (chained : Statement.ChainSpelled others second) :
      Statement.Spelled (.declaration false decl span :: others)
        (decl.type.terminals ++ decl.name.terminal :: assign :: (first ++ (second ++ [sign .dot])))
  | reassignment {target : Ident} {value : Expr} {span : Span} {terminals : List Terminal}
      (spelled : Expr.Spelled value terminals) :
      Statement.Spelled [.reassignment target value span]
        (target.terminal :: assign :: (terminals ++ [sign .dot]))
  | conditional {condition : Expr} {body : Block} {branches : List Branch} {otherwise : Option Block}
      {span : Span} {first second third fourth : List Terminal}
      (spelled : Expr.Spelled condition first) (inside : Block.Spelled body second)
      (others : Branch.EachSpelled branches third) (last : Block.OptionSpelled otherwise fourth) :
      Statement.Spelled [.conditional (⟨condition, body⟩ :: branches) otherwise span]
        (sign .kwIf :: (first ++ (second ++ (third ++ fourth))))
  | loop {condition : Option Expr} {body : Block} {span : Span} {first second : List Terminal}
      (spelled : Expr.OptionSpelled condition first) (inside : Block.Spelled body second) :
      Statement.Spelled [.loop condition body span] (sign .kwLoop :: (first ++ second))
  | block {body : Block} {span : Span} {terminals : List Terminal}
      (inside : Block.Spelled body terminals) : Statement.Spelled [.block body span] terminals
  | result {values : List Expr} {span : Span} {parts : List (List Terminal)}
      (each : Expr.EachSpelled values parts) :
      Statement.Spelled [.result values span] (sign .kwReturn :: (commaList parts ++ [sign .dot]))
  | call {call : Expr} {span : Span} {terminals : List Terminal}
      (spelled : Expr.Spelled call terminals) :
      Statement.Spelled [.call call span] (terminals ++ [sign .dot])
  | control {kind : LoopControl} {span : Span} :
      Statement.Spelled [.control kind span] [kind.terminal, sign .dot]

inductive Statement.EachSpelled : List Statement → List Terminal → Prop
  | nil : Statement.EachSpelled [] []
  | cons {made rest : List Statement} {first second : List Terminal}
      (head : Statement.Spelled made first) (tail : Statement.EachSpelled rest second) :
      Statement.EachSpelled (made ++ rest) (first ++ second)

/-- A block stands between braces or between words. -/
inductive Block.Spelled : Block → List Terminal → Prop
  | braces {statements : List Statement} {span : Span} {inner : List Terminal}
      (inside : Statement.EachSpelled statements inner) :
      Block.Spelled ⟨statements, span⟩ (sign .lBrace :: (inner ++ [sign .rBrace]))
  | words {statements : List Statement} {span : Span} {inner : List Terminal}
      (inside : Statement.EachSpelled statements inner) :
      Block.Spelled ⟨statements, span⟩ (sign .kwBlock :: (inner ++ [sign .kwEnd]))

inductive Branch.EachSpelled : List Branch → List Terminal → Prop
  | nil : Branch.EachSpelled [] []
  | cons {condition : Expr} {body : Block} {rest : List Branch} {first second third : List Terminal}
      (spelled : Expr.Spelled condition first) (inside : Block.Spelled body second)
      (tail : Branch.EachSpelled rest third) :
      Branch.EachSpelled (⟨condition, body⟩ :: rest)
        (sign .kwElseIf :: (first ++ (second ++ third)))

/-- The alternative of a conditional, if it has one. -/
inductive Block.OptionSpelled : Option Block → List Terminal → Prop
  | none : Block.OptionSpelled none []
  | some {body : Block} {terminals : List Terminal} (inside : Block.Spelled body terminals) :
      Block.OptionSpelled (some body) (sign .kwElse :: terminals)

end

end FrontEnd
