import FrontEnd.Proofs.Typing.Found

/-!
# Trees with other expressions put in

Two trees may differ only in some expressions, of which none is inside of another: in the second tree each of
them is one of some `patch`es. What was put in is listed from left to right. Every expression may be replaced,
but for the call that a call statement consists of; the arguments of such a call may be.
-/

namespace FrontEnd

variable {ι : Type}

mutual

/-- A whole expression is replaced, or parts of it are. -/
inductive Expr.Patched (patch : ι → Expr) : Expr → Expr → List ι → Prop where
  | whole {e : Expr} {put : ι} : Expr.Patched patch e (patch put) [put]
  | inside {e f : Expr} {puts : List ι} (parts : Expr.PartsPatched patch e f puts) :
    Expr.Patched patch e f puts

/-- Both expressions are of one kind, and parts of the first are replaced. -/
inductive Expr.PartsPatched (patch : ι → Expr) : Expr → Expr → List ι → Prop where
  | int {value : Int} {span : Span} : Expr.PartsPatched patch (.int value span) (.int value span) []
  | string {value : String} {span : Span} :
    Expr.PartsPatched patch (.string value span) (.string value span) []
  | bool {value : Bool} {span : Span} : Expr.PartsPatched patch (.bool value span) (.bool value span) []
  | name {ident : Ident} {span : Span} : Expr.PartsPatched patch (.name ident span) (.name ident span) []
  | missing {span : Span} : Expr.PartsPatched patch (.missing span) (.missing span) []
  | record {name : Ident} {fields others : List FieldValue} {span : Span} {puts : List ι}
    (values : FieldValue.EachPatched patch fields others puts) :
    Expr.PartsPatched patch (.record name fields span) (.record name others span) puts
  | operation {op : Operator} {operands others : List Expr} {span : Span} {puts : List ι}
    (each : Expr.EachPatched patch operands others puts) :
    Expr.PartsPatched patch (.operation op operands span) (.operation op others span) puts
  | call {function : Ident} {args others : List Expr} {span : Span} {puts : List ι}
    (each : Expr.EachPatched patch args others puts) :
    Expr.PartsPatched patch (.call function args span) (.call function others span) puts
  | libraryCall {space function : Ident} {args others : List Expr} {span : Span} {puts : List ι}
    (each : Expr.EachPatched patch args others puts) :
    Expr.PartsPatched patch (.libraryCall space function args span)
      (.libraryCall space function others span) puts
  | list {items others : List Expr} {span : Span} {puts : List ι}
    (each : Expr.EachPatched patch items others puts) :
    Expr.PartsPatched patch (.list items span) (.list others span) puts

inductive Expr.EachPatched (patch : ι → Expr) : List Expr → List Expr → List ι → Prop where
  | nil : Expr.EachPatched patch [] [] []
  | cons {e f : Expr} {es fs : List Expr} {puts more : List ι} (first : Expr.Patched patch e f puts)
    (rest : Expr.EachPatched patch es fs more) : Expr.EachPatched patch (e :: es) (f :: fs) (puts ++ more)

inductive FieldValue.EachPatched (patch : ι → Expr) :
    List FieldValue → List FieldValue → List ι → Prop where
  | nil : FieldValue.EachPatched patch [] [] []
  | cons {name : Ident} {e f : Expr} {fields others : List FieldValue} {puts more : List ι}
    (first : Expr.Patched patch e f puts) (rest : FieldValue.EachPatched patch fields others more) :
    FieldValue.EachPatched patch (⟨name, e⟩ :: fields) (⟨name, f⟩ :: others) (puts ++ more)

end

/-- An expression that may be absent. -/
inductive Expr.OptionPatched (patch : ι → Expr) : Option Expr → Option Expr → List ι → Prop where
  | none : Expr.OptionPatched patch none none []
  | some {e f : Expr} {puts : List ι} (patched : e.Patched patch f puts) :
    Expr.OptionPatched patch (some e) (some f) puts

mutual

/-- Expressions in a statement are replaced. What it declares stays, but for the values of variables and the
bodies of functions. -/
inductive Statement.Patched (patch : ι → Expr) : Statement → Statement → List ι → Prop where
  | function {name : Ident} {params : List Param} {returns : List TypeName} {body other : Block}
    {span : Span} {puts : List ι} (inside : Block.Patched patch body other puts) :
    Statement.Patched patch (.function ⟨name, params, returns, body⟩ span)
      (.function ⟨name, params, returns, other⟩ span) puts
  | datatype {decl : DatatypeDecl} {span : Span} :
    Statement.Patched patch (.datatype decl span) (.datatype decl span) []
  | declaration {chained : Bool} {type : TypeName} {name : Ident} {e f : Expr} {span : Span} {puts : List ι}
    (value : e.Patched patch f puts) :
    Statement.Patched patch (.declaration chained ⟨type, name, e⟩ span)
      (.declaration chained ⟨type, name, f⟩ span) puts
  | reassignment {target : Ident} {e f : Expr} {span : Span} {puts : List ι}
    (value : e.Patched patch f puts) :
    Statement.Patched patch (.reassignment target e span) (.reassignment target f span) puts
  | conditional {branches others : List Branch} {otherwise other : Option Block} {span : Span}
    {puts more : List ι} (each : Branch.EachPatched patch branches others puts)
    (last : Block.OptionPatched patch otherwise other more) :
    Statement.Patched patch (.conditional branches otherwise span) (.conditional others other span)
      (puts ++ more)
  | loop {condition other : Option Expr} {body last : Block} {span : Span} {puts more : List ι}
    (patched : Expr.OptionPatched patch condition other puts) (inside : Block.Patched patch body last more) :
    Statement.Patched patch (.loop condition body span) (.loop other last span) (puts ++ more)
  | block {body other : Block} {span : Span} {puts : List ι} (inside : Block.Patched patch body other puts) :
    Statement.Patched patch (.block body span) (.block other span) puts
  | result {values others : List Expr} {span : Span} {puts : List ι}
    (each : Expr.EachPatched patch values others puts) :
    Statement.Patched patch (.result values span) (.result others span) puts
  | call {e f : Expr} {span : Span} {puts : List ι} (parts : e.PartsPatched patch f puts) :
    Statement.Patched patch (.call e span) (.call f span) puts
  | control {kind : LoopControl} {span : Span} :
    Statement.Patched patch (.control kind span) (.control kind span) []

inductive Statement.EachPatched (patch : ι → Expr) :
    List Statement → List Statement → List ι → Prop where
  | nil : Statement.EachPatched patch [] [] []
  | cons {s t : Statement} {rest others : List Statement} {puts more : List ι}
    (first : Statement.Patched patch s t puts) (behind : Statement.EachPatched patch rest others more) :
    Statement.EachPatched patch (s :: rest) (t :: others) (puts ++ more)

inductive Block.Patched (patch : ι → Expr) : Block → Block → List ι → Prop where
  | intro {body other : List Statement} {span : Span} {puts : List ι}
    (inside : Statement.EachPatched patch body other puts) :
    Block.Patched patch ⟨body, span⟩ ⟨other, span⟩ puts

inductive Branch.EachPatched (patch : ι → Expr) : List Branch → List Branch → List ι → Prop where
  | nil : Branch.EachPatched patch [] [] []
  | cons {e f : Expr} {body other : Block} {rest others : List Branch} {puts more last : List ι}
    (condition : e.Patched patch f puts) (inside : Block.Patched patch body other more)
    (behind : Branch.EachPatched patch rest others last) :
    Branch.EachPatched patch (⟨e, body⟩ :: rest) (⟨f, other⟩ :: others) (puts ++ more ++ last)

inductive Block.OptionPatched (patch : ι → Expr) : Option Block → Option Block → List ι → Prop where
  | none : Block.OptionPatched patch none none []
  | some {body other : Block} {puts : List ι} (inside : Block.Patched patch body other puts) :
    Block.OptionPatched patch (some body) (some other) puts

end

/-! ## Calls stay calls -/

variable {patch : ι → Expr}

theorem Expr.PartsPatched.isCall {e f : Expr} {puts : List ι} (parts : e.PartsPatched patch f puts) :
    f.isCall = e.isCall := by
  cases parts <;> rfl

mutual

theorem Statement.Patched.holdsCalls {s t : Statement} {puts : List ι} (patched : s.Patched patch t puts)
    (calls : s.HoldsCalls) : t.HoldsCalls := by
  match patched with
  | .function inside => exact inside.holdsCalls calls
  | .conditional each last => exact ⟨each.holdsCalls calls.1, last.holdsCalls calls.2⟩
  | .loop _ inside | .block inside => exact inside.holdsCalls calls
  | .call parts => exact parts.isCall.trans calls
  | .datatype | .declaration _ | .reassignment _ | .result _ | .control => exact trivial

theorem Statement.EachPatched.holdsCalls {statements others : List Statement} {puts : List ι}
    (patched : Statement.EachPatched patch statements others puts)
    (calls : Statement.EachHoldsCalls statements) : Statement.EachHoldsCalls others := by
  match patched with
  | .nil => exact trivial
  | .cons first rest => exact ⟨first.holdsCalls calls.1, rest.holdsCalls calls.2⟩

theorem Block.Patched.holdsCalls {body other : Block} {puts : List ι} (patched : body.Patched patch other puts)
    (calls : body.HoldsCalls) : other.HoldsCalls := by
  match patched with
  | .intro inside => exact inside.holdsCalls calls

theorem Branch.EachPatched.holdsCalls {branches others : List Branch} {puts : List ι}
    (patched : Branch.EachPatched patch branches others puts) (calls : Branch.EachHoldsCalls branches) :
    Branch.EachHoldsCalls others := by
  match patched with
  | .nil => exact trivial
  | .cons _ inside rest => exact ⟨inside.holdsCalls calls.1, rest.holdsCalls calls.2⟩

theorem Block.OptionPatched.holdsCalls {otherwise last : Option Block} {puts : List ι}
    (patched : Block.OptionPatched patch otherwise last puts) (calls : Block.OptionHoldsCalls otherwise) :
    Block.OptionHoldsCalls last := by
  match patched with
  | .none => exact trivial
  | .some inside => exact inside.holdsCalls calls

end

end FrontEnd
