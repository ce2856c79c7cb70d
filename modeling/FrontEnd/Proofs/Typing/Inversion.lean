import Mathlib.Data.List.Basic
import FrontEnd.Proofs.Typing.Rules

/-!
# Reading the rules backwards

For each kind of expression or statement there is one rule, but for the operators. So what the rules say
of a tree is the same as the premises of its rule.
-/

namespace FrontEnd.Typing

theorem resolves_cons_iff {name : String} {type : TypeTag} {scope : List Binding}
    {outer : List (List Binding)} :
    Resolves name type (scope :: outer) ↔
      ⟨name, type⟩ ∈ scope ∨ (∀ b ∈ scope, b.name ≠ name) ∧ Resolves name type outer := by
  constructor
  · intro resolves
    cases resolves with
    | here declared => exact .inl declared
    | further absent resolves => exact .inr ⟨absent, resolves⟩
  · intro holds
    cases holds with
    | inl declared => exact .here declared
    | inr further => exact .further further.1 further.2

namespace Context

variable {Γ : Context}

/-! ## Operators -/

section Operators

variable {op : Operator} {operands : List Expr} {span : Span} {type : TypeTag}

theorem arithmetic_iff (isArithmetic : op ∈ [.add, .sub, .mul, .div]) :
    Γ.HasType (.operation op operands span) type ↔
      operands ≠ [] ∧ Γ.EachHasType operands .int ∧ type = .int := by
  constructor
  · intro typed
    cases typed with
    | arithmetic _ some each => exact ⟨some, each, rfl⟩
    | connective isConnective => grind
    | comparison isComparison => grind
    | negation | equality => simp at isArithmetic
  · intro holds
    obtain ⟨some, each, same⟩ := holds
    subst same
    exact .arithmetic isArithmetic some each

theorem connective_iff (isConnective : op ∈ [.and, .or]) :
    Γ.HasType (.operation op operands span) type ↔
      operands ≠ [] ∧ Γ.EachHasType operands .bool ∧ type = .bool := by
  constructor
  · intro typed
    cases typed with
    | connective _ some each => exact ⟨some, each, rfl⟩
    | arithmetic isArithmetic => grind
    | comparison isComparison => grind
    | negation | equality => simp at isConnective
  · intro holds
    obtain ⟨some, each, same⟩ := holds
    subst same
    exact .connective isConnective some each

theorem negation_iff :
    Γ.HasType (.operation .not operands span) type ↔
      operands.length = 1 ∧ Γ.EachHasType operands .bool ∧ type = .bool := by
  constructor
  · intro typed
    cases typed with
    | negation typed => exact ⟨rfl, .cons typed .nil, rfl⟩
    | arithmetic isArithmetic => simp at isArithmetic
    | connective isConnective => simp at isConnective
    | comparison isComparison => simp at isComparison
  · intro holds
    obtain ⟨count, each, same⟩ := holds
    obtain ⟨operand, one⟩ := List.length_eq_one_iff.mp count
    subst one same
    cases each with
    | cons typed _ => exact .negation typed

theorem comparison_iff (isComparison : op ∈ [.lt, .gt, .lte, .gte]) :
    Γ.HasType (.operation op operands span) type ↔
      operands.length = 2 ∧ Γ.EachHasType operands .int ∧ type = .bool := by
  constructor
  · intro typed
    cases typed with
    | comparison _ left right => exact ⟨rfl, .cons left (.cons right .nil), rfl⟩
    | arithmetic isArithmetic => grind
    | connective isConnective => grind
    | negation | equality => simp at isComparison
  · intro holds
    obtain ⟨count, each, same⟩ := holds
    obtain ⟨first, second, two⟩ := List.length_eq_two.mp count
    subst two same
    cases each with
    | cons left rest =>
      cases rest with
      | cons right _ => exact .comparison isComparison left right

theorem equality_iff :
    Γ.HasType (.operation .eq operands span) type ↔
      ∃ first second shared, operands = [first, second] ∧ Γ.HasType first shared ∧
        Γ.HasType second shared ∧ type = .bool := by
  constructor
  · intro typed
    cases typed with
    | equality left right => exact ⟨_, _, _, rfl, left, right, rfl⟩
    | arithmetic isArithmetic => simp at isArithmetic
    | connective isConnective => simp at isConnective
    | comparison isComparison => simp at isComparison
  · intro holds
    obtain ⟨first, second, shared, two, left, right, same⟩ := holds
    subst two same
    exact .equality left right

end Operators

/-! ## Calls -/

section Calls

variable {args : List Expr} {span : Span} {type : TypeTag}

theorem hasType_call_iff {function : Ident} :
    Γ.HasType (.call function args span) type ↔
      ∃ decl ∈ Γ.functions, decl.name.name = function.name ∧ Γ.HaveTypes args decl.takes ∧
        decl.gives = [type] := by
  constructor
  · intro typed
    cases typed with
    | call declared named given single => exact ⟨_, declared, named, given, single⟩
  · intro holds
    obtain ⟨decl, declared, named, given, single⟩ := holds
    exact .call declared named given single

theorem hasType_libraryCall_iff {space function : Ident} :
    Γ.HasType (.libraryCall space function args span) type ↔
      ∃ f, Γ.library.getFunction? space.name function.name = some f ∧ Γ.HaveTypes args f.takes ∧
        f.returns = [type] := by
  constructor
  · intro typed
    cases typed with
    | libraryCall known given single => exact ⟨_, known, given, single⟩
  · intro holds
    obtain ⟨f, known, given, single⟩ := holds
    exact .libraryCall known given single

theorem acceptsCall_call_iff {function : Ident} :
    Γ.AcceptsCall (.call function args span) ↔
      ∃ decl ∈ Γ.functions, decl.name.name = function.name ∧ Γ.HaveTypes args decl.takes := by
  constructor
  · intro accepted
    cases accepted with
    | call declared named given => exact ⟨_, declared, named, given⟩
  · intro holds
    obtain ⟨decl, declared, named, given⟩ := holds
    exact .call declared named given

theorem acceptsCall_libraryCall_iff {space function : Ident} :
    Γ.AcceptsCall (.libraryCall space function args span) ↔
      ∃ f, Γ.library.getFunction? space.name function.name = some f ∧
        Γ.HaveTypes args f.takes := by
  constructor
  · intro accepted
    cases accepted with
    | libraryCall known given => exact ⟨_, known, given⟩
  · intro holds
    obtain ⟨f, known, given⟩ := holds
    exact .libraryCall known given

end Calls

/-! ## Statements -/

section Statements

variable {span region : Span}

theorem accepts_function_iff {name : Ident} {params : List Param} {returns : List TypeName}
    {body : List Statement} :
    Γ.Accepts (.function ⟨name, params, returns, ⟨body, region⟩⟩ span) ↔
      (∀ p ∈ params, Γ.IsType p.type) ∧ (∀ type ∈ returns, Γ.IsType type) ∧
        (params.map fun p => p.name.name).Nodup ∧
        (Γ.ofFunction params returns).AcceptsEach body := by
  constructor
  · intro accepted
    cases accepted with
    | function takes gives distinct inside => exact ⟨takes, gives, distinct, inside⟩
  · intro holds
    obtain ⟨takes, gives, distinct, inside⟩ := holds
    exact .function takes gives distinct inside

theorem accepts_datatype_iff {decl : DatatypeDecl} :
    Γ.Accepts (.datatype decl span) ↔
      (∀ p ∈ decl.fields, Γ.IsType p.type) ∧ (decl.fields.map fun p => p.name.name).Nodup := by
  constructor
  · intro accepted
    cases accepted with
    | datatype types distinct => exact ⟨types, distinct⟩
  · intro holds
    exact .datatype holds.1 holds.2

theorem accepts_declaration_iff {chained : Bool} {decl : VariableDecl} :
    Γ.Accepts (.declaration chained decl span) ↔
      (Γ.IsType decl.type ∧ Γ.HasType decl.value decl.type.tag) ∧ Γ.Fresh decl.name.name := by
  constructor
  · intro accepted
    cases accepted with
    | declaration isType typed fresh => exact ⟨⟨isType, typed⟩, fresh⟩
  · intro holds
    exact .declaration holds.1.1 holds.1.2 holds.2

theorem accepts_reassignment_iff {target : Ident} {value : Expr} :
    Γ.Accepts (.reassignment target value span) ↔
      ∃ type, Resolves target.name type Γ.scopes ∧ Γ.HasType value type := by
  constructor
  · intro accepted
    cases accepted with
    | reassignment resolves typed => exact ⟨_, resolves, typed⟩
  · intro holds
    obtain ⟨type, resolves, typed⟩ := holds
    exact .reassignment resolves typed

theorem accepts_conditional_iff {branches : List Branch} {otherwise : Option Block} :
    Γ.Accepts (.conditional branches otherwise span) ↔
      Γ.AcceptsBranches branches ∧ Γ.AcceptsOption otherwise := by
  constructor
  · intro accepted
    cases accepted with
    | conditional each last => exact ⟨each, last⟩
  · intro holds
    exact .conditional holds.1 holds.2

theorem accepts_loop_iff {condition : Option Expr} {body : Block} :
    Γ.Accepts (.loop condition body span) ↔
      (∀ e ∈ condition, Γ.HasType e .bool) ∧ Γ.ofLoop.AcceptsBlock body := by
  constructor
  · intro accepted
    cases accepted with
    | loop typed inside => exact ⟨typed, inside⟩
  · intro holds
    exact .loop holds.1 holds.2

theorem accepts_block_iff {body : Block} :
    Γ.Accepts (.block body span) ↔ Γ.AcceptsBlock body := by
  constructor
  · intro accepted
    cases accepted with
    | block inside => exact inside
  · exact .block

theorem accepts_result_iff {values : List Expr} :
    Γ.Accepts (.result values span) ↔
      ∃ types, Γ.returns = some types ∧ Γ.HaveTypes values types := by
  constructor
  · intro accepted
    cases accepted with
    | result inside given => exact ⟨_, inside, given⟩
  · intro holds
    obtain ⟨types, inside, given⟩ := holds
    exact .result inside given

theorem accepts_call_iff {call : Expr} : Γ.Accepts (.call call span) ↔ Γ.AcceptsCall call := by
  constructor
  · intro accepted
    cases accepted with
    | call accepted => exact accepted
  · exact .call

theorem accepts_control_iff {kind : LoopControl} :
    Γ.Accepts (.control kind span) ↔ Γ.inLoop = true := by
  constructor
  · intro accepted
    cases accepted with
    | control inside => exact inside
  · exact .control

theorem acceptsEach_cons_iff {s : Statement} {rest : List Statement} :
    Γ.AcceptsEach (s :: rest) ↔ Γ.Accepts s ∧ (Γ.behind s).AcceptsEach rest := by
  constructor
  · intro accepted
    cases accepted with
    | cons first others => exact ⟨first, others⟩
  · intro holds
    exact .cons holds.1 holds.2

theorem acceptsBlock_iff {body : List Statement} :
    Γ.AcceptsBlock ⟨body, span⟩ ↔ Γ.opened.AcceptsEach body := by
  constructor
  · intro accepted
    cases accepted with
    | intro inside => exact inside
  · exact .intro

theorem acceptsBranches_cons_iff {condition : Expr} {body : Block} {rest : List Branch} :
    Γ.AcceptsBranches (⟨condition, body⟩ :: rest) ↔
      (Γ.HasType condition .bool ∧ Γ.AcceptsBlock body) ∧ Γ.AcceptsBranches rest := by
  constructor
  · intro accepted
    cases accepted with
    | cons typed inside others => exact ⟨⟨typed, inside⟩, others⟩
  · intro holds
    exact .cons holds.1.1 holds.1.2 holds.2

theorem acceptsOption_some_iff {body : Block} :
    Γ.AcceptsOption (some body) ↔ Γ.AcceptsBlock body := by
  constructor
  · intro accepted
    cases accepted with
    | some inside => exact inside
  · exact .some

end Statements

end Context

end FrontEnd.Typing
