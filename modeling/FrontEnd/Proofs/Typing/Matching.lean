import Mathlib.Data.List.Forall2
import FrontEnd.Proofs.Grammar.Patched
import FrontEnd.Proofs.Typing.Occurrences
import FrontEnd.Proofs.Typing.Registration

/-!
# The same names in scope

Two trees that differ in expressions alone declare the same, but for the bodies of functions and the values of
variables, and nothing that is looked up depends on these. So behind the same statements the scopes of one tree
match those of the other. What is in scope has a name that is declared somewhere.
-/

namespace FrontEnd

/-! ## The same declarations -/

/-- Whether two tables declare the same, but for the bodies of functions and the values of variables. -/
structure SymbolTable.Matches (t u : SymbolTable) : Prop where
  functions : u.functions.map FunctionSymbol.signature = t.functions.map FunctionSymbol.signature
  datatypes : u.datatypes = t.datatypes
  vars : u.bindings = t.bindings

namespace SymbolTable.Matches

variable {t u : SymbolTable}

theorem refl (t : SymbolTable) : t.Matches t := ⟨rfl, rfl, rfl⟩

theorem getFunction? (same : t.Matches u) (name : String) :
    (u.getFunction? name).map FunctionSymbol.signature =
      (t.getFunction? name).map FunctionSymbol.signature := by
  have found (table : SymbolTable) : (table.getFunction? name).map FunctionSymbol.signature =
      (table.functions.map FunctionSymbol.signature).find? fun f => f.name = name := by
    rw [List.find?_map]
    rfl
  rw [found, found, same.functions]

theorem getVariable? (same : t.Matches u) (name : String) :
    (u.getVariable? name).map VariableSymbol.binding = (t.getVariable? name).map VariableSymbol.binding := by
  rw [getVariable?_binding, getVariable?_binding, same.vars]

theorem adding (same : t.Matches u) {v w : VariableSymbol} (sameBinding : w.binding = v.binding) :
    (t.adding v).Matches (u.adding w) := by
  have named : w.name = v.name := congrArg Typing.Binding.name sameBinding
  -- both names are taken or none is, so nothing is added to one table alone
  have taken : (u.getVariable? w.name).isSome = (t.getVariable? v.name).isSome := by
    rw [named, ← Option.isSome_map (f := VariableSymbol.binding), same.getVariable?, Option.isSome_map]
  rw [SymbolTable.adding, SymbolTable.adding, taken]
  split
  · exact same
  · refine ⟨same.functions, same.datatypes, ?_⟩
    have vars : u.vars.map VariableSymbol.binding = t.vars.map VariableSymbol.binding := same.vars
    simp only [bindings, List.map_append, vars, List.map_singleton, sameBinding]

end SymbolTable.Matches

/-- Whether the open scopes declare the same. -/
structure Scopes.Matches (s t : Scopes) : Prop where
  inner : List.Forall₂ SymbolTable.Matches s.inner t.inner
  global : s.global.Matches t.global

namespace Scopes.Matches

variable {s t : Scopes}

theorem refl (s : Scopes) : s.Matches s :=
  ⟨List.forall₂_same.mpr fun table _ => .refl table, .refl s.global⟩

theorem tables (same : s.Matches t) : List.Forall₂ SymbolTable.Matches s.tables t.tables :=
  List.rel_append same.inner (.cons same.global .nil)

theorem current (same : s.Matches t) : s.current.Matches t.current := by
  obtain ⟨before, globalBefore⟩ := s
  obtain ⟨behind, globalBehind⟩ := t
  obtain ⟨inner, global⟩ := same
  cases inner with
  | nil => exact global
  | cons innermost _ => exact innermost

theorem getFunction? (same : s.Matches t) (name : String) :
    (t.getFunction? name).map FunctionSymbol.signature =
      (s.getFunction? name).map FunctionSymbol.signature :=
  same.global.getFunction? name

theorem getDatatype? (same : s.Matches t) (name : String) : t.getDatatype? name = s.getDatatype? name := by
  rw [Scopes.getDatatype?, SymbolTable.getDatatype?, same.global.datatypes]
  rfl

theorem getVariable? (same : s.Matches t) (name : String) :
    (t.getVariable? name).map VariableSymbol.binding = (s.getVariable? name).map VariableSymbol.binding := by
  rw [getVariable?_eq_findSome?, getVariable?_eq_findSome?]
  have tables := same.tables
  generalize s.tables = before at tables
  generalize t.tables = after at tables
  induction tables with
  | nil => rfl
  | cons innermost _ inductionHypothesis =>
    have here := innermost.getVariable? name
    rw [List.findSome?_cons, List.findSome?_cons]
    split <;> split <;> simp_all

theorem push (same : s.Matches t) : s.push.Matches t.push :=
  ⟨.cons (.refl _) same.inner, same.global⟩

theorem adding (same : s.Matches t) {v w : VariableSymbol} (sameBinding : w.binding = v.binding) :
    (s.adding v).Matches (t.adding w) := by
  obtain ⟨before, globalBefore⟩ := s
  obtain ⟨behind, globalBehind⟩ := t
  obtain ⟨inner, global⟩ := same
  cases inner with
  | nil => exact ⟨.nil, global.adding sameBinding⟩
  | cons innermost further => exact ⟨.cons (innermost.adding sameBinding) further, global⟩

theorem addingParams (same : s.Matches t) (ps : List Param) :
    (s.addingParams ps).Matches (t.addingParams ps) := by
  induction ps generalizing s t with
  | nil => exact same
  | cons p ps inductionHypothesis => exact inductionHypothesis (same.adding rfl)

variable {ι : Type} {patch : ι → Expr}

/-- What is declared for all of a program does not depend on the bodies of functions. -/
theorem registering (same : s.Matches t) {a b : Statement} {puts : List ι}
    (patched : a.Patched patch b puts) : (s.registering a).Matches (t.registering b) := by
  have ⟨inner, global⟩ := same
  cases patched with
  | @function name params returns body other span =>
    -- the bodies differ, but it is by the name that a function is registered
    have taken : (t.getFunction? name.name).isSome = (s.getFunction? name.name).isSome := by
      rw [← Option.isSome_map (f := FunctionSymbol.signature), same.getFunction?, Option.isSome_map]
    by_cases declared : (s.getFunction? name.name).isSome
    · simp only [Scopes.registering, taken, if_pos declared]
      exact same
    · simp only [Scopes.registering, taken, if_neg declared]
      refine ⟨inner, { global with functions := ?_ }⟩
      rw [List.map_append, List.map_append, global.functions]
      rfl
  | @datatype decl span =>
    by_cases declared : (s.getDatatype? decl.name.name).isSome
    · simp only [Scopes.registering, same.getDatatype?, if_pos declared]
      exact same
    · simp only [Scopes.registering, same.getDatatype?, if_neg declared]
      exact ⟨inner, { global with datatypes := by rw [global.datatypes] }⟩
  | _ => exact same

theorem registeringEach {s t : Scopes} (same : s.Matches t) {p q : List Statement} {puts : List ι}
    (patched : Statement.EachPatched patch p q puts) :
    (s.registeringEach p).Matches (t.registeringEach q) := by
  match patched with
  | .nil => exact same
  | .cons first rest => exact registeringEach (same.registering first) rest

theorem registerErrors (same : s.Matches t) {a b : Statement} {puts : List ι}
    (patched : a.Patched patch b puts) (clean : s.registerErrors a = []) : t.registerErrors b = [] := by
  cases patched with
  | function inside =>
    rw [registerErrors_function_eq_nil_iff] at clean ⊢
    rw [← Option.map_eq_none_iff (f := FunctionSymbol.signature), same.getFunction?, clean, Option.map_none]
  | datatype =>
    rw [registerErrors_datatype_eq_nil_iff] at clean ⊢
    rw [same.getDatatype?, clean]
  | _ => rfl

theorem registerEachErrors {s t : Scopes} (same : s.Matches t) {p q : List Statement} {puts : List ι}
    (patched : Statement.EachPatched patch p q puts)
    (clean : s.registerEachErrors p = []) : t.registerEachErrors q = [] := by
  match patched with
  | .nil => rfl
  | .cons first rest =>
    obtain ⟨cleanFirst, cleanRest⟩ := List.append_eq_nil_iff.mp clean
    exact List.append_eq_nil_iff.mpr ⟨same.registerErrors first cleanFirst,
      (same.registering first).registerEachErrors rest cleanRest⟩

theorem behind (same : s.Matches t) {a b : Statement} {puts : List ι}
    (patched : a.Patched patch b puts) : (s.behind a).Matches (t.behind b) := by
  cases patched with
  | declaration => exact same.adding rfl
  | _ => exact same

theorem behindEach {s t : Scopes} (same : s.Matches t) {p q : List Statement} {puts : List ι}
    (patched : Statement.EachPatched patch p q puts) :
    (s.behindEach p).Matches (t.behindEach q) := by
  match patched with
  | .nil => exact same
  | .cons first rest => exact behindEach (same.behind first) rest

end Scopes.Matches

/-! ## Names that are declared -/

/-- Whether all variables in scope have names that are allowed. -/
def Scopes.Names (allowed : String → Prop) (s : Scopes) : Prop :=
  ∀ table ∈ s.tables, ∀ v ∈ table.vars, allowed v.name

namespace Scopes

variable {allowed : String → Prop} {s : Scopes}

theorem Names.push (names : s.Names allowed) : s.push.Names allowed := by
  intro table member
  rcases List.mem_cons.mp member with rfl | outer
  · simp [SymbolTable.empty]
  · exact names table outer

theorem Names.adding (names : s.Names allowed) {v : VariableSymbol} (fits : allowed v.name) :
    (s.adding v).Names allowed := by
  obtain ⟨others, tables, added⟩ := s.tables_adding v
  rw [Names, tables, List.forall_mem_cons] at names
  rw [Names, added, List.forall_mem_cons]
  refine ⟨?_, names.2⟩
  rw [SymbolTable.adding]
  split
  · exact names.1
  · exact List.forall_mem_append.mpr ⟨names.1, by simpa using fits⟩

theorem Names.addingParams (names : s.Names allowed) {ps : List Param}
    (fit : ∀ p ∈ ps, allowed p.name.name) : (s.addingParams ps).Names allowed := by
  induction ps generalizing s with
  | nil => exact names
  | cons p ps inductionHypothesis =>
    obtain ⟨first, others⟩ := List.forall_mem_cons.mp fit
    exact inductionHypothesis (names.adding (v := .ofParam p) first) others

/-- A name that is not allowed is not in scope. -/
theorem Names.getVariable? (names : s.Names allowed) {name : String} (forbidden : ¬ allowed name) :
    s.getVariable? name = none := by
  rw [getVariable?_eq_findSome?, List.findSome?_eq_none_iff]
  intro table member
  rw [SymbolTable.getVariable?, List.find?_eq_none]
  intro v declared named
  have same : v.name = name := by simpa using named
  exact forbidden (same ▸ names table member v declared)

end Scopes

/-- The name that is declared, if one is. -/
def Occurrence.declaredName? : Occurrence → Option String
  | .use .. => none
  | .declaration ident _ => some ident.name

/-- The names of all variables that are declared somewhere in a program. -/
def Program.declaredNames (p : Program) : List String :=
  p.occurrences.filterMap Occurrence.declaredName?

/-- Whether all variables that are declared have names that are allowed. -/
def Declares (allowed : String → Prop) (occurrences : List Occurrence) : Prop :=
  ∀ name ∈ occurrences.filterMap Occurrence.declaredName?, allowed name

theorem declares_append {allowed : String → Prop} {first second : List Occurrence} :
    Declares allowed (first ++ second) ↔ Declares allowed first ∧ Declares allowed second := by
  rw [Declares, List.filterMap_append, List.forall_mem_append]
  rfl

theorem declares_cons {allowed : String → Prop} {ident : Ident} {frame : Frame} {rest : List Occurrence} :
    Declares allowed (.declaration ident frame :: rest) ↔ allowed ident.name ∧ Declares allowed rest :=
  List.forall_mem_cons

theorem Declares.params {allowed : String → Prop} {frame : Frame} {ps : List Param}
    (declares : Declares allowed (frame.occurrences ps)) : ∀ p ∈ ps, allowed p.name.name := by
  induction ps generalizing frame with
  | nil => simp
  | cons p ps inductionHypothesis =>
    obtain ⟨first, others⟩ := declares_cons.mp declares
    exact List.forall_mem_cons.mpr ⟨first, inductionHypothesis others⟩

end FrontEnd
