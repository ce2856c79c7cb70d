import FrontEnd.Proofs.Typing.Surroundings

/-!
# Registration

The first of the two passes over a program finds nothing exactly if no function and no datatype is
declared twice. Then the scopes hold all of them, and the context of the program describes the site at
which the second pass starts.
-/

namespace FrontEnd

namespace Scopes

variable {s : Scopes}

theorem getFunction?_registering {decl : FunctionDecl}
    (free : s.getFunction? decl.name.name = none) (span : Span) (name : String) :
    (s.registering (.function decl span)).getFunction? name = none ↔
      s.getFunction? name = none ∧ name ≠ decl.name.name := by
  simp only [getFunction?, SymbolTable.getFunction?] at free ⊢
  simp [registering, getFunction?, SymbolTable.getFunction?, free, FunctionSymbol.ofDecl,
    eq_comm (a := name)]

theorem getDatatype?_registering {decl : DatatypeDecl}
    (free : s.getDatatype? decl.name.name = none) (span : Span) (name : String) :
    (s.registering (.datatype decl span)).getDatatype? name = none ↔
      s.getDatatype? name = none ∧ name ≠ decl.name.name := by
  simp only [getDatatype?, SymbolTable.getDatatype?] at free ⊢
  simp [registering, getDatatype?, SymbolTable.getDatatype?, free, DatatypeSymbol.ofDecl,
    eq_comm (a := name)]

/-! Functions and datatypes are in tables of their own, so that neither takes a name from the other. -/

theorem getDatatype?_registering_function (s : Scopes) (decl : FunctionDecl) (span : Span)
    (name : String) :
    (s.registering (.function decl span)).getDatatype? name = s.getDatatype? name := by
  simp only [registering]
  split <;> rfl

theorem getFunction?_registering_datatype (s : Scopes) (decl : DatatypeDecl) (span : Span)
    (name : String) :
    (s.registering (.datatype decl span)).getFunction? name = s.getFunction? name := by
  simp only [registering]
  split <;> rfl

theorem registerErrors_function_eq_nil_iff (s : Scopes) (decl : FunctionDecl) (span : Span) :
    s.registerErrors (.function decl span) = [] ↔ s.getFunction? decl.name.name = none := by
  cases found : s.getFunction? decl.name.name <;> simp [registerErrors, found]

theorem registerErrors_datatype_eq_nil_iff (s : Scopes) (decl : DatatypeDecl) (span : Span) :
    s.registerErrors (.datatype decl span) = [] ↔ s.getDatatype? decl.name.name = none := by
  cases found : s.getDatatype? decl.name.name <;> simp [registerErrors, found]

/-- What a statement registers, if its name is free, is its signature or its shape. -/
theorem registering_eq {statement : Statement} (clean : s.registerErrors statement = []) :
    (s.registering statement).global.functions.map FunctionSymbol.signature =
        s.global.functions.map FunctionSymbol.signature ++
          (Program.functions [statement]).map FunctionDecl.signature ∧
      (s.registering statement).global.datatypes.map DatatypeSymbol.shape =
        s.global.datatypes.map DatatypeSymbol.shape ++
          (Program.datatypes [statement]).map DatatypeDecl.shape := by
  cases statement with
  | function decl span =>
    have free := (s.registerErrors_function_eq_nil_iff decl span).mp clean
    simp [registering, free, Program.functions, Program.datatypes]
    rfl
  | datatype decl span =>
    have free := (s.registerErrors_datatype_eq_nil_iff decl span).mp clean
    simp [registering, free, Program.functions, Program.datatypes]
    rfl
  | _ => simp [registering, Program.functions, Program.datatypes]

end Scopes

namespace Program

theorem functions_cons (s : Statement) (rest : Program) :
    functions (s :: rest) = functions [s] ++ functions rest :=
  List.filterMap_append (l := [s])

theorem datatypes_cons (s : Statement) (rest : Program) :
    datatypes (s :: rest) = datatypes [s] ++ datatypes rest :=
  List.filterMap_append (l := [s])

end Program

namespace Scopes

theorem registeringEach_eq {s : Scopes} {p : Program} (clean : s.registerEachErrors p = []) :
    (s.registeringEach p).global.functions.map FunctionSymbol.signature =
        s.global.functions.map FunctionSymbol.signature ++
          p.functions.map FunctionDecl.signature ∧
      (s.registeringEach p).global.datatypes.map DatatypeSymbol.shape =
        s.global.datatypes.map DatatypeSymbol.shape ++ p.datatypes.map DatatypeDecl.shape := by
  induction p generalizing s with
  | nil => simp [registeringEach, Program.functions, Program.datatypes]
  | cons statement rest inductionHypothesis =>
    obtain ⟨cleanFirst, cleanRest⟩ := List.append_eq_nil_iff.mp clean
    obtain ⟨functions, datatypes⟩ := registering_eq cleanFirst
    obtain ⟨functionsRest, datatypesRest⟩ := inductionHypothesis cleanRest
    rw [registeringEach, functionsRest, functions, datatypesRest, datatypes,
      Program.functions_cons statement rest, Program.datatypes_cons statement rest]
    simp only [List.map_append, List.append_assoc, and_self]

theorem registerEachErrors_eq_nil_iff (s : Scopes) (p : Program) :
    s.registerEachErrors p = [] ↔
      AllFree (fun name => s.getFunction? name = none)
          (p.functions.map fun decl => decl.name.name) ∧
        AllFree (fun name => s.getDatatype? name = none)
          (p.datatypes.map fun decl => decl.name.name) := by
  induction p generalizing s with
  | nil => simp [registerEachErrors, Program.functions, Program.datatypes, allFree_nil]
  | cons statement rest inductionHypothesis =>
    rw [registerEachErrors, List.append_eq_nil_iff, inductionHypothesis]
    cases statement with
    | function decl span =>
      have functions : Program.functions (.function decl span :: rest) =
        decl :: Program.functions rest := rfl
      have datatypes : Program.datatypes (.function decl span :: rest) =
        Program.datatypes rest := rfl
      rw [functions, datatypes, List.map_cons, registerErrors_function_eq_nil_iff]
      by_cases free : s.getFunction? decl.name.name = none
      · rw [allFree_cons_iff (getFunction?_registering free span)]
        simp [free, getDatatype?_registering_function]
      · simp [free, AllFree]
    | datatype decl span =>
      have functions : Program.functions (.datatype decl span :: rest) =
        Program.functions rest := rfl
      have datatypes : Program.datatypes (.datatype decl span :: rest) =
        decl :: Program.datatypes rest := rfl
      rw [functions, datatypes, List.map_cons, registerErrors_datatype_eq_nil_iff]
      by_cases free : s.getDatatype? decl.name.name = none
      · rw [allFree_cons_iff (getDatatype?_registering free span)]
        simp [free, getFunction?_registering_datatype]
      · simp [free, AllFree]
    | _ =>
      simp only [registerErrors, true_and]
      rfl

end Scopes

namespace Program

/-- At the start of the second pass, the context of the program describes the site. -/
theorem describes_site (library : Library) {p : Program}
    (clean : Scopes.start.registerEachErrors p = [])
    (distinctFields : ∀ decl ∈ p.datatypes, (decl.fields.map fun q => q.name.name).Nodup) :
    (p.context library).Describes (p.site library) := by
  obtain ⟨functions, datatypes⟩ := Scopes.registeringEach_eq clean
  obtain ⟨inner, vars⟩ := Scopes.registeringEach_keeps .start p
  obtain ⟨distinctFunctions, distinctDatatypes⟩ :=
    (Scopes.registerEachErrors_eq_nil_iff .start p).mp clean
  exact {
    library := rfl
    functions := functions
    datatypes := datatypes
    scopes := by
      have tables : (p.site library).scopes.tables = [(p.site library).scopes.global] :=
        congrArg (· ++ _) inner
      have noVariable : (p.site library).scopes.global.bindings = [] :=
        congrArg (List.map _) vars
      rw [tables, List.map_singleton, noVariable]
      rfl
    returns := rfl
    inLoop := by simp [site, context]
    distinctFunctions := distinctFunctions.2
    distinctDatatypes := distinctDatatypes.2
    distinctFields := distinctFields
    distinctVariables := by simp [context] }

end Program

end FrontEnd
