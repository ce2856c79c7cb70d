import FrontEnd.Proofs.Typing.ErrorKinds

/-!
# What a program declares

The global table behind a program holds just the first declarations: of each name of a function, of a
datatype and of a variable, what the first statement at the top level that declares it makes known of it.
Functions and datatypes are put there by the first pass and variables by the second, and what is inside of
other statements never comes there. Each later declaration of a function or a datatype is reported, at its
name and with the region of the first.
-/

namespace FrontEnd

/-! ## First declarations -/

section

variable {α : Type} {name : α → String} {table declared : List α}

/-- A table has of every name the first of some declarations and nothing else, in their order. -/
structure KeepsFirsts (name : α → String) (table declared : List α) : Prop where
  first : ∀ n, (table.find? fun x => name x = n) = declared.find? fun x => name x = n
  nodup : (table.map name).Nodup
  sublist : table.Sublist declared

theorem keepsFirsts_nil (name : α → String) : KeepsFirsts name [] [] :=
  ⟨fun _ => rfl, .nil, .slnil⟩

/-- With one more entry, if there is one and its name is not taken. -/
def keepFirst (name : α → String) (table : List α) (entry : Option α) : List α :=
  match entry with
  | none => table
  | some x => if (table.find? fun y => name y = name x).isSome then table else table ++ [x]

theorem KeepsFirsts.keepFirst (keeps : KeepsFirsts name table declared) (entry : Option α) :
    KeepsFirsts name (keepFirst name table entry) (declared ++ entry.toList) := by
  cases entry with
  | none => simpa [FrontEnd.keepFirst] using keeps
  | some x =>
    simp only [FrontEnd.keepFirst, Option.toList_some]
    split
    next taken =>
      refine ⟨fun n => ?_, keeps.nodup, keeps.sublist.trans (List.sublist_append_left _ _)⟩
      rw [List.find?_append, ← keeps.first n]
      by_cases same : name x = n
      · -- the declaration is not the first of its name
        rw [same] at taken
        rw [Option.or_of_isSome taken]
      · simp [same]
    next free =>
      have absent : ∀ y ∈ table, name y ≠ name x := by simpa using free
      refine ⟨fun n => ?_, ?_, keeps.sublist.append (List.Sublist.refl _)⟩
      · rw [List.find?_append, List.find?_append, keeps.first n]
      · rw [List.map_append, List.map_singleton, List.nodup_append]
        exact ⟨keeps.nodup, by simp, by simpa using absent⟩

/-- What one statement does to a table of the global scope, a run of statements does with all. -/
theorem KeepsFirsts.foldl (tableOf : Scopes → List α) {step : Scopes → Statement → Scopes}
    {declared? : Statement → Option α}
    (each : ∀ s statement, s.inner = [] → (step s statement).inner = [] ∧
      tableOf (step s statement) = FrontEnd.keepFirst name (tableOf s) (declared? statement))
    {s : Scopes} (atGlobal : s.inner = []) (keeps : KeepsFirsts name (tableOf s) declared)
    (statements : List Statement) :
    KeepsFirsts name (tableOf (statements.foldl step s))
      (declared ++ statements.filterMap declared?) := by
  induction statements generalizing s declared with
  | nil => simpa using keeps
  | cons statement rest inductionHypothesis =>
    obtain ⟨stays, steps⟩ := each s statement atGlobal
    have behind := keeps.keepFirst (declared? statement)
    rw [← steps] at behind
    have done := inductionHypothesis stays behind
    cases found : declared? statement <;> simpa [found] using done

end

/-! ## Declarations at the top level -/

namespace Statement

def functionDecl? : Statement → Option (Located FunctionDecl)
  | .function decl span => some ⟨decl, span⟩
  | _ => none

def datatypeDecl? : Statement → Option (Located DatatypeDecl)
  | .datatype decl span => some ⟨decl, span⟩
  | _ => none

def variableDecl? : Statement → Option (Located VariableDecl)
  | .declaration _ decl span => some ⟨decl, span⟩
  | _ => none

end Statement

namespace Program

/-- The functions that are declared at the top level, with the regions of the statements. -/
def functionDecls (p : Program) : List (Located FunctionDecl) :=
  p.filterMap Statement.functionDecl?

def datatypeDecls (p : Program) : List (Located DatatypeDecl) :=
  p.filterMap Statement.datatypeDecl?

/-- The variables that are declared at the top level, chained or not. -/
def variableDecls (p : Program) : List (Located VariableDecl) :=
  p.filterMap Statement.variableDecl?

end Program

/-! What a located declaration makes known. -/

def FunctionSymbol.declaredBy (d : Located FunctionDecl) : FunctionSymbol :=
  .ofDecl d.value.name.name d.value d.span

def DatatypeSymbol.declaredBy (d : Located DatatypeDecl) : DatatypeSymbol :=
  .ofDecl d.value d.span

def VariableSymbol.declaredBy (d : Located VariableDecl) : VariableSymbol :=
  .ofDecl d.value d.span

/-! ## Declarations of a name that is taken -/

section

variable {α : Type} (error : String → Span → Typing.Error) (ident : α → Ident)

/-- The error of a declaration behind some others, if one of these is of its name. -/
def repetition? (before : List (Located α)) (d : Located α) : Option (Located Typing.Error) :=
  (before.find? fun b => (ident b.value).name = (ident d.value).name).map fun first =>
    ⟨error (ident d.value).name first.span, (ident d.value).span⟩

/-- The errors of declarations behind some others, one for each of a name that was declared before. -/
def repetitions (before : List (Located α)) : List (Located α) → List (Located Typing.Error)
  | [] => []
  | d :: rest => (repetition? error ident before d).toList ++ repetitions (before ++ [d]) rest

variable {error ident} {of? : Typing.Error → Option String}

theorem countP_repetition? (names : ∀ name first, of? (error name first) = some name)
    (name : String) (before : List (Located α)) (d : Located α) :
    (repetition? error ident before d).toList.countP (fun e => of? e.value = some name) =
      if (ident d.value).name = name ∧ before.any fun b => (ident b.value).name = name
        then 1 else 0 := by
  by_cases named : (ident d.value).name = name
  · subst named
    cases found : before.find? fun b => (ident b.value).name = (ident d.value).name with
    | none =>
      have absent := List.find?_eq_none.mp found
      simp only [decide_eq_true_eq] at absent
      simpa [repetition?, found] using absent
    | some first =>
      have same := List.find?_some found
      have earlier : before.any fun b => (ident b.value).name = (ident d.value).name :=
        List.any_eq_true.mpr ⟨first, List.mem_of_find?_eq_some found, same⟩
      simp [repetition?, found, names, earlier]
  · cases found : before.find? fun b => (ident b.value).name = (ident d.value).name <;>
      simp [repetition?, found, names, named]

/-- Of `n` declarations of one name, all but the first are reported. -/
theorem countP_repetitions (names : ∀ name first, of? (error name first) = some name)
    (name : String) (before declared : List (Located α)) :
    (repetitions error ident before declared).countP (fun e => of? e.value = some name) =
      declared.countP (fun d => (ident d.value).name = name) -
        if before.any fun b => (ident b.value).name = name then 0 else 1 := by
  induction declared generalizing before with
  | nil => simp [repetitions]
  | cons d rest inductionHypothesis =>
    rw [repetitions, List.countP_append, countP_repetition? names, inductionHypothesis,
      List.countP_cons, List.any_append]
    by_cases named : (ident d.value).name = name
    · by_cases earlier : before.any fun b => (ident b.value).name = name
      · simp [named, earlier]
        omega
      · simp [named, earlier]
    · simp [named]

end

/-! ## The first pass -/

namespace Scopes

theorem registeringEach_eq_foldl (s : Scopes) (statements : List Statement) :
    s.registeringEach statements = statements.foldl registering s := by
  induction statements generalizing s with
  | nil => rfl
  | cons statement rest inductionHypothesis => exact inductionHypothesis (s.registering statement)

theorem behindEach_eq_foldl (s : Scopes) (statements : List Statement) :
    s.behindEach statements = statements.foldl behind s := by
  induction statements generalizing s with
  | nil => rfl
  | cons statement rest inductionHypothesis => exact inductionHypothesis (s.behind statement)

end Scopes

/-- One kind of things that are declared for all of a program: how a statement declares one, what the
declaration makes known, where it is kept and how another of its name is reported. -/
structure Registry (α β : Type) where
  declared? : Statement → Option (Located α)
  ident : α → Ident
  symbol : Located α → β
  name : β → String
  region : β → Span
  table : Scopes → List β
  error : String → Span → Typing.Error
  of? : Typing.Error → Option String
  name_symbol : ∀ d, name (symbol d) = (ident d.value).name
  region_symbol : ∀ d, region (symbol d) = d.span
  of_error : ∀ n first, of? (error n first) = some n
  apart : ∀ e, Typing.Error.isOfStatement e = true → (of? e).isSome = false
  registers : ∀ s statement,
    table (s.registering statement) = keepFirst name (table s) ((declared? statement).map symbol)
  reports : ∀ s statement,
    (s.registerErrors statement).filter (fun e => (of? e.value).isSome) =
      ((declared? statement).bind fun d =>
        ((table s).find? fun x => name x = (ident d.value).name).map fun first =>
          ⟨error (ident d.value).name (region first), (ident d.value).span⟩).toList

namespace Registry

variable {α β : Type} (r : Registry α β)

/-- Behind the first pass the table has the first declarations of the program. -/
theorem keepsFirsts (empty : r.table .start = []) (p : Program) :
    KeepsFirsts r.name (r.table (Scopes.start.registeringEach p))
      ((p.filterMap r.declared?).map r.symbol) := by
  have start : KeepsFirsts r.name (r.table .start) [] := by
    rw [empty]
    exact keepsFirsts_nil r.name
  have done := start.foldl r.table (fun s statement atGlobal =>
    ⟨(s.registering_keeps statement).1.trans atGlobal, r.registers s statement⟩) rfl p
  rwa [List.nil_append, ← List.map_filterMap, ← Scopes.registeringEach_eq_foldl] at done

/-- The first pass reports what repeats a declaration, whatever else it reports. -/
theorem filter_registerEachErrors {s : Scopes} {before : List (Located α)}
    (keeps : KeepsFirsts r.name (r.table s) (before.map r.symbol)) (statements : List Statement) :
    (s.registerEachErrors statements).filter (fun e => (r.of? e.value).isSome) =
      repetitions r.error r.ident before (statements.filterMap r.declared?) := by
  induction statements generalizing s before with
  | nil => rfl
  | cons statement rest inductionHypothesis =>
    have behind := keeps.keepFirst ((r.declared? statement).map r.symbol)
    rw [← r.registers] at behind
    rw [Scopes.registerEachErrors, List.filter_append, r.reports]
    cases declares : r.declared? statement with
    | none =>
      rw [declares] at behind
      simp [declares, inductionHypothesis (by simpa using behind)]
    | some d =>
      rw [declares, Option.map_some, Option.toList_some, ← List.map_singleton, ← List.map_append]
        at behind
      -- the table has the first declaration of the name, and so its region
      have first := keeps.first (r.ident d.value).name
      rw [List.find?_map] at first
      have reported : (((r.table s).find? fun x => r.name x = (r.ident d.value).name).map fun first =>
          (⟨r.error (r.ident d.value).name (r.region first), (r.ident d.value).span⟩ :
            Located Typing.Error)) = repetition? r.error r.ident before d := by
        simp only [first, repetition?, Option.map_map, Function.comp_def, r.name_symbol,
          r.region_symbol]
      rw [Option.bind_some, reported, List.filterMap_cons_some declares, repetitions,
        inductionHypothesis behind]

/-- The errors of a whole check are no others. -/
theorem filter_found (empty : r.table .start = []) (library : Library) (p : Program) :
    (p.found library).filter (fun e => (r.of? e.value).isSome) =
      repetitions r.error r.ident [] (p.filterMap r.declared?) := by
  have start : KeepsFirsts r.name (r.table .start) (([] : List (Located α)).map r.symbol) := by
    rw [empty]
    exact keepsFirsts_nil r.name
  have second := (Typing.Site.only_foundEach (p.site library) p).filter_eq_nil r.apart
  rw [Program.found, List.filter_append, r.filter_registerEachErrors start, second, List.append_nil]

theorem countP_found (empty : r.table .start = []) (library : Library) (p : Program)
    (name : String) :
    (p.found library).countP (fun e => r.of? e.value = some name) =
      (p.filterMap r.declared?).countP (fun d => (r.ident d.value).name = name) - 1 := by
  have named : ∀ e : Located Typing.Error, decide (r.of? e.value = some name) =
      (decide (r.of? e.value = some name) && (r.of? e.value).isSome) := by
    intro e
    by_cases same : r.of? e.value = some name <;> simp [same]
  rw [funext named, ← List.countP_filter, r.filter_found empty, countP_repetitions r.of_error]
  rfl

end Registry

/-- The functions of a program. -/
def Registry.functions : Registry FunctionDecl FunctionSymbol where
  declared? := Statement.functionDecl?
  ident := FunctionDecl.name
  symbol := .declaredBy
  name := FunctionSymbol.name
  region := FunctionSymbol.span
  table s := s.global.functions
  error := .duplicateFunction
  of? := Typing.Error.duplicateFunction?
  name_symbol _ := rfl
  region_symbol _ := rfl
  of_error _ _ := rfl
  apart e ofStatement := by
    simp only [Typing.Error.isOfStatement, Bool.and_eq_true, Option.isNone_iff_eq_none] at ofStatement
    rw [ofStatement.1, Option.isSome_none]
  registers s statement := by
    cases statement with
    | function decl span =>
      simp only [Scopes.registering, Scopes.getFunction?, SymbolTable.getFunction?, Statement.functionDecl?,
        Option.map_some, keepFirst]
      exact apply_ite (fun s : Scopes => s.global.functions) _ _ _
    | datatype decl span =>
      simp only [Scopes.registering]
      split <;> rfl
    | _ => rfl
  reports s statement := by
    cases statement with
    | function decl span =>
      simp only [Scopes.registerErrors, Scopes.getFunction?, SymbolTable.getFunction?,
        Statement.functionDecl?, Option.bind_some]
      cases s.global.functions.find? fun f => f.name = decl.name.name <;> rfl
    | datatype decl span =>
      simp only [Scopes.registerErrors]
      split <;> rfl
    | _ => rfl

/-- The datatypes of a program. -/
def Registry.datatypes : Registry DatatypeDecl DatatypeSymbol where
  declared? := Statement.datatypeDecl?
  ident := DatatypeDecl.name
  symbol := .declaredBy
  name := DatatypeSymbol.name
  region := DatatypeSymbol.span
  table s := s.global.datatypes
  error := .duplicateDatatype
  of? := Typing.Error.duplicateDatatype?
  name_symbol _ := rfl
  region_symbol _ := rfl
  of_error _ _ := rfl
  apart e ofStatement := by
    simp only [Typing.Error.isOfStatement, Bool.and_eq_true, Option.isNone_iff_eq_none] at ofStatement
    rw [ofStatement.2, Option.isSome_none]
  registers s statement := by
    cases statement with
    | function decl span =>
      simp only [Scopes.registering]
      split <;> rfl
    | datatype decl span =>
      simp only [Scopes.registering, Scopes.getDatatype?, SymbolTable.getDatatype?,
        Statement.datatypeDecl?, Option.map_some, keepFirst]
      exact apply_ite (fun s : Scopes => s.global.datatypes) _ _ _
    | _ => rfl
  reports s statement := by
    cases statement with
    | function decl span =>
      simp only [Scopes.registerErrors]
      split <;> rfl
    | datatype decl span =>
      simp only [Scopes.registerErrors, Scopes.getDatatype?, SymbolTable.getDatatype?,
        Statement.datatypeDecl?, Option.bind_some]
      cases s.global.datatypes.find? fun d => d.name = decl.name.name <;> rfl
    | _ => rfl

/-! ## The second pass -/

namespace Scopes

/-- Statements declare neither functions nor datatypes in the second pass. -/
theorem global_behindEach (s : Scopes) (statements : List Statement) :
    (s.behindEach statements).global.functions = s.global.functions ∧
      (s.behindEach statements).global.datatypes = s.global.datatypes := by
  induction statements generalizing s with
  | nil => exact ⟨rfl, rfl⟩
  | cons statement rest inductionHypothesis =>
    have behind : (s.behind statement).global.functions = s.global.functions ∧
        (s.behind statement).global.datatypes = s.global.datatypes := by
      cases statement with
      | declaration => exact s.global_adding _
      | _ => exact ⟨rfl, rfl⟩
    obtain ⟨functions, datatypes⟩ := inductionHypothesis (s.behind statement)
    exact ⟨functions.trans behind.1, datatypes.trans behind.2⟩

/-- At the top level, a statement declares a variable in the global table. -/
theorem vars_behind (s : Scopes) (statement : Statement) (atGlobal : s.inner = []) :
    (s.behind statement).inner = [] ∧
      (s.behind statement).global.vars =
        keepFirst VariableSymbol.name s.global.vars (statement.variableDecl?.map .declaredBy) := by
  cases statement with
  | declaration chained decl span =>
    refine ⟨inner_adding atGlobal _, ?_⟩
    rw [behind, adding, atGlobal]
    exact apply_ite SymbolTable.vars _ _ _
  | _ => exact ⟨atGlobal, rfl⟩

end Scopes

namespace Program

/-- The global table has the first declarations of a program. The first pass puts functions and datatypes there, and
the second one, which leaves these alone, variables. -/
theorem globals_keepsFirsts (p : Program) :
    KeepsFirsts FunctionSymbol.name p.globals.functions (p.functionDecls.map .declaredBy) ∧
      KeepsFirsts DatatypeSymbol.name p.globals.datatypes (p.datatypeDecls.map .declaredBy) ∧
      KeepsFirsts VariableSymbol.name p.globals.vars (p.variableDecls.map .declaredBy) := by
  obtain ⟨inner, noVariable⟩ := Scopes.registeringEach_keeps .start p
  obtain ⟨functions, datatypes⟩ := (Scopes.start.registeringEach p).global_behindEach p
  have start : KeepsFirsts VariableSymbol.name (Scopes.start.registeringEach p).global.vars [] := by
    rw [noVariable]
    exact keepsFirsts_nil VariableSymbol.name
  have vars := start.foldl (fun s => s.global.vars) Scopes.vars_behind inner p
  rw [List.nil_append, ← List.map_filterMap, ← Scopes.behindEach_eq_foldl] at vars
  refine ⟨?_, ?_, vars⟩
  · rw [show p.globals.functions = _ from functions]
    exact Registry.functions.keepsFirsts rfl p
  · rw [show p.globals.datatypes = _ from datatypes]
    exact Registry.datatypes.keepsFirsts rfl p

/-- Each entry of a table comes from a statement that declares it. -/
theorem exists_of_keepsFirsts {α β : Type} {entryName : β → String} {table : List β} {p : Program}
    {declared? : Statement → Option (Located α)} {symbol : Located α → β}
    (keeps : KeepsFirsts entryName table ((p.filterMap declared?).map symbol)) {entry : β} (member : entry ∈ table) :
    ∃ s ∈ p, ∃ d, declared? s = some d ∧ symbol d = entry := by
  obtain ⟨d, declared, same⟩ := List.mem_map.mp (keeps.sublist.subset member)
  obtain ⟨s, inProgram, declares⟩ := List.mem_filterMap.mp declared
  exact ⟨s, inProgram, d, declares, same⟩

/-- Whatever is wrong with a program, the global table behind a check has the first declarations at the top
level, and just the later ones of functions and datatypes are reported as such. -/
theorem check_globals (library : Library) {p : Program} (calls : Statement.EachHoldsCalls p) :
    ∃ o, p.check library = .ok o ∧
      KeepsFirsts FunctionSymbol.name o.value.globals.functions (p.functionDecls.map .declaredBy) ∧
      KeepsFirsts DatatypeSymbol.name o.value.globals.datatypes (p.datatypeDecls.map .declaredBy) ∧
      KeepsFirsts VariableSymbol.name o.value.globals.vars (p.variableDecls.map .declaredBy) ∧
      o.errors.filter (fun e => e.value.duplicateFunction?.isSome) =
        repetitions .duplicateFunction FunctionDecl.name [] p.functionDecls ∧
      o.errors.filter (fun e => e.value.duplicateDatatype?.isSome) =
        repetitions .duplicateDatatype DatatypeDecl.name [] p.datatypeDecls ∧
      ∀ name,
        o.errors.countP (fun e => e.value.duplicateFunction? = some name) =
          p.functionDecls.countP (fun d => d.value.name.name = name) - 1 ∧
        o.errors.countP (fun e => e.value.duplicateDatatype? = some name) =
          p.datatypeDecls.countP (fun d => d.value.name.name = name) - 1 := by
  obtain ⟨functions, datatypes, vars⟩ := p.globals_keepsFirsts
  exact ⟨_, check_eq_globals library calls, functions, datatypes, vars, Registry.functions.filter_found rfl library p,
    Registry.datatypes.filter_found rfl library p, fun name =>
      ⟨Registry.functions.countP_found rfl library p name,
        Registry.datatypes.countP_found rfl library p name⟩⟩

/-- Of two functions of a name the first is kept and the second is reported. Of two variables of a name the
first is kept, and the one inside of the block does not come into the global table. -/
theorem check_globals_repeated :
    let region (line : Nat) : Span := ⟨0, 0, line, 0⟩
    let ident (name : String) (line : Nat) : Ident := ⟨name, region line⟩
    let function (line : Nat) : FunctionDecl := ⟨ident "f" line, [], [], ⟨[], region line⟩⟩
    let number (name : String) (line : Nat) : VariableDecl :=
      ⟨⟨.int, false, region line⟩, ident name line, .int line (region line)⟩
    let p : Program :=
      [.function (function 1) (region 1), .declaration false (number "x" 2) (region 2),
        .block ⟨[.declaration false (number "y" 3) (region 3)], region 3⟩ (region 3),
        .declaration true (number "x" 4) (region 4), .function (function 5) (region 5)]
    Statement.EachHoldsCalls p ∧
      ∃ o, p.check .empty = .ok o ∧
        KeepsFirsts FunctionSymbol.name o.value.globals.functions
          [.ofDecl "f" (function 1) (region 1), .ofDecl "f" (function 5) (region 5)] ∧
        KeepsFirsts DatatypeSymbol.name o.value.globals.datatypes [] ∧
        KeepsFirsts VariableSymbol.name o.value.globals.vars
          [.ofDecl (number "x" 2) (region 2), .ofDecl (number "x" 4) (region 4)] ∧
        o.errors.filter (fun e => e.value.duplicateFunction?.isSome) =
          [⟨.duplicateFunction "f" (region 1), region 5⟩] ∧
        o.errors.filter (fun e => e.value.duplicateDatatype?.isSome) = [] ∧
        o.errors.countP (fun e => e.value.duplicateFunction? = some "f") = 1 := by
  intro region ident function number p
  have calls : Statement.EachHoldsCalls p := ⟨trivial, trivial, ⟨trivial, trivial⟩, trivial, trivial, trivial⟩
  obtain ⟨o, checked, functions, datatypes, vars, repeated, none, counts⟩ := check_globals .empty calls
  exact ⟨calls, o, checked, functions, datatypes, vars, repeated, none, (counts "f").1⟩

end Program

end FrontEnd
