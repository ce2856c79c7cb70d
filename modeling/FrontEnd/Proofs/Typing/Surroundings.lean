import FrontEnd.Proofs.Typing.Inversion

/-!
# Sites and contexts

A site knows the names that are in scope as tables of symbols, a context of the typing rules knows them
as declarations. The context describes the site if both say the same, and no name is declared twice;
then a name is found in the tables exactly if the rules resolve it.
-/

namespace FrontEnd

/-- The signature that a call relies on. -/
def FunctionSymbol.signature (f : FunctionSymbol) : Typing.Callee :=
  ⟨f.name, f.takes, f.returns⟩

def FunctionDecl.signature (decl : FunctionDecl) : Typing.Callee :=
  ⟨decl.name.name, decl.takes, decl.gives⟩

def DatatypeSymbol.shape (d : DatatypeSymbol) : String × List (TypeTag × String) :=
  (d.name, d.fields)

def DatatypeDecl.shape (decl : DatatypeDecl) : String × List (TypeTag × String) :=
  (decl.name.name, decl.fields.map fun p => (p.type.tag, p.name.name))

/-- The fields of a symbol are those of the declaration, without their regions. -/
theorem DatatypeSymbol.field?_of_shape {d : DatatypeSymbol} {decl : DatatypeDecl}
    (same : d.shape = decl.shape) (name : String) :
    d.field? name = (decl.fields.find? fun p => p.name.name = name).map fun p => p.type.tag := by
  have fields : d.fields = decl.fields.map fun p => (p.type.tag, p.name.name) :=
    (Prod.mk.inj same).2
  rw [DatatypeSymbol.field?, fields]
  induction decl.fields with
  | nil => rfl
  | cons p ps inductionHypothesis =>
    by_cases named : p.name.name = name <;> simp [named, inductionHypothesis]

def VariableSymbol.binding (v : VariableSymbol) : Typing.Binding :=
  ⟨v.name, v.type⟩

def SymbolTable.bindings (t : SymbolTable) : List Typing.Binding :=
  t.vars.map VariableSymbol.binding

/-- Where keys are distinct, what is found under a key is the only one that has it. -/
theorem find?_eq_some_iff_of_nodup {α : Type} {key : α → String} {xs : List α}
    (distinct : (xs.map key).Nodup) (name : String) (x : α) :
    xs.find? (fun x => key x = name) = some x ↔ x ∈ xs ∧ key x = name := by
  induction xs with
  | nil => simp
  | cons y ys inductionHypothesis =>
    obtain ⟨notAgain, distinctRest⟩ := List.nodup_cons.mp distinct
    by_cases same : key y = name
    · rw [List.find?_cons_of_pos (by simpa using same), Option.some.injEq, List.mem_cons]
      constructor
      · intro isFirst
        subst isFirst
        exact ⟨.inl rfl, same⟩
      · intro holds
        obtain ⟨member, named⟩ := holds
        cases member with
        | inl isFirst => exact isFirst.symm
        | inr further =>
          -- two with one key would make it occur again among the keys of the rest
          have again : key y ∈ ys.map key :=
            List.mem_map.mpr ⟨x, further, named.trans same.symm⟩
          exact absurd again notAgain
    · rw [List.find?_cons_of_neg (by simpa using same), inductionHypothesis distinctRest,
        List.mem_cons]
      constructor
      · intro holds
        obtain ⟨further, named⟩ := holds
        exact ⟨.inr further, named⟩
      · intro holds
        obtain ⟨member, named⟩ := holds
        cases member with
        | inl isFirst =>
          subst isFirst
          exact absurd named same
        | inr further => exact ⟨further, named⟩

/-- The same of two lists of things that are equal in all that matters. -/
theorem find?_map_eq_some_iff {α β γ : Type} {f : α → γ} {g : β → γ} {k : γ → String}
    {xs : List α} {ys : List β} (same : xs.map f = ys.map g)
    (distinct : (ys.map fun y => k (g y)).Nodup) (name : String) (c : γ) :
    (xs.find? fun x => k (f x) = name).map f = some c ↔
      ∃ y ∈ ys, k (g y) = name ∧ g y = c := by
  have distinctImages : ((ys.map g).map k).Nodup := by
    rw [List.map_map]
    exact distinct
  have unique := find?_eq_some_iff_of_nodup distinctImages name c
  rw [← same, List.find?_map, same, List.mem_map] at unique
  refine unique.trans ?_
  constructor
  · intro holds
    obtain ⟨⟨y, member, image⟩, named⟩ := holds
    exact ⟨y, member, by rw [image, named], image⟩
  · intro holds
    obtain ⟨y, member, named, image⟩ := holds
    exact ⟨⟨y, member, image⟩, by rw [← image, named]⟩

/-! ## Variables -/

theorem SymbolTable.getVariable?_binding (t : SymbolTable) (name : String) :
    (t.getVariable? name).map VariableSymbol.binding =
      t.bindings.find? fun b => b.name = name := by
  rw [SymbolTable.bindings, List.find?_map]
  rfl

theorem SymbolTable.bindings_adding {t : SymbolTable} {v : VariableSymbol}
    (free : ∀ b ∈ t.bindings, b.name ≠ v.name) :
    (t.adding v).bindings = t.bindings ++ [v.binding] := by
  have absent : t.bindings.find? (fun b => b.name = v.name) = none := by
    simpa using free
  rw [← t.getVariable?_binding v.name, Option.map_eq_none_iff] at absent
  simp [SymbolTable.adding, absent, SymbolTable.bindings]

namespace Typing

/-- The variable that is found for a name is the one that the name refers to. -/
theorem findSome?_eq_some_iff_resolves {tables : List SymbolTable}
    (distinct : ∀ t ∈ tables, (t.bindings.map Binding.name).Nodup) (name : String)
    (type : TypeTag) :
    ((tables.findSome? fun t => t.getVariable? name).map VariableSymbol.type) = some type ↔
      Resolves name type (tables.map SymbolTable.bindings) := by
  induction tables with
  | nil =>
    constructor
    · intro found
      cases found
    · intro resolves
      cases resolves
  | cons t tables inductionHypothesis =>
    have here := t.getVariable?_binding name
    have unique := find?_eq_some_iff_of_nodup (distinct t (by simp)) name
    rw [List.findSome?_cons, List.map_cons, resolves_cons_iff]
    cases found : t.getVariable? name with
    | some v =>
      rw [found] at here
      have first := (unique v.binding).mp here.symm
      have notAbsent : ¬ ∀ b ∈ t.bindings, b.name ≠ name := fun absent => absent _ first.1 first.2
      -- the scope has one variable of the name, so the type declared there is that of `v`
      have declared : ⟨name, type⟩ ∈ t.bindings ↔ v.type = type := by
        rw [← and_iff_left (a := _ ∈ _) (show (⟨name, type⟩ : Binding).name = name from rfl),
          ← unique, ← here]
        have named : v.name = name := first.2
        simp [VariableSymbol.binding, named]
      simp [notAbsent, declared]
    | none =>
      rw [found] at here
      have absent : ∀ b ∈ t.bindings, b.name ≠ name := by
        simpa using here.symm
      have notDeclared : ⟨name, type⟩ ∉ t.bindings := fun declared => absent _ declared rfl
      rw [inductionHypothesis fun t member => distinct t (by simp [member])]
      exact ⟨fun resolves => .inr ⟨absent, resolves⟩, fun either =>
        (either.resolve_left notDeclared).2⟩

/-! ## Descriptions -/

/-- The context says of the site what is to be known of it, and declares no name twice. -/
structure Context.Describes (Γ : Context) (site : Site) : Prop where
  library : site.library = Γ.library
  functions : site.scopes.global.functions.map FunctionSymbol.signature =
    Γ.functions.map FunctionDecl.signature
  datatypes : site.scopes.global.datatypes.map DatatypeSymbol.shape =
    Γ.datatypes.map DatatypeDecl.shape
  scopes : site.scopes.tables.map SymbolTable.bindings = Γ.scopes
  returns : site.returns = Γ.returns
  inLoop : site.loopDepth ≠ 0 ↔ Γ.inLoop = true
  distinctFunctions : (Γ.functions.map fun decl => decl.name.name).Nodup
  distinctDatatypes : (Γ.datatypes.map fun decl => decl.name.name).Nodup
  distinctFields : ∀ decl ∈ Γ.datatypes, (decl.fields.map fun p => p.name.name).Nodup
  distinctVariables : ∀ scope ∈ Γ.scopes, (scope.map Binding.name).Nodup

namespace Context.Describes

variable {Γ : Context} {site : Site}

theorem getFunction?_iff (describes : Γ.Describes site) (name : String) (signature : Callee) :
    (site.scopes.getFunction? name).map FunctionSymbol.signature = some signature ↔
      ∃ decl ∈ Γ.functions, decl.name.name = name ∧ decl.signature = signature :=
  find?_map_eq_some_iff (k := Callee.name) describes.functions describes.distinctFunctions
    name signature

theorem getDatatype?_iff (describes : Γ.Describes site) (name : String)
    (shape : String × List (TypeTag × String)) :
    (site.scopes.getDatatype? name).map DatatypeSymbol.shape = some shape ↔
      ∃ decl ∈ Γ.datatypes, decl.name.name = name ∧ decl.shape = shape :=
  find?_map_eq_some_iff (k := Prod.fst) describes.datatypes describes.distinctDatatypes name shape

theorem getVariable?_iff (describes : Γ.Describes site) (name : String) (type : TypeTag) :
    (site.scopes.getVariable? name).map VariableSymbol.type = some type ↔
      Resolves name type Γ.scopes := by
  have distinct : ∀ t ∈ site.scopes.tables, (t.bindings.map Binding.name).Nodup := by
    intro t member
    apply describes.distinctVariables
    rw [← describes.scopes]
    exact List.mem_map_of_mem member
  rw [Scopes.getVariable?_eq_findSome?, findSome?_eq_some_iff_resolves distinct, describes.scopes]

theorem callee_iff (describes : Γ.Describes site) (function : Ident) (f : Callee) :
    site.callee function = .ok f ↔
      ∃ decl ∈ Γ.functions, decl.name.name = function.name ∧ decl.signature = f := by
  rw [← describes.getFunction?_iff]
  unfold Env.callee
  cases found : site.scopes.getFunction? function.name with
  | none => simp
  | some symbol =>
    have named : symbol.name = function.name := by simpa using List.find?_some found
    simp [FunctionSymbol.signature, named]

theorem libraryCallee_iff (describes : Γ.Describes site) (space function : Ident) (f : Callee) :
    site.libraryCallee space function = .ok f ↔
      ∃ symbol, Γ.library.getFunction? space.name function.name = some symbol ∧
        ⟨space.name ++ "::" ++ function.name, symbol.takes, symbol.returns⟩ = f := by
  rw [← describes.library]
  simp only [Env.libraryCallee]
  cases found : site.library.getFunction? space.name function.name with
  | none =>
    cases site.library.hasSpace space.name <;> simp
  | some symbol =>
    have hasSpace : site.library.hasSpace space.name = true := by
      obtain ⟨entry, first, _⟩ := Option.map_eq_some_iff.mp found
      have matching := List.find?_some first
      simp only [decide_eq_true_eq] at matching
      exact List.any_eq_true.mpr ⟨entry, List.mem_of_find?_eq_some first, by simp [matching.1]⟩
    simp [hasSpace]

theorem field?_iff (describes : Γ.Describes site) {decl : DatatypeDecl} (member : decl ∈ Γ.datatypes)
    {d : DatatypeSymbol} (same : d.shape = decl.shape) (name : String) (type : TypeTag) :
    d.field? name = some type ↔
      ∃ p ∈ decl.fields, p.name.name = name ∧ p.type.tag = type := by
  have unique := find?_eq_some_iff_of_nodup (describes.distinctFields decl member) name
  rw [DatatypeSymbol.field?_of_shape same, Option.map_eq_some_iff]
  constructor
  · intro holds
    obtain ⟨p, first, typed⟩ := holds
    obtain ⟨field, named⟩ := (unique p).mp first
    exact ⟨p, field, named, typed⟩
  · intro holds
    obtain ⟨p, field, named, typed⟩ := holds
    exact ⟨p, (unique p).mpr ⟨field, named⟩, typed⟩

/-! ## Around the parts of statements -/

theorem scopes_eq (describes : Γ.Describes site) :
    ∃ others, site.scopes.tables = site.scopes.current :: others ∧
      Γ.scopes = site.scopes.current.bindings :: others.map SymbolTable.bindings := by
  -- any variable will do, for nothing is said of it
  obtain ⟨others, tables, _⟩ := site.scopes.tables_adding ⟨"", .int, none, default⟩
  refine ⟨others, tables, ?_⟩
  rw [← describes.scopes, tables, List.map_cons]

theorem fresh_iff (describes : Γ.Describes site) (name : String) :
    Γ.Fresh name ↔ site.scopes.current.getVariable? name = none := by
  obtain ⟨others, _, scopes⟩ := describes.scopes_eq
  have found := site.scopes.current.getVariable?_binding name
  rw [← Option.map_eq_none_iff (f := VariableSymbol.binding), found]
  simp [Fresh, scopes]

theorem declaring (describes : Γ.Describes site) {v : VariableSymbol} (fresh : Γ.Fresh v.name) :
    (Γ.declaring v.binding).Describes (site.within (site.scopes.adding v)) := by
  obtain ⟨others, tables, behindTables⟩ := site.scopes.tables_adding v
  obtain ⟨functions, datatypes⟩ := site.scopes.global_adding v
  have scopes : Γ.scopes = site.scopes.current.bindings :: others.map SymbolTable.bindings := by
    rw [← describes.scopes, tables, List.map_cons]
  have free : ∀ b ∈ site.scopes.current.bindings, b.name ≠ v.name := by
    simpa [Fresh, scopes] using fresh
  exact { describes with
    functions := (congrArg _ functions).trans describes.functions
    datatypes := (congrArg _ datatypes).trans describes.datatypes
    scopes := by
      show (site.scopes.adding v).tables.map _ = (Γ.scopes.headD [] ++ [v.binding]) :: Γ.scopes.tail
      rw [behindTables, scopes, List.map_cons, SymbolTable.bindings_adding free]
      rfl
    distinctVariables := by
      have distinct := describes.distinctVariables
      rw [scopes] at distinct
      intro scope member
      simp only [Context.declaring, scopes, List.headD_cons, List.tail_cons] at member
      cases member with
      | head =>
        have before := distinct _ (List.mem_cons_self ..)
        have apart : ∀ name ∈ site.scopes.current.bindings.map Binding.name, name ≠ v.name := by
          simpa using free
        rw [List.map_append, List.nodup_append]
        exact ⟨before, by simp, by simpa [VariableSymbol.binding] using apart⟩
      | tail _ further => exact distinct scope (List.mem_cons_of_mem _ further) }

theorem behind (describes : Γ.Describes site) {s : Statement} (accepts : Γ.Accepts s) :
    (Γ.behind s).Describes (site.within (site.scopes.behind s)) := by
  cases accepts with
  | declaration isType typed fresh => exact describes.declaring (v := .ofDecl _ _) fresh
  | _ => exact describes

theorem opened (describes : Γ.Describes site) : Γ.opened.Describes site.ofBlock :=
  { describes with
    scopes := congrArg (List.cons []) describes.scopes
    distinctVariables := by
      intro scope member
      cases member with
      | head => exact .nil
      | tail _ further => exact describes.distinctVariables scope further }

/-- Parameters of distinct names, none of which is taken, are all declared. -/
theorem declaringParams (describes : Γ.Describes site) {scope : List Binding}
    {outer : List (List Binding)} (scopes : Γ.scopes = scope :: outer) {params : List Param}
    (distinct : (params.map fun p => p.name.name).Nodup)
    (fresh : ∀ p ∈ params, ∀ b ∈ scope, b.name ≠ p.name.name) :
    ({ Γ with scopes := (scope ++ params.map Binding.ofParam) :: outer } : Context).Describes
      (site.within (site.scopes.addingParams params)) := by
  induction params generalizing Γ site scope with
  | nil =>
    simp only [List.map_nil, List.append_nil, ← scopes]
    exact describes
  | cons p ps inductionHypothesis =>
    obtain ⟨notAgain, distinctRest⟩ := List.nodup_cons.mp distinct
    have freshFirst : Γ.Fresh p.name.name := by
      simpa [Fresh, scopes] using fresh p (by simp)
    have first := describes.declaring (v := .ofParam p) freshFirst
    have scopesBehind : (Γ.declaring (.ofParam p)).scopes = (scope ++ [.ofParam p]) :: outer := by
      simp [Context.declaring, scopes]
    -- no parameter has the name of one before it, for the names are distinct
    have freshRest : ∀ q ∈ ps, ∀ b ∈ scope ++ [Binding.ofParam p], b.name ≠ q.name.name := by
      intro q member b declared
      rcases List.mem_append.mp declared with before | last
      · exact fresh q (by simp [member]) b before
      · rw [List.mem_singleton.mp last]
        intro same
        exact notAgain (List.mem_map.mpr ⟨q, member, same.symm⟩)
    have rest := inductionHypothesis first scopesBehind distinctRest freshRest
    rw [List.append_assoc] at rest
    exact rest

theorem ofFunction (describes : Γ.Describes site) {params : List Param}
    (distinct : (params.map fun p => p.name.name).Nodup) (returns : List TypeName) :
    (Γ.ofFunction params returns).Describes (site.ofBody params returns) := by
  have opened : Γ.opened.scopes = [] :: Γ.scopes := rfl
  have inside := describes.opened.declaringParams opened distinct (by simp)
  exact { inside with
    returns := rfl
    inLoop := by simp [Site.ofBody, Site.inFunction, Context.ofFunction] }

theorem ofLoop (describes : Γ.Describes site) : Γ.ofLoop.Describes site.inLoop :=
  { describes with inLoop := by simp [Site.inLoop, Context.ofLoop] }

end Context.Describes

end Typing

end FrontEnd
