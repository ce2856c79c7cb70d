import FrontEnd.Proofs.Typing.Globals

/-!
# Declarations change places

The order in which functions and datatypes are declared makes no difference. Two neighbours at the top level
of which one declares a datatype, or both declare functions, may change places unless they declare the same
name: the program declares the same and the same is found in it, though not in the same order.

Behind the first pass the two programs have tables with the same entries in another order, and names stand for
the same in both (`Scopes.Alike`). Nothing that is found in a statement depends on more than that
(`Site.found_within`), and neither of the two statements changes what is found in the other.
-/

namespace FrontEnd

/-! ## Tables with the same entries -/

section

variable {α : Type} {name : α → String} {xs ys : List α}

/-- Whether two tables have the same entries, in any order, and of each name the same is found first. -/
structure SameEntries (name : α → String) (xs ys : List α) : Prop where
  perm : xs.Perm ys
  first : ∀ n, (xs.find? fun x => name x = n) = ys.find? fun y => name y = n

/-- An entry is put behind a table if its name is not taken there. -/
theorem keepFirst_eq_append (name : α → String) (xs : List α) (entry : Option α) :
    keepFirst name xs entry =
      xs ++ entry.toList.filter fun x => (xs.find? fun y => name y = name x).isNone := by
  cases entry with
  | none => simp [keepFirst]
  | some x => cases taken : xs.find? fun y => name y = name x <;> simp [keepFirst, taken]

/-- What was found before is still found, and behind it the entry. -/
theorem find?_keepFirst (name : α → String) (xs : List α) (entry : Option α) (n : String) :
    ((keepFirst name xs entry).find? fun x => name x = n) =
      (xs.find? fun x => name x = n).or (entry.toList.find? fun x => name x = n) := by
  rw [keepFirst_eq_append, List.find?_append]
  cases entry with
  | none => rfl
  | some x =>
    by_cases named : name x = n
    · subst named
      cases taken : xs.find? fun y => name y = name x <;> simp [taken]
    · cases taken : xs.find? fun y => name y = name x <;> simp [taken, named]

theorem SameEntries.keepFirst (same : SameEntries name xs ys) (entry : Option α) :
    SameEntries name (keepFirst name xs entry) (keepFirst name ys entry) := by
  refine ⟨?perm, fun n => ?first⟩
  case perm =>
    rw [keepFirst_eq_append, keepFirst_eq_append]
    simp only [same.first]
    exact same.perm.append_right _
  case first => rw [find?_keepFirst, find?_keepFirst, same.first]

/-- An entry of another name does not change what is found. -/
theorem find?_keepFirst_of_apart {entry : Option α} {n : String} (apart : ∀ x ∈ entry, name x ≠ n) :
    ((keepFirst name xs entry).find? fun x => name x = n) = xs.find? fun x => name x = n := by
  have none : (entry.toList.find? fun x => name x = n) = none := by simpa using apart
  rw [find?_keepFirst, none, Option.or_none]

/-- Of two entries of different names, neither keeps the other out of a table. -/
theorem keepFirst_keepFirst {first second : Option α}
    (apart : ∀ x ∈ first, ∀ y ∈ second, name x ≠ name y) :
    keepFirst name (keepFirst name xs first) second =
      xs ++ (first.toList.filter (fun x => (xs.find? fun y => name y = name x).isNone) ++
        second.toList.filter fun x => (xs.find? fun y => name y = name x).isNone) := by
  have same : second.toList.filter
        (fun y => ((keepFirst name xs first).find? fun x => name x = name y).isNone) =
      second.toList.filter fun y => (xs.find? fun x => name x = name y).isNone := by
    apply List.filter_congr
    intro y member
    rw [find?_keepFirst_of_apart fun x first => apart x first y (Option.mem_toList.mp member)]
  rw [keepFirst_eq_append name (keepFirst name xs first), same, keepFirst_eq_append name xs first,
    List.append_assoc]

/-- Entries of different names may be put into a table in either order. -/
theorem sameEntries_keepFirst {first second : Option α}
    (apart : ∀ x ∈ first, ∀ y ∈ second, name x ≠ name y) :
    SameEntries name (keepFirst name (keepFirst name xs first) second)
      (keepFirst name (keepFirst name xs second) first) := by
  refine ⟨?perm, fun n => ?first⟩
  case perm =>
    rw [keepFirst_keepFirst apart, keepFirst_keepFirst fun y member x other => (apart x other y member).symm]
    exact List.perm_append_comm.append_left xs
  case first =>
    by_cases named : ∃ x ∈ first, name x = n
    · obtain ⟨x, member, rfl⟩ := named
      rw [find?_keepFirst_of_apart fun y other => (apart x member y other).symm, find?_keepFirst,
        find?_keepFirst, find?_keepFirst_of_apart fun y other => (apart x member y other).symm]
    · have other : ∀ x ∈ first, name x ≠ n := fun x member same => named ⟨x, member, same⟩
      rw [find?_keepFirst, find?_keepFirst_of_apart other, find?_keepFirst_of_apart other, find?_keepFirst]

end

namespace Registry

variable {α β : Type} (r : Registry α β) {s t : Scopes} {a b : Statement}

theorem sameEntries_registering (same : SameEntries r.name (r.table s) (r.table t))
    (statement : Statement) :
    SameEntries r.name (r.table (s.registering statement)) (r.table (t.registering statement)) := by
  rw [r.registers, r.registers]
  exact same.keepFirst _

/-- Whether two statements do not declare the same. -/
def Apart (a b : Statement) : Prop :=
  ∀ d ∈ r.declared? a, ∀ e ∈ r.declared? b, (r.ident d.value).name ≠ (r.ident e.value).name

variable {r}

theorem Apart.symm (apart : r.Apart a b) : r.Apart b a :=
  fun e second d first => (apart d first e second).symm

theorem Apart.name_ne (apart : r.Apart a b) {x y : β} (first : x ∈ (r.declared? a).map r.symbol)
    (second : y ∈ (r.declared? b).map r.symbol) : r.name x ≠ r.name y := by
  obtain ⟨d, declaredFirst, rfl⟩ := Option.map_eq_some_iff.mp first
  obtain ⟨e, declaredSecond, rfl⟩ := Option.map_eq_some_iff.mp second
  rw [r.name_symbol, r.name_symbol]
  exact apart d declaredFirst e declaredSecond

theorem Apart.sameEntries (apart : r.Apart a b) (s : Scopes) :
    SameEntries r.name (r.table ((s.registering a).registering b))
      (r.table ((s.registering b).registering a)) := by
  simp only [r.registers]
  exact sameEntries_keepFirst fun x first y second => apart.name_ne first second

theorem Apart.find?_registering (apart : r.Apart a b) (s : Scopes) {e : Located α}
    (declared : r.declared? b = some e) :
    ((r.table (s.registering a)).find? fun x => r.name x = (r.ident e.value).name) =
      (r.table s).find? fun x => r.name x = (r.ident e.value).name := by
  rw [r.registers, ← r.name_symbol]
  apply find?_keepFirst_of_apart
  intro x first
  exact apart.name_ne first (by rw [declared]; rfl)

end Registry

/-- Whether two tables declare the same, the variables in the same order. -/
structure SymbolTable.Alike (t u : SymbolTable) : Prop where
  functions : SameEntries FunctionSymbol.name t.functions u.functions
  datatypes : SameEntries DatatypeSymbol.name t.datatypes u.datatypes
  vars : t.vars = u.vars

/-- Whether every name stands for the same in some scopes as in others. -/
structure Scopes.Alike (s t : Scopes) : Prop where
  inner : s.inner = t.inner
  global : s.global.Alike t.global

theorem SymbolTable.Alike.adding {t u : SymbolTable} (alike : t.Alike u) (v : VariableSymbol) :
    (t.adding v).Alike (u.adding v) := by
  have same : t.getVariable? v.name = u.getVariable? v.name := by
    rw [getVariable?, getVariable?, alike.vars]
  rw [SymbolTable.adding, SymbolTable.adding, same]
  split
  · exact alike
  · exact ⟨alike.functions, alike.datatypes, by rw [alike.vars]⟩

namespace Scopes

variable {s t : Scopes}

namespace Alike

theorem getFunction? (alike : s.Alike t) (name : String) : s.getFunction? name = t.getFunction? name :=
  alike.global.functions.first name

theorem getDatatype? (alike : s.Alike t) (name : String) : s.getDatatype? name = t.getDatatype? name :=
  alike.global.datatypes.first name

theorem getVariable? (alike : s.Alike t) (name : String) : s.getVariable? name = t.getVariable? name := by
  simp only [Scopes.getVariable?, SymbolTable.getVariable?, alike.inner, alike.global.vars]

theorem currentVariable? (alike : s.Alike t) (name : String) :
    s.current.getVariable? name = t.current.getVariable? name := by
  rw [current, current, alike.inner]
  cases t.inner with
  | nil => simp only [List.headD_nil, SymbolTable.getVariable?, alike.global.vars]
  | cons table inner => rfl

/-! Whatever is declared in both, they stay alike. -/

theorem push (alike : s.Alike t) : s.push.Alike t.push :=
  ⟨congrArg (SymbolTable.empty :: ·) alike.inner, alike.global⟩

theorem adding (alike : s.Alike t) (v : VariableSymbol) : (s.adding v).Alike (t.adding v) := by
  rw [Scopes.adding, Scopes.adding, alike.inner]
  cases t.inner with
  | nil => exact ⟨rfl, alike.global.adding v⟩
  | cons table inner => exact ⟨rfl, alike.global⟩

theorem addingParams (alike : s.Alike t) (ps : List Param) :
    (s.addingParams ps).Alike (t.addingParams ps) := by
  induction ps generalizing s t with
  | nil => exact alike
  | cons p ps inductionHypothesis => exact inductionHypothesis (alike.adding _)

theorem behind (alike : s.Alike t) (statement : Statement) :
    (s.behind statement).Alike (t.behind statement) := by
  cases statement with
  | declaration => exact alike.adding _
  | _ => exact alike

theorem behindEach (alike : s.Alike t) (statements : List Statement) :
    (s.behindEach statements).Alike (t.behindEach statements) := by
  induction statements generalizing s t with
  | nil => exact alike
  | cons statement rest inductionHypothesis => exact inductionHypothesis (alike.behind statement)

theorem registering (alike : s.Alike t) (statement : Statement) :
    (s.registering statement).Alike (t.registering statement) := by
  obtain ⟨innerFirst, varsFirst⟩ := s.registering_keeps statement
  obtain ⟨innerSecond, varsSecond⟩ := t.registering_keeps statement
  refine ⟨?inner, ?functions, ?datatypes, ?vars⟩
  case inner => rw [innerFirst, innerSecond, alike.inner]
  case functions => exact Registry.functions.sameEntries_registering alike.global.functions statement
  case datatypes => exact Registry.datatypes.sameEntries_registering alike.global.datatypes statement
  case vars => rw [varsFirst, varsSecond, alike.global.vars]

theorem registeringEach (alike : s.Alike t) (statements : List Statement) :
    (s.registeringEach statements).Alike (t.registeringEach statements) := by
  induction statements generalizing s t with
  | nil => exact alike
  | cons statement rest inductionHypothesis => exact inductionHypothesis (alike.registering statement)

theorem registerErrors (alike : s.Alike t) (statement : Statement) :
    s.registerErrors statement = t.registerErrors statement := by
  cases statement with
  | function decl span => simp only [Scopes.registerErrors, alike.getFunction?]
  | datatype decl span => simp only [Scopes.registerErrors, alike.getDatatype?]
  | _ => rfl

theorem registerEachErrors (alike : s.Alike t) (statements : List Statement) :
    s.registerEachErrors statements = t.registerEachErrors statements := by
  induction statements generalizing s t with
  | nil => rfl
  | cons statement rest inductionHypothesis =>
    rw [Scopes.registerEachErrors, Scopes.registerEachErrors, alike.registerErrors,
      inductionHypothesis (alike.registering statement)]

end Alike

end Scopes

/-! ## Errors depend on what names stand for -/

namespace Typing

/-- The same names of the library with others in scope. -/
def Env.within (env : Env) (scopes : Scopes) : Env :=
  { env with scopes }

section

variable {env : Env} {scopes : Scopes}

/-- Of a written type, only what the names of datatypes stand for matters. -/
theorem typeErrors_within (same : ∀ name, env.scopes.getDatatype? name = scopes.getDatatype? name)
    (type : TypeName) : (env.within scopes).typeErrors type = env.typeErrors type := by
  simp only [Env.typeErrors, Env.within, same]
  rfl

theorem fieldErrors_within (same : ∀ name, env.scopes.getDatatype? name = scopes.getDatatype? name)
    (datatype : String) (before : List String) (fields : List Param) :
    (env.within scopes).fieldErrors datatype before fields = env.fieldErrors datatype before fields := by
  induction fields generalizing before with
  | nil => rfl
  | cons p ps inductionHypothesis =>
    rw [Env.fieldErrors, Env.fieldErrors, typeErrors_within same, inductionHypothesis]

theorem callee_within (alike : env.scopes.Alike scopes) (function : Ident) :
    (env.within scopes).callee function = env.callee function := by
  simp only [Env.callee, Env.within, alike.getFunction?]

theorem judgeName_within (alike : env.scopes.Alike scopes) (ident : Ident) (span : Span) :
    (env.within scopes).judgeName ident span = env.judgeName ident span := by
  simp only [Env.judgeName, Env.within, alike.getVariable?]

mutual

theorem infer_within (alike : env.scopes.Alike scopes) (e : Expr) :
    (env.within scopes).infer e = env.infer e := by
  match e with
  | .int .. | .string .. | .bool .. | .missing .. => rfl
  | .name ident span => exact judgeName_within alike ident span
  | .record name fields span =>
    have same : (env.within scopes).scopes.getDatatype? name.name = env.scopes.getDatatype? name.name :=
      (alike.getDatatype? name.name).symm
    rw [Env.infer, Env.infer, same, inferFields_within alike fields]
  | .operation op operands span => rw [Env.infer, Env.infer, inferEach_within alike operands]
  | .call function args span =>
    rw [Env.infer, Env.infer, callee_within alike, inferEach_within alike args]
  | .libraryCall space function args span =>
    rw [Env.infer, Env.infer, inferEach_within alike args]
    rfl
  | .list items span => rw [Env.infer, Env.infer, inferEach_within alike items]

theorem inferEach_within (alike : env.scopes.Alike scopes) (es : List Expr) :
    (env.within scopes).inferEach es = env.inferEach es := by
  match es with
  | [] => rfl
  | e :: rest => rw [Env.inferEach, Env.inferEach, infer_within alike e, inferEach_within alike rest]

theorem inferFields_within (alike : env.scopes.Alike scopes) (fields : List FieldValue) :
    (env.within scopes).inferFields fields = env.inferFields fields := by
  match fields with
  | [] => rfl
  | ⟨name, value⟩ :: rest =>
    rw [Env.inferFields, Env.inferFields, infer_within alike value, inferFields_within alike rest]

end

variable (alike : env.scopes.Alike scopes)

include alike

theorem declarationErrors_within (decl : VariableDecl) :
    (env.within scopes).declarationErrors decl = env.declarationErrors decl := by
  simp only [Env.declarationErrors, typeErrors_within alike.getDatatype?, infer_within alike]

theorem reassignmentErrors_within (target : Ident) (value : Expr) :
    (env.within scopes).reassignmentErrors target value = env.reassignmentErrors target value := by
  have same : (env.within scopes).scopes.getVariable? target.name = env.scopes.getVariable? target.name :=
    (alike.getVariable? target.name).symm
  simp only [Env.reassignmentErrors, infer_within alike, same]

theorem conditionErrors_within (e : Expr) :
    (env.within scopes).conditionErrors e = env.conditionErrors e := by
  simp only [Env.conditionErrors, infer_within alike]

theorem duplicateErrors_within (name : Ident) :
    (env.within scopes).duplicateErrors name = env.duplicateErrors name := by
  simp only [Env.duplicateErrors, Env.within, alike.currentVariable?]

theorem callErrors_within (e : Expr) : (env.within scopes).callErrors e = env.callErrors e := by
  cases e with
  | call function args span =>
    rw [Env.callErrors, Env.callErrors, callee_within alike, inferEach_within alike]
  | libraryCall space function args span =>
    rw [Env.callErrors, Env.callErrors, inferEach_within alike]
    rfl
  | _ => rfl

end

theorem paramErrors_within {env : Env} {scopes : Scopes} (alike : env.scopes.Alike scopes)
    (ps : List Param) : (env.within scopes).paramErrors ps = env.paramErrors ps := by
  induction ps generalizing env scopes with
  | nil => rfl
  | cons p ps inductionHypothesis =>
    have tail : ((env.within scopes).within (scopes.adding (.ofParam p))).paramErrors ps =
        (env.within (env.scopes.adding (.ofParam p))).paramErrors ps :=
      @inductionHypothesis (env.within _) _ (alike.adding (.ofParam p))
    rw [Env.paramErrors, Env.paramErrors, typeErrors_within alike.getDatatype?,
      duplicateErrors_within alike]
    exact congrArg (_ ++ ·) tail

namespace Site

variable {site : Site} {scopes : Scopes}

theorem resultErrors_within (alike : site.scopes.Alike scopes) (values : List Expr) (span : Span) :
    (site.within scopes).resultErrors values span = site.resultErrors values span := by
  have same : (site.within scopes).inferEach values = site.inferEach values := inferEach_within alike values
  simp only [Site.resultErrors, same]
  rfl

mutual

theorem found_within {site : Site} {scopes : Scopes} (alike : site.scopes.Alike scopes) (s : Statement) :
    (site.within scopes).found s = site.found s := by
  match s with
  | .function ⟨_, params, returns, ⟨body, _⟩⟩ _ =>
    have ofReturns : returns.flatMap (site.within scopes).typeErrors = returns.flatMap site.typeErrors :=
      congrArg returns.flatMap (funext fun type => typeErrors_within alike.getDatatype? type)
    have ofParams : ((site.within scopes).within scopes.push).paramErrors params =
        (site.within site.scopes.push).paramErrors params :=
      @paramErrors_within (site.toEnv.within site.scopes.push) _ alike.push params
    have ofBody : ((site.within scopes).ofBody params returns).foundEach body =
        (site.ofBody params returns).foundEach body :=
      @foundEach_within (site.ofBody params returns) _ (alike.push.addingParams params) body
    rw [Site.found, Site.found, ofReturns, ofBody]
    exact congrArg (fun errors => _ ++ errors ++ _) ofParams
  | .datatype decl _ => exact fieldErrors_within alike.getDatatype? _ _ _
  | .declaration _ decl _ =>
    have ofValue : (site.within scopes).declarationErrors decl = site.declarationErrors decl :=
      declarationErrors_within alike decl
    rw [Site.found, Site.found, ofValue]
    exact congrArg (_ ++ ·) (duplicateErrors_within alike decl.name)
  | .reassignment target value _ => exact reassignmentErrors_within alike target value
  | .conditional branches otherwise _ =>
    rw [Site.found, Site.found, foundBranches_within alike branches, foundOption_within alike otherwise]
  | .loop condition body _ =>
    have ofCondition : condition.map (site.within scopes).conditionErrors =
        condition.map site.conditionErrors :=
      congrArg (condition.map ·) (funext fun e => conditionErrors_within alike e)
    have ofBody : (site.within scopes).inLoop.foundBlock body = site.inLoop.foundBlock body :=
      @foundBlock_within site.inLoop _ alike body
    rw [Site.found, Site.found, ofCondition, ofBody]
  | .block body _ => exact foundBlock_within alike body
  | .result values span => exact resultErrors_within alike values span
  | .call call _ => exact callErrors_within alike call
  | .control kind span => rfl

theorem foundEach_within {site : Site} {scopes : Scopes} (alike : site.scopes.Alike scopes)
    (statements : List Statement) :
    (site.within scopes).foundEach statements = site.foundEach statements := by
  match statements with
  | [] => rfl
  | s :: rest =>
    have tail : ((site.within scopes).within (scopes.behind s)).foundEach rest =
        (site.within (site.scopes.behind s)).foundEach rest :=
      @foundEach_within (site.within (site.scopes.behind s)) _ (alike.behind s) rest
    rw [Site.foundEach, Site.foundEach, found_within alike s]
    exact congrArg (_ ++ ·) tail

theorem foundBlock_within {site : Site} {scopes : Scopes} (alike : site.scopes.Alike scopes) (b : Block) :
    (site.within scopes).foundBlock b = site.foundBlock b := by
  match b with
  | ⟨body, _⟩ => exact @foundEach_within site.ofBlock _ alike.push body

theorem foundBranches_within {site : Site} {scopes : Scopes} (alike : site.scopes.Alike scopes)
    (branches : List Branch) :
    (site.within scopes).foundBranches branches = site.foundBranches branches := by
  match branches with
  | [] => rfl
  | ⟨condition, body⟩ :: rest =>
    have ofCondition : (site.within scopes).conditionErrors condition = site.conditionErrors condition :=
      conditionErrors_within alike condition
    rw [Site.foundBranches, Site.foundBranches, ofCondition, foundBlock_within alike body,
      foundBranches_within alike rest]

theorem foundOption_within {site : Site} {scopes : Scopes} (alike : site.scopes.Alike scopes)
    (otherwise : Option Block) : (site.within scopes).foundOption otherwise = site.foundOption otherwise := by
  match otherwise with
  | none => rfl
  | some body => exact foundBlock_within alike body

end

theorem foundEach_append (site : Site) (before after : List Statement) :
    site.foundEach (before ++ after) =
      site.foundEach before ++ (site.within (site.scopes.behindEach before)).foundEach after := by
  induction before generalizing site with
  | nil => rfl
  | cons s rest inductionHypothesis =>
    rw [List.cons_append, Site.foundEach, Site.foundEach, inductionHypothesis, List.append_assoc]
    rfl

end Site

end Typing

theorem Scopes.registerEachErrors_append (s : Scopes) (before after : List Statement) :
    s.registerEachErrors (before ++ after) =
      s.registerEachErrors before ++ (s.registeringEach before).registerEachErrors after := by
  induction before generalizing s with
  | nil => rfl
  | cons statement rest inductionHypothesis =>
    rw [List.cons_append, registerEachErrors, registerEachErrors, inductionHypothesis, List.append_assoc]
    rfl

/-! ## Two neighbours -/

/-- Whether the order of two neighbours at the top level makes no difference: one of them declares a datatype
or both declare functions, and they do not declare the same. -/
structure Statement.Exchangeable (a b : Statement) : Prop where
  kinds : a.datatypeDecl?.isSome ∨ b.datatypeDecl?.isSome ∨
    a.functionDecl?.isSome ∧ b.functionDecl?.isSome
  functions : Registry.functions.Apart a b
  datatypes : Registry.datatypes.Apart a b

namespace Statement.Exchangeable

variable {a b : Statement}

theorem symm (exchangeable : a.Exchangeable b) : b.Exchangeable a where
  kinds := by
    obtain ofFirst | ofSecond | ⟨first, second⟩ := exchangeable.kinds
    · exact .inr (.inl ofFirst)
    · exact .inl ofSecond
    · exact .inr (.inr ⟨second, first⟩)
  functions := exchangeable.functions.symm
  datatypes := exchangeable.datatypes.symm

/-! The first pass declares the same in either order, and each of the two is reported as it is alone. -/

theorem registering (exchangeable : a.Exchangeable b) (s : Scopes) :
    ((s.registering a).registering b).Alike ((s.registering b).registering a) := by
  obtain ⟨innerFirst, varsFirst⟩ := Scopes.registeringEach_keeps s [a, b]
  obtain ⟨innerSecond, varsSecond⟩ := Scopes.registeringEach_keeps s [b, a]
  exact ⟨innerFirst.trans innerSecond.symm, exchangeable.functions.sameEntries s,
    exchangeable.datatypes.sameEntries s, varsFirst.trans varsSecond.symm⟩

theorem registerErrors (exchangeable : a.Exchangeable b) (s : Scopes) :
    (s.registering a).registerErrors b = s.registerErrors b := by
  cases b with
  | function decl span =>
    have same : (s.registering a).getFunction? decl.name.name = s.getFunction? decl.name.name :=
      exchangeable.functions.find?_registering s rfl
    simp only [Scopes.registerErrors, same]
  | datatype decl span =>
    have same : (s.registering a).getDatatype? decl.name.name = s.getDatatype? decl.name.name :=
      exchangeable.datatypes.find?_registering s rfl
    simp only [Scopes.registerErrors, same]
  | _ => rfl

/-! In the second pass one of the two declares nothing, and what is found in either does not depend on
whether the other comes first. -/

theorem behind (exchangeable : a.Exchangeable b) (s : Scopes) :
    (s.behind a).behind b = (s.behind b).behind a := by
  have kinds := exchangeable.kinds
  cases a with
  | declaration => cases b <;> simp_all [functionDecl?, datatypeDecl?, Scopes.behind]
  | _ => rfl

theorem found (exchangeable : a.Exchangeable b) (site : Typing.Site) :
    (site.within (site.scopes.behind a)).found b = site.found b := by
  have kinds := exchangeable.kinds
  cases a with
  | declaration chained decl span =>
    -- a variable comes into scope, and only the fields of a datatype are looked at
    cases b with
    | datatype other _ =>
      have same : ∀ name, site.scopes.getDatatype? name =
          (site.scopes.adding (.ofDecl decl span)).getDatatype? name := by
        intro name
        rw [Scopes.getDatatype?, Scopes.getDatatype?, SymbolTable.getDatatype?, SymbolTable.getDatatype?,
          (site.scopes.global_adding _).2]
      exact Typing.fieldErrors_within same _ _ _
    | _ => simp [functionDecl?, datatypeDecl?] at kinds
  | _ => rfl

/-- What is found in the two, one behind the other. -/
theorem found_pair (exchangeable : a.Exchangeable b) (site : Typing.Site) (rest : List Statement) :
    (site.foundEach (a :: b :: rest)).Perm (site.foundEach (b :: a :: rest)) := by
  have second := exchangeable.found site
  have first := exchangeable.symm.found site
  have behind : (site.within (site.scopes.behind a)).within ((site.scopes.behind a).behind b) =
      (site.within (site.scopes.behind b)).within ((site.scopes.behind b).behind a) := by
    rw [exchangeable.behind]
    rfl
  have ofPair : site.foundEach (a :: b :: rest) = site.found a ++ (site.found b ++
      ((site.within (site.scopes.behind a)).within ((site.scopes.behind a).behind b)).foundEach rest) := by
    rw [Typing.Site.foundEach, Typing.Site.foundEach, second]
    rfl
  have ofExchanged : site.foundEach (b :: a :: rest) = site.found b ++ (site.found a ++
      ((site.within (site.scopes.behind b)).within ((site.scopes.behind b).behind a)).foundEach rest) := by
    rw [Typing.Site.foundEach, Typing.Site.foundEach, first]
    rfl
  rw [ofPair, ofExchanged, behind]
  exact List.perm_append_comm_assoc ..

end Statement.Exchangeable

namespace Program

variable {before after : List Statement} {a b : Statement}

/-- Behind the first pass the names stand for the same in either order. -/
theorem registeringEach_exchange (exchangeable : a.Exchangeable b) :
    (Scopes.start.registeringEach (before ++ a :: b :: after)).Alike
      (Scopes.start.registeringEach (before ++ b :: a :: after)) := by
  simp only [Scopes.registeringEach_eq_foldl, List.foldl_append, List.foldl_cons]
  simp only [← Scopes.registeringEach_eq_foldl]
  exact (exchangeable.registering _).registeringEach after

theorem registerEachErrors_exchange (exchangeable : a.Exchangeable b) :
    (Scopes.start.registerEachErrors (before ++ a :: b :: after)).Perm
      (Scopes.start.registerEachErrors (before ++ b :: a :: after)) := by
  rw [Scopes.registerEachErrors_append, Scopes.registerEachErrors_append]
  apply List.Perm.append_left
  simp only [Scopes.registerEachErrors]
  rw [exchangeable.registerErrors, exchangeable.symm.registerErrors,
    (exchangeable.registering _).registerEachErrors after]
  exact List.perm_append_comm_assoc ..

theorem foundEach_exchange (exchangeable : a.Exchangeable b) (site : Typing.Site) :
    (site.foundEach (before ++ a :: b :: after)).Perm (site.foundEach (before ++ b :: a :: after)) := by
  rw [Typing.Site.foundEach_append, Typing.Site.foundEach_append]
  exact (exchangeable.found_pair _ after).append_left _

theorem found_exchange (exchangeable : a.Exchangeable b) (library : Library) :
    (found library (before ++ a :: b :: after)).Perm (found library (before ++ b :: a :: after)) := by
  have alike : (Scopes.start.registeringEach (before ++ a :: b :: after)).Alike _ :=
    registeringEach_exchange exchangeable
  have sameFound : (site library (before ++ b :: a :: after)).foundEach (before ++ b :: a :: after) =
      (site library (before ++ a :: b :: after)).foundEach (before ++ b :: a :: after) :=
    @Typing.Site.foundEach_within (site library (before ++ a :: b :: after)) _ alike _
  rw [found, found, sameFound]
  exact (registerEachErrors_exchange exchangeable).append (foundEach_exchange exchangeable _)

theorem globals_exchange (exchangeable : a.Exchangeable b) :
    (globals (before ++ a :: b :: after)).Alike (globals (before ++ b :: a :: after)) := by
  have registered : (Scopes.start.registeringEach (before ++ a :: b :: after)).Alike _ :=
    registeringEach_exchange exchangeable
  have alike := registered.behindEach (before ++ a :: b :: after)
  have same : (Scopes.start.registeringEach (before ++ b :: a :: after)).behindEach
        (before ++ a :: b :: after) =
      (Scopes.start.registeringEach (before ++ b :: a :: after)).behindEach
        (before ++ b :: a :: after) := by
    simp only [Scopes.behindEach_eq_foldl, List.foldl_append, List.foldl_cons, exchangeable.behind]
  rw [same] at alike
  exact alike.global

theorem eachHoldsCalls_exchange (calls : Statement.EachHoldsCalls (before ++ a :: b :: after)) :
    Statement.EachHoldsCalls (before ++ b :: a :: after) := by
  induction before with
  | nil => exact ⟨calls.2.1, calls.1, calls.2.2⟩
  | cons s rest inductionHypothesis => exact ⟨calls.1, inductionHypothesis calls.2⟩

/-- Two neighbours at the top level of which one declares a datatype, or both declare functions, may change
places unless they declare the same: the program declares the same, and the same errors are found in it. -/
theorem check_exchange (library : Library) {before after : List Statement} {a b : Statement}
    (calls : Statement.EachHoldsCalls (before ++ a :: b :: after)) (exchangeable : a.Exchangeable b) :
    ∃ checked exchanged,
      Program.check library (before ++ a :: b :: after) = .ok checked ∧
      Program.check library (before ++ b :: a :: after) = .ok exchanged ∧
      checked.value.globals.Alike exchanged.value.globals ∧
      checked.errors.Perm exchanged.errors :=
  ⟨_, _, check_eq_globals library calls, check_eq_globals library (eachHoldsCalls_exchange calls),
    globals_exchange exchangeable, found_exchange exchangeable library⟩

/-- A function that calls an unknown one, and behind it a datatype with a field of an unknown type. -/
theorem check_exchange_function_datatype :
    let region (line : Nat) : Span := ⟨0, 0, line, 0⟩
    let ident (name : String) (line : Nat) : Ident := ⟨name, region line⟩
    let function : Statement :=
      .function ⟨ident "f" 1, [], [], ⟨[.call (.call (ident "g" 2) [] (region 2)) (region 2)], region 1⟩⟩
        (region 1)
    let datatype : Statement :=
      .datatype ⟨ident "f" 3, [⟨⟨.datatype "d", false, region 4⟩, ident "x" 4⟩]⟩ (region 3)
    Statement.EachHoldsCalls [function, datatype] ∧ function.Exchangeable datatype ∧
      ∃ checked exchanged,
        Program.check .empty [function, datatype] = .ok checked ∧
        Program.check .empty [datatype, function] = .ok exchanged ∧
        checked.value.globals.Alike exchanged.value.globals ∧
        checked.errors.Perm exchanged.errors := by
  intro region ident function datatype
  have calls : Statement.EachHoldsCalls ([] ++ function :: datatype :: []) :=
    ⟨⟨rfl, trivial⟩, trivial, trivial⟩
  have exchangeable : function.Exchangeable datatype := {
    kinds := .inr (.inl rfl)
    functions := by
      intro f first g second
      simp [Registry.functions, Statement.functionDecl?, datatype] at second
    datatypes := by
      intro d first
      simp [Registry.datatypes, Statement.datatypeDecl?, function] at first }
  exact ⟨calls, exchangeable, check_exchange .empty calls exchangeable⟩

end Program

end FrontEnd
