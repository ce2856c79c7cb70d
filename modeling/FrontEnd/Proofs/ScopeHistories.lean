import FrontEnd.Proofs.Typing.Globals
import FrontEnd.Scopes.Change
import Mathlib.Data.List.Forall2
import Mathlib.Data.List.Induction

/-!
# Scopes behind a history

What is found in the open scopes is told by what was done to them. A history leaves open the global scope and one
scope for each push that no pop matches (`Open`). A variable is the first that was declared of its name, in the
innermost of these scopes that has one; a function or a datatype is the first of its name in all of the history. And
a change that is refused changes nothing (`performAll_answers`).

Of the variables, each change concerns the innermost scope alone, or puts one on top of the others or takes it away
again (`Change.scoping`). So whatever is balanced leaves the scopes around it as they were, and that is what a pop
comes back to.
-/

namespace FrontEnd

section

variable {α : Type} (key : α → String) (entries : List α) (new : α)

theorem insertNew_fst : (insertNew key entries new).1 = (entries.find? fun old => key old = key new).isNone := by
  unfold insertNew
  cases entries.find? fun old => key old = key new <;> rfl

theorem insertNew_snd : (insertNew key entries new).2 = keepFirst key entries (some new) :=
  apply_ite Prod.snd _ _ _

end

/-! In place a table is left as it is where an entry is not added. -/

namespace SymbolTable

variable (t : SymbolTable)

theorem insertFunction_eq (f : FunctionSymbol) :
    t.insertFunction f = ((t.insertFunction? f).isSome, (t.insertFunction? f).getD t) := by
  cases taken : t.functions.find? fun old => old.name = f.name <;>
    simp [insertFunction, insertFunction?, insertNew, getFunction?, taken]

theorem insertDatatype_eq (d : DatatypeSymbol) :
    t.insertDatatype d = ((t.insertDatatype? d).isSome, (t.insertDatatype? d).getD t) := by
  cases taken : t.datatypes.find? fun old => old.name = d.name <;>
    simp [insertDatatype, insertDatatype?, insertNew, getDatatype?, taken]

theorem insertVariable_eq (v : VariableSymbol) :
    t.insertVariable v = ((t.insertVariable? v).isSome, (t.insertVariable? v).getD t) := by
  cases taken : t.vars.find? fun old => old.name = v.name <;>
    simp [insertVariable, insertVariable?, insertNew, getVariable?, taken]

end SymbolTable

namespace Scopes

/-! ## One change -/

/-- A change as a checker makes it: if it is refused, there are no scopes behind it. -/
def changed (s : Scopes) : Change → Except Fault Scopes
  | .push => .ok s.push
  | .pop => s.pop
  | .declareVariable v => s.declareVariable v
  | .declareFunction f => s.declareFunction f
  | .declareDatatype d => s.declareDatatype d

theorem setCurrent_current (s : Scopes) : s.setCurrent s.current = s := by
  obtain ⟨inner, global⟩ := s
  cases inner <;> rfl

/-- A change that is refused leaves the scopes as they are. -/
theorem perform_eq (s : Scopes) (c : Change) :
    s.perform c =
      match s.changed c with
      | .ok behind => (.ok (), behind)
      | .error fault => (.error fault, s) := by
  cases c with
  | push => rfl
  | pop =>
    obtain ⟨inner, global⟩ := s
    cases inner <;> rfl
  | declareVariable v =>
    rw [perform, changed, declareVariable, SymbolTable.insertVariable_eq]
    cases s.current.insertVariable? v with
    | none => exact congrArg (Prod.mk _) s.setCurrent_current
    | some table =>
      obtain ⟨inner, global⟩ := s
      cases inner <;> rfl
  | declareFunction f =>
    rw [perform, changed, declareFunction, SymbolTable.insertFunction_eq]
    cases s.global.insertFunction? f <;> rfl
  | declareDatatype d =>
    rw [perform, changed, declareDatatype, SymbolTable.insertDatatype_eq]
    cases s.global.insertDatatype? d <;> rfl

theorem perform_of_refused {s : Scopes} {c : Change} {fault : Fault} (refused : (s.perform c).1 = .error fault) :
    (s.perform c).2 = s := by
  rw [perform_eq] at refused ⊢
  cases answer : s.changed c with
  | ok behind => rw [answer] at refused; cases refused
  | error fault => rfl

/-- The variables of the open scopes, the innermost first. -/
def vars (s : Scopes) : List (List VariableSymbol) :=
  s.tables.map SymbolTable.vars

theorem vars_eq_cons (s : Scopes) : ∃ outer, s.vars = s.current.vars :: outer := by
  obtain ⟨inner, global⟩ := s
  cases inner with
  | nil => exact ⟨[], rfl⟩
  | cons table inner => exact ⟨(inner ++ [global]).map SymbolTable.vars, rfl⟩

theorem length_vars (s : Scopes) : s.vars.length = s.depth := by
  simp [vars, tables, depth]

theorem getVariable?_eq_vars (s : Scopes) (name : String) :
    s.getVariable? name = s.vars.findSome? fun vars => vars.find? fun v => v.name = name := by
  rw [getVariable?_eq_findSome?, vars, List.findSome?_map]
  rfl

/-- What a change makes of the variables of the open scopes. -/
def Change.scoping : Change → List (List VariableSymbol) → List (List VariableSymbol)
  | .push, scopes => [] :: scopes
  | .pop, _ :: next :: outer => next :: outer
  | .declareVariable v, innermost :: outer => keepFirst VariableSymbol.name innermost (some v) :: outer
  | _, scopes => scopes

theorem vars_perform (s : Scopes) (c : Change) : (s.perform c).2.vars = c.scoping s.vars := by
  obtain ⟨inner, global⟩ := s
  cases c with
  | push => rfl
  | pop =>
    match inner with
    | [] => rfl
    | [_] => rfl
    | _ :: _ :: _ => rfl
  | declareVariable v =>
    have kept (table : SymbolTable) :
        (table.insertVariable v).2.vars = keepFirst VariableSymbol.name table.vars (some v) := insertNew_snd ..
    cases inner with
    | nil => exact congrArg (· :: []) (kept global)
    | cons table inner => exact congrArg (· :: (inner ++ [global]).map SymbolTable.vars) (kept table)
  | declareFunction f => simp only [vars, tables, perform, List.map_append]; rfl
  | declareDatatype d => simp only [vars, tables, perform, List.map_append]; rfl

/-! ## Histories -/

/-- Whether a change is a declaration. -/
def Change.Declares : Change → Prop
  | .push | .pop => False
  | .declareVariable _ | .declareFunction _ | .declareDatatype _ => True

/-- The function that a change declares. -/
def Change.function? : Change → Option FunctionSymbol
  | .declareFunction f => some f
  | _ => none

/-- The datatype that a change declares. -/
def Change.datatype? : Change → Option DatatypeSymbol
  | .declareDatatype d => some d
  | _ => none

/-- Changes among which each pop closes what a push before it has opened, and each push is closed again. -/
inductive Balanced : List Change → Prop where
  | nil : Balanced []
  | declaration {before : List Change} {c : Change} :
      Balanced before → c.Declares → Balanced (before ++ [c])
  | block {before body : List Change} :
      Balanced before → Balanced body → Balanced (before ++ (.push :: body ++ [.pop]))

/-- The scopes that a history leaves open, the innermost first, each with all the variables that were declared in
it, in their order. The last is the global scope, and each of the others is that of a push without its pop. -/
inductive Open : List Change → List (List VariableSymbol) → Prop where
  | nil : Open [] [[]]
  | push {before : List Change} {levels : List (List VariableSymbol)} :
      Open before levels → Open (before ++ [.push]) ([] :: levels)
  | declareVariable {before : List Change} {level : List VariableSymbol} {outer : List (List VariableSymbol)}
      (v : VariableSymbol) :
      Open before (level :: outer) → Open (before ++ [.declareVariable v]) ((level ++ [v]) :: outer)
  | declareFunction {before : List Change} {levels : List (List VariableSymbol)} (f : FunctionSymbol) :
      Open before levels → Open (before ++ [.declareFunction f]) levels
  | declareDatatype {before : List Change} {levels : List (List VariableSymbol)} (d : DatatypeSymbol) :
      Open before levels → Open (before ++ [.declareDatatype d]) levels
  | block {before body : List Change} {levels : List (List VariableSymbol)} :
      Open before levels → Balanced body → Open (before ++ (.push :: body ++ [.pop])) levels
  /-- The global scope is not closed. -/
  | refused {before : List Change} {level : List VariableSymbol} :
      Open before [level] → Open (before ++ [.pop]) [level]

theorem Open.exists_innermost {history : List Change} {levels : List (List VariableSymbol)}
    (opened : Open history levels) : ∃ level outer, levels = level :: outer := by
  induction opened with
  | nil => exact ⟨_, _, rfl⟩
  | push => exact ⟨_, _, rfl⟩
  | declareVariable => exact ⟨_, _, rfl⟩
  | declareFunction _ _ inductionHypothesis => exact inductionHypothesis
  | declareDatatype _ _ inductionHypothesis => exact inductionHypothesis
  | block _ _ inductionHypothesis => exact inductionHypothesis
  | refused => exact ⟨_, _, rfl⟩

/-- What is inside of an open scope stands behind its push, and is balanced. -/
theorem Open.exists_push {history : List Change} {levels : List (List VariableSymbol)}
    (opened : Open history levels) {level next : List VariableSymbol} {outer : List (List VariableSymbol)}
    (inner : levels = level :: next :: outer) :
    ∃ before body, history = before ++ .push :: body ∧ Balanced body ∧ Open before (next :: outer) := by
  induction opened generalizing level with
  | nil => cases inner
  | push opened =>
    obtain ⟨-, rfl⟩ := List.cons.inj inner
    exact ⟨_, [], rfl, .nil, opened⟩
  | declareVariable v _ inductionHypothesis =>
    obtain ⟨-, rfl⟩ := List.cons.inj inner
    obtain ⟨before, body, rfl, balanced, opened⟩ := inductionHypothesis rfl
    exact ⟨before, body ++ [.declareVariable v], by simp, balanced.declaration (c := .declareVariable v) trivial, opened⟩
  | declareFunction f _ inductionHypothesis =>
    obtain ⟨before, body, rfl, balanced, opened⟩ := inductionHypothesis inner
    exact ⟨before, body ++ [.declareFunction f], by simp, balanced.declaration (c := .declareFunction f) trivial, opened⟩
  | declareDatatype d _ inductionHypothesis =>
    obtain ⟨before, body, rfl, balanced, opened⟩ := inductionHypothesis inner
    exact ⟨before, body ++ [.declareDatatype d], by simp, balanced.declaration (c := .declareDatatype d) trivial, opened⟩
  | @block _ closed _ _ balancedClosed inductionHypothesis =>
    -- a scope that is closed again belongs to what is inside of the one around it
    obtain ⟨before, body, rfl, balanced, opened⟩ := inductionHypothesis inner
    exact ⟨before, body ++ (.push :: closed ++ [.pop]), by simp, balanced.block balancedClosed, opened⟩
  | refused => cases inner

/-- Every history leaves some scopes open. -/
theorem exists_open (history : List Change) : ∃ levels, Open history levels := by
  induction history using List.reverseRecOn with
  | nil => exact ⟨_, .nil⟩
  | append_singleton before c inductionHypothesis =>
    obtain ⟨levels, opened⟩ := inductionHypothesis
    obtain ⟨level, outer, rfl⟩ := opened.exists_innermost
    cases c with
    | push => exact ⟨_, opened.push⟩
    | declareVariable v => exact ⟨_, opened.declareVariable v⟩
    | declareFunction f => exact ⟨_, opened.declareFunction f⟩
    | declareDatatype d => exact ⟨_, opened.declareDatatype d⟩
    | pop =>
      cases outer with
      | nil => exact ⟨_, opened.refused⟩
      | cons next outer =>
        -- the pop belongs to the push of the innermost scope, with what is balanced in between
        obtain ⟨before, body, rfl, balanced, opened⟩ := opened.exists_push rfl
        exact ⟨_, by simpa using opened.block balanced⟩

/-! ## Scopes behind a history -/

theorem performAll_append (s : Scopes) (first second : List Change) :
    s.performAll (first ++ second) = (s.performAll first).performAll second :=
  List.foldl_append ..

theorem performAll_concat (s : Scopes) (history : List Change) (c : Change) :
    s.performAll (history ++ [c]) = ((s.performAll history).perform c).2 :=
  s.performAll_append history [c]

/-- Balanced changes concern the innermost scope alone. -/
theorem Balanced.vars_performAll {body : List Change} (balanced : Balanced body) {s : Scopes}
    {innermost : List VariableSymbol} {outer : List (List VariableSymbol)} (stands : s.vars = innermost :: outer) :
    ∃ changed, (s.performAll body).vars = changed :: outer := by
  induction balanced generalizing s innermost outer with
  | nil => exact ⟨innermost, stands⟩
  | @declaration _ c _ declares inductionHypothesis =>
    obtain ⟨changed, behind⟩ := inductionHypothesis stands
    rw [performAll_concat, vars_perform, behind]
    cases c with
    | push => exact declares.elim
    | pop => exact declares.elim
    | declareVariable v => exact ⟨_, rfl⟩
    | declareFunction f => exact ⟨_, rfl⟩
    | declareDatatype d => exact ⟨_, rfl⟩
  | @block before body _ _ beforeHypothesis bodyHypothesis =>
    obtain ⟨changed, behind⟩ := beforeHypothesis stands
    have pushed : ((s.performAll before).perform .push).2.vars = [] :: changed :: outer := by
      rw [vars_perform, behind]
      rfl
    obtain ⟨inside, within⟩ := bodyHypothesis pushed
    -- the body runs in a scope of its own, which the pop takes away with all that was declared in it
    rw [performAll_append, ← List.singleton_append, List.append_assoc]
    refine ⟨changed, ?_⟩
    rw [performAll_append, performAll_append]
    exact (vars_perform _ .pop).trans (congrArg Change.pop.scoping within)

/-- Balanced changes between a push and its pop leave the variables as they were. -/
theorem Balanced.vars_block {body : List Change} (balanced : Balanced body) (s : Scopes) :
    (s.performAll (.push :: body ++ [.pop])).vars = s.vars := by
  obtain ⟨outer, stands⟩ := s.vars_eq_cons
  obtain ⟨inside, within⟩ := balanced.vars_performAll (s.vars_perform .push)
  rw [performAll_concat, vars_perform]
  refine (congrArg Change.pop.scoping within).trans ?_
  rw [stands]
  rfl

/-- Each open scope has of every name the first variable that was declared in it. -/
theorem Open.keepsFirsts {history : List Change} {levels : List (List VariableSymbol)} (opened : Open history levels) :
    List.Forall₂ (KeepsFirsts VariableSymbol.name) (start.performAll history).vars levels := by
  induction opened with
  | nil => exact .cons (keepsFirsts_nil _) .nil
  | push _ inductionHypothesis =>
    rw [performAll_concat, vars_perform]
    exact .cons (keepsFirsts_nil _) inductionHypothesis
  | declareVariable v _ inductionHypothesis =>
    rw [performAll_concat, vars_perform]
    generalize (start.performAll _).vars = scopes at inductionHypothesis ⊢
    cases inductionHypothesis with
    | cons innermost outer => exact .cons (innermost.keepFirst (some v)) outer
  | declareFunction f _ inductionHypothesis =>
    rw [performAll_concat, vars_perform]
    exact inductionHypothesis
  | declareDatatype d _ inductionHypothesis =>
    rw [performAll_concat, vars_perform]
    exact inductionHypothesis
  | block _ balanced inductionHypothesis =>
    rw [performAll_append, balanced.vars_block]
    exact inductionHypothesis
  | refused _ inductionHypothesis =>
    rw [performAll_concat, vars_perform]
    generalize (start.performAll _).vars = scopes at inductionHypothesis ⊢
    cases inductionHypothesis with
    | cons innermost outer =>
      cases outer
      exact .cons innermost .nil

theorem functions_perform (s : Scopes) (c : Change) :
    (s.perform c).2.global.functions = keepFirst FunctionSymbol.name s.global.functions c.function? := by
  obtain ⟨inner, global⟩ := s
  cases c with
  | declareFunction f => exact insertNew_snd ..
  | declareVariable v => cases inner <;> rfl
  | pop => cases inner <;> rfl
  | _ => rfl

theorem datatypes_perform (s : Scopes) (c : Change) :
    (s.perform c).2.global.datatypes = keepFirst DatatypeSymbol.name s.global.datatypes c.datatype? := by
  obtain ⟨inner, global⟩ := s
  cases c with
  | declareDatatype d => exact insertNew_snd ..
  | declareVariable v => cases inner <;> rfl
  | pop => cases inner <;> rfl
  | _ => rfl

/-- Whatever changes put into the global scope one by one, behind all of them there is the first of each name. -/
theorem keepsFirsts_performAll {α : Type} {name : α → String} (tableOf : Scopes → List α) {declared? : Change → Option α}
    (empty : tableOf start = [])
    (each : ∀ s c, tableOf (s.perform c).2 = keepFirst name (tableOf s) (declared? c)) (history : List Change) :
    KeepsFirsts name (tableOf (start.performAll history)) (history.filterMap declared?) := by
  induction history using List.reverseRecOn with
  | nil =>
    rw [performAll, List.foldl_nil, empty]
    exact keepsFirsts_nil name
  | append_singleton before c inductionHypothesis =>
    rw [performAll_concat, each, List.filterMap_append]
    have behind := inductionHypothesis.keepFirst (declared? c)
    cases found : declared? c <;> simpa [found] using behind

theorem mem_keepFirst {α : Type} {name : α → String} {entries : List α} {new x : α}
    (member : x ∈ keepFirst name entries (some new)) : x ∈ entries ∨ x = new := by
  rw [keepFirst] at member
  split at member
  · exact .inl member
  · simpa using member

/-- Behind a change there are the variables from before, and perhaps one that it declares. -/
theorem Change.mem_scoping {c : Change} {scopes : List (List VariableSymbol)} {level : List VariableSymbol}
    {v : VariableSymbol} (stands : level ∈ c.scoping scopes) (member : v ∈ level) :
    (∃ before ∈ scopes, v ∈ before) ∨ c = .declareVariable v := by
  cases c with
  | push =>
    rcases List.mem_cons.mp stands with rfl | further
    · exact absurd member List.not_mem_nil
    · exact .inl ⟨level, further, member⟩
  | pop =>
    match scopes with
    | [] => exact absurd stands List.not_mem_nil
    | [_] => exact .inl ⟨level, stands, member⟩
    | _ :: _ :: _ => exact .inl ⟨level, List.mem_cons_of_mem _ stands, member⟩
  | declareVariable u =>
    match scopes with
    | [] => exact absurd stands List.not_mem_nil
    | innermost :: outer =>
      rcases List.mem_cons.mp stands with rfl | further
      · rcases mem_keepFirst member with old | rfl
        · exact .inl ⟨innermost, List.mem_cons_self, old⟩
        · exact .inr rfl
      · exact .inl ⟨level, List.mem_cons_of_mem _ further, member⟩
  | declareFunction f => exact .inl ⟨level, stands, member⟩
  | declareDatatype d => exact .inl ⟨level, stands, member⟩

/-- A variable that is there was declared, and its declaration was not refused. -/
theorem exists_declaration {history : List Change} {level : List VariableSymbol} {v : VariableSymbol}
    (stands : level ∈ (start.performAll history).vars) (member : v ∈ level) :
    ∃ before after, history = before ++ .declareVariable v :: after ∧
      ((start.performAll before).perform (.declareVariable v)).1 = .ok () := by
  induction history using List.reverseRecOn generalizing level with
  | nil =>
    cases List.mem_singleton.mp stands
    exact absurd member List.not_mem_nil
  | append_singleton before c inductionHypothesis =>
    have earlier {level : List VariableSymbol} (stands : level ∈ (start.performAll before).vars) (member : v ∈ level) :
        ∃ first after, before ++ [c] = first ++ .declareVariable v :: after ∧
          ((start.performAll first).perform (.declareVariable v)).1 = .ok () := by
      obtain ⟨first, after, split, accepted⟩ := inductionHypothesis stands member
      exact ⟨first, after ++ [c], by rw [split, List.append_assoc, List.cons_append], accepted⟩
    rw [performAll_concat] at stands
    -- what a change is refused for was there before, and so is all that stands behind it
    cases answer : ((start.performAll before).perform c).1 with
    | error fault =>
      rw [perform_of_refused answer] at stands
      exact earlier stands member
    | ok =>
      rw [vars_perform] at stands
      rcases Change.mem_scoping stands member with old | rfl
      · obtain ⟨outer, stood, old⟩ := old
        exact earlier stood old
      · exact ⟨before, [], rfl, answer⟩

/-! ## What is found behind a history -/

/-- The answer to a change behind a history that leaves some scopes open. -/
def Change.verdict (history : List Change) (levels : List (List VariableSymbol)) : Change → Except Fault Unit
  | .push => .ok ()
  | .pop => if levels.length = 1 then .error .popGlobalScope else .ok ()
  | .declareVariable v =>
    if ∃ u ∈ levels.headD [], u.name = v.name then
      .error (.duplicateSymbol .variable v.name (levels.length - 1))
    else .ok ()
  | .declareFunction f =>
    if ∃ g ∈ history.filterMap Change.function?, g.name = f.name then
      .error (.duplicateSymbol .function f.name 0)
    else .ok ()
  | .declareDatatype d =>
    if ∃ e ∈ history.filterMap Change.datatype?, e.name = d.name then
      .error (.duplicateSymbol .datatype d.name 0)
    else .ok ()

/-- What scopes answer behind a history that leaves some scopes open. -/
structure Answers (s : Scopes) (history : List Change) (levels : List (List VariableSymbol)) : Prop where
  /-- The global scope is counted, and one for each push without its pop. -/
  depth : s.depth = levels.length ∧ s.depth ≠ 0
  /-- A variable is the first of its name in the innermost scope that has one. -/
  getVariable? : ∀ name, s.getVariable? name = levels.findSome? fun level => level.find? fun v => v.name = name
  /-- It was declared with success. -/
  declared : ∀ name v, s.getVariable? name = some v →
    ∃ before after, history = before ++ .declareVariable v :: after ∧
      ((start.performAll before).perform (.declareVariable v)).1 = .ok ()
  /-- A function is the first of its name, in whatever scope it was declared. -/
  getFunction? : ∀ name, s.getFunction? name = (history.filterMap Change.function?).find? fun f => f.name = name
  getDatatype? : ∀ name, s.getDatatype? name = (history.filterMap Change.datatype?).find? fun d => d.name = name
  verdict : ∀ c, (s.perform c).1 = c.verdict history levels
  /-- A change that is refused changes nothing at any depth. -/
  refused : ∀ c fault, (s.perform c).1 = .error fault → (s.perform c).2 = s
  /-- What is balanced between a push and its pop leaves the variables as they were. -/
  restored : ∀ body, Balanced body →
    ∀ name, (s.performAll (.push :: body ++ [.pop])).getVariable? name = s.getVariable? name

theorem declared_insertNew {α : Type} {key : α → String} {entries all : List α} (keeps : KeepsFirsts key entries all)
    (new : α) (kind : SymbolKind) (depth : Nat) :
    Scopes.declared (insertNew key entries new).1 kind (key new) depth =
      if ∃ old ∈ all, key old = key new then .error (.duplicateSymbol kind (key new) depth) else .ok () := by
  rw [insertNew_fst, keeps.first]
  cases found : all.find? fun old => key old = key new with
  | none =>
    have free : ¬∃ old ∈ all, key old = key new := by simpa using found
    rw [if_neg free]
    rfl
  | some old =>
    rw [if_pos ⟨old, List.mem_of_find?_eq_some found, by simpa using List.find?_some found⟩]
    rfl

theorem Open.length_eq {history : List Change} {levels : List (List VariableSymbol)} (opened : Open history levels) :
    (start.performAll history).depth = levels.length := by
  rw [← length_vars, opened.keepsFirsts.length_eq]

theorem functions_performAll (history : List Change) :
    KeepsFirsts FunctionSymbol.name (start.performAll history).global.functions (history.filterMap Change.function?) :=
  keepsFirsts_performAll (fun s => s.global.functions) rfl functions_perform history

theorem datatypes_performAll (history : List Change) :
    KeepsFirsts DatatypeSymbol.name (start.performAll history).global.datatypes (history.filterMap Change.datatype?) :=
  keepsFirsts_performAll (fun s => s.global.datatypes) rfl datatypes_perform history

theorem Open.verdict {history : List Change} {levels : List (List VariableSymbol)} (opened : Open history levels)
    (c : Change) : ((start.performAll history).perform c).1 = c.verdict history levels := by
  have depth := opened.length_eq
  cases c with
  | push => rfl
  | pop =>
    rw [perform, Change.verdict, ← depth, Scopes.depth]
    cases (start.performAll history).inner <;> simp
  | declareVariable v =>
    obtain ⟨outer, stands⟩ := (start.performAll history).vars_eq_cons
    have keeps := opened.keepsFirsts
    rw [stands] at keeps
    have length : (start.performAll history).inner.length = levels.length - 1 := by rw [← depth]; rfl
    rw [Change.verdict, ← length]
    cases keeps with
    | cons innermost _ => exact declared_insertNew innermost v .variable _
  | declareFunction f => exact declared_insertNew (functions_performAll history) f .function 0
  | declareDatatype d => exact declared_insertNew (datatypes_performAll history) d .datatype 0

theorem findSome?_of_keepsFirsts {scopes levels : List (List VariableSymbol)}
    (keeps : List.Forall₂ (KeepsFirsts VariableSymbol.name) scopes levels) (name : String) :
    (scopes.findSome? fun level => level.find? fun v => v.name = name) =
      levels.findSome? fun level => level.find? fun v => v.name = name := by
  induction keeps with
  | nil => rfl
  | cons innermost _ inductionHypothesis =>
    rw [List.findSome?_cons, List.findSome?_cons, innermost.first, inductionHypothesis]

/-- The scopes behind a history are those that it leaves open, with the first declarations of each name. -/
theorem performAll_answers (history : List Change) :
    (∃ levels, Open history levels) ∧
      ∀ levels, Open history levels → (start.performAll history).Answers history levels := by
  refine ⟨exists_open history, fun levels opened => ?_⟩
  constructor
  case depth => exact ⟨opened.length_eq, Nat.succ_ne_zero _⟩
  case getVariable? =>
    intro name
    rw [getVariable?_eq_vars, findSome?_of_keepsFirsts opened.keepsFirsts]
  case declared =>
    intro name v found
    rw [getVariable?_eq_vars] at found
    obtain ⟨level, stands, found⟩ := List.exists_of_findSome?_eq_some found
    exact exists_declaration stands (List.mem_of_find?_eq_some found)
  case getFunction? => exact (functions_performAll history).first
  case getDatatype? => exact (datatypes_performAll history).first
  case verdict => exact opened.verdict
  case refused => exact fun c fault refused => perform_of_refused refused
  case restored =>
    intro body balanced name
    rw [getVariable?_eq_vars, getVariable?_eq_vars, balanced.vars_block]

/-- A variable without a value, of a name and a type. -/
def unset (name : String) (type : TypeTag) : VariableSymbol :=
  ⟨name, type, none, ⟨0, 0, 1, 0⟩⟩

/-- A variable hides another, and its second declaration is refused. Then an inner scope is opened and closed. -/
def shadowing : List Change :=
  [.declareVariable (unset "x" .int), .push, .declareVariable (unset "x" .string), .declareVariable (unset "x" .bool),
    .push, .declareVariable (unset "x" .int), .declareDatatype ⟨"x", [], ⟨0, 0, 1, 0⟩⟩, .pop]

theorem performAll_answers_shadowing :
    Open shadowing [[unset "x" .string, unset "x" .bool], [unset "x" .int]] ∧
      (start.performAll shadowing).Answers shadowing [[unset "x" .string, unset "x" .bool], [unset "x" .int]] ∧
      (start.performAll shadowing).getVariable? "x" = some (unset "x" .string) :=
  have inside : Balanced [.declareVariable (unset "x" .int), .declareDatatype ⟨"x", [], ⟨0, 0, 1, 0⟩⟩] :=
    (Balanced.nil.declaration (c := .declareVariable (unset "x" .int)) trivial).declaration
      (c := .declareDatatype ⟨"x", [], ⟨0, 0, 1, 0⟩⟩) trivial
  have opened : Open shadowing [[unset "x" .string, unset "x" .bool], [unset "x" .int]] :=
    ((((Open.nil.declareVariable (unset "x" .int)).push).declareVariable (unset "x" .string)).declareVariable
      (unset "x" .bool)).block inside
  ⟨opened, (performAll_answers shadowing).2 _ opened, rfl⟩

end Scopes

end FrontEnd
