import FrontEnd.Proofs.Typing.Judgements

/-!
# Calls of the library

Of the library, a check sees only what it makes of the calls in the program (`Site.found_under`), and each
call that it cannot resolve is reported (`Site.unresolved_subset_found`). So a library may grow: a program
without errors stays one, and a program that does not call what is new is checked as before
(`Program.check_add`).
-/

namespace FrontEnd

/-- How a call of the library is written. -/
structure LibraryName where
  space : Ident
  function : Ident

mutual

/-- The calls of the library in an expression, from left to right and the outer before the inner. -/
def Expr.libraryCalls : Expr → List LibraryName
  | .int .. | .string .. | .bool .. | .name .. | .missing .. => []
  | .record _ fields _ => FieldValue.libraryCallsEach fields
  | .operation _ operands _ => Expr.libraryCallsEach operands
  | .call _ args _ => Expr.libraryCallsEach args
  | .libraryCall space function args _ => ⟨space, function⟩ :: Expr.libraryCallsEach args
  | .list items _ => Expr.libraryCallsEach items

def Expr.libraryCallsEach : List Expr → List LibraryName
  | [] => []
  | e :: es => e.libraryCalls ++ Expr.libraryCallsEach es

def FieldValue.libraryCallsEach : List FieldValue → List LibraryName
  | [] => []
  | ⟨_, value⟩ :: fields => value.libraryCalls ++ FieldValue.libraryCallsEach fields

end

mutual

/-- The calls of the library in a statement, in the order of the program. -/
def Statement.libraryCalls : Statement → List LibraryName
  | .function ⟨_, _, _, ⟨body, _⟩⟩ _ => Statement.libraryCallsEach body
  | .datatype .. | .control .. => []
  | .declaration _ decl _ => decl.value.libraryCalls
  | .reassignment _ value _ => value.libraryCalls
  | .conditional branches otherwise _ =>
    Branch.libraryCallsEach branches ++ Block.libraryCallsOption otherwise
  | .loop condition body _ => (condition.map Expr.libraryCalls).getD [] ++ body.libraryCalls
  | .block body _ => body.libraryCalls
  | .result values _ => Expr.libraryCallsEach values
  | .call call _ => call.libraryCalls

def Statement.libraryCallsEach : List Statement → List LibraryName
  | [] => []
  | s :: rest => s.libraryCalls ++ Statement.libraryCallsEach rest

def Block.libraryCalls : Block → List LibraryName
  | ⟨body, _⟩ => Statement.libraryCallsEach body

def Branch.libraryCallsEach : List Branch → List LibraryName
  | [] => []
  | ⟨condition, body⟩ :: rest =>
    condition.libraryCalls ++ body.libraryCalls ++ Branch.libraryCallsEach rest

def Block.libraryCallsOption : Option Block → List LibraryName
  | none => []
  | some body => body.libraryCalls

end

/-- All calls of the library in a program. -/
def Program.libraryCalls (p : Program) : List LibraryName :=
  Statement.libraryCallsEach p

namespace Typing

/-- What a library makes of a call. -/
def resolve (library : Library) (call : LibraryName) : Except (Located Error) Callee :=
  (⟨library, .start⟩ : Env).libraryCallee call.space call.function

/-! ## Unresolved calls are reported -/

/-- The errors of the calls that a library does not resolve. -/
def unresolved (library : Library) (calls : List LibraryName) : List (Located Error) :=
  calls.filterMap fun call =>
    match resolve library call with
    | .error e => some e
    | .ok _ => none

theorem unresolved_append_subset {library : Library} {first second : List LibraryName}
    {errors more : List (Located Error)} (left : unresolved library first ⊆ errors)
    (right : unresolved library second ⊆ more) :
    unresolved library (first ++ second) ⊆ errors ++ more := by
  rw [unresolved, List.filterMap_append]
  exact List.append_subset.mpr
    ⟨List.subset_append_of_subset_left _ left, List.subset_append_of_subset_right _ right⟩

/-- What is wrong with a call of the library comes before what is wrong inside of its arguments. -/
theorem unresolved_subset_callErrors {library : Library} (call : LibraryName) {calls : List LibraryName}
    {args : List Judgement} (inside : unresolved library calls ⊆ Judgement.allErrors args) (span : Span) :
    unresolved library (call :: calls) ⊆ callErrors (resolve library call) args span := by
  cases resolved : resolve library call with
  | error e =>
    -- the error of the call comes before those inside of its arguments
    have first : unresolved library (call :: calls) = e :: unresolved library calls := by
      simp [unresolved, resolved]
    rw [first]
    exact List.cons_subset_cons e inside
  | ok f =>
    have first : unresolved library (call :: calls) = unresolved library calls := by
      simp [unresolved, resolved]
    rw [first]
    exact List.subset_append_of_subset_left _ inside

mutual

theorem unresolved_subset_infer (env : Env) (e : Expr) :
    unresolved env.library e.libraryCalls ⊆ (env.infer e).errors := by
  match e with
  | .int .. | .string .. | .bool .. | .name .. | .missing .. => exact List.nil_subset _
  | .record name fields span =>
    have inside := unresolved_subset_inferFields env fields
    exact List.Subset.trans inside (allErrors_subset_judgeRecord _ name _ span)
  | .operation op operands span =>
    exact List.subset_append_of_subset_left _ (unresolved_subset_inferEach env operands)
  | .call function args span =>
    have inside := unresolved_subset_inferEach env args
    have called := List.Subset.trans inside (allErrors_subset_callErrors (env.callee function) _ span)
    exact List.Subset.trans called (callErrors_subset_judgeCall ..)
  | .libraryCall space function args span =>
    have inside := unresolved_subset_inferEach env args
    have called := unresolved_subset_callErrors ⟨space, function⟩ inside span
    exact List.Subset.trans called (callErrors_subset_judgeCall ..)
  | .list items span =>
    have inside := unresolved_subset_inferEach env items
    exact List.Subset.trans inside (allErrors_subset_judgeList _ span)

theorem unresolved_subset_inferEach (env : Env) (es : List Expr) :
    unresolved env.library (Expr.libraryCallsEach es) ⊆ Judgement.allErrors (env.inferEach es) := by
  match es with
  | [] => exact List.nil_subset _
  | e :: rest =>
    exact unresolved_append_subset (unresolved_subset_infer env e) (unresolved_subset_inferEach env rest)

theorem unresolved_subset_inferFields (env : Env) (fields : List FieldValue) :
    unresolved env.library (FieldValue.libraryCallsEach fields) ⊆
      Judgement.allErrors ((env.inferFields fields).map Prod.snd) := by
  match fields with
  | [] => exact List.nil_subset _
  | ⟨name, value⟩ :: rest =>
    exact unresolved_append_subset (unresolved_subset_infer env value)
      (unresolved_subset_inferFields env rest)

end

theorem unresolved_subset_conditionErrors (env : Env) (e : Expr) :
    unresolved env.library e.libraryCalls ⊆ env.conditionErrors e :=
  List.subset_append_of_subset_left _ (unresolved_subset_infer env e)

theorem unresolved_subset_call (env : Env) {e : Expr} (isCall : e.isCall = true) :
    unresolved env.library e.libraryCalls ⊆ env.callErrors e := by
  cases e with
  | call function args span =>
    exact List.Subset.trans (unresolved_subset_inferEach env args) (allErrors_subset_callErrors ..)
  | libraryCall space function args span =>
    exact unresolved_subset_callErrors ⟨space, function⟩ (unresolved_subset_inferEach env args) span
  | _ => cases isCall

namespace Site

mutual

/-- Each call that the library does not resolve is reported, wherever it stands. -/
theorem unresolved_subset_found (site : Site) {s : Statement} (calls : s.HoldsCalls) :
    unresolved site.library s.libraryCalls ⊆ site.found s := by
  match s with
  | .function ⟨_, params, returns, ⟨body, _⟩⟩ _ =>
    have inside := unresolved_subset_foundEach (site.ofBody params returns) calls
    exact List.subset_append_of_subset_right _ inside
  | .datatype .. | .control .. => exact List.nil_subset _
  | .declaration _ decl _ =>
    have inside := unresolved_subset_infer site.toEnv decl.value
    exact List.subset_append_of_subset_left _
      (List.subset_append_of_subset_left _ (List.subset_append_of_subset_right _ inside))
  | .reassignment _ value _ =>
    exact List.subset_append_of_subset_left _ (unresolved_subset_infer site.toEnv value)
  | .conditional branches otherwise _ =>
    exact unresolved_append_subset (unresolved_subset_foundBranches site calls.1)
      (unresolved_subset_foundOption site calls.2)
  | .loop condition body _ =>
    refine unresolved_append_subset ?_ (unresolved_subset_foundBlock site.inLoop calls)
    cases condition with
    | none => exact List.nil_subset _
    | some e => exact unresolved_subset_conditionErrors site.toEnv e
  | .block body _ => exact unresolved_subset_foundBlock site calls
  | .result values _ =>
    exact List.subset_append_of_subset_left _ (unresolved_subset_inferEach site.toEnv values)
  | .call call _ => exact unresolved_subset_call site.toEnv calls

theorem unresolved_subset_foundEach (site : Site) {statements : List Statement}
    (calls : Statement.EachHoldsCalls statements) :
    unresolved site.library (Statement.libraryCallsEach statements) ⊆ site.foundEach statements := by
  match statements with
  | [] => exact List.nil_subset _
  | s :: rest =>
    exact unresolved_append_subset (unresolved_subset_found site calls.1)
      (unresolved_subset_foundEach (site.within (site.scopes.behind s)) calls.2)

theorem unresolved_subset_foundBlock (site : Site) {body : Block} (calls : body.HoldsCalls) :
    unresolved site.library body.libraryCalls ⊆ site.foundBlock body := by
  match body with
  | ⟨statements, _⟩ => exact unresolved_subset_foundEach site.ofBlock calls

theorem unresolved_subset_foundBranches (site : Site) {branches : List Branch}
    (calls : Branch.EachHoldsCalls branches) :
    unresolved site.library (Branch.libraryCallsEach branches) ⊆ site.foundBranches branches := by
  match branches with
  | [] => exact List.nil_subset _
  | ⟨condition, body⟩ :: rest =>
    have ofBranch := unresolved_append_subset (unresolved_subset_conditionErrors site.toEnv condition)
      (unresolved_subset_foundBlock site calls.1)
    exact unresolved_append_subset ofBranch (unresolved_subset_foundBranches site calls.2)

theorem unresolved_subset_foundOption (site : Site) {otherwise : Option Block}
    (calls : Block.OptionHoldsCalls otherwise) :
    unresolved site.library (Block.libraryCallsOption otherwise) ⊆ site.foundOption otherwise := by
  match otherwise with
  | none => exact List.nil_subset _
  | some body => exact unresolved_subset_foundBlock site calls

end

end Site

/-! ## With another library -/

/-- Whether two libraries make the same of some calls. -/
def SameCalls (library other : Library) (calls : List LibraryName) : Prop :=
  ∀ call ∈ calls, resolve other call = resolve library call

theorem sameCalls_append {library other : Library} {first second : List LibraryName} :
    SameCalls library other (first ++ second) ↔
      SameCalls library other first ∧ SameCalls library other second :=
  List.forall_mem_append

/-- The same names in scope, with another library. -/
def Env.under (env : Env) (library : Library) : Env :=
  { env with library }

section

variable {env : Env} {library : Library}

mutual

theorem infer_under {e : Expr} (same : SameCalls env.library library e.libraryCalls) :
    (env.under library).infer e = env.infer e := by
  match e with
  | .int .. | .string .. | .bool .. | .name .. | .missing .. => rfl
  | .record name fields span =>
    rw [Env.infer, Env.infer, inferFields_under same]
    rfl
  | .operation op operands span => rw [Env.infer, Env.infer, inferEach_under same]
  | .call function args span =>
    rw [Env.infer, Env.infer, inferEach_under same]
    rfl
  | .libraryCall space function args span =>
    obtain ⟨first, inside⟩ := List.forall_mem_cons.mp same
    have resolved : (env.under library).libraryCallee space function =
        env.libraryCallee space function := first
    rw [Env.infer, Env.infer, resolved, inferEach_under inside]
  | .list items span => rw [Env.infer, Env.infer, inferEach_under same]

theorem inferEach_under {es : List Expr}
    (same : SameCalls env.library library (Expr.libraryCallsEach es)) :
    (env.under library).inferEach es = env.inferEach es := by
  match es with
  | [] => rfl
  | e :: rest =>
    obtain ⟨first, others⟩ := sameCalls_append.mp same
    rw [Env.inferEach, Env.inferEach, infer_under first, inferEach_under others]

theorem inferFields_under {fields : List FieldValue}
    (same : SameCalls env.library library (FieldValue.libraryCallsEach fields)) :
    (env.under library).inferFields fields = env.inferFields fields := by
  match fields with
  | [] => rfl
  | ⟨name, value⟩ :: rest =>
    obtain ⟨first, others⟩ := sameCalls_append.mp same
    rw [Env.inferFields, Env.inferFields, infer_under first, inferFields_under others]

end

theorem conditionErrors_under {e : Expr} (same : SameCalls env.library library e.libraryCalls) :
    (env.under library).conditionErrors e = env.conditionErrors e := by
  simp only [Env.conditionErrors, infer_under same]

theorem declarationErrors_under {decl : VariableDecl}
    (same : SameCalls env.library library decl.value.libraryCalls) :
    (env.under library).declarationErrors decl = env.declarationErrors decl := by
  simp only [Env.declarationErrors, infer_under same]
  rfl

theorem reassignmentErrors_under {value : Expr}
    (same : SameCalls env.library library value.libraryCalls) (target : Ident) :
    (env.under library).reassignmentErrors target value = env.reassignmentErrors target value := by
  simp only [Env.reassignmentErrors, infer_under same]
  rfl

theorem callErrors_under {e : Expr} (same : SameCalls env.library library e.libraryCalls) :
    (env.under library).callErrors e = env.callErrors e := by
  cases e with
  | call function args span =>
    rw [Env.callErrors, Env.callErrors, inferEach_under same]
    rfl
  | libraryCall space function args span =>
    obtain ⟨first, inside⟩ := List.forall_mem_cons.mp same
    have resolved : (env.under library).libraryCallee space function =
        env.libraryCallee space function := first
    rw [Env.callErrors, Env.callErrors, resolved, inferEach_under inside]
  | _ => rfl

theorem paramErrors_under (env : Env) (library : Library) (ps : List Param) :
    (env.under library).paramErrors ps = env.paramErrors ps := by
  induction ps generalizing env with
  | nil => rfl
  | cons p ps inductionHypothesis =>
    exact congrArg (_ ++ ·) (inductionHypothesis { env with scopes := env.scopes.adding (.ofParam p) })

theorem fieldErrors_under (env : Env) (library : Library) (datatype : String) (before : List String)
    (fields : List Param) :
    (env.under library).fieldErrors datatype before fields = env.fieldErrors datatype before fields := by
  induction fields generalizing before with
  | nil => rfl
  | cons p ps inductionHypothesis => exact congrArg (_ ++ ·) (inductionHypothesis _)

end

namespace Site

/-- The same site with another library. -/
def under (site : Site) (library : Library) : Site :=
  { site with library }

theorem resultErrors_under {site : Site} {library : Library} {values : List Expr}
    (same : SameCalls site.library library (Expr.libraryCallsEach values)) (span : Span) :
    (site.under library).resultErrors values span = site.resultErrors values span := by
  have judged : (site.under library).inferEach values = site.inferEach values :=
    @inferEach_under site.toEnv library values same
  simp only [Site.resultErrors, judged]
  rfl

mutual

theorem found_under {site : Site} {library : Library} {s : Statement}
    (same : SameCalls site.library library s.libraryCalls) :
    (site.under library).found s = site.found s := by
  match s with
  | .function ⟨_, params, returns, ⟨body, _⟩⟩ _ =>
    have ofParams : ((site.under library).within site.scopes.push).paramErrors params =
        (site.within site.scopes.push).paramErrors params :=
      paramErrors_under (site.within site.scopes.push).toEnv library params
    have ofBody : ((site.under library).ofBody params returns).foundEach body =
        (site.ofBody params returns).foundEach body :=
      @foundEach_under (site.ofBody params returns) library body same
    rw [Site.found, Site.found, ofBody]
    exact congrArg (fun errors => _ ++ errors ++ _) ofParams
  | .datatype decl _ => exact fieldErrors_under site.toEnv library decl.name.name [] decl.fields
  | .declaration _ decl _ => exact congrArg (· ++ _) (@declarationErrors_under site.toEnv library decl same)
  | .reassignment target value _ => exact @reassignmentErrors_under site.toEnv library value same target
  | .conditional branches otherwise _ =>
    obtain ⟨ofBranches, ofOtherwise⟩ := sameCalls_append.mp same
    rw [Site.found, Site.found, foundBranches_under ofBranches, foundOption_under ofOtherwise]
  | .loop condition body _ =>
    obtain ⟨ofCondition, ofBody⟩ := sameCalls_append.mp same
    have inside : (site.under library).inLoop.foundBlock body = site.inLoop.foundBlock body :=
      @foundBlock_under site.inLoop library body ofBody
    rw [Site.found, Site.found, inside]
    cases condition with
    | none => rfl
    | some e => exact congrArg (· ++ _) (@conditionErrors_under site.toEnv library e ofCondition)
  | .block body _ => exact foundBlock_under same
  | .result values span => exact resultErrors_under same span
  | .call call _ => exact @callErrors_under site.toEnv library call same
  | .control kind span => rfl

theorem foundEach_under {site : Site} {library : Library} {statements : List Statement}
    (same : SameCalls site.library library (Statement.libraryCallsEach statements)) :
    (site.under library).foundEach statements = site.foundEach statements := by
  match statements with
  | [] => rfl
  | s :: rest =>
    obtain ⟨first, others⟩ := sameCalls_append.mp same
    have tail : ((site.within (site.scopes.behind s)).under library).foundEach rest =
        (site.within (site.scopes.behind s)).foundEach rest := foundEach_under others
    rw [Site.foundEach, Site.foundEach, found_under first]
    exact congrArg (_ ++ ·) tail

theorem foundBlock_under {site : Site} {library : Library} {body : Block}
    (same : SameCalls site.library library body.libraryCalls) :
    (site.under library).foundBlock body = site.foundBlock body := by
  match body with
  | ⟨statements, _⟩ => exact @foundEach_under site.ofBlock library statements same

theorem foundBranches_under {site : Site} {library : Library} {branches : List Branch}
    (same : SameCalls site.library library (Branch.libraryCallsEach branches)) :
    (site.under library).foundBranches branches = site.foundBranches branches := by
  match branches with
  | [] => rfl
  | ⟨condition, body⟩ :: rest =>
    obtain ⟨ofBranch, others⟩ := sameCalls_append.mp same
    obtain ⟨ofCondition, ofBody⟩ := sameCalls_append.mp ofBranch
    have first : (site.under library).conditionErrors condition = site.conditionErrors condition :=
      @conditionErrors_under site.toEnv library condition ofCondition
    rw [Site.foundBranches, Site.foundBranches, first, foundBlock_under ofBody, foundBranches_under others]

theorem foundOption_under {site : Site} {library : Library} {otherwise : Option Block}
    (same : SameCalls site.library library (Block.libraryCallsOption otherwise)) :
    (site.under library).foundOption otherwise = site.foundOption otherwise := by
  match otherwise with
  | none => rfl
  | some body => exact foundBlock_under same

end

end Site

end Typing

namespace Program

theorem found_under {library other : Library} {p : Program}
    (same : Typing.SameCalls library other p.libraryCalls) : p.found other = p.found library :=
  congrArg (_ ++ ·) (@Typing.Site.foundEach_under (p.site library) other p same)

theorem unresolved_subset_found (library : Library) {p : Program} (calls : Statement.EachHoldsCalls p) :
    Typing.unresolved library p.libraryCalls ⊆ p.found library :=
  List.subset_append_of_subset_right _ (Typing.Site.unresolved_subset_foundEach (p.site library) calls)

end Program

/-! ## With one more function -/

namespace Library

variable {library grown : Library} {space name : String} {f : FunctionSymbol}

theorem add_ok (added : library.add space name f = .ok grown) :
    library.getFunction? space name = none ∧ grown = ⟨library.entries ++ [⟨space, name, f⟩]⟩ := by
  rw [add] at added
  split at added
  next => cases added
  next free => exact ⟨by simpa using free, (Except.ok.inj added).symm⟩

variable (added : library.add space name f = .ok grown)

include added

theorem hasSpace_add (other : String) :
    grown.hasSpace other = (library.hasSpace other || decide (space = other)) := by
  obtain ⟨-, rfl⟩ := add_ok added
  simp [hasSpace]

theorem getFunction?_add_of_found {other function : String} {g : FunctionSymbol}
    (found : library.getFunction? other function = some g) :
    grown.getFunction? other function = some g := by
  obtain ⟨-, rfl⟩ := add_ok added
  obtain ⟨entry, first, rfl⟩ := Option.map_eq_some_iff.mp found
  simp only [getFunction?, List.find?_append, first, Option.some_or, Option.map_some]

theorem getFunction?_add_of_apart {other function : String} (apart : other = space → function ≠ name) :
    grown.getFunction? other function = library.getFunction? other function := by
  obtain ⟨-, rfl⟩ := add_ok added
  have passed : ¬ (space = other ∧ name = function) := fun same => apart same.1.symm same.2.symm
  simp [getFunction?, List.find?_append, passed]

end Library

namespace Typing

variable {library grown : Library} {space name : String} {f : FunctionSymbol}
  (added : library.add space name f = .ok grown) {call : LibraryName}

include added

/-- A call that was resolved is resolved to the same. -/
theorem resolve_add_of_ok {callee : Callee} (resolved : resolve library call = .ok callee) :
    resolve grown call = .ok callee := by
  simp only [resolve, Env.libraryCallee] at resolved ⊢
  split at resolved
  next known =>
    have stillKnown : grown.hasSpace call.space.name = true := by
      rw [Library.hasSpace_add added, known, Bool.true_or]
    rw [if_pos stillKnown]
    split at resolved
    next g found => rw [Library.getFunction?_add_of_found added found]; exact resolved
    next => cases resolved
  next => cases resolved

/-- A call that is not of the new function, nor of a space that is new with it, is resolved as before. -/
theorem resolve_add_of_apart
    (apart : call.space.name = space → call.function.name ≠ name ∧ library.hasSpace space = true) :
    resolve grown call = resolve library call := by
  have sameSpace : grown.hasSpace call.space.name = library.hasSpace call.space.name := by
    rw [Library.hasSpace_add added]
    by_cases same : call.space.name = space
    · rw [same, (apart same).2, Bool.true_or]
    · simp [Ne.symm same]
  have sameFunction : grown.getFunction? call.space.name call.function.name =
      library.getFunction? call.space.name call.function.name :=
    Library.getFunction?_add_of_apart added fun same => (apart same).1
  simp only [resolve, Env.libraryCallee, sameSpace, sameFunction]

end Typing

namespace Program

/-- Where nothing is wrong, all calls are resolved, and a function more makes no difference. -/
theorem sameCalls_of_clean {library grown : Library} {space name : String} {f : FunctionSymbol}
    (added : library.add space name f = .ok grown) {p : Program} (calls : Statement.EachHoldsCalls p)
    (clean : p.found library = []) : Typing.SameCalls library grown p.libraryCalls := by
  intro call member
  cases resolved : Typing.resolve library call with
  | ok callee => exact Typing.resolve_add_of_ok added resolved
  | error e =>
    -- it would have been reported
    have reported : e ∈ Typing.unresolved library p.libraryCalls :=
      List.mem_filterMap.mpr ⟨call, member, by rw [resolved]⟩
    have none := p.unresolved_subset_found library calls reported
    rw [clean] at none
    cases none

/-- A library may grow. With one more function a program that was accepted is accepted, with the same globals.
And a program that does not call the function, nor anything in its space if that is new, is found to have the
same errors and the same globals. -/
theorem check_add {library grown : Library} {space name : String} {f : FunctionSymbol}
    (added : library.add space name f = .ok grown) {p : Program} (calls : Statement.EachHoldsCalls p) :
    ∃ before after, p.check library = .ok before ∧ p.check grown = .ok after ∧
      (before.errors = [] → after.errors = [] ∧ after.value.globals = before.value.globals) ∧
      ((∀ call ∈ p.libraryCalls, ¬ (call.space.name = space ∧ call.function.name = name)) →
        (library.hasSpace space = false → ∀ call ∈ p.libraryCalls, call.space.name ≠ space) →
        after.errors = before.errors ∧ after.value.globals = before.value.globals) := by
  refine ⟨_, _, check_eq_globals library calls, check_eq_globals grown calls, ?accepted, ?apart⟩
  case accepted =>
    intro clean
    exact ⟨(found_under (sameCalls_of_clean added calls clean)).trans clean, rfl⟩
  case apart =>
    intro notCalled notInSpace
    have same : Typing.SameCalls library grown p.libraryCalls := by
      intro call member
      apply Typing.resolve_add_of_apart added
      intro inSpace
      refine ⟨fun named => notCalled call member ⟨inSpace, named⟩, ?_⟩
      cases known : library.hasSpace space with
      | true => rfl
      | false => exact absurd inSpace (notInSpace known call member)
    exact ⟨found_under same, rfl⟩

/-- A space gets a second function, and a program calls the first one inside of a function. -/
theorem check_add_second :
    let ident (name : String) : Ident := ⟨name, default⟩
    let int : TypeName := ⟨.int, false, default⟩
    let root : FunctionSymbol := ⟨"sqrt", [.int], [.int], ⟨[], default⟩, default⟩
    let call (arg : Expr) : Expr := .libraryCall (ident "Math") (ident "sqrt") [arg] default
    let p : Program :=
      [.function ⟨ident "f", [⟨int, ident "n"⟩], [int],
        ⟨[.result [call (call (.name (ident "n") default))] default], default⟩⟩ default]
    let library : Library := ⟨[⟨"Math", "sqrt", root⟩]⟩
    let grown : Library := ⟨[⟨"Math", "sqrt", root⟩, ⟨"Math", "cbrt", root⟩]⟩
    library.add "Math" "cbrt" root = .ok grown ∧ Statement.EachHoldsCalls p ∧
      ∃ before after, p.check library = .ok before ∧ p.check grown = .ok after ∧
        before.errors = [] ∧ after.errors = [] ∧ after.value.globals = before.value.globals := by
  intro ident int root call p library grown
  have added : library.add "Math" "cbrt" root = .ok grown := rfl
  have calls : Statement.EachHoldsCalls p := ⟨⟨trivial, trivial⟩, trivial⟩
  obtain ⟨before, after, checked, checkedGrown, accepted, apart⟩ := check_add added calls
  have clean : before.errors = [] := by
    have ran : p.check library = .ok ⟨⟨p, p.globals⟩, []⟩ := rfl
    rw [ran] at checked
    cases checked
    rfl
  exact ⟨added, calls, before, after, checked, checkedGrown, clean, accepted clean⟩

end Program

end FrontEnd
