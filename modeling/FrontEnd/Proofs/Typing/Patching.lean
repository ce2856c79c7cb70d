import FrontEnd.Proofs.Typing.Fading
import FrontEnd.Proofs.Typing.Matching

/-!
# One unknown value does not cascade

In a program without errors some expressions are replaced by others, of which nothing is known but what is
wrong with each on its own. Then nothing more is found than that, in the order of the program
(`Program.found_patched`): whatever depends on a replaced expression fits, for the type of it is unknown. So
a program with missing parts is as good as the whole one, and a variable that is not declared is reported just
where it is used (`Program.check_patched`).
-/

namespace FrontEnd

namespace Typing

/-! ## Expressions -/

variable {ι : Type}

/-- Whether nothing is known of what is put in, but for what is wrong with it on its own. This may need that
some names are not in scope. -/
structure Neutral (patch : ι → Expr) (reports : ι → List (Located Error)) (allowed : String → Prop) :
    Prop where
  type : ∀ env : Env, env.scopes.Names allowed → ∀ put, (env.infer (patch put)).type = .unknown
  errors : ∀ env : Env, env.scopes.Names allowed → ∀ put, (env.infer (patch put)).errors = reports put

/-- The same names stand for the same, and all are allowed. -/
structure Env.Agrees (allowed : String → Prop) (env other : Env) : Prop where
  library : other.library = env.library
  scopes : env.scopes.Matches other.scopes
  names : other.scopes.Names allowed

section

variable {patch : ι → Expr} {reports : ι → List (Located Error)} {allowed : String → Prop}
  {env other : Env}

theorem Env.Agrees.callee (agrees : env.Agrees allowed other) (function : Ident) :
    other.callee function = env.callee function := by
  have found := agrees.scopes.getFunction? function.name
  simp only [Env.callee]
  cases before : env.scopes.getFunction? function.name <;>
    cases behind : other.scopes.getFunction? function.name <;>
    simp_all [FunctionSymbol.signature]

theorem Env.Agrees.libraryCallee (agrees : env.Agrees allowed other) (space function : Ident) :
    other.libraryCallee space function = env.libraryCallee space function := by
  simp only [Env.libraryCallee, agrees.library]

theorem Env.Agrees.judgeName (agrees : env.Agrees allowed other) (ident : Ident) (span : Span) :
    other.judgeName ident span = env.judgeName ident span := by
  have found := agrees.scopes.getVariable? ident.name
  simp only [Env.judgeName]
  cases before : env.scopes.getVariable? ident.name <;>
    cases behind : other.scopes.getVariable? ident.name <;>
    simp_all [VariableSymbol.binding]

mutual

/-- Where nothing is wrong with an expression, an exchange of parts makes known what is wrong with these,
and the type of the whole is the same, or it is no longer known. -/
theorem infer_patched (neutral : Neutral patch reports allowed) (agrees : env.Agrees allowed other)
    {e f : Expr} {puts : List ι} (patched : e.Patched patch f puts)
    (clean : (env.infer e).errors = []) :
    (env.infer e).Fades (other.infer f) ∧ (other.infer f).errors = puts.flatMap reports := by
  match patched with
  | @Expr.Patched.whole _ _ _ put =>
    refine ⟨.of_unknown (neutral.type other agrees.names put), ?_⟩
    rw [neutral.errors other agrees.names put, List.flatMap_singleton]
  | .inside parts => exact inferParts_patched neutral agrees parts clean

theorem inferParts_patched (neutral : Neutral patch reports allowed) (agrees : env.Agrees allowed other)
    {e f : Expr} {puts : List ι} (parts : e.PartsPatched patch f puts)
    (clean : (env.infer e).errors = []) :
    (env.infer e).Fades (other.infer f) ∧ (other.infer f).errors = puts.flatMap reports := by
  match parts with
  | .int | .string | .bool | .missing => exact ⟨.of_same rfl, rfl⟩
  | @Expr.PartsPatched.name _ _ ident span =>
    have same : other.infer (.name ident span) = env.infer (.name ident span) :=
      agrees.judgeName ident span
    rw [same]
    exact ⟨.of_same rfl, clean⟩
  | @Expr.PartsPatched.record _ _ name _ _ _ _ values =>
    -- the parts of a clean expression are clean, so whatever is found in the new ones comes of the exchange
    have inside := List.eq_nil_of_subset_nil (clean ▸ allErrors_subset_judgeRecord _ name _ _)
    obtain ⟨fade, found⟩ := inferFields_patched neutral agrees values inside
    obtain ⟨fades, same⟩ := judgeRecord_of_fades fade clean
    rw [Env.infer, Env.infer, agrees.scopes.getDatatype?]
    exact ⟨fades, same.trans found⟩
  | .operation each =>
    obtain ⟨fade, found⟩ := inferEach_patched neutral agrees each (List.append_eq_nil_iff.mp clean).1
    obtain ⟨fades, same⟩ := judgeOperation_of_fades fade clean
    exact ⟨fades, same.trans found⟩
  | .call each =>
    have called := List.eq_nil_of_subset_nil (clean ▸ callErrors_subset_judgeCall ..)
    have inside := List.eq_nil_of_subset_nil (called ▸ allErrors_subset_callErrors ..)
    obtain ⟨fade, found⟩ := inferEach_patched neutral agrees each inside
    obtain ⟨fades, same⟩ := judgeCall_of_fades fade clean
    rw [Env.infer, Env.infer, agrees.callee]
    exact ⟨fades, same.trans found⟩
  | .libraryCall each =>
    have called := List.eq_nil_of_subset_nil (clean ▸ callErrors_subset_judgeCall ..)
    have inside := List.eq_nil_of_subset_nil (called ▸ allErrors_subset_callErrors ..)
    obtain ⟨fade, found⟩ := inferEach_patched neutral agrees each inside
    obtain ⟨fades, same⟩ := judgeCall_of_fades fade clean
    rw [Env.infer, Env.infer, agrees.libraryCallee]
    exact ⟨fades, same.trans found⟩
  | .list each =>
    have inside := List.eq_nil_of_subset_nil (clean ▸ allErrors_subset_judgeList ..)
    obtain ⟨fade, found⟩ := inferEach_patched neutral agrees each inside
    obtain ⟨fades, same⟩ := judgeList_of_fades fade clean
    exact ⟨fades, same.trans found⟩

theorem inferEach_patched (neutral : Neutral patch reports allowed) (agrees : env.Agrees allowed other)
    {es fs : List Expr} {puts : List ι} (patched : Expr.EachPatched patch es fs puts)
    (clean : Judgement.allErrors (env.inferEach es) = []) :
    List.Forall₂ Judgement.Fades (env.inferEach es) (other.inferEach fs) ∧
      Judgement.allErrors (other.inferEach fs) = puts.flatMap reports := by
  match patched with
  | .nil => exact ⟨.nil, rfl⟩
  | .cons first rest =>
    obtain ⟨cleanFirst, cleanRest⟩ := List.append_eq_nil_iff.mp clean
    obtain ⟨fades, found⟩ := infer_patched neutral agrees first cleanFirst
    obtain ⟨fade, foundRest⟩ := inferEach_patched neutral agrees rest cleanRest
    refine ⟨.cons fades fade, ?_⟩
    rw [Env.inferEach, allErrors_cons, found, foundRest, List.flatMap_append]

theorem inferFields_patched (neutral : Neutral patch reports allowed) (agrees : env.Agrees allowed other)
    {fields others : List FieldValue} {puts : List ι}
    (patched : FieldValue.EachPatched patch fields others puts)
    (clean : Judgement.allErrors ((env.inferFields fields).map Prod.snd) = []) :
    FieldsFade (env.inferFields fields) (other.inferFields others) ∧
      Judgement.allErrors ((other.inferFields others).map Prod.snd) = puts.flatMap reports := by
  match patched with
  | .nil => exact ⟨.nil, rfl⟩
  | .cons first rest =>
    obtain ⟨cleanFirst, cleanRest⟩ := List.append_eq_nil_iff.mp clean
    obtain ⟨fades, found⟩ := infer_patched neutral agrees first cleanFirst
    obtain ⟨fade, foundRest⟩ := inferFields_patched neutral agrees rest cleanRest
    refine ⟨.cons ⟨rfl, fades⟩ fade, ?_⟩
    rw [Env.inferFields, List.map_cons, allErrors_cons, found, foundRest, List.flatMap_append]

end

/-! ## Single statements -/

theorem Env.Agrees.typeErrors (agrees : env.Agrees allowed other) (type : TypeName) :
    other.typeErrors type = env.typeErrors type := by
  simp only [Env.typeErrors, agrees.scopes.getDatatype?]

theorem Env.Agrees.fieldErrors (agrees : env.Agrees allowed other) (datatype : String)
    (before : List String) (fields : List Param) :
    other.fieldErrors datatype before fields = env.fieldErrors datatype before fields := by
  induction fields generalizing before with
  | nil => rfl
  | cons p ps inductionHypothesis =>
    rw [Env.fieldErrors, Env.fieldErrors, agrees.typeErrors, inductionHypothesis]

theorem Env.Agrees.duplicateErrors (agrees : env.Agrees allowed other) {name : Ident}
    (clean : env.duplicateErrors name = []) : other.duplicateErrors name = [] := by
  have found := agrees.scopes.current.getVariable? name.name
  simp only [Env.duplicateErrors] at clean ⊢
  cases before : env.scopes.current.getVariable? name.name with
  | some first => simp [before] at clean
  | none =>
    rw [before, Option.map_none, Option.map_eq_none_iff] at found
    rw [found]

theorem Env.Agrees.adding (agrees : env.Agrees allowed other) {v w : VariableSymbol}
    (same : w.binding = v.binding) (fits : allowed w.name) :
    Env.Agrees allowed { env with scopes := env.scopes.adding v }
      { other with scopes := other.scopes.adding w } :=
  ⟨agrees.library, agrees.scopes.adding same, agrees.names.adding fits⟩

theorem Env.Agrees.paramErrors (agrees : env.Agrees allowed other) {ps : List Param}
    (fit : ∀ p ∈ ps, allowed p.name.name) (clean : env.paramErrors ps = []) :
    other.paramErrors ps = [] := by
  induction ps generalizing env other with
  | nil => rfl
  | cons p ps inductionHypothesis =>
    obtain ⟨fitsFirst, fitRest⟩ := List.forall_mem_cons.mp fit
    obtain ⟨cleanFirst, cleanRest⟩ := List.append_eq_nil_iff.mp clean
    obtain ⟨typeClean, nameClean⟩ := List.append_eq_nil_iff.mp cleanFirst
    have rest := inductionHypothesis (agrees.adding (v := .ofParam p) rfl fitsFirst) fitRest cleanRest
    rw [Env.paramErrors, agrees.typeErrors, typeClean, agrees.duplicateErrors nameClean, rest]
    rfl

theorem conditionErrors_patched (neutral : Neutral patch reports allowed)
    (agrees : env.Agrees allowed other) {e f : Expr} {puts : List ι} (patched : e.Patched patch f puts)
    (clean : env.conditionErrors e = []) : other.conditionErrors f = puts.flatMap reports := by
  obtain ⟨inside, typed⟩ := List.append_eq_nil_iff.mp clean
  obtain ⟨fades, found⟩ := infer_patched neutral agrees patched inside
  simp only [Env.conditionErrors, found, fades.require typed, List.append_nil]

theorem declarationErrors_patched (neutral : Neutral patch reports allowed)
    (agrees : env.Agrees allowed other) {type : TypeName} {name : Ident} {e f : Expr} {puts : List ι}
    (patched : e.Patched patch f puts) (clean : env.declarationErrors ⟨type, name, e⟩ = []) :
    other.declarationErrors ⟨type, name, f⟩ = puts.flatMap reports := by
  simp only [Env.declarationErrors, List.append_eq_nil_iff] at clean
  obtain ⟨⟨declared, inside⟩, typed⟩ := clean
  obtain ⟨fades, found⟩ := infer_patched neutral agrees patched inside
  rw [declared, List.isEmpty_nil, if_pos rfl] at typed
  simp only [Env.declarationErrors, agrees.typeErrors, declared, found, List.isEmpty_nil, if_true,
    fades.require typed, List.nil_append, List.append_nil]

theorem reassignmentErrors_patched (neutral : Neutral patch reports allowed)
    (agrees : env.Agrees allowed other) {target : Ident} {e f : Expr} {puts : List ι}
    (patched : e.Patched patch f puts) (clean : env.reassignmentErrors target e = []) :
    other.reassignmentErrors target f = puts.flatMap reports := by
  obtain ⟨inside, typed⟩ := List.append_eq_nil_iff.mp clean
  obtain ⟨fades, found⟩ := infer_patched neutral agrees patched inside
  have same := agrees.scopes.getVariable? target.name
  simp only [Env.reassignmentErrors, found]
  cases before : env.scopes.getVariable? target.name with
  | none => simp [before] at typed
  | some v =>
    rw [before] at typed same
    obtain ⟨w, declared, sameBinding⟩ := Option.map_eq_some_iff.mp same
    have sameType : w.type = v.type := congrArg Binding.type sameBinding
    simp only [declared, sameType, fades.require typed, List.append_nil]

theorem callErrors_patched (neutral : Neutral patch reports allowed) (agrees : env.Agrees allowed other)
    {e f : Expr} {puts : List ι} (isCall : e.isCall = true) (parts : e.PartsPatched patch f puts)
    (clean : env.callErrors e = []) : other.callErrors f = puts.flatMap reports := by
  cases parts with
  | call each =>
    rw [Env.callErrors] at clean
    have inside := List.eq_nil_of_subset_nil (clean ▸ allErrors_subset_callErrors ..)
    obtain ⟨fade, found⟩ := inferEach_patched neutral agrees each inside
    rw [Env.callErrors, agrees.callee]
    exact (callErrors_of_fades fade clean).trans found
  | libraryCall each =>
    rw [Env.callErrors] at clean
    have inside := List.eq_nil_of_subset_nil (clean ▸ allErrors_subset_callErrors ..)
    obtain ⟨fade, found⟩ := inferEach_patched neutral agrees each inside
    rw [Env.callErrors, agrees.libraryCallee]
    exact (callErrors_of_fades fade clean).trans found
  | _ => cases isCall

end

/-! ## Statements -/

/-- What is around is the same too. -/
structure Site.Agrees (allowed : String → Prop) (site other : Site) : Prop
    extends Env.Agrees allowed site.toEnv other.toEnv where
  returns : other.returns = site.returns
  loopDepth : other.loopDepth = site.loopDepth

namespace Site

section

variable {patch : ι → Expr} {reports : ι → List (Located Error)} {allowed : String → Prop}
  {site other : Site}

theorem Agrees.within (agrees : site.Agrees allowed other) {s t : Scopes} (same : s.Matches t)
    (names : t.Names allowed) : (site.within s).Agrees allowed (other.within t) :=
  { agrees with scopes := same, names }

theorem Agrees.ofBlock (agrees : site.Agrees allowed other) : site.ofBlock.Agrees allowed other.ofBlock :=
  agrees.within agrees.scopes.push agrees.names.push

theorem Agrees.inLoop (agrees : site.Agrees allowed other) : site.inLoop.Agrees allowed other.inLoop :=
  { agrees with loopDepth := congrArg (· + 1) agrees.loopDepth }

theorem Agrees.ofBody (agrees : site.Agrees allowed other) {params : List Param}
    (fit : ∀ p ∈ params, allowed p.name.name) (returns : List TypeName) :
    (site.ofBody params returns).Agrees allowed (other.ofBody params returns) :=
  { agrees.within (agrees.scopes.push.addingParams params) (agrees.names.push.addingParams fit) with
    returns := rfl
    loopDepth := rfl }

theorem Agrees.behind (agrees : site.Agrees allowed other) {s t : Statement} {puts : List ι}
    (patched : s.Patched patch t puts) {outer : Place} {frame : Frame}
    (declares : Declares allowed (s.occurrences outer frame)) :
    (site.within (site.scopes.behind s)).Agrees allowed (other.within (other.scopes.behind t)) := by
  refine agrees.within (agrees.scopes.behind patched) ?_
  cases patched with
  | declaration =>
    have fits := (declares_cons.mp (declares_append.mp declares).2).1
    exact agrees.names.adding fits
  | _ => exact agrees.names

theorem resultErrors_patched (neutral : Neutral patch reports allowed) (agrees : site.Agrees allowed other)
    {values others : List Expr} {span : Span} {puts : List ι}
    (patched : Expr.EachPatched patch values others puts) (clean : site.resultErrors values span = []) :
    other.resultErrors others span = puts.flatMap reports := by
  obtain ⟨inside, given⟩ := List.append_eq_nil_iff.mp clean
  obtain ⟨fade, found⟩ := inferEach_patched neutral agrees.toAgrees patched inside
  simp only [resultErrors, found, agrees.returns, ← fade.length_eq]
  cases returns : site.returns with
  | none => simp [returns] at given
  | some types =>
    simp only [returns] at given ⊢
    split at given
    next count => rw [if_pos count, requireEach_of_fades fade given, List.append_nil]
    next => cases given

mutual

/-- Where nothing is wrong with a statement, an exchange of expressions in it makes known what is wrong with
these, in their order, and nothing else. -/
theorem found_patched (neutral : Neutral patch reports allowed) {site other : Site}
    (agrees : site.Agrees allowed other) {s t : Statement} {puts : List ι} (patched : s.Patched patch t puts)
    {outer : Place} {frame : Frame} (declares : Declares allowed (s.occurrences outer frame))
    (calls : s.HoldsCalls) (clean : site.found s = []) : other.found t = puts.flatMap reports := by
  match patched with
  | @Statement.Patched.function _ _ _ params returns _ _ _ _ (.intro inside) =>
    obtain ⟨declaresParams, declaresBody⟩ := declares_append.mp declares
    -- nothing is exchanged in the header of a function, so all errors are of its body
    obtain ⟨head, cleanBody⟩ := List.append_eq_nil_iff.mp clean
    obtain ⟨cleanReturns, cleanParams⟩ := List.append_eq_nil_iff.mp head
    have ofBody := agrees.ofBody declaresParams.params returns
    have found := foundEach_patched neutral ofBody inside declaresBody calls cleanBody
    have params := agrees.ofBlock.paramErrors declaresParams.params cleanParams
    have sameTypes : returns.flatMap other.typeErrors = returns.flatMap site.typeErrors :=
      List.flatMap_congr fun type _ => agrees.typeErrors type
    rw [Site.found, sameTypes, cleanReturns, found]
    exact congrArg (· ++ _) params
  | @Statement.Patched.datatype _ _ decl _ =>
    exact (agrees.fieldErrors decl.name.name [] decl.fields).trans clean
  | .declaration value =>
    obtain ⟨cleanValue, cleanName⟩ := List.append_eq_nil_iff.mp clean
    have found := declarationErrors_patched neutral agrees.toAgrees value cleanValue
    rw [Site.found, found, agrees.duplicateErrors cleanName, List.append_nil]
  | .reassignment value => exact reassignmentErrors_patched neutral agrees.toAgrees value clean
  | .conditional each last =>
    obtain ⟨declaresBranches, declaresLast⟩ := declares_append.mp declares
    obtain ⟨cleanBranches, cleanLast⟩ := List.append_eq_nil_iff.mp clean
    have found := foundBranches_patched neutral agrees each declaresBranches calls.1 cleanBranches
    have foundLast := foundOption_patched neutral agrees last declaresLast calls.2 cleanLast
    rw [Site.found, found, foundLast, List.flatMap_append]
  | .loop condition inside =>
    obtain ⟨_, declaresBody⟩ := declares_append.mp declares
    obtain ⟨cleanCondition, cleanBody⟩ := List.append_eq_nil_iff.mp clean
    have found := foundBlock_patched neutral agrees.inLoop inside declaresBody calls cleanBody
    rw [Site.found, found, List.flatMap_append]
    congr 1
    cases condition with
    | none => rfl
    | some patched => exact conditionErrors_patched neutral agrees.toAgrees patched cleanCondition
  | .block inside => exact foundBlock_patched neutral agrees inside declares calls clean
  | .result each => exact resultErrors_patched neutral agrees each clean
  | .call parts => exact callErrors_patched neutral agrees.toAgrees calls parts clean
  | @Statement.Patched.control _ _ kind span =>
    have same : other.controlErrors kind span = site.controlErrors kind span := by
      rw [Site.controlErrors, Site.controlErrors, agrees.loopDepth]
    exact same.trans clean

theorem foundEach_patched (neutral : Neutral patch reports allowed) {site other : Site}
    (agrees : site.Agrees allowed other) {statements others : List Statement} {puts : List ι}
    (patched : Statement.EachPatched patch statements others puts) {outer : Place} {frame : Frame}
    (declares : Declares allowed (Statement.occurrencesEach outer frame statements))
    (calls : Statement.EachHoldsCalls statements) (clean : site.foundEach statements = []) :
    other.foundEach others = puts.flatMap reports := by
  match patched with
  | .nil => rfl
  | .cons first rest =>
    obtain ⟨declaresFirst, declaresRest⟩ := declares_append.mp declares
    obtain ⟨cleanFirst, cleanRest⟩ := List.append_eq_nil_iff.mp clean
    have found := found_patched neutral agrees first declaresFirst calls.1 cleanFirst
    -- a declaration keeps its name and its type when its value is exchanged, so both go on alike
    have behind := agrees.behind first declaresFirst
    have foundRest := foundEach_patched neutral behind rest declaresRest calls.2 cleanRest
    rw [Site.foundEach, found, foundRest, List.flatMap_append]

theorem foundBlock_patched (neutral : Neutral patch reports allowed) {site other : Site}
    (agrees : site.Agrees allowed other) {body last : Block} {puts : List ι}
    (patched : body.Patched patch last puts) {place : Place}
    (declares : Declares allowed (body.occurrences place)) (calls : body.HoldsCalls)
    (clean : site.foundBlock body = []) : other.foundBlock last = puts.flatMap reports := by
  match patched with
  | .intro inside => exact foundEach_patched neutral agrees.ofBlock inside declares calls clean

theorem foundBranches_patched (neutral : Neutral patch reports allowed) {site other : Site}
    (agrees : site.Agrees allowed other) {branches others : List Branch} {puts : List ι}
    (patched : Branch.EachPatched patch branches others puts) {place : Place}
    (declares : Declares allowed (Branch.occurrencesEach place branches))
    (calls : Branch.EachHoldsCalls branches) (clean : site.foundBranches branches = []) :
    other.foundBranches others = puts.flatMap reports := by
  match patched with
  | .nil => rfl
  | .cons condition inside rest =>
    obtain ⟨declaresFirst, declaresRest⟩ := declares_append.mp declares
    obtain ⟨_, declaresBody⟩ := declares_append.mp declaresFirst
    obtain ⟨cleanFirst, cleanRest⟩ := List.append_eq_nil_iff.mp clean
    obtain ⟨cleanCondition, cleanBody⟩ := List.append_eq_nil_iff.mp cleanFirst
    have found := conditionErrors_patched neutral agrees.toAgrees condition cleanCondition
    have foundBody := foundBlock_patched neutral agrees inside declaresBody calls.1 cleanBody
    have foundRest := foundBranches_patched neutral agrees rest declaresRest calls.2 cleanRest
    rw [Site.foundBranches, found, foundBody, foundRest, List.flatMap_append, List.flatMap_append]

theorem foundOption_patched (neutral : Neutral patch reports allowed) {site other : Site}
    (agrees : site.Agrees allowed other) {otherwise last : Option Block} {puts : List ι}
    (patched : Block.OptionPatched patch otherwise last puts) {place : Place}
    (declares : Declares allowed (Block.occurrencesOption place otherwise))
    (calls : Block.OptionHoldsCalls otherwise) (clean : site.foundOption otherwise = []) :
    other.foundOption last = puts.flatMap reports := by
  match patched with
  | .none => rfl
  | .some inside => exact foundBlock_patched neutral agrees inside declares calls clean

end

end

end Site

end Typing

/-! ## Programs -/

/-- The use of a variable: the region of the name, and that of the expression which it is. -/
def Expr.useOf (name : String) (regions : Span × Span) : Expr :=
  .name ⟨name, regions.1⟩ regions.2

namespace Typing

/-- A part that is missing is reported elsewhere. -/
theorem neutral_missing : Neutral Expr.missing (fun _ => []) fun _ => True :=
  ⟨fun _ _ _ => rfl, fun _ _ _ => rfl⟩

/-- The use of a variable is reported where there is none of the name. -/
theorem neutral_useOf (v : String) :
    Neutral (Expr.useOf v) (fun regions => [⟨.undeclaredVariable v, regions.1⟩]) (· ≠ v) := by
  have judged : ∀ env : Env, env.scopes.Names (· ≠ v) → ∀ regions, env.infer (Expr.useOf v regions) =
      ⟨regions.2, .unknown, [⟨.undeclaredVariable v, regions.1⟩]⟩ := by
    intro env names regions
    have absent : env.scopes.getVariable? v = none := names.getVariable? (by simp)
    rw [Expr.useOf, Env.infer, Env.judgeName, absent]
  constructor
  · intro env names regions
    rw [judged env names]
  · intro env names regions
    rw [judged env names]

end Typing

namespace Program

variable {ι : Type} {patch : ι → Expr} {reports : ι → List (Located Typing.Error)}
  {allowed : String → Prop} {library : Library} {p q : Program} {puts : List ι}

theorem found_patched (neutral : Typing.Neutral patch reports allowed)
    (declares : Declares allowed p.occurrences) (calls : Statement.EachHoldsCalls p)
    (patched : Statement.EachPatched patch p q puts)
    (clean : p.found library = []) : q.found library = puts.flatMap reports := by
  obtain ⟨cleanFirst, cleanEach⟩ := List.append_eq_nil_iff.mp clean
  have registered := (Scopes.Matches.refl .start).registeringEach patched
  obtain ⟨inner, vars⟩ := Scopes.registeringEach_keeps .start q
  have names : (Scopes.start.registeringEach q).Names allowed := by
    intro table member v declared
    rw [Scopes.tables, inner] at member
    rw [List.mem_singleton.mp member, vars] at declared
    cases declared
  have agrees : (p.site library).Agrees allowed (q.site library) :=
    ⟨⟨rfl, registered, names⟩, rfl, rfl⟩
  rw [found, (Scopes.Matches.refl .start).registerEachErrors patched cleanFirst, List.nil_append]
  exact Typing.Site.foundEach_patched neutral agrees patched declares calls cleanEach

theorem globals_patched (patched : Statement.EachPatched patch p q puts) : p.globals.Matches q.globals :=
  (((Scopes.Matches.refl .start).registeringEach patched).behindEach patched).global

/-- One unknown value does not cascade. Of a program without errors, any expressions may go missing, and there
are no errors still; and if they become uses of a variable that is declared nowhere, then there is one error for
each, at its place. In both cases the same is declared. -/
theorem check_patched {o : Outcome Typing.Error CheckedProgram} (checked : p.check library = .ok o)
    (clean : o.errors = []) :
    (∀ (q : Program) spans, Statement.EachPatched .missing p q spans →
      ∃ patched, q.check library = .ok patched ∧ patched.errors = [] ∧
        o.value.globals.Matches patched.value.globals) ∧
    ∀ v, v ∉ p.declaredNames → ∀ (q : Program) uses, Statement.EachPatched (.useOf v) p q uses →
      ∃ patched, q.check library = .ok patched ∧
        patched.errors = uses.map (fun use => ⟨.undeclaredVariable v, use.1⟩) ∧
        o.value.globals.Matches patched.value.globals := by
  obtain ⟨calls, rfl⟩ := (check_eq_ok_iff library p o).mp checked
  refine ⟨fun q spans patched => ?missing, fun v undeclared q uses patched => ?uses⟩
  case missing =>
    have found := found_patched Typing.neutral_missing (fun _ _ => trivial) calls patched clean
    refine ⟨_, check_eq_globals library (patched.holdsCalls calls), ?_, globals_patched patched⟩
    rw [found, List.flatMap_eq_nil_iff]
    exact fun _ _ => rfl
  case uses =>
    have declares : Declares (· ≠ v) p.occurrences := fun name member same => undeclared (same ▸ member)
    have found := found_patched (Typing.neutral_useOf v) declares calls patched clean
    refine ⟨_, check_eq_globals library (patched.holdsCalls calls), ?_, globals_patched patched⟩
    rw [found, List.map_eq_flatMap]

/-- An item of a list, an operand and an argument in a function, and what an empty list is compared with. -/
theorem check_patched_parts :
    let region (line : Nat) : Span := ⟨0, 0, line, 0⟩
    let ident (name : String) : Ident := ⟨name, default⟩
    let one : Expr := .int 1 default
    let int : TypeName := ⟨.int, false, default⟩
    let program (item operand arg first : Expr) : Program :=
      [.declaration false ⟨⟨.int, true, default⟩, ident "xs", .list [item, one] default⟩ default,
        .function ⟨ident "f", [⟨int, ident "n"⟩], [int],
          ⟨[.result [.operation .add [operand, .call (ident "f") [arg] default] default] default],
            default⟩⟩ default,
        .conditional [⟨.operation .eq [first, .list [] default] default, ⟨[], default⟩⟩] none default]
    let p := program one (.name (ident "n") default) one (.name (ident "xs") default)
    let missing (line : Nat) : Expr := .missing (region line)
    let use (line : Nat) : Expr := .useOf "v" (region line, region line)
    let error (line : Nat) : Located Typing.Error := ⟨.undeclaredVariable "v", region line⟩
    ∃ o, p.check .empty = .ok o ∧ o.errors = [] ∧
      (∃ patched, (program (missing 1) (missing 2) (missing 3) (missing 4)).check .empty = .ok patched ∧
        patched.errors = [] ∧ o.value.globals.Matches patched.value.globals) ∧
      ∃ patched, (program (use 1) (use 2) (use 3) (use 4)).check .empty = .ok patched ∧
        patched.errors = [error 1, error 2, error 3, error 4] ∧
        o.value.globals.Matches patched.value.globals := by
  intro region ident one int program p missing use error
  have calls : Statement.EachHoldsCalls p :=
    ⟨trivial, ⟨trivial, trivial⟩, ⟨⟨trivial, trivial⟩, trivial⟩, trivial⟩
  have clean : p.found .empty = [] := by decide +kernel
  have parts {ι : Type} {patch : ι → Expr} {a b c d : ι} : Statement.EachPatched patch p
      (program (patch a) (patch b) (patch c) (patch d)) [a, b, c, d] := by
    have list : Expr.Patched patch (.list [one, one] default) (.list [patch a, one] default) [a] :=
      .inside (.list (.cons .whole (.cons (.inside .int) .nil)))
    have call : Expr.Patched patch (.call (ident "f") [one] default)
        (.call (ident "f") [patch c] default) [c] :=
      .inside (.call (.cons .whole .nil))
    have sum : Expr.Patched patch
        (.operation .add [.name (ident "n") default, .call (ident "f") [one] default] default)
        (.operation .add [patch b, .call (ident "f") [patch c] default] default) [b, c] :=
      .inside (.operation (.cons .whole (.cons call .nil)))
    have compared : Expr.Patched patch
        (.operation .eq [.name (ident "xs") default, .list [] default] default)
        (.operation .eq [patch d, .list [] default] default) [d] :=
      .inside (.operation (.cons .whole (.cons (.inside (.list .nil)) .nil)))
    exact .cons (.declaration list)
      (.cons (.function (.intro (.cons (.result (.cons sum .nil)) .nil)))
        (.cons (.conditional (.cons compared (.intro .nil) .nil) .none) .nil))
  have undeclared : "v" ∉ p.declaredNames := by decide
  obtain ⟨missingParts, uses⟩ := check_patched (check_eq_globals .empty calls) clean
  exact ⟨_, check_eq_globals .empty calls, clean, missingParts _ _ parts, uses "v" undeclared _ _ parts⟩

end Program

end FrontEnd
