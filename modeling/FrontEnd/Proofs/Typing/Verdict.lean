import FrontEnd.Proofs.Typing.Registration
import FrontEnd.Proofs.Typing.Values

/-!
# The verdict of the check

A check finds nothing exactly if the program is well-typed. The induction over the statements goes along
with the scopes: as long as nothing is found, a context describes the site.
-/

namespace FrontEnd.Typing

variable {Γ : Context} {site : Site}

/-! ## Single statements -/

theorem fieldErrors_eq_nil_iff (env : Env) (datatype : String) (before : List String)
    (fields : List Param) :
    env.fieldErrors datatype before fields = [] ↔
      (∀ p ∈ fields, env.typeErrors p.type = []) ∧
        AllFree (· ∉ before) (fields.map fun p => p.name.name) := by
  induction fields generalizing before with
  | nil => simp [Env.fieldErrors, allFree_nil]
  | cons p ps inductionHypothesis =>
    -- behind a field its name is taken, and the same again behind each of the others
    have taken : ∀ other,
        other ∉ before ++ [p.name.name] ↔ other ∉ before ∧ other ≠ p.name.name := by
      simp
    rw [Env.fieldErrors, List.append_eq_nil_iff, List.append_eq_nil_iff, inductionHypothesis,
      List.forall_mem_cons, List.map_cons, allFree_cons_iff taken]
    by_cases given : p.name.name ∈ before
    · simp [given]
    · simp [given, and_assoc]

theorem datatypeErrors_eq_nil_iff (env : Env) (decl : DatatypeDecl) :
    env.datatypeErrors decl = [] ↔
      (∀ p ∈ decl.fields, env.typeErrors p.type = []) ∧
        (decl.fields.map fun p => p.name.name).Nodup := by
  rw [Env.datatypeErrors, fieldErrors_eq_nil_iff]
  simp [AllFree]

section Single

variable (describes : Γ.Describes site)

include describes

theorem typeErrors_eq_nil_iff (type : TypeName) : site.typeErrors type = [] ↔ Γ.IsType type := by
  simp only [Env.typeErrors, Context.IsType]
  cases type.scalar.datatype? with
  | none => simp
  | some name =>
    have known := describes.getDatatype?_iff name
    cases found : site.scopes.getDatatype? name with
    | none =>
      have unknown : ∀ decl ∈ Γ.datatypes, decl.name.name ≠ name := by
        intro decl declared named
        have absurdity := (known decl.shape).mpr ⟨decl, declared, named, rfl⟩
        simp [found] at absurdity
      simpa [found] using unknown
    | some d =>
      obtain ⟨decl, declared, named, _⟩ := (known d.shape).mp (by simp [found])
      simpa [found] using ⟨decl, declared, named⟩

theorem declarationErrors_eq_nil_iff {decl : VariableDecl} (regular : decl.value.Regular) :
    site.declarationErrors decl = [] ↔
      Γ.IsType decl.type ∧ Γ.HasType decl.value decl.type.tag := by
  rw [hasType_iff describes _ regular, ← typeErrors_eq_nil_iff describes]
  simp only [Env.declarationErrors, List.append_eq_nil_iff, Judgement.Has, and_assoc]
  apply and_congr_right
  intro isType
  simp [isType, Judgement.require_eq_nil_iff]

theorem reassignmentErrors_eq_nil_iff {value : Expr} (regular : value.Regular) (target : Ident) :
    site.reassignmentErrors target value = [] ↔
      ∃ type, Resolves target.name type Γ.scopes ∧ Γ.HasType value type := by
  simp only [← describes.getVariable?_iff, hasType_iff describes _ regular]
  simp only [Env.reassignmentErrors, List.append_eq_nil_iff, Judgement.Has]
  cases site.scopes.getVariable? target.name with
  | none => simp
  | some v => simp [Judgement.require_eq_nil_iff]

theorem conditionErrors_eq_nil_iff {e : Expr} (regular : e.Regular) :
    site.conditionErrors e = [] ↔ Γ.HasType e .bool := by
  rw [hasType_iff describes _ regular]
  simp [Env.conditionErrors, Judgement.Has, Judgement.require_eq_nil_iff]

theorem resultErrors_eq_nil_iff {values : List Expr} (regular : Expr.EachRegular values)
    (span : Span) :
    site.resultErrors values span = [] ↔
      ∃ types, Γ.returns = some types ∧ Γ.HaveTypes values types := by
  have given := haveTypes_iff (hasType_iff_each describes values regular)
  simp only [given, forall₂_has_iff, ← describes.returns, Site.resultErrors,
    List.append_eq_nil_iff]
  cases site.returns with
  | none => simp
  | some types =>
    by_cases count : types.length = (site.inferEach values).length <;> simp [count]

theorem callErrors_eq_nil_iff_acceptsCall {e : Expr} (regular : e.Regular)
    (isCall : e.isCall = true) : site.callErrors e = [] ↔ Γ.AcceptsCall e := by
  -- of a call that stands as a statement, the values may be any
  cases e with
  | call function args span =>
    have each := hasType_iff_each describes args regular
    rw [Env.callErrors, callErrors_eq_nil_iff, Context.acceptsCall_call_iff]
    simpa using called_iff describes each function fun _ => True
  | libraryCall space function args span =>
    have each := hasType_iff_each describes args regular
    rw [Env.callErrors, callErrors_eq_nil_iff, Context.acceptsCall_libraryCall_iff]
    simpa using libraryCalled_iff describes each space function fun _ => True
  | _ => cases isCall

theorem controlErrors_eq_nil_iff (kind : LoopControl) (span : Span) :
    site.controlErrors kind span = [] ↔ Γ.inLoop = true := by
  rw [← describes.inLoop, Site.controlErrors]
  by_cases outside : site.loopDepth = 0 <;> simp [outside]

theorem duplicateErrors_eq_nil_iff (name : Ident) :
    site.duplicateErrors name = [] ↔ Γ.Fresh name.name := by
  rw [describes.fresh_iff, Env.duplicateErrors]
  cases site.scopes.current.getVariable? name.name <;> simp

theorem fresh_declaring_iff (b : Binding) (name : String) :
    (Γ.declaring b).Fresh name ↔ Γ.Fresh name ∧ name ≠ b.name := by
  obtain ⟨others, _, scopes⟩ := describes.scopes_eq
  simp only [Context.Fresh, Context.declaring, scopes, List.headD_cons, List.head?_cons,
    Option.mem_some_iff, forall_eq', List.forall_mem_append, List.forall_mem_singleton,
    ne_comm (a := b.name)]

end Single

theorem paramErrors_eq_nil_iff (describes : Γ.Describes site) (ps : List Param) :
    site.paramErrors ps = [] ↔
      (∀ p ∈ ps, Γ.IsType p.type) ∧ AllFree Γ.Fresh (ps.map fun p => p.name.name) := by
  induction ps generalizing Γ site with
  | nil => simp [Env.paramErrors, allFree_nil]
  | cons p ps inductionHypothesis =>
    have taken : ∀ name, (Γ.declaring (.ofParam p)).Fresh name ↔ Γ.Fresh name ∧ name ≠ p.name.name :=
      fresh_declaring_iff describes (.ofParam p)
    rw [Env.paramErrors, List.append_eq_nil_iff, List.append_eq_nil_iff,
      typeErrors_eq_nil_iff describes, duplicateErrors_eq_nil_iff describes, List.forall_mem_cons,
      List.map_cons, allFree_cons_iff taken]
    by_cases fresh : Γ.Fresh p.name.name
    -- a parameter that is in order is in scope behind itself
    · have behind := describes.declaring (v := .ofParam p) fresh
      have rest := inductionHypothesis behind
      constructor
      · intro holds
        obtain ⟨⟨type, _⟩, noneBehind⟩ := holds
        obtain ⟨types, allFree⟩ := rest.mp noneBehind
        exact ⟨⟨type, types⟩, fresh, allFree⟩
      · intro holds
        obtain ⟨⟨type, types⟩, _, allFree⟩ := holds
        exact ⟨⟨type, fresh⟩, rest.mpr ⟨types, allFree⟩⟩
    · simp [fresh]

/-! ## Statements in their order -/

mutual

/-- Nothing is found in a statement exactly if it is in order. -/
theorem found_eq_nil_iff {Γ : Context} {site : Site} (describes : Γ.Describes site) (s : Statement)
    (regular : s.Regular) : site.found s = [] ↔ Γ.Accepts s := by
  match s with
  | .function ⟨name, params, returns, ⟨body, region⟩⟩ span =>
    have ofTypes : returns.flatMap site.typeErrors = [] ↔ ∀ type ∈ returns, Γ.IsType type := by
      simp [typeErrors_eq_nil_iff describes]
    have ofParams := paramErrors_eq_nil_iff describes.opened params
    have fresh : ∀ name ∈ params.map fun p => p.name.name, Γ.opened.Fresh name := by
      simp [Context.Fresh, Context.opened]
    -- only with distinct names, the parameters are those that the context has
    have ofBody : (params.map fun p => p.name.name).Nodup →
        ((site.ofBody params returns).foundEach body = [] ↔
          (Γ.ofFunction params returns).AcceptsEach body) :=
      fun distinct => foundEach_eq_nil_iff (describes.ofFunction distinct returns) body regular
    rw [Site.found, List.append_eq_nil_iff, List.append_eq_nil_iff, ofTypes,
      Context.accepts_function_iff]
    constructor
    · intro holds
      obtain ⟨⟨gives, noParamErrors⟩, noneInside⟩ := holds
      obtain ⟨takes, _, distinct⟩ := ofParams.mp noParamErrors
      exact ⟨takes, gives, distinct, (ofBody distinct).mp noneInside⟩
    · intro holds
      obtain ⟨takes, gives, distinct, inside⟩ := holds
      exact ⟨⟨gives, ofParams.mpr ⟨takes, fresh, distinct⟩⟩, (ofBody distinct).mpr inside⟩
  | .datatype decl span =>
    simp only [Site.found, datatypeErrors_eq_nil_iff, typeErrors_eq_nil_iff describes,
      Context.accepts_datatype_iff]
  | .declaration chained decl span =>
    rw [Site.found, List.append_eq_nil_iff, declarationErrors_eq_nil_iff describes regular,
      duplicateErrors_eq_nil_iff describes, Context.accepts_declaration_iff]
  | .reassignment target value span =>
    rw [Site.found, reassignmentErrors_eq_nil_iff describes regular,
      Context.accepts_reassignment_iff]
  | .conditional branches otherwise span =>
    rw [Site.found, List.append_eq_nil_iff, foundBranches_eq_nil_iff describes branches regular.1,
      foundOption_eq_nil_iff describes otherwise regular.2, Context.accepts_conditional_iff]
  | .loop condition body span =>
    have ofCondition : (condition.map site.conditionErrors).getD [] = [] ↔
        ∀ e ∈ condition, Γ.HasType e .bool := by
      cases condition with
      | none => simp
      | some e => simp [conditionErrors_eq_nil_iff describes (regular.1 e rfl)]
    rw [Site.found, List.append_eq_nil_iff, ofCondition,
      foundBlock_eq_nil_iff describes.ofLoop body regular.2, Context.accepts_loop_iff]
  | .block body span =>
    rw [Site.found, foundBlock_eq_nil_iff describes body regular, Context.accepts_block_iff]
  | .result values span =>
    rw [Site.found, resultErrors_eq_nil_iff describes regular, Context.accepts_result_iff]
  | .call call span =>
    rw [Site.found, callErrors_eq_nil_iff_acceptsCall describes regular.1 regular.2,
      Context.accepts_call_iff]
  | .control kind span =>
    rw [Site.found, controlErrors_eq_nil_iff describes, Context.accepts_control_iff]

theorem foundEach_eq_nil_iff {Γ : Context} {site : Site} (describes : Γ.Describes site)
    (statements : List Statement) (regular : Statement.EachRegular statements) :
    site.foundEach statements = [] ↔ Γ.AcceptsEach statements := by
  match statements with
  | [] => exact ⟨fun _ => .nil, fun _ => rfl⟩
  | s :: rest =>
    rw [Site.foundEach, List.append_eq_nil_iff, found_eq_nil_iff describes s regular.1,
      Context.acceptsEach_cons_iff]
    -- the context goes on to describe the site only behind a statement that is in order
    apply and_congr_right
    intro accepted
    exact foundEach_eq_nil_iff (describes.behind accepted) rest regular.2

theorem foundBlock_eq_nil_iff {Γ : Context} {site : Site} (describes : Γ.Describes site)
    (body : Block) (regular : body.Regular) :
    site.foundBlock body = [] ↔ Γ.AcceptsBlock body := by
  match body with
  | ⟨statements, span⟩ =>
    rw [Site.foundBlock, foundEach_eq_nil_iff describes.opened statements regular,
      Context.acceptsBlock_iff]

theorem foundBranches_eq_nil_iff {Γ : Context} {site : Site} (describes : Γ.Describes site)
    (branches : List Branch) (regular : Branch.EachRegular branches) :
    site.foundBranches branches = [] ↔ Γ.AcceptsBranches branches := by
  match branches with
  | [] => exact ⟨fun _ => .nil, fun _ => rfl⟩
  | ⟨condition, body⟩ :: rest =>
    obtain ⟨regularCondition, regularBody, regularRest⟩ := regular
    rw [Site.foundBranches, List.append_eq_nil_iff, List.append_eq_nil_iff,
      conditionErrors_eq_nil_iff describes regularCondition,
      foundBlock_eq_nil_iff describes body regularBody,
      foundBranches_eq_nil_iff describes rest regularRest, Context.acceptsBranches_cons_iff]

theorem foundOption_eq_nil_iff {Γ : Context} {site : Site} (describes : Γ.Describes site)
    (otherwise : Option Block) (regular : Block.OptionRegular otherwise) :
    site.foundOption otherwise = [] ↔ Γ.AcceptsOption otherwise := by
  match otherwise with
  | none => exact ⟨fun _ => .none, fun _ => rfl⟩
  | some body =>
    rw [Site.foundOption, foundBlock_eq_nil_iff describes body regular,
      Context.acceptsOption_some_iff]

end

end FrontEnd.Typing

namespace FrontEnd

/-! ## Programs -/

theorem Program.distinctFields_of_found {site : Typing.Site} {p : Program}
    (clean : site.foundEach p = []) :
    ∀ decl ∈ p.datatypes, (decl.fields.map fun q => q.name.name).Nodup := by
  induction p generalizing site with
  | nil => simp [datatypes]
  | cons s rest inductionHypothesis =>
    obtain ⟨cleanFirst, cleanRest⟩ := List.append_eq_nil_iff.mp clean
    have others := inductionHypothesis cleanRest
    cases s with
    | datatype decl span =>
      have first := ((Typing.datatypeErrors_eq_nil_iff site.toEnv decl).mp cleanFirst).2
      exact List.forall_mem_cons.mpr ⟨first, others⟩
    | _ => exact others

theorem Program.distinctFields_of_accepts {Γ : Typing.Context} {p : Program}
    (accepted : Γ.AcceptsEach p) :
    ∀ decl ∈ p.datatypes, (decl.fields.map fun q => q.name.name).Nodup := by
  induction p generalizing Γ with
  | nil => simp [datatypes]
  | cons s rest inductionHypothesis =>
    cases accepted with
    | cons first acceptedBehind =>
      have others := inductionHypothesis acceptedBehind
      cases first with
      | datatype types distinct => exact List.forall_mem_cons.mpr ⟨distinct, others⟩
      | _ => exact others

/-- Nothing is found in a program exactly if it is well-typed. -/
theorem Program.found_eq_nil_iff (library : Library) {p : Program}
    (regular : Statement.EachRegular p) : p.found library = [] ↔ p.WellTyped library := by
  -- The context describes the site once the names are clean and no field is declared twice. In the
  -- one direction the second is found, in the other it is a rule.
  have registered := Scopes.registerEachErrors_eq_nil_iff .start p
  constructor
  · intro clean
    obtain ⟨cleanNames, cleanStatements⟩ := List.append_eq_nil_iff.mp clean
    obtain ⟨functions, datatypes⟩ := registered.mp cleanNames
    have describes := p.describes_site library cleanNames (distinctFields_of_found cleanStatements)
    exact ⟨functions.2, datatypes.2,
      (Typing.foundEach_eq_nil_iff describes p regular).mp cleanStatements⟩
  · intro holds
    obtain ⟨functions, datatypes, statements⟩ := holds
    have cleanNames : Scopes.start.registerEachErrors p = [] :=
      registered.mpr ⟨⟨fun _ _ => rfl, functions⟩, fun _ _ => rfl, datatypes⟩
    have describes := p.describes_site library cleanNames (distinctFields_of_accepts statements)
    exact List.append_eq_nil_iff.mpr
      ⟨cleanNames, (Typing.foundEach_eq_nil_iff describes p regular).mpr statements⟩

mutual

theorem Statement.Regular.holdsCalls {s : Statement} (regular : s.Regular) : s.HoldsCalls := by
  match s with
  | .function ⟨_, _, _, body⟩ _ =>
    have inside : body.Regular := regular
    exact Block.Regular.holdsCalls inside
  | .conditional branches otherwise _ =>
    exact ⟨Branch.EachRegular.holdsCalls regular.1, Block.OptionRegular.holdsCalls regular.2⟩
  | .loop _ body _ => exact Block.Regular.holdsCalls regular.2
  | .block body _ =>
    have inside : body.Regular := regular
    exact Block.Regular.holdsCalls inside
  | .call call _ => exact regular.2
  | .datatype .. | .declaration .. | .reassignment .. | .result .. | .control .. => trivial

theorem Statement.EachRegular.holdsCalls {statements : List Statement}
    (regular : Statement.EachRegular statements) : Statement.EachHoldsCalls statements := by
  match statements with
  | [] => trivial
  | s :: rest =>
    exact ⟨Statement.Regular.holdsCalls regular.1, Statement.EachRegular.holdsCalls regular.2⟩

theorem Block.Regular.holdsCalls {body : Block} (regular : body.Regular) : body.HoldsCalls := by
  match body with
  | ⟨statements, _⟩ =>
    have inside : Statement.EachRegular statements := regular
    exact Statement.EachRegular.holdsCalls inside

theorem Branch.EachRegular.holdsCalls {branches : List Branch}
    (regular : Branch.EachRegular branches) : Branch.EachHoldsCalls branches := by
  match branches with
  | [] => trivial
  | ⟨_, body⟩ :: rest =>
    exact ⟨Block.Regular.holdsCalls regular.2.1, Branch.EachRegular.holdsCalls regular.2.2⟩

theorem Block.OptionRegular.holdsCalls {otherwise : Option Block}
    (regular : Block.OptionRegular otherwise) : Block.OptionHoldsCalls otherwise := by
  match otherwise with
  | none => trivial
  | some body =>
    have inside : body.Regular := regular
    exact Block.Regular.holdsCalls inside

end

/-- The check accepts exactly the well-typed programs, with any library. -/
theorem Program.check_accepts_iff (library : Library) {p : Program}
    (regular : Statement.EachRegular p) :
    ∃ o, p.check library = .ok o ∧ (o.errors = [] ↔ p.WellTyped library) := by
  obtain ⟨globals, checked⟩ := check_eq library regular.holdsCalls
  exact ⟨_, checked, found_eq_nil_iff library regular⟩

/-- A function that doubles a number, and a variable that is initialized by a call of it. -/
theorem Program.check_accepts_doubling :
    let ident (name : String) : Ident := ⟨name, default⟩
    let int : TypeName := ⟨.int, false, default⟩
    let p : Program :=
      [.function ⟨ident "double", [⟨int, ident "n"⟩], [int],
          ⟨[.result [.operation .mul [.name (ident "n") default, .int 2 default] default] default],
            default⟩⟩ default,
        .declaration false ⟨int, ident "x", .call (ident "double") [.int 4 default] default⟩ default]
    Statement.EachRegular p ∧ p.WellTyped .empty ∧
      ∃ o, p.check .empty = .ok o ∧ o.errors = [] := by
  intro ident int p
  have regular : Statement.EachRegular p := by
    simp [p, Statement.EachRegular, Statement.Regular, Block.Regular, Expr.EachRegular,
      Expr.Regular]
  have isInt : ∀ Γ : Typing.Context, Γ.IsType int := by
    simp [Typing.Context.IsType, int, Scalar.datatype?]
  have wellTyped : p.WellTyped .empty := by
    refine ⟨by simp [p, functions], by simp [p, datatypes], .cons ?ofFunction (.cons ?ofVariable .nil)⟩
    case ofFunction =>
      refine .function (by simp [isInt]) (by simp [isInt]) (by simp) (.cons ?_ .nil)
      refine .result rfl (.cons (.arithmetic (by simp) (by simp) ?_) .nil)
      exact .cons (.name (.here (List.mem_singleton.mpr rfl))) (.cons .int .nil)
    case ofVariable =>
      refine .declaration (isInt _) ?_ (by simp [Typing.Context.Fresh, Typing.Context.behind, context])
      exact .call (List.mem_singleton.mpr rfl) rfl (.cons .int .nil) rfl
  obtain ⟨o, checked, accepts⟩ := check_accepts_iff .empty regular
  exact ⟨regular, wellTyped, o, checked, accepts.mpr wellTyped⟩

end FrontEnd
