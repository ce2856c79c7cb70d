import FrontEnd.Proofs.Typing.DistinctExpression

/-!
# What is found in a program differs

No two errors of a program are shown alike if its regions nest and are solid, but for two things: a chained
declaration shares its type with the one in front of it, so that a datatype that is not declared is reported again
by each; and so is a field that a record lacks, if the datatype declares it again.
-/

namespace FrontEnd

mutual

/-- The records in a statement. -/
def Statement.records : Statement → List (String × List String)
  | .function ⟨_, _, _, body⟩ _ | .block body _ => body.records
  | .datatype .. | .control .. => []
  | .declaration _ decl _ => decl.value.records
  | .reassignment _ value _ => value.records
  | .conditional branches otherwise _ => Branch.recordsEach branches ++ Block.recordsOption otherwise
  | .loop condition body _ => (condition.map Expr.records).getD [] ++ body.records
  | .result values _ => Expr.recordsEach values
  | .call call _ => call.records

def Statement.recordsEach : List Statement → List (String × List String)
  | [] => []
  | s :: rest => s.records ++ Statement.recordsEach rest

def Block.records : Block → List (String × List String)
  | ⟨body, _⟩ => Statement.recordsEach body

def Branch.recordsEach : List Branch → List (String × List String)
  | [] => []
  | ⟨condition, body⟩ :: rest => condition.records ++ body.records ++ Branch.recordsEach rest

def Block.recordsOption : Option Block → List (String × List String)
  | none => []
  | some body => body.records

end

mutual

/-- The types of the chained declarations in a statement. -/
def Statement.chainedTypes : Statement → List TypeName
  | .function ⟨_, _, _, body⟩ _ | .loop _ body _ | .block body _ => body.chainedTypes
  | .declaration true decl _ => [decl.type]
  | .conditional branches otherwise _ => Branch.chainedTypesEach branches ++ Block.chainedTypesOption otherwise
  | .declaration false _ _ | .datatype .. | .reassignment .. | .result .. | .call .. | .control .. => []

def Statement.chainedTypesEach : List Statement → List TypeName
  | [] => []
  | s :: rest => s.chainedTypes ++ Statement.chainedTypesEach rest

def Block.chainedTypes : Block → List TypeName
  | ⟨body, _⟩ => Statement.chainedTypesEach body

def Branch.chainedTypesEach : List Branch → List TypeName
  | [] => []
  | ⟨_, body⟩ :: rest => body.chainedTypes ++ Branch.chainedTypesEach rest

def Block.chainedTypesOption : Option Block → List TypeName
  | none => []
  | some body => body.chainedTypes

end

namespace Typing

/-- Whether the datatype of a type, if it is of one, is found. -/
def Knows (find : String → Option DatatypeSymbol) (type : TypeName) : Prop :=
  ∀ name ∈ type.scalar.datatype?, (find name).isSome

variable {first last : Nat} {span : Span}

/-! ## Types and names -/

theorem typeErrors_of_knows {env : Env} {type : TypeName} (knows : Knows env.scopes.getDatatype? type) :
    env.typeErrors type = [] := by
  unfold Env.typeErrors
  split
  · rfl
  next name isName => rw [if_pos (knows name isName)]

theorem distinct_typeErrors (env : Env) {type : TypeName} (solid : type.span.Solid) :
    Distinct type.span.lo type.span.hi (env.typeErrors type) := by
  unfold Env.typeErrors
  split
  · exact distinct_nil
  · split
    · exact distinct_nil
    · exact distinct_at solid

theorem distinct_duplicateErrors (env : Env) {name : Ident} (solid : name.span.Solid) :
    Distinct name.span.lo name.span.hi (env.duplicateErrors name) := by
  unfold Env.duplicateErrors
  split
  · exact distinct_at solid
  · exact distinct_nil

theorem distinct_paramErrors (env : Env) {ps : List Param}
    (row : Span.Row first last (Param.regions ps)) : Distinct first last (env.paramErrors ps) := by
  induction ps generalizing first env with
  | nil => exact distinct_nil
  | cons p ps inductionHypothesis =>
    have rest := inductionHypothesis { env with scopes := env.scopes.adding (.ofParam p) } row.2.2.2.2
    have ofName := (distinct_duplicateErrors env row.2.2.2.1).append_row row.2.2 rest
    rw [Env.paramErrors, List.append_assoc]
    exact (distinct_typeErrors env row.2.1).append_row row ofName

theorem distinct_fieldErrors (env : Env) (datatype : String) (before : List String) {ps : List Param}
    (row : Span.Row first last (Param.regions ps)) :
    Distinct first last (env.fieldErrors datatype before ps) := by
  induction ps generalizing first before with
  | nil => exact distinct_nil
  | cons p ps inductionHypothesis =>
    have ofName : Distinct p.name.span.lo p.name.span.hi
        (if p.name.name ∈ before then [⟨.duplicateField datatype p.name.name, p.name.span⟩] else []) := by
      split
      · exact distinct_at row.2.2.2.1
      · exact distinct_nil
    rw [Env.fieldErrors, List.append_assoc]
    exact (distinct_typeErrors env row.2.1).append_row row
      (ofName.append_row row.2.2 (inductionHypothesis _ row.2.2.2.2))

/-! ## Single statements -/

section

variable {env : Env}

/-- An expression with what is around it refusing it. -/
theorem distinct_required {e : Expr} (distinct : (env.infer e).Distinct) (solid : e.span.Solid)
    {own : List (Located Error)} (refuses : (env.infer e).Refuses own) :
    Distinct e.span.lo e.span.hi ((env.infer e).errors ++ own) := by
  have same := span_infer env e
  rw [← same] at solid ⊢
  exact distinct.append solid refuses

theorem distinct_conditionErrors {e : Expr} (distinct : (env.infer e).Distinct) (solid : e.span.Solid) :
    Distinct e.span.lo e.span.hi (env.conditionErrors e) :=
  distinct_required distinct solid (refuses_require _ _)

/-- A name and the value behind it, whose errors come first. -/
theorem distinct_valued {name : Ident} {value : Expr} (row : Span.Row first last [name.span, value.span])
    (distinct : (env.infer value).Distinct) {own ofName : List (Located Error)}
    (refuses : (env.infer value).Refuses own) (distinctName : Distinct name.span.lo name.span.hi ofName) :
    Distinct first last ((env.infer value).errors ++ own ++ ofName) := by
  have ofValue := (distinct_required distinct row.2.2.2.1 refuses).append_row row.2.2 distinct_nil
  rw [List.append_nil] at ofValue
  exact (distinctName.append_row row ofValue).perm List.perm_append_comm

theorem distinct_declaration {decl : VariableDecl} (row : Span.Row first last [decl.name.span, decl.value.span])
    (distinct : (env.infer decl.value).Distinct) :
    ∃ errors, env.declarationErrors decl ++ env.duplicateErrors decl.name = env.typeErrors decl.type ++ errors ∧
      Distinct first last errors := by
  have refuses : (env.infer decl.value).Refuses
      (if (env.typeErrors decl.type).isEmpty then (env.infer decl.value).require decl.type.tag else []) := by
    split
    · exact refuses_require _ _
    · exact .inl rfl
  refine ⟨_, ?_, distinct_valued row distinct refuses (distinct_duplicateErrors env row.2.1)⟩
  simp only [Env.declarationErrors, List.append_assoc]

theorem distinct_reassignmentErrors {target : Ident} {value : Expr}
    (row : Span.Row first last [target.span, value.span]) (distinct : (env.infer value).Distinct) :
    Distinct first last (env.reassignmentErrors target value) := by
  simp only [Env.reassignmentErrors]
  split
  next =>
    have undeclared : Distinct target.span.lo target.span.hi
        [(⟨.undeclaredVariable target.name, target.span⟩ : Located Error)] := distinct_at row.2.1
    have ofName := distinct_valued row distinct (.inl rfl) undeclared
    rwa [List.append_nil] at ofName
  next v _ =>
    have ofValue := distinct_valued row distinct (refuses_require _ v.type) distinct_nil
    rwa [List.append_nil] at ofValue

theorem diagnostic_ne_of_isOfExpression {e e' : Located Error} (ofExpression : e.value.isOfExpression = true)
    (other : e'.value.isOfExpression = false) : e.diagnostic ≠ e'.diagnostic := by
  have byCode : ∀ e : Error, e.isOfExpression =
      decide (Reportable.code e ∉ ["A001", "A002", "A003", "A014", "A015", "A016"]) := by
    intro e
    cases e <;> rfl
  refine diagnostic_ne_of_code fun same => ?_
  rw [byCode, same, ← byCode, other] at ofExpression
  exact Bool.false_ne_true ofExpression

theorem distinct_resultErrors {site : Site} {values : List Expr} (solid : span.Solid)
    (row : Span.Row span.lo span.hi (values.map Expr.span)) (each : ∀ j ∈ site.inferEach values, j.Distinct) :
    Distinct span.lo span.hi (site.resultErrors values span) := by
  rw [← map_span_inferEach site.toEnv] at row
  have inside := distinct_allErrors row each
  -- what is said of the statement is never said of an expression
  have withOwn : ∀ error : Error, error.isOfExpression = false →
      Distinct span.lo span.hi (Judgement.allErrors (site.inferEach values) ++ [⟨error, span⟩]) := by
    refine fun error other => inside.append (distinct_at solid) fun e member e' single => ?_
    rw [List.mem_singleton.mp single]
    exact diagnostic_ne_of_isOfExpression (only_allErrors (only_inferEach site.toEnv values) e member) other
  simp only [Site.resultErrors]
  split
  · exact withOwn _ rfl
  · split
    · exact distinct_requireEach row each _
    · exact withOwn _ rfl

theorem distinct_controlErrors (site : Site) (kind : LoopControl) (solid : span.Solid) :
    Distinct span.lo span.hi (site.controlErrors kind span) := by
  rw [Site.controlErrors]
  split
  · exact distinct_at solid
  · exact distinct_nil

end

/-! ## All statements -/

section

variable {marked : Span → Prop}

theorem distinct_callErrors {env : Env} {call : Expr} (nests : call.outline.Nests marked) (solid : call.Solid)
    (once : ∀ record ∈ call.records, LacksOnce env.scopes.getDatatype? record) :
    Distinct call.span.lo call.span.hi (env.callErrors call) := by
  cases call with
  | call function args span =>
    obtain ⟨-, ofName, ofArgs⟩ := solid
    have each := distinct_inferEach env args (List.forall_mem_cons.mp nests.each).2 ofArgs.each once
    obtain ⟨own, inner, split⟩ := exists_callErrors_call env (Expr.row_of_call nests ofName ofArgs) each
    exact (split.distinct .unknown).distinct
  | libraryCall space function args span =>
    obtain ⟨-, ofNames, ofArgs⟩ := solid
    have nestsArgs := (List.forall_mem_cons.mp (List.forall_mem_cons.mp nests.each).2).2
    have each := distinct_inferEach env args nestsArgs ofArgs.each once
    obtain ⟨own, inner, split⟩ :=
      exists_callErrors_libraryCall env (Expr.row_of_libraryCall nests ofNames ofArgs) each
    exact (split.distinct .unknown).distinct
  | _ => exact distinct_nil

/-- Declaring a variable hides no datatype. -/
theorem getDatatype?_adding (scopes : Scopes) (v : VariableSymbol) :
    (scopes.adding v).getDatatype? = scopes.getDatatype? := by
  funext name
  simp only [Scopes.getDatatype?, SymbolTable.getDatatype?, (scopes.global_adding v).2]

theorem getDatatype?_addingParams (scopes : Scopes) (ps : List Param) :
    (scopes.addingParams ps).getDatatype? = scopes.getDatatype? := by
  funext name
  simp only [Scopes.getDatatype?, SymbolTable.getDatatype?, (scopes.global_addingParams ps).2]

theorem getDatatype?_behind (scopes : Scopes) (s : Statement) :
    (scopes.behind s).getDatatype? = scopes.getDatatype? := by
  cases s with
  | declaration => exact getDatatype?_adding ..
  | _ => rfl

theorem getDatatype?_behindEach (scopes : Scopes) (statements : List Statement) :
    (scopes.behindEach statements).getDatatype? = scopes.getDatatype? := by
  induction statements generalizing scopes with
  | nil => rfl
  | cons s rest inductionHypothesis =>
    rw [Scopes.behindEach, inductionHypothesis, getDatatype?_behind]

/-- The types of results are checked before the parameters, but stand behind them. -/
theorem distinct_function (site : Site) {name : Ident} {params : List Param} {returns : List TypeName}
    {body : Block} (nests : (Statement.function ⟨name, params, returns, body⟩ span).outline.Nests marked)
    (solid : (Statement.function ⟨name, params, returns, body⟩ span).Solid)
    (inBody : Distinct body.span.lo body.span.hi ((site.ofBody params returns).foundEach body.statements)) :
    Distinct span.lo span.hi (site.found (.function ⟨name, params, returns, body⟩ span)) := by
  obtain ⟨-, ofName, ofParams, ofReturns, ofBody⟩ := solid
  have solidReturns : ∀ o ∈ returns.map TypeName.outline, o.span.Solid := List.forall_mem_map.mpr ofReturns
  have row := nests.row_self (List.forall_mem_append.mpr ⟨List.forall_mem_append.mpr
    ⟨List.forall_mem_cons.mpr ⟨ofName, Param.solid_outlines ofParams⟩, solidReturns⟩,
    List.forall_mem_singleton.mpr (body.span_outline ▸ ofBody.solid_span)⟩)
  have nestsHeader := (List.forall_mem_append.mp (List.forall_mem_append.mp nests.each).1).1
  rw [List.map_append, List.map_append, List.map_map, List.map_singleton, body.span_outline] at row
  obtain ⟨behindHeader, rowHeader, rowBody⟩ := row.split
  obtain ⟨behindParams, rowParams, rowReturns⟩ := rowHeader.split
  rw [List.map_cons, List.map_map] at rowParams
  have regions :=
    Param.row_regions rowParams.2.2 (List.forall_mem_map.mp (List.forall_mem_cons.mp nestsHeader).2) ofParams
  have inParams := distinct_paramErrors (site.within site.scopes.push).toEnv regions
  have inReturns : Distinct behindParams behindHeader (returns.flatMap site.typeErrors) :=
    distinct_flatMap rowReturns fun type member => distinct_typeErrors site.toEnv (ofReturns type member)
  have inAll := inParams.append_behind
    (inReturns.append_behind (inBody.mono rowBody.1 rowBody.2.2) rowReturns.le rowBody.le) regions.le
    (Nat.le_trans rowReturns.le rowBody.le)
  cases body
  rw [Site.found, List.append_assoc]
  refine (inAll.perm (List.perm_append_comm_assoc _ _ _)).mono ?_ (Nat.le_refl _)
  exact Nat.le_trans rowParams.1 (Nat.le_of_lt rowParams.2.1)

mutual

/-- No two errors of a statement are shown alike. -/
theorem distinct_found (site : Site) (s : Statement) {find : String → Option DatatypeSymbol}
    (same : site.scopes.getDatatype? = find)
    (nests : s.outline.Nests marked) (solid : s.Solid) (known : ∀ type ∈ s.chainedTypes, Knows find type)
    (once : ∀ record ∈ s.records, LacksOnce find record) :
    Distinct s.span.lo s.span.hi (site.found s) := by
  subst same
  match s with
  | .function ⟨name, params, returns, ⟨body, region⟩⟩ span =>
    have nestsBody := nests.each (Block.outline ⟨body, region⟩) (by simp)
    have rowBody := nestsBody.row_self (Statement.solid_outlines solid.2.2.2.2.2)
    rw [Statement.map_span_outlines] at rowBody
    exact distinct_function site nests solid (distinct_foundEach (site.ofBody params returns) body
      (getDatatype?_addingParams _ params) rowBody nestsBody.each solid.2.2.2.2.2 known once)
  | .datatype decl span =>
    obtain ⟨-, ofName, ofFields⟩ := solid
    have row := nests.row_self (List.forall_mem_cons.mpr ⟨ofName, Param.solid_outlines ofFields⟩)
    have nestsFields := List.forall_mem_map.mp (List.forall_mem_cons.mp nests.each).2
    rw [List.map_cons, List.map_map] at row
    have rowFields := Param.row_regions row.2.2 nestsFields ofFields
    have starts := Nat.le_trans row.1 (Nat.le_of_lt row.2.1)
    exact (distinct_fieldErrors site.toEnv decl.name.name [] rowFields).mono starts (Nat.le_refl _)
  | .declaration false decl span =>
    obtain ⟨-, ofType, ofName, ofValue⟩ := solid
    have row := nests.row_self (by simpa using ⟨ofType, ofName, ofValue.solid_span⟩)
    have nestsValue := nests.each decl.value.outline (by simp)
    rw [List.map_cons, List.map_cons, List.map_cons, List.map_nil, decl.value.span_outline] at row
    obtain ⟨errors, split, distinct⟩ :=
      distinct_declaration row.2.2 (distinct_infer site.toEnv decl.value nestsValue ofValue once)
    rw [Site.found, split]
    exact (distinct_typeErrors site.toEnv ofType).append_row row distinct
  | .declaration true decl span =>
    obtain ⟨-, ofType, ofName, ofValue⟩ := solid
    have row := Expr.row_of_value nests ofName ofValue
    have nestsValue := nests.each decl.value.outline (by simp)
    obtain ⟨errors, split, distinct⟩ :=
      distinct_declaration row (distinct_infer site.toEnv decl.value nestsValue ofValue once)
    -- the type is no part of the statement: it stands in front of the chain
    rw [Site.found, split, typeErrors_of_knows (known decl.type (by simp [Statement.chainedTypes]))]
    exact distinct
  | .reassignment target value span =>
    obtain ⟨-, ofTarget, ofValue⟩ := solid
    have row := Expr.row_of_value nests ofTarget ofValue
    have nestsValue := nests.each value.outline (by simp)
    exact distinct_reassignmentErrors row (distinct_infer site.toEnv value nestsValue ofValue once)
  | .conditional branches otherwise span =>
    obtain ⟨-, ofBranches, ofOtherwise⟩ := solid
    have solidParts := List.forall_mem_append.mpr ⟨Branch.solid_outlines ofBranches, Block.solid_outlines ofOtherwise⟩
    have row := nests.row_self solidParts
    obtain ⟨nestsBranches, nestsOtherwise⟩ := List.forall_mem_append.mp nests.each
    rw [Statement.chainedTypes, List.forall_mem_append] at known
    rw [Statement.records, List.forall_mem_append] at once
    rw [List.map_append] at row
    obtain ⟨middle, rowBranches, rowOtherwise⟩ := row.split
    have inBranches := distinct_foundBranches site branches rfl rowBranches nestsBranches ofBranches known.1 once.1
    have inOtherwise :=
      distinct_foundOption site otherwise rfl rowOtherwise nestsOtherwise ofOtherwise known.2 once.2
    exact inBranches.append_behind inOtherwise rowBranches.le rowOtherwise.le
  | .loop none body span =>
    have inBody := distinct_foundBlock site.inLoop body rfl (nests.each _ (by simp)) solid.2.2 known once
    have inside := nests.inside body.outline (by simp)
    rw [body.span_outline] at inside
    exact inBody.mono inside.1 inside.2
  | .loop (some condition) body span =>
    obtain ⟨-, ofCondition, ofBody⟩ := solid
    have ofCondition := ofCondition condition rfl
    have row := nests.row_self (by simpa using ⟨ofCondition.solid_span, ofBody.solid_span⟩)
    have inCondition :=
      distinct_infer site.toEnv condition (nests.each _ (by simp)) ofCondition (List.forall_mem_append.mp once).1
    have inBody :=
      distinct_foundBlock site.inLoop body rfl (nests.each _ (by simp)) ofBody known (List.forall_mem_append.mp once).2
    simp only [Option.toList_some, List.singleton_append, List.map_cons, List.map_nil, condition.span_outline,
      body.span_outline] at row
    exact (distinct_conditionErrors inCondition ofCondition.solid_span).append_row row
      (inBody.mono row.2.2.1 row.2.2.2.2)
  | .block body span =>
    have inBody := distinct_foundBlock site body rfl (nests.each _ List.mem_cons_self) solid.2 known once
    have inside := nests.inside body.outline List.mem_cons_self
    rw [body.span_outline] at inside
    exact inBody.mono inside.1 inside.2
  | .result values span =>
    have solidParts : ∀ o ∈ Expr.outlines values, o.span.Solid := by
      rw [Expr.outlines_eq_map, List.forall_mem_map]
      intro e member
      rw [e.span_outline]
      exact (solid.2 e member).solid_span
    have row := nests.row_self solidParts
    rw [Expr.map_span_outlines] at row
    exact distinct_resultErrors solid.1 row (distinct_inferEach site.toEnv values nests.each solid.2 once)
  | .call call span =>
    have inCall := distinct_callErrors (nests.each _ List.mem_cons_self) solid.2 once
    have inside := nests.inside call.outline List.mem_cons_self
    rw [call.span_outline] at inside
    exact inCall.mono inside.1 inside.2
  | .control kind span => exact distinct_controlErrors site kind solid

theorem distinct_foundEach (site : Site) (statements : List Statement) {find : String → Option DatatypeSymbol}
    {first last : Nat} (same : site.scopes.getDatatype? = find)
    (row : Span.Row first last (statements.map Statement.span))
    (nests : ∀ o ∈ Statement.outlines statements, o.Nests marked) (solid : Statement.EachSolid statements)
    (known : ∀ type ∈ Statement.chainedTypesEach statements, Knows find type)
    (once : ∀ record ∈ Statement.recordsEach statements, LacksOnce find record) :
    Distinct first last (site.foundEach statements) := by
  match statements with
  | [] => exact distinct_nil
  | s :: rest =>
    rw [Statement.outlines, List.forall_mem_cons] at nests
    rw [Statement.chainedTypesEach, List.forall_mem_append] at known
    rw [Statement.recordsEach, List.forall_mem_append] at once
    have ofFirst := distinct_found site s same nests.1 solid.1 known.1 once.1
    exact ofFirst.append_row row
      (distinct_foundEach _ rest ((getDatatype?_behind _ s).trans same) row.2.2 nests.2 solid.2 known.2 once.2)

theorem distinct_foundBlock (site : Site) (b : Block) {find : String → Option DatatypeSymbol}
    (same : site.scopes.getDatatype? = find)
    (nests : b.outline.Nests marked) (solid : b.Solid) (known : ∀ type ∈ b.chainedTypes, Knows find type)
    (once : ∀ record ∈ b.records, LacksOnce find record) :
    Distinct b.span.lo b.span.hi (site.foundBlock b) := by
  match b with
  | ⟨body, span⟩ =>
    have row := nests.row_self (Statement.solid_outlines solid.2)
    rw [Statement.map_span_outlines] at row
    exact distinct_foundEach site.ofBlock body same row nests.each solid.2 known once

theorem distinct_foundBranches (site : Site) (branches : List Branch) {find : String → Option DatatypeSymbol}
    {first last : Nat} (same : site.scopes.getDatatype? = find)
    (row : Span.Row first last ((Branch.outlines branches).map Outline.span))
    (nests : ∀ o ∈ Branch.outlines branches, o.Nests marked) (solid : Branch.EachSolid branches)
    (known : ∀ type ∈ Branch.chainedTypesEach branches, Knows find type)
    (once : ∀ record ∈ Branch.recordsEach branches, LacksOnce find record) :
    Distinct first last (site.foundBranches branches) := by
  subst same
  match branches with
  | [] => exact distinct_nil
  | ⟨condition, body⟩ :: rest =>
    rw [Branch.outlines, List.forall_mem_cons] at nests
    rw [Branch.chainedTypesEach, List.forall_mem_append] at known
    rw [Branch.recordsEach, List.forall_mem_append, List.forall_mem_append] at once
    obtain ⟨⟨ofCondition, ofBody⟩, others⟩ := solid
    have parts := nests.1.row_self (by simpa using ⟨ofCondition.solid_span, ofBody.solid_span⟩)
    rw [List.map_cons, List.map_cons, List.map_nil, condition.span_outline, body.span_outline] at parts
    have inCondition := distinct_infer site.toEnv condition (nests.1.each _ (by simp)) ofCondition once.1.1
    have inBody := distinct_foundBlock site body rfl (nests.1.each _ (by simp)) ofBody known.1 once.1.2
    have ofBranch := (distinct_conditionErrors inCondition ofCondition.solid_span).append_row parts
      (inBody.mono parts.2.2.1 parts.2.2.2.2)
    exact ofBranch.append_row row (distinct_foundBranches site rest rfl row.2.2 nests.2 others known.2 once.2)

theorem distinct_foundOption (site : Site) (otherwise : Option Block) {find : String → Option DatatypeSymbol}
    {first last : Nat} (same : site.scopes.getDatatype? = find)
    (row : Span.Row first last ((Block.outlines otherwise).map Outline.span))
    (nests : ∀ o ∈ Block.outlines otherwise, o.Nests marked) (solid : Block.OptionSolid otherwise)
    (known : ∀ type ∈ Block.chainedTypesOption otherwise, Knows find type)
    (once : ∀ record ∈ Block.recordsOption otherwise, LacksOnce find record) :
    Distinct first last (site.foundOption otherwise) := by
  match otherwise with
  | none => exact distinct_nil
  | some body =>
    have inBody := distinct_foundBlock site body same (nests _ List.mem_cons_self) solid known once
    rw [Block.outlines, List.map_singleton, body.span_outline] at row
    exact inBody.mono row.1 row.2.2

end

end

end Typing

/-! ## Programs -/

section

open Typing

variable {marked : Span → Prop} {library : Library}

theorem Scopes.distinct_registerErrors (scopes : Scopes) {s : Statement} (nests : s.outline.Nests marked)
    (solid : s.Solid) : Distinct s.span.lo s.span.hi (scopes.registerErrors s) := by
  match s with
  | .function ⟨name, params, returns, body⟩ span =>
    have inside := nests.inside name.outline (by simp)
    simp only [registerErrors]
    split
    · exact (distinct_at solid.2.1).mono inside.1 inside.2
    · exact distinct_nil
  | .datatype decl span =>
    have inside := nests.inside decl.name.outline List.mem_cons_self
    simp only [registerErrors]
    split
    · exact (distinct_at solid.2.1).mono inside.1 inside.2
    · exact distinct_nil
  | .declaration .. | .reassignment .. | .conditional .. | .loop .. | .block .. | .result .. | .call ..
  | .control .. => exact distinct_nil

theorem Scopes.distinct_registerEachErrors (scopes : Scopes) {statements : List Statement} {first last : Nat}
    (row : Span.Row first last (statements.map Statement.span)) (nests : ∀ s ∈ statements, s.outline.Nests marked)
    (solid : ∀ s ∈ statements, s.Solid) : Distinct first last (scopes.registerEachErrors statements) := by
  induction statements generalizing scopes first with
  | nil => exact distinct_nil
  | cons s rest inductionHypothesis =>
    rw [List.forall_mem_cons] at nests solid
    exact (scopes.distinct_registerErrors nests.1 solid.1).append_row row
      (inductionHypothesis (scopes.registering s) row.2.2 nests.2 solid.2)

theorem Typing.diagnostic_ne_of_isOfStatement {e e' : Located Error} (other : e.value.isOfStatement = false)
    (ofStatement : e'.value.isOfStatement = true) : e.diagnostic ≠ e'.diagnostic := by
  have byCode : ∀ e : Error, e.isOfStatement = decide (Reportable.code e ∉ ["A001", "A002"]) := by
    intro e
    cases e <;> rfl
  refine diagnostic_ne_of_code fun same => ?_
  rw [byCode, same, ← byCode, ofStatement] at other
  exact Bool.false_ne_true other.symm

/-- The types of all chained declarations in a program. -/
def Program.chainedTypes (p : Program) : List TypeName :=
  Statement.chainedTypesEach p

/-- All records in a program. -/
def Program.records (p : Program) : List (String × List String) :=
  Statement.recordsEach p

/-- No two errors of a program are shown alike. -/
theorem Program.distinct_found {p : Program} {first last : Nat}
    (row : Span.Row first last (p.map Statement.span)) (nests : ∀ s ∈ p, s.outline.Nests marked)
    (solid : ∀ s ∈ p, s.Solid) (known : ∀ type ∈ p.chainedTypes, Knows p.globals.getDatatype? type)
    (once : ∀ record ∈ p.records, LacksOnce p.globals.getDatatype? record) :
    Distinct first last (p.found library) := by
  have same : (p.site library).scopes.getDatatype? = p.globals.getDatatype? :=
    (getDatatype?_behindEach (p.site library).scopes p).symm
  have nestsEach : ∀ o ∈ Statement.outlines p, o.Nests marked := by
    rw [Statement.outlines_eq_map, List.forall_mem_map]
    exact nests
  have registered := Scopes.start.distinct_registerEachErrors row nests solid
  have found := distinct_foundEach (p.site library) p same row nestsEach (Statement.eachSolid_iff.mpr solid) known once
  refine registered.append found fun e member e' memberAgain => ?_
  have other := Scopes.start.only_registerEachErrors p e member
  have ofStatement := Site.only_foundEach (p.site library) p e' memberAgain
  exact diagnostic_ne_of_isOfStatement (by simpa using other) ofStatement

end

end FrontEnd
