import FrontEnd.Proofs.Typing.Spared

/-!
# Datatypes that are not declared

A datatype that is not declared is reported wherever a type is written with it (`reportsUses_found`). The
written type is kept nevertheless as that of the variable, the parameter, the result or the field, and whatever
looks it up takes it for a type like any other. So there is no further error about the datatype as long as no
type of it is looked up to be compared (`Program.check_undeclared`), as it is not for the value of a variable
whose type is wrong itself. Else a use of a variable that has such a type may well be one
(`Program.check_undeclared_read`).
-/

namespace FrontEnd

/-! ## Types as they are written -/

mutual

/-- The types that a statement writes: of variables, of parameters and results, and of fields. -/
def Statement.writtenTypes : Statement → List TypeName
  | .function ⟨_, params, returns, ⟨body, _⟩⟩ _ =>
    returns ++ params.map Param.type ++ Statement.writtenTypesEach body
  | .datatype decl _ => decl.fields.map Param.type
  | .declaration _ decl _ => [decl.type]
  | .conditional branches otherwise _ =>
    Branch.writtenTypesEach branches ++ Block.writtenTypesOption otherwise
  | .loop _ body _ | .block body _ => body.writtenTypes
  | .reassignment .. | .result .. | .call .. | .control .. => []

def Statement.writtenTypesEach : List Statement → List TypeName
  | [] => []
  | s :: rest => s.writtenTypes ++ Statement.writtenTypesEach rest

def Block.writtenTypes : Block → List TypeName
  | ⟨body, _⟩ => Statement.writtenTypesEach body

def Branch.writtenTypesEach : List Branch → List TypeName
  | [] => []
  | ⟨_, body⟩ :: rest => body.writtenTypes ++ Branch.writtenTypesEach rest

def Block.writtenTypesOption : Option Block → List TypeName
  | none => []
  | some body => body.writtenTypes

end

/-- All types that a program writes. -/
def Program.writtenTypes (p : Program) : List TypeName :=
  Statement.writtenTypesEach p

namespace Typing

/-- Whether some written types that are of a datatype are all reported. -/
def ReportsUses (D : String) (types : List TypeName) (errors : List (Located Error)) : Prop :=
  ∀ type ∈ types, type.scalar = .datatype D → ⟨.undeclaredDatatype D, type.span⟩ ∈ errors

section

variable {D : String} {types more : List TypeName} {errors others : List (Located Error)}

theorem reportsUses_nil : ReportsUses D [] errors :=
  List.forall_mem_nil _

theorem ReportsUses.left (reports : ReportsUses D types errors) (others : List (Located Error)) :
    ReportsUses D types (errors ++ others) :=
  fun type member use => List.mem_append_left others (reports type member use)

theorem ReportsUses.right (reports : ReportsUses D types errors) (others : List (Located Error)) :
    ReportsUses D types (others ++ errors) :=
  fun type member use => List.mem_append_right others (reports type member use)

theorem ReportsUses.append (first : ReportsUses D types errors) (second : ReportsUses D more others) :
    ReportsUses D (types ++ more) (errors ++ others) :=
  List.forall_mem_append.mpr ⟨first.left others, second.right errors⟩

variable (env : Env) (undeclared : env.scopes.getDatatype? D = none)

include undeclared

theorem reportsUses_typeErrors (type : TypeName) : ReportsUses D [type] (env.typeErrors type) := by
  intro written member use
  rw [List.mem_singleton] at member
  subst member
  simp [Env.typeErrors, use, Scalar.datatype?, undeclared]

theorem reportsUses_flatMap (types : List TypeName) : ReportsUses D types (types.flatMap env.typeErrors) := by
  induction types with
  | nil => exact reportsUses_nil
  | cons type types inductionHypothesis =>
    exact (reportsUses_typeErrors env undeclared type).append inductionHypothesis

theorem reportsUses_paramErrors (ps : List Param) :
    ReportsUses D (ps.map Param.type) (env.paramErrors ps) := by
  induction ps generalizing env with
  | nil => exact reportsUses_nil
  | cons p ps inductionHypothesis =>
    -- a parameter comes into scope, and no datatype
    have sameDatatypes := (env.scopes.global_adding (.ofParam p)).2
    have behind : (env.scopes.adding (.ofParam p)).getDatatype? D = none :=
      (congrArg (List.find? fun d : DatatypeSymbol => d.name = D) sameDatatypes).trans undeclared
    have first := (reportsUses_typeErrors env undeclared p.type).left (env.duplicateErrors p.name)
    exact first.append (inductionHypothesis { env with scopes := env.scopes.adding (.ofParam p) } behind)

theorem reportsUses_datatypeErrors (datatype : String) (before : List String) (fields : List Param) :
    ReportsUses D (fields.map Param.type) (env.fieldErrors datatype before fields) := by
  induction fields generalizing before with
  | nil => exact reportsUses_nil
  | cons p ps inductionHypothesis =>
    exact ((reportsUses_typeErrors env undeclared p.type).left _).append (inductionHypothesis _)

end

variable {D : String}

mutual

/-- Each written type of an undeclared datatype is reported, wherever it stands. -/
theorem reportsUses_found {Γ : Context} {site : Site} (mirrors : Γ.Mirrors site) (lacks : Lacks Γ.datatypes D)
    (s : Statement) : ReportsUses D s.writtenTypes (site.found s) := by
  have undeclared := getDatatype?_of_lacks mirrors lacks
  match s with
  | .function ⟨_, params, returns, ⟨body, _⟩⟩ _ =>
    have inside := mirrors.ofFunction params returns
    have ofParams := reportsUses_paramErrors (site.within site.scopes.push).toEnv undeclared params
    exact ((reportsUses_flatMap site.toEnv undeclared returns).append ofParams).append
      (reportsUses_foundEach inside lacks body)
  | .datatype decl _ => exact reportsUses_datatypeErrors site.toEnv undeclared _ _ _
  | .declaration _ decl _ =>
    exact (((reportsUses_typeErrors site.toEnv undeclared decl.type).left _).left _).left _
  | .conditional branches otherwise _ =>
    exact (reportsUses_foundBranches mirrors lacks branches).append
      (reportsUses_foundOption mirrors lacks otherwise)
  | .loop condition body _ =>
    have ofBody := reportsUses_foundBlock mirrors.ofLoop lacks body
    exact ofBody.right _
  | .block body _ => exact reportsUses_foundBlock mirrors lacks body
  | .reassignment .. | .result .. | .call .. | .control .. => exact reportsUses_nil

theorem reportsUses_foundEach {Γ : Context} {site : Site} (mirrors : Γ.Mirrors site)
    (lacks : Lacks Γ.datatypes D) (statements : List Statement) :
    ReportsUses D (Statement.writtenTypesEach statements) (site.foundEach statements) := by
  match statements with
  | [] => exact reportsUses_nil
  | s :: rest =>
    exact (reportsUses_found mirrors lacks s).append
      (reportsUses_foundEach (mirrors.behind s) (Γ.datatypes_behind s ▸ lacks) rest)

theorem reportsUses_foundBlock {Γ : Context} {site : Site} (mirrors : Γ.Mirrors site)
    (lacks : Lacks Γ.datatypes D) (b : Block) : ReportsUses D b.writtenTypes (site.foundBlock b) := by
  match b with
  | ⟨body, _⟩ => exact reportsUses_foundEach mirrors.opened lacks body

theorem reportsUses_foundBranches {Γ : Context} {site : Site} (mirrors : Γ.Mirrors site)
    (lacks : Lacks Γ.datatypes D) (branches : List Branch) :
    ReportsUses D (Branch.writtenTypesEach branches) (site.foundBranches branches) := by
  match branches with
  | [] => exact reportsUses_nil
  | ⟨condition, body⟩ :: rest =>
    have ofBody := (reportsUses_foundBlock mirrors lacks body).right (site.conditionErrors condition)
    exact ofBody.append (reportsUses_foundBranches mirrors lacks rest)

theorem reportsUses_foundOption {Γ : Context} {site : Site} (mirrors : Γ.Mirrors site)
    (lacks : Lacks Γ.datatypes D) (otherwise : Option Block) :
    ReportsUses D (Block.writtenTypesOption otherwise) (site.foundOption otherwise) := by
  match otherwise with
  | none => exact reportsUses_nil
  | some body => exact reportsUses_foundBlock mirrors lacks body

end

end Typing

/-! ## Programs -/

namespace Program

/-- A datatype that is not declared is reported at each type that is written with it; and if no type of it is
looked up to be compared, no error compares one. -/
theorem check_undeclared (library : Library) {p : Program} (calls : Statement.EachHoldsCalls p) {D : String}
    (builtin : D ∉ Typing.builtins) (undeclared : ∀ decl ∈ p.datatypes, decl.name.name ≠ D)
    (unread : ∀ type ∈ p.consulted library, type.scalar ≠ D) :
    ∃ o, p.check library = .ok o ∧ (∀ e ∈ o.errors, D ∉ e.value.scalars) ∧
      ∀ type ∈ p.writtenTypes, type.scalar = .datatype D → ⟨.undeclaredDatatype D, type.span⟩ ∈ o.errors := by
  have mirrors := mirrors_site library p
  have lacks : Typing.Lacks p.datatypes D := ⟨builtin, undeclared⟩
  have registered : Typing.Only (Typing.Error.spares D) (Scopes.start.registerEachErrors p) :=
    Typing.spares_registerEachErrors .start p
  have spares : Typing.Only (Typing.Error.spares D) (p.found library) :=
    Typing.only_append.mpr ⟨registered, Typing.spares_foundEach mirrors lacks p unread⟩
  have reports : Typing.ReportsUses D p.writtenTypes (p.found library) :=
    (Typing.reportsUses_foundEach mirrors lacks p).right _
  exact ⟨_, check_eq_globals library calls, fun e member => of_decide_eq_true (spares e member), reports⟩

/-- A datatype that is not declared as the type of a field, a parameter, a result and two variables, the second
of which is given the first, beside an error about other types. -/
theorem check_undeclared_written :
    let region (line : Nat) : Span := ⟨0, 0, line, 0⟩
    let ident (name : String) : Ident := ⟨name, default⟩
    let type (line : Nat) : TypeName := ⟨.datatype "D", false, region line⟩
    let list (line : Nat) : TypeName := ⟨.datatype "D", true, region line⟩
    let p : Program :=
      [.datatype ⟨ident "P", [⟨type 1, ident "part"⟩]⟩ default,
        .function ⟨ident "f", [⟨list 2, ident "xs"⟩], [type 3],
          ⟨[.declaration false ⟨type 4, ident "x", .int 1 default⟩ default,
            .declaration false ⟨type 5, ident "y", .name (ident "x") default⟩ default], default⟩⟩ default,
        .declaration false ⟨⟨.int, false, default⟩, ident "n", .bool true (region 6)⟩ default]
    "D" ∉ Typing.builtins ∧ (∀ decl ∈ p.datatypes, decl.name.name ≠ "D") ∧
      (∀ type ∈ p.consulted .empty, type.scalar ≠ "D") ∧
      ∃ o, p.check .empty = .ok o ∧
        o.errors = [⟨.undeclaredDatatype "D", region 1⟩, ⟨.undeclaredDatatype "D", region 3⟩,
          ⟨.undeclaredDatatype "D", region 2⟩, ⟨.undeclaredDatatype "D", region 4⟩,
          ⟨.undeclaredDatatype "D", region 5⟩, ⟨.typeMismatch .int (.known .bool), region 6⟩] ∧
        (∀ e ∈ o.errors, "D" ∉ e.value.scalars) ∧
        ∀ type ∈ p.writtenTypes, type.scalar = .datatype "D" →
          ⟨.undeclaredDatatype "D", type.span⟩ ∈ o.errors := by
  intro region ident type list p
  have calls : Statement.EachHoldsCalls p := ⟨trivial, ⟨trivial, trivial, trivial⟩, trivial, trivial⟩
  have builtin : "D" ∉ Typing.builtins := by decide
  have undeclared : ∀ decl ∈ p.datatypes, decl.name.name ≠ "D" := by decide
  have unread : ∀ type ∈ p.consulted .empty, type.scalar ≠ "D" := by decide
  obtain ⟨o, checked, spares, reports⟩ := check_undeclared .empty calls builtin undeclared unread
  have found := ((check_eq_ok_iff .empty p o).mp checked).2
  refine ⟨builtin, undeclared, unread, o, checked, ?_, spares, reports⟩
  rw [found]
  decide +kernel

/-- Once a variable is used whose type is not declared, that type is compared like any other. -/
theorem check_undeclared_read :
    let ident (name : String) : Ident := ⟨name, default⟩
    let p : Program :=
      [.declaration false ⟨⟨.datatype "D", false, ⟨0, 1, 1, 0⟩⟩, ident "x", .int 1 default⟩ default,
        .declaration false ⟨⟨.int, false, default⟩, ident "y", .name (ident "x") ⟨17, 1, 1, 17⟩⟩ default]
    Statement.EachHoldsCalls p ∧ "D" ∉ Typing.builtins ∧ p.datatypes = [] ∧
      ∃ o, p.check .empty = .ok o ∧
        o.errors = [⟨.undeclaredDatatype "D", ⟨0, 1, 1, 0⟩⟩,
          ⟨.typeMismatch .int (.known (.ofScalar "D")), ⟨17, 1, 1, 17⟩⟩] ∧
        ¬ ∀ e ∈ o.errors, "D" ∉ e.value.scalars := by
  intro ident p
  have calls : Statement.EachHoldsCalls p := ⟨trivial, trivial, trivial⟩
  have found : p.found .empty = [⟨.undeclaredDatatype "D", ⟨0, 1, 1, 0⟩⟩,
      ⟨.typeMismatch .int (.known (.ofScalar "D")), ⟨17, 1, 1, 17⟩⟩] := by
    decide +kernel
  refine ⟨calls, by decide, rfl, _, check_eq_globals .empty calls, found, ?_⟩
  rw [found]
  decide

end Program

end FrontEnd
