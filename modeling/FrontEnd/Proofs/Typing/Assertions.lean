import FrontEnd.Proofs.Typing.Proper

/-!
# What checking takes for granted

A checker does not look whether a tag is proper, whether a call statement holds a call or whether an operator
of two operands has a second one. What it takes for granted so is said here along its way through a tree, at
each state that it comes to. It holds for every tree that can be checked and has plain names, however wrong
the program is (`Program.asserts`).
-/

namespace FrontEnd.Typing

/-! ## Expressions -/

/-- What is taken for granted of an operator that is applied to a number of operands. -/
structure OperatorAsserts (op : Operator) (count : Nat) : Prop where
  operand : ∀ type ∈ (operatorRule op).operand, type.Proper
  result : (operatorRule op).result.Proper
  /-- Where operands only have to agree, there is a second one. -/
  second : (operatorRule op).arity.accepts count = true → (operatorRule op).operand = none → 1 < count

mutual

/-- What is taken for granted on the way to the type of an expression. -/
def Env.Asserts (env : Env) : Expr → Prop
  | .int .. => TypeTag.int.Proper
  | .string .. => TypeTag.string.Proper
  | .bool .. => TypeTag.bool.Proper
  | .name .. | .missing _ => True
  | .record name fields _ =>
    env.FieldsAssert fields ∧
      ∀ d ∈ env.scopes.getDatatype? name.name, TypeTag.IsScalarName d.name
  | .operation op operands _ => env.EachAsserts operands ∧ OperatorAsserts op operands.length
  | .call _ args _ | .libraryCall _ _ args _ => env.EachAsserts args
  | .list items _ =>
    env.EachAsserts items ∧
      ∀ type ∈ (env.inferEach items).findSome? Judgement.element?, TypeTag.IsScalarName type.text

def Env.EachAsserts (env : Env) : List Expr → Prop
  | [] => True
  | e :: es => env.Asserts e ∧ env.EachAsserts es

def Env.FieldsAssert (env : Env) : List FieldValue → Prop
  | [] => True
  | ⟨_, value⟩ :: fields => env.Asserts value ∧ env.FieldsAssert fields

end

/-- What is taken for granted of a condition. -/
def Env.ConditionAsserts (env : Env) (e : Expr) : Prop :=
  env.Asserts e ∧ TypeTag.bool.Proper

theorem operatorAsserts (op : Operator) (count : Nat) : OperatorAsserts op count where
  operand := (proper_operatorRule op).1
  result := (proper_operatorRule op).2
  second := by
    intro accepted untyped
    cases op with
    | eq =>
      have two : count = 2 := by simpa [operatorRule, Arity.accepts] using accepted
      omega
    | _ => cases untyped

namespace Env.Proper

variable {env : Env}

mutual

theorem asserts (proper : env.Proper) (e : Expr) : env.Asserts e := by
  match e with
  | .int .. => exact TypeTag.proper_int
  | .string .. => exact TypeTag.proper_string
  | .bool .. => exact TypeTag.proper_bool
  | .name .. | .missing _ => trivial
  | .record name fields span =>
    exact ⟨proper.fieldsAssert fields, fun d found => (proper.scopes.datatype found).name⟩
  | .operation op operands span => exact ⟨proper.eachAsserts operands, operatorAsserts op _⟩
  | .call _ args _ | .libraryCall _ _ args _ => exact proper.eachAsserts args
  | .list items span =>
    exact ⟨proper.eachAsserts items,
      fun type found => (isScalarName_element (proper.inferEach items) found).2⟩

theorem eachAsserts (proper : env.Proper) (es : List Expr) : env.EachAsserts es := by
  match es with
  | [] => trivial
  | e :: es => exact ⟨proper.asserts e, proper.eachAsserts es⟩

theorem fieldsAssert (proper : env.Proper) (fields : List FieldValue) : env.FieldsAssert fields := by
  match fields with
  | [] => trivial
  | ⟨_, value⟩ :: fields => exact ⟨proper.asserts value, proper.fieldsAssert fields⟩

end

theorem conditionAsserts (proper : env.Proper) (e : Expr) : env.ConditionAsserts e :=
  ⟨proper.asserts e, TypeTag.proper_bool⟩

end Env.Proper

/-! ## Statements -/

namespace Checker

mutual

/-- What is taken for granted while a statement is checked. -/
def Asserts (c : Checker) : Statement → Prop
  | .function ⟨_, params, returns, ⟨body, _⟩⟩ _ =>
    (∀ type ∈ returns, type.tag.Proper) ∧ (∀ p ∈ params, p.type.tag.Proper) ∧
      ∀ inside, (c.report (returns.flatMap c.typeErrors)).openScope.params params = .ok inside →
        (inside.enterFunction returns).EachAsserts body
  | .datatype decl _ => ∀ p ∈ decl.fields, p.type.tag.Proper
  | .declaration _ decl _ => decl.type.tag.Proper ∧ c.toEnv.Asserts decl.value
  | .reassignment _ value _ => c.toEnv.Asserts value
  | .conditional branches otherwise _ =>
    c.BranchesAssert branches ∧
      ∀ behind, c.branches branches = .ok behind → behind.OptionAsserts otherwise
  | .loop condition body _ =>
    (∀ e ∈ condition, c.toEnv.ConditionAsserts e) ∧
      (c.report ((condition.map c.conditionErrors).getD [])).enterLoop.BlockAsserts body ∧
      ∀ behind, (c.report ((condition.map c.conditionErrors).getD [])).enterLoop.block body = .ok behind →
        0 < behind.loopDepth
  | .block body _ => c.BlockAsserts body
  | .result values _ => c.toEnv.EachAsserts values
  | .call call _ => call.isCall = true ∧ c.toEnv.Asserts call
  | .control .. => True

def EachAsserts (c : Checker) : List Statement → Prop
  | [] => True
  | s :: rest => c.Asserts s ∧ ∀ behind, c.statement s = .ok behind → behind.EachAsserts rest

def BlockAsserts (c : Checker) : Block → Prop
  | ⟨body, _⟩ => c.openScope.EachAsserts body

def BranchesAssert (c : Checker) : List Branch → Prop
  | [] => True
  | ⟨condition, body⟩ :: rest =>
    c.toEnv.ConditionAsserts condition ∧ (c.report (c.conditionErrors condition)).BlockAsserts body ∧
      ∀ behind, (c.report (c.conditionErrors condition)).block body = .ok behind →
        behind.BranchesAssert rest

def OptionAsserts (c : Checker) : Option Block → Prop
  | none => True
  | some body => c.BlockAsserts body

end

end Checker

end Typing

/-! ## Nothing that is taken for granted fails -/

namespace Typing.Checker

theorem proper_moved {c : Checker} (proper : c.toEnv.Proper) {scopes : Scopes}
    (properScopes : scopes.Proper) (errors : List (Located Error)) :
    (c.moved scopes errors).toEnv.Proper :=
  ⟨proper.library, properScopes⟩

theorem proper_openScope {c : Checker} (proper : c.toEnv.Proper) : c.openScope.toEnv.Proper :=
  ⟨proper.library, proper.scopes.push⟩

mutual

theorem asserts_of_proper {c : Checker} (proper : c.toEnv.Proper) {s : Statement}
    (named : s.Named TypeTag.IsScalarName) (calls : s.HoldsCalls) : c.Asserts s := by
  match s with
  | .function ⟨_, params, returns, ⟨body, _⟩⟩ span =>
    obtain ⟨-, namedParams, plainReturns, namedBody⟩ := named
    have plainParams : ∀ p ∈ params, p.type.Plain TypeTag.IsScalarName := fun p member => (namedParams p member).1
    refine ⟨fun type member => (plainReturns type member).proper,
      fun p member => (plainParams p member).proper, ?_⟩
    intro inside ran
    rw [params_eq] at ran
    cases ran
    refine eachAsserts_of_proper ?inBody namedBody calls
    exact ⟨proper.library, proper.scopes.push.addingParams plainParams⟩
  | .datatype decl span => exact fun p member => (named.2 p member).1.proper
  | .declaration _ decl span => exact ⟨TypeName.Plain.proper named.1, proper.asserts decl.value⟩
  | .reassignment _ value span => exact proper.asserts value
  | .conditional branches otherwise span =>
    refine ⟨branchesAssert_of_proper proper named.1 calls.1, ?_⟩
    intro behind ran
    rw [branches_eq c branches calls.1] at ran
    cases ran
    exact optionAsserts_of_proper (proper_moved proper proper.scopes _) named.2 calls.2
  | .loop condition body span =>
    refine ⟨fun e _ => proper.conditionAsserts e, blockAsserts_of_proper ?inRound named.2 calls, ?_⟩
    · exact ⟨proper.library, proper.scopes⟩
    · intro behind ran
      rw [block_eq _ body calls] at ran
      cases ran
      exact Nat.succ_pos c.loopDepth
  | .block body span => exact blockAsserts_of_proper proper named calls
  | .result values span => exact proper.eachAsserts values
  | .call call span => exact ⟨calls, proper.asserts call⟩
  | .control .. => trivial

theorem eachAsserts_of_proper {c : Checker} (proper : c.toEnv.Proper) {statements : List Statement}
    (named : Statement.EachNamed TypeTag.IsScalarName statements)
    (calls : Statement.EachHoldsCalls statements) : c.EachAsserts statements := by
  match statements with
  | [] => trivial
  | s :: rest =>
    refine ⟨asserts_of_proper proper named.1 calls.1, ?_⟩
    intro behind ran
    rw [statement_eq c s calls.1] at ran
    cases ran
    exact eachAsserts_of_proper (proper_moved proper (proper.scopes.behind named.1) _) named.2 calls.2

theorem blockAsserts_of_proper {c : Checker} (proper : c.toEnv.Proper) {body : Block}
    (named : body.Named TypeTag.IsScalarName) (calls : body.HoldsCalls) : c.BlockAsserts body := by
  match body with
  | ⟨statements, span⟩ =>
    have each : Statement.EachNamed TypeTag.IsScalarName statements := named
    exact eachAsserts_of_proper (proper_openScope proper) each calls

theorem branchesAssert_of_proper {c : Checker} (proper : c.toEnv.Proper) {branches : List Branch}
    (named : Branch.EachNamed TypeTag.IsScalarName branches) (calls : Branch.EachHoldsCalls branches) :
    c.BranchesAssert branches := by
  match branches with
  | [] => trivial
  | ⟨condition, body⟩ :: rest =>
    have reported := proper_moved proper proper.scopes (c.conditionErrors condition)
    refine ⟨proper.conditionAsserts condition, blockAsserts_of_proper reported named.1.2 calls.1, ?_⟩
    intro behind ran
    rw [block_eq _ body calls.1] at ran
    cases ran
    exact branchesAssert_of_proper (proper_moved reported reported.scopes _) named.2 calls.2

theorem optionAsserts_of_proper {c : Checker} (proper : c.toEnv.Proper) {otherwise : Option Block}
    (named : Block.OptionNamed TypeTag.IsScalarName otherwise) (calls : Block.OptionHoldsCalls otherwise) :
    c.OptionAsserts otherwise := by
  match otherwise with
  | none => trivial
  | some body =>
    have inside : body.Named TypeTag.IsScalarName := named
    exact blockAsserts_of_proper proper inside calls

end

end Typing.Checker

/-! ## Programs -/

/-- What is taken for granted when what a statement declares is made known. -/
def Statement.RegisterAsserts : Statement → Prop
  | .function decl span => (FunctionSymbol.ofDecl decl.name.name decl span).Proper
  | .datatype decl span => (DatatypeSymbol.ofDecl decl span).Proper
  | _ => True

/-- What is taken for granted while a program is checked. -/
structure Program.Asserts (library : Library) (p : Program) : Prop where
  register : ∀ s ∈ p, s.RegisterAsserts
  check : ∀ c, p.foldlM Typing.Checker.register (.start library) = .ok c → c.EachAsserts p

theorem Statement.Named.registerAsserts {s : Statement} (named : s.Named TypeTag.IsScalarName) :
    s.RegisterAsserts := by
  cases s with
  | function decl span => exact FunctionSymbol.proper_ofDecl _ named
  | datatype decl span => exact DatatypeSymbol.proper_ofDecl named
  | _ => trivial

/-- Nothing that the check of a program takes for granted fails. -/
theorem Program.asserts {library : Library} (proper : library.Proper) {p : Program}
    (named : Statement.EachNamed TypeTag.IsScalarName p) (calls : Statement.EachHoldsCalls p) :
    p.Asserts library where
  register s member := (Statement.eachNamed_iff.mp named s member).registerAsserts
  check := by
    intro c ran
    rw [Typing.Checker.foldlM_register_eq] at ran
    cases ran
    have registered : (Scopes.start.registeringEach p).Proper :=
      Scopes.proper_start.registeringEach named
    exact Typing.Checker.eachAsserts_of_proper ⟨proper, registered⟩ named calls

end FrontEnd
