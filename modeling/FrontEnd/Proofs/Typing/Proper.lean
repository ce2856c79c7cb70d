import FrontEnd.Proofs.Grammar.Named
import FrontEnd.Proofs.Typing.Judgements

/-!
# Proper tags

The tag of a type stands for its text only as long as no scalar is named like a list. A tag is proper if its
scalar is not, and then the text alone tells the type (`TypeTag.ofText_text`). Declarations with plain names
have proper tags, and where all that is declared is proper, so is every type that is found for an expression
(`Env.Proper.infer`).
-/

namespace FrontEnd

namespace TypeTag

/-- Whether a name is read as a scalar, for it does not start like the text of a list. -/
def IsScalarName (name : String) : Prop :=
  ofText name = ofScalar name

instance (name : String) : Decidable (IsScalarName name) :=
  inferInstanceAs (Decidable (_ = _))

def Proper (t : TypeTag) : Prop :=
  IsScalarName t.scalar

instance (t : TypeTag) : Decidable t.Proper :=
  inferInstanceAs (Decidable (IsScalarName _))

theorem proper_int : int.Proper := by decide

theorem proper_string : string.Proper := by decide

theorem proper_bool : bool.Proper := by decide

theorem remainder?_append (start text : List Char) : remainder? start (start ++ text) = some text := by
  induction start with
  | nil => rfl
  | cons c start inductionHypothesis => rw [List.cons_append, remainder?, if_pos rfl, inductionHypothesis]

theorem eq_append_of_remainder? {start text rest : List Char} (found : remainder? start text = some rest) :
    text = start ++ rest := by
  induction start generalizing text with
  | nil => exact Option.some.inj found
  | cons c start inductionHypothesis =>
    cases text with
    | nil => cases found
    | cons d text =>
      rw [remainder?] at found
      split at found
      next same => rw [inductionHypothesis found, same, List.cons_append]
      next => cases found

/-- The text of a proper tag tells the type. -/
theorem ofText_text {t : TypeTag} (proper : t.Proper) : ofText t.text = t := by
  obtain ⟨isList, scalar⟩ := t
  cases isList with
  | false => exact proper
  | true =>
    have found : remainder? listMark.toList (listMark ++ scalar).toList = some scalar.toList := by
      rw [String.toList_append, remainder?_append]
    rw [text, if_pos rfl, ofText, found]
    simp [listOf]

/-- No name without a minus sign starts like the text of a list. -/
theorem isScalarName_of_notMem {name : String} (absent : '-' ∉ name.toList) : IsScalarName name := by
  rw [IsScalarName, ofText]
  split
  next rest found =>
    have inMark : '-' ∈ listMark.toList := by decide
    exact absurd (eq_append_of_remainder? found ▸ List.mem_append_left rest inMark) absent
  next => rfl

end TypeTag

theorem TypeName.Plain.proper {type : TypeName} (plain : type.Plain TypeTag.IsScalarName) :
    type.tag.Proper := by
  obtain ⟨scalar, isList, span⟩ := type
  cases scalar with
  | int => exact TypeTag.proper_int
  | string => exact TypeTag.proper_string
  | bool => exact TypeTag.proper_bool
  | datatype name => exact plain name rfl

/-! ## Proper declarations -/

structure FunctionSymbol.Proper (f : FunctionSymbol) : Prop where
  takes : ∀ t ∈ f.takes, t.Proper
  returns : ∀ t ∈ f.returns, t.Proper

structure DatatypeSymbol.Proper (d : DatatypeSymbol) : Prop where
  name : TypeTag.IsScalarName d.name
  fields : ∀ field ∈ d.fields, field.1.Proper

structure SymbolTable.Proper (t : SymbolTable) : Prop where
  functions : ∀ f ∈ t.functions, f.Proper
  datatypes : ∀ d ∈ t.datatypes, d.Proper
  vars : ∀ v ∈ t.vars, v.type.Proper

def Scopes.Proper (s : Scopes) : Prop :=
  ∀ table ∈ s.tables, table.Proper

def Library.Proper (l : Library) : Prop :=
  ∀ e ∈ l.entries, e.function.Proper

theorem FunctionSymbol.proper_ofDecl {decl : FunctionDecl} {span other : Span} (name : String)
    (named : (Statement.function decl span).Named TypeTag.IsScalarName) :
    (FunctionSymbol.ofDecl name decl other).Proper := by
  obtain ⟨_, params, returns, body⟩ := decl
  obtain ⟨-, namedParams, plainReturns, -⟩ := named
  constructor
  · exact List.forall_mem_map.mpr fun p member => (namedParams p member).1.proper
  · exact List.forall_mem_map.mpr fun type member => (plainReturns type member).proper

theorem DatatypeSymbol.proper_ofDecl {decl : DatatypeDecl} {span other : Span}
    (named : (Statement.datatype decl span).Named TypeTag.IsScalarName) :
    (DatatypeSymbol.ofDecl decl other).Proper where
  name := named.1
  fields := List.forall_mem_map.mpr fun p member => (named.2 p member).1.proper

theorem SymbolTable.proper_empty : SymbolTable.empty.Proper := by
  constructor <;> simp [SymbolTable.empty]

theorem SymbolTable.Proper.adding {t : SymbolTable} (proper : t.Proper) {v : VariableSymbol}
    (properVariable : v.type.Proper) : (t.adding v).Proper := by
  rw [SymbolTable.adding]
  split
  · exact proper
  · refine { proper with vars := ?_ }
    intro w member
    rcases List.mem_append.mp member with before | added
    · exact proper.vars w before
    · exact List.mem_singleton.mp added ▸ properVariable

namespace Scopes

variable {s : Scopes}

theorem proper_start : Scopes.start.Proper := by
  simpa [Scopes.Proper, tables, start] using SymbolTable.proper_empty

theorem Proper.global (proper : s.Proper) : s.global.Proper :=
  proper s.global (by simp [tables])

theorem Proper.push (proper : s.Proper) : s.push.Proper := by
  intro table member
  rcases List.mem_cons.mp member with same | outer
  · exact same ▸ SymbolTable.proper_empty
  · exact proper table outer

theorem Proper.adding (proper : s.Proper) {v : VariableSymbol} (properVariable : v.type.Proper) :
    (s.adding v).Proper := by
  obtain ⟨others, tables, added⟩ := tables_adding s v
  rw [Scopes.Proper, tables, List.forall_mem_cons] at proper
  rw [Scopes.Proper, added, List.forall_mem_cons]
  exact ⟨proper.1.adding properVariable, proper.2⟩

theorem Proper.addingParams (proper : s.Proper) {ps : List Param}
    (plain : ∀ p ∈ ps, p.type.Plain TypeTag.IsScalarName) : (s.addingParams ps).Proper := by
  induction ps generalizing s with
  | nil => exact proper
  | cons p ps inductionHypothesis =>
    rw [List.forall_mem_cons] at plain
    have first : (VariableSymbol.ofParam p).type.Proper := plain.1.proper
    exact inductionHypothesis (proper.adding first) plain.2

theorem Proper.behind (proper : s.Proper) {statement : Statement}
    (named : statement.Named TypeTag.IsScalarName) : (s.behind statement).Proper := by
  cases statement with
  | declaration _ decl span =>
    have declared : (VariableSymbol.ofDecl decl span).type.Proper := TypeName.Plain.proper named.1
    exact proper.adding declared
  | _ => exact proper

theorem proper_iff : s.Proper ↔ (∀ table ∈ s.inner, table.Proper) ∧ s.global.Proper := by
  simp [Scopes.Proper, tables, or_imp, forall_and]

theorem Proper.registering (proper : s.Proper) {statement : Statement}
    (named : statement.Named TypeTag.IsScalarName) : (s.registering statement).Proper := by
  have ⟨inner, global⟩ := proper_iff.mp proper
  unfold Scopes.registering
  split
  · split
    · exact proper
    · refine proper_iff.mpr ⟨inner, { global with functions := ?_ }⟩
      intro f member
      rcases List.mem_append.mp member with before | added
      · exact global.functions f before
      · exact List.mem_singleton.mp added ▸ FunctionSymbol.proper_ofDecl _ named
  · split
    · exact proper
    · refine proper_iff.mpr ⟨inner, { global with datatypes := ?_ }⟩
      intro d member
      rcases List.mem_append.mp member with before | added
      · exact global.datatypes d before
      · exact List.mem_singleton.mp added ▸ DatatypeSymbol.proper_ofDecl named
  · exact proper

theorem Proper.registeringEach (proper : s.Proper) {statements : List Statement}
    (named : Statement.EachNamed TypeTag.IsScalarName statements) :
    (s.registeringEach statements).Proper := by
  induction statements generalizing s with
  | nil => exact proper
  | cons statement rest inductionHypothesis =>
    exact inductionHypothesis (proper.registering named.1) named.2

theorem Proper.variable (proper : s.Proper) {name : String} {v : VariableSymbol}
    (found : s.getVariable? name = some v) : v.type.Proper := by
  rw [getVariable?_eq_findSome?] at found
  obtain ⟨table, member, inTable⟩ := List.exists_of_findSome?_eq_some found
  exact (proper table member).vars v (List.mem_of_find?_eq_some inTable)

theorem Proper.function (proper : s.Proper) {name : String} {f : FunctionSymbol}
    (found : s.getFunction? name = some f) : f.Proper :=
  proper.global.functions f (List.mem_of_find?_eq_some found)

theorem Proper.datatype (proper : s.Proper) {name : String} {d : DatatypeSymbol}
    (found : s.getDatatype? name = some d) : d.Proper :=
  proper.global.datatypes d (List.mem_of_find?_eq_some found)

end Scopes

theorem Library.Proper.function {l : Library} (proper : l.Proper) {space name : String}
    {f : FunctionSymbol} (found : l.getFunction? space name = some f) : f.Proper := by
  obtain ⟨entry, entryFound, rfl⟩ := Option.map_eq_some_iff.mp found
  exact proper entry (List.mem_of_find?_eq_some entryFound)

/-! ## Proper types of expressions -/

namespace Typing

structure Env.Proper (env : Env) : Prop where
  library : env.library.Proper
  scopes : env.scopes.Proper

/-- Whether the type that was found is proper, if one was found. -/
def Judgement.Proper (j : Judgement) : Prop :=
  ∀ type, j.type = .known type → type.Proper

theorem Judgement.proper_of_known {type : TypeTag} {span : Span} {errors : List (Located Error)}
    (proper : type.Proper) : Judgement.Proper ⟨span, .known type, errors⟩ := by
  rintro _ ⟨⟩
  exact proper

theorem Judgement.proper_of_unknown {span : Span} {errors : List (Located Error)} :
    Judgement.Proper ⟨span, .unknown, errors⟩ := by
  rintro _ ⟨⟩

theorem proper_operatorRule (op : Operator) :
    (∀ type ∈ (operatorRule op).operand, type.Proper) ∧ (operatorRule op).result.Proper := by
  cases op <;> decide

theorem proper_judgeCall {callee : Except (Located Error) Callee}
    (proper : ∀ f, callee = .ok f → ∀ type ∈ f.returns, type.Proper) (args : List Judgement)
    (span : Span) : (judgeCall callee args span).Proper := by
  cases callee with
  | error _ => exact Judgement.proper_of_unknown
  | ok f =>
    rw [judgeCall]
    split
    next type single => exact Judgement.proper_of_known (proper f rfl type (by simp [single]))
    next => exact Judgement.proper_of_unknown

/-- The type of the items is proper and no list, and so its text names a scalar. -/
theorem isScalarName_element {items : List Judgement} (proper : ∀ j ∈ items, j.Proper) {type : TypeTag}
    (found : items.findSome? Judgement.element? = some type) :
    type.Proper ∧ TypeTag.IsScalarName type.text := by
  obtain ⟨j, member, element⟩ := List.exists_of_findSome?_eq_some found
  obtain ⟨known, scalar⟩ := (j.element?_eq_some_iff type).mp element
  have properType := proper j member type known
  exact ⟨properType, by rw [TypeTag.text, if_neg (by simp [scalar])]; exact properType⟩

theorem proper_judgeList {items : List Judgement} (proper : ∀ j ∈ items, j.Proper) (span : Span) :
    (judgeList items span).Proper := by
  intro type known
  rw [judgeList] at known
  split at known
  next element found =>
    have same : TypeTag.listOf element.scalar = type := by simpa using known
    exact same ▸ (isScalarName_element proper found).1
  next => split at known <;> cases known

namespace Env.Proper

variable {env : Env}

theorem callee (proper : env.Proper) {function : Ident} (f : Callee)
    (resolved : env.callee function = .ok f) : ∀ type ∈ f.returns, type.Proper := by
  rw [Env.callee] at resolved
  split at resolved
  next symbol found =>
    cases resolved
    exact (proper.scopes.function found).returns
  next => cases resolved

theorem libraryCallee (proper : env.Proper) {space function : Ident} (f : Callee)
    (resolved : env.libraryCallee space function = .ok f) : ∀ type ∈ f.returns, type.Proper := by
  simp only [Env.libraryCallee] at resolved
  split at resolved
  · split at resolved
    next symbol found =>
      cases resolved
      exact (proper.library.function found).returns
    next => cases resolved
  · cases resolved

mutual

/-- Where all that is declared is proper, so is the type of every expression. -/
theorem infer (proper : env.Proper) (e : Expr) : (env.infer e).Proper := by
  match e with
  | .int .. => exact Judgement.proper_of_known TypeTag.proper_int
  | .string .. => exact Judgement.proper_of_known TypeTag.proper_string
  | .bool .. => exact Judgement.proper_of_known TypeTag.proper_bool
  | .name ident span =>
    rw [Env.infer, judgeName]
    split
    next v found => exact Judgement.proper_of_known (proper.scopes.variable found)
    next => exact Judgement.proper_of_unknown
  | .record name fields span =>
    rw [Env.infer]
    cases found : env.scopes.getDatatype? name.name with
    | none => exact Judgement.proper_of_unknown
    | some d => exact Judgement.proper_of_known (proper.scopes.datatype found).name
  | .operation op operands span => exact Judgement.proper_of_known (proper_operatorRule op).2
  | .call function args span => exact proper_judgeCall proper.callee _ span
  | .libraryCall space function args span => exact proper_judgeCall proper.libraryCallee _ span
  | .list items span => exact proper_judgeList (proper.inferEach items) span
  | .missing span => exact Judgement.proper_of_unknown

theorem inferEach (proper : env.Proper) (es : List Expr) : ∀ j ∈ env.inferEach es, j.Proper := by
  match es with
  | [] => simp [Env.inferEach]
  | e :: es =>
    rw [Env.inferEach, List.forall_mem_cons]
    exact ⟨proper.infer e, proper.inferEach es⟩

end

end Env.Proper

end Typing

end FrontEnd
