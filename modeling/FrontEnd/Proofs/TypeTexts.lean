import FrontEnd.Proofs.Listing.Programs
import FrontEnd.Proofs.Printing
import FrontEnd.Proofs.Typing.Proper
import FrontEnd.Proofs.Typing.Undeclared

/-!
# Types and their texts

Behind the parser a type is a flat text, and all that is decided about types is decided on it. That this is sound
rests on what words there are: no name that the lexer makes is reserved, so no datatype is called like a scalar type
that is built in, and none has a minus sign in it, so no text of a scalar starts like that of a list. Hence a written
type can be had again from the text of its tag (`TypeName.read_text`), two of them have one text only if they are
the same type, and so it is for whatever the checker stores, as it stores tags of written types only.
-/

namespace FrontEnd

variable {name : String}

/-! ## Names of datatypes -/

theorem IsName.notMem_builtins (isName : IsName name) : name ∉ ["int", "string", "bool"] :=
  fun member => not_isName_scalar name member isName

/-! ## Written types -/

theorem TypeName.Plain.isScalarName {t : TypeName} (plain : t.Plain IsName) :
    t.Plain TypeTag.IsScalarName :=
  fun name refers => (plain name refers).isScalarName

/-- Whether a tag tells of a written type what it is, and its text tells the tag. -/
structure TypeTag.Tells (tag : TypeTag) (t : TypeName) : Prop where
  isList : tag.isList = t.isList
  text : tag.text = (if t.isList then listMark else "") ++ t.scalar.name
  marked : listMark.toList <+: tag.text.toList ↔ t.isList = true
  rederives : ofText tag.text = tag
  builtin : t.scalar.name ∈ ["int", "string", "bool"] ↔ t.scalar.datatype? = none

/-- Whether two types are the same type, wherever they are written. -/
def TypeName.Agrees (t u : TypeName) : Prop :=
  t.isList = u.isList ∧ t.scalar = u.scalar

/-- What is read off the text of a tag: whether the type is a list, and of what. -/
def TypeTag.read (text : String) : Bool × Scalar :=
  ((ofText text).isList, Scalar.ofName (ofText text).scalar)

namespace TypeTag

theorem marked_iff (text : String) : listMark.toList <+: text.toList ↔ (ofText text).isList = true := by
  rw [ofText]
  split
  next element found => exact iff_of_true ⟨element, (eq_append_of_remainder? found).symm⟩ rfl
  next none =>
    refine iff_of_false ?_ Bool.false_ne_true
    rintro ⟨element, split⟩
    rw [← split, remainder?_append] at none
    cases none

end TypeTag

namespace TypeName

variable {t u : TypeName}

/-- A written type can be had again from the text of its tag. -/
theorem read_text (plain : t.Plain IsName) : TypeTag.read t.tag.text = (t.isList, t.scalar) := by
  rw [TypeTag.read, TypeTag.ofText_text plain.isScalarName.proper]
  exact congrArg (Prod.mk t.isList) (ofName_scalar plain)

theorem builtin_iff (plain : t.Plain IsName) :
    t.scalar.name ∈ ["int", "string", "bool"] ↔ t.scalar.datatype? = none := by
  obtain ⟨scalar, isList, span⟩ := t
  cases scalar with
  | int | string | bool => simp [Scalar.name, Scalar.datatype?]
  | datatype name => exact iff_of_false (plain name rfl).notMem_builtins (Option.some_ne_none name)

theorem tells (plain : t.Plain IsName) : t.tag.Tells t := by
  have rederives := TypeTag.ofText_text plain.isScalarName.proper
  refine {
    isList := rfl
    text := ?_
    marked := by rw [TypeTag.marked_iff, rederives]; rfl
    rederives := rederives
    builtin := builtin_iff plain }
  rw [TypeTag.text, tag]
  split
  · rfl
  · exact String.empty_append.symm

theorem text_eq_iff (plain : t.Plain IsName) (plainOther : u.Plain IsName) :
    t.tag.text = u.tag.text ↔ t.Agrees u := by
  constructor
  · intro same
    have read := congrArg TypeTag.read same
    rw [read_text plain, read_text plainOther] at read
    exact Prod.mk.inj read
  · rintro ⟨isList, scalar⟩
    rw [tag, tag, isList, scalar]

theorem tag_eq_iff (plain : t.Plain IsName) (plainOther : u.Plain IsName) : t.tag = u.tag ↔ t.Agrees u := by
  constructor
  · intro same
    exact (text_eq_iff plain plainOther).mp (congrArg TypeTag.text same)
  · rintro ⟨isList, scalar⟩
    rw [tag, tag, isList, scalar]

end TypeName

/-! ## Trees with names -/

variable {isName : String → Prop}

theorem plain_of_named {ps : List Param} (named : ∀ p ∈ ps, p.Named isName) :
    ∀ t ∈ ps.map Param.type, t.Plain isName :=
  List.forall_mem_map.mpr fun p member => (named p member).1

mutual

theorem Statement.Named.writtenTypes {s : Statement} (named : s.Named isName) :
    ∀ t ∈ s.writtenTypes, t.Plain isName := by
  match s with
  | .function ⟨_, params, returns, ⟨body, _⟩⟩ _ =>
    obtain ⟨-, ofParams, ofReturns, ofBody⟩ := named
    exact List.forall_mem_append.mpr ⟨List.forall_mem_append.mpr ⟨ofReturns, plain_of_named ofParams⟩,
      Statement.EachNamed.writtenTypes ofBody⟩
  | .datatype decl _ => exact plain_of_named named.2
  | .declaration _ decl _ => exact List.forall_mem_singleton.mpr named.1
  | .conditional branches otherwise _ =>
    exact List.forall_mem_append.mpr ⟨Branch.EachNamed.writtenTypes named.1, Block.OptionNamed.writtenTypes named.2⟩
  | .loop _ body _ => exact Block.Named.writtenTypes named.2
  | .block body _ => exact Block.Named.writtenTypes named
  | .reassignment .. | .result .. | .call .. | .control .. => exact List.forall_mem_nil _

theorem Statement.EachNamed.writtenTypes {statements : List Statement} (named : Statement.EachNamed isName statements) :
    ∀ t ∈ Statement.writtenTypesEach statements, t.Plain isName := by
  match statements with
  | [] => exact List.forall_mem_nil _
  | s :: rest =>
    exact List.forall_mem_append.mpr ⟨Statement.Named.writtenTypes named.1, Statement.EachNamed.writtenTypes named.2⟩

theorem Block.Named.writtenTypes {b : Block} (named : b.Named isName) : ∀ t ∈ b.writtenTypes, t.Plain isName := by
  match b with
  | ⟨statements, _⟩ => exact Statement.EachNamed.writtenTypes named

theorem Branch.EachNamed.writtenTypes {branches : List Branch} (named : Branch.EachNamed isName branches) :
    ∀ t ∈ Branch.writtenTypesEach branches, t.Plain isName := by
  match branches with
  | [] => exact List.forall_mem_nil _
  | ⟨_, body⟩ :: rest =>
    exact List.forall_mem_append.mpr ⟨Block.Named.writtenTypes named.1.2, Branch.EachNamed.writtenTypes named.2⟩

theorem Block.OptionNamed.writtenTypes {otherwise : Option Block} (named : Block.OptionNamed isName otherwise) :
    ∀ t ∈ Block.writtenTypesOption otherwise, t.Plain isName := by
  match otherwise with
  | none => exact List.forall_mem_nil _
  | some body => exact Block.Named.writtenTypes named

end

/-! ## Stored types -/

/-- The types that a table stores: those of parameters and results, of fields and of variables. -/
def SymbolTable.tags (t : SymbolTable) : List TypeTag :=
  t.functions.flatMap (fun f => f.takes ++ f.returns) ++ t.datatypes.flatMap (fun d => d.fields.map Prod.fst) ++
    t.vars.map VariableSymbol.type

namespace Statement

variable {s : Statement}

/-! What a declaration stores are tags of types that it writes. -/

theorem tags_functionDecl {d : Located FunctionDecl} (declares : s.functionDecl? = some d) :
    ∀ tag ∈ (FunctionSymbol.declaredBy d).takes ++ (FunctionSymbol.declaredBy d).returns,
      tag ∈ s.writtenTypes.map TypeName.tag := by
  cases s with
  | function decl span =>
    cases declares
    obtain ⟨name, params, returns, ⟨body, region⟩⟩ := decl
    intro tag inSignature
    -- a function writes its results first, and what is in its body behind both
    simp only [writtenTypes, List.map_append, List.map_map, List.mem_append]
    exact .inl (List.mem_append.mp inSignature).symm
  | _ => cases declares

theorem tags_datatypeDecl {d : Located DatatypeDecl} (declares : s.datatypeDecl? = some d) :
    ∀ tag ∈ (DatatypeSymbol.declaredBy d).fields.map Prod.fst, tag ∈ s.writtenTypes.map TypeName.tag := by
  cases s with
  | datatype decl span =>
    cases declares
    simp [writtenTypes, DatatypeSymbol.declaredBy, DatatypeSymbol.ofDecl]
  | _ => cases declares

theorem tag_variableDecl {d : Located VariableDecl} (declares : s.variableDecl? = some d) :
    (VariableSymbol.declaredBy d).type ∈ s.writtenTypes.map TypeName.tag := by
  cases s with
  | declaration chained decl span =>
    cases declares
    exact List.mem_singleton.mpr rfl
  | _ => cases declares

end Statement

namespace Program

theorem mem_writtenTypes {p : Program} {s : Statement} (member : s ∈ p) {t : TypeName}
    (written : t ∈ s.writtenTypes) : t ∈ p.writtenTypes := by
  induction p with
  | nil => cases member
  | cons first rest inductionHypothesis =>
    rcases List.mem_cons.mp member with rfl | later
    · exact List.mem_append_left _ written
    · exact List.mem_append_right _ (inductionHypothesis later)

/-- Every type that is stored of what a program declares is one that the program writes. -/
theorem exists_writtenType {p : Program} {tag : TypeTag} (stored : tag ∈ p.globals.tags) :
    ∃ t ∈ p.writtenTypes, tag = t.tag := by
  obtain ⟨functions, datatypes, vars⟩ := p.globals_keepsFirsts
  have ofStatement : ∀ s ∈ p, tag ∈ s.writtenTypes.map TypeName.tag → ∃ t ∈ p.writtenTypes, tag = t.tag := by
    intro s inProgram ofWritten
    obtain ⟨t, written, same⟩ := List.mem_map.mp ofWritten
    exact ⟨t, mem_writtenTypes inProgram written, same.symm⟩
  rw [SymbolTable.tags, List.mem_append, List.mem_append] at stored
  rcases stored with (ofFunction | ofDatatype) | ofVariable
  · obtain ⟨f, member, inSignature⟩ := List.mem_flatMap.mp ofFunction
    obtain ⟨s, inProgram, d, declares, rfl⟩ := exists_of_keepsFirsts functions member
    exact ofStatement s inProgram (Statement.tags_functionDecl declares tag inSignature)
  · obtain ⟨d, member, ofField⟩ := List.mem_flatMap.mp ofDatatype
    obtain ⟨s, inProgram, d, declares, rfl⟩ := exists_of_keepsFirsts datatypes member
    exact ofStatement s inProgram (Statement.tags_datatypeDecl declares tag ofField)
  · obtain ⟨v, member, rfl⟩ := List.mem_map.mp ofVariable
    obtain ⟨s, inProgram, d, declares, rfl⟩ := exists_of_keepsFirsts vars member
    exact ofStatement s inProgram (Statement.tag_variableDecl declares)

end Program

/-- Whatever is wrong with a text, the tags of the types that it writes tell these types, and the text of a tag is
enough to tell it. Two tags are equal, and so are their texts, just where both types are lists or neither is and
their scalars are the same. What is stored of the declarations of the text are tags of types that it writes. -/
theorem check_tags_tell (style : Lexer.CommentStyle) {source : String} (nonempty : source ≠ "") :
    ∃ tokens program c, Lexer.tokenize style source = .ok tokens ∧
      Program.parse tokens.value = .ok program ∧ check style source = .ok c ∧
      (∀ t ∈ program.value.writtenTypes, t.tag.Tells t) ∧
      (∀ t ∈ program.value.writtenTypes, ∀ u ∈ program.value.writtenTypes,
        (t.tag = u.tag ↔ t.Agrees u) ∧ (t.tag.text = u.tag.text ↔ t.Agrees u)) ∧
      ∀ tag ∈ c.result.globals.tags, ∃ t ∈ program.value.writtenTypes, tag = t.tag ∧ tag.Tells t := by
  obtain ⟨tokens, program, library, all⟩ := exists_placesAll style nonempty
  have plain := (Program.named_of_parse all.tokenize all.parse).1.writtenTypes
  refine ⟨tokens, program, _, all.tokenize, all.parse, all.result, fun t written => TypeName.tells (plain t written), ?_, ?_⟩
  · intro t written u writtenToo
    exact ⟨TypeName.tag_eq_iff (plain t written) (plain u writtenToo),
      TypeName.text_eq_iff (plain t written) (plain u writtenToo)⟩
  · intro tag stored
    obtain ⟨t, written, rfl⟩ := Program.exists_writtenType stored
    exact ⟨t, written, rfl, TypeName.tells (plain t written)⟩

/-- A datatype that is not declared is a type like any other, also as what a list is made of. -/
def undeclaredText : String := "listof d x=y.d y=x.int z=1."

theorem check_tags_tell_undeclared :
    undeclaredText ≠ "" ∧
      ∃ tokens program c, Lexer.tokenize .line undeclaredText = .ok tokens ∧
        Program.parse tokens.value = .ok program ∧ check .line undeclaredText = .ok c ∧
        program.value.writtenTypes.map (fun t => t.tag.text) = ["list-d", "d", "int"] ∧
        (∀ t ∈ program.value.writtenTypes, t.tag.Tells t) ∧
        (∀ t ∈ program.value.writtenTypes, ∀ u ∈ program.value.writtenTypes,
          (t.tag = u.tag ↔ t.Agrees u) ∧ (t.tag.text = u.tag.text ↔ t.Agrees u)) ∧
        ∀ tag ∈ c.result.globals.tags, ∃ t ∈ program.value.writtenTypes, tag = t.tag ∧ tag.Tells t := by
  have nonempty : undeclaredText ≠ "" := by decide
  obtain ⟨tokens, program, c, lexed, parsed, checked, told⟩ := check_tags_tell .line nonempty
  have texts : program.value.writtenTypes.map (fun t => t.tag.text) = ["list-d", "d", "int"] := by
    rw [Lexer.tokenize_of_nonempty .line nonempty] at lexed
    repeat rw [Lexer.steps_of_cons rfl] at lexed
    rw [Lexer.steps_of_nil rfl] at lexed
    cases lexed
    obtain rfl := Except.ok.inj parsed
    rfl
  exact ⟨nonempty, tokens, program, c, lexed, parsed, checked, texts, told⟩

end FrontEnd
