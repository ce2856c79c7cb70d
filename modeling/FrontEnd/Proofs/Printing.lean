import FrontEnd.Proofs.Listing.Programs
import FrontEnd.Proofs.Listing.Symbols
import FrontEnd.Proofs.Placement
import FrontEnd.Proofs.Typing.Globals
import Mathlib.Data.List.Nodup

/-!
# What is printed of the declarations

The lines of a table stand in the order of the places of its declarations. That is an order only if no two
declarations of a kind start together, and they do not: the statements of a program start one behind the
other, a chained declaration at its name and not at the type that it shares. So the lines are the same in
whatever order a table is gone through. And there is one line for each declaration, which says what it declares
(`SymbolTable.OneLineEach`).
-/

namespace FrontEnd

/-! ## Sorting what starts apart -/

/-- Whether some of the things that are declared stand in the order of their declarations, and each of them
starts behind the one in front of it. -/
structure InSourceOrder {α : Type} (span : α → Span) (entries declared : List α) : Prop where
  sublist : entries.Sublist declared
  rising : entries.Pairwise fun a b => (span a).lo < (span b).lo

section

variable {α : Type} {span : α → Span} {entries declared other : List α}

theorem InSourceOrder.nodup (ordered : InSourceOrder span entries declared) :
    (entries.map fun x => (span x).lo).Nodup :=
  List.pairwise_map.mpr (ordered.rising.imp Nat.ne_of_lt)

theorem inOrder_perm (span : α → Span) (values : List α) : (inOrder span values).Perm values :=
  List.mergeSort_perm _ _

theorem pairwise_inOrder (span : α → Span) (values : List α) :
    (inOrder span values).Pairwise fun a b => (span a).lo ≤ (span b).lo := by
  have sorted : (inOrder span values).Pairwise fun a b => decide ((span a).lo ≤ (span b).lo) = true :=
    List.pairwise_mergeSort (fun a b c => by simpa using Nat.le_trans)
      (fun a b => by simpa using Nat.le_total _ _) values
  simpa only [decide_eq_true_eq] using sorted

/-- There is one way to sort what starts apart, whatever order it comes in. -/
theorem InSourceOrder.inOrder_eq (ordered : InSourceOrder span entries declared)
    (perm : other.Perm entries) : inOrder span other = entries := by
  have same : (inOrder span other).Perm entries := (inOrder_perm span other).trans perm
  -- entries that start together are the same, so that sorting has no choice
  refine same.eq_of_pairwise (fun a b inSorted inEntries le ge => ?_) (pairwise_inOrder span other)
    (ordered.rising.imp Nat.le_of_lt)
  exact List.inj_on_of_nodup_map ordered.nodup (same.mem_iff.mp inSorted) inEntries (Nat.le_antisymm le ge)

end

/-! ## Tables -/

namespace SymbolTable

/-- Whether two tables have the same entries, in whatever order. -/
structure Perm (t u : SymbolTable) : Prop where
  functions : t.functions.Perm u.functions
  datatypes : t.datatypes.Perm u.datatypes
  vars : t.vars.Perm u.vars

/-- Whether the entries of a table are declared by a program at its top level and stand in the order of the
text. -/
structure InSourceOrder (t : SymbolTable) (p : Program) : Prop where
  functions : FrontEnd.InSourceOrder FunctionSymbol.span t.functions (p.functionDecls.map .declaredBy)
  datatypes : FrontEnd.InSourceOrder DatatypeSymbol.span t.datatypes (p.datatypeDecls.map .declaredBy)
  vars : FrontEnd.InSourceOrder VariableSymbol.span t.vars (p.variableDecls.map .declaredBy)

/-- Whether no two functions, no two datatypes and no two variables of a table start at the same byte. -/
structure StartsApart (t : SymbolTable) : Prop where
  functions : (t.functions.map fun f => f.span.lo).Nodup
  datatypes : (t.datatypes.map fun d => d.span.lo).Nodup
  vars : (t.vars.map fun v => v.span.lo).Nodup

/-- Whether each function, datatype and variable of a table is printed as a line of its own, with its kind, its name
and its types on it. -/
structure OneLineEach (t : SymbolTable) : Prop where
  functions : ∀ f ∈ t.functions, IsLineOf f.line f.print
  datatypes : ∀ d ∈ t.datatypes, IsLineOf d.line d.print
  vars : ∀ v ∈ t.vars, IsLineOf v.line v.print

variable {t u : SymbolTable} {p : Program}

theorem InSourceOrder.startsApart (ordered : u.InSourceOrder p) : u.StartsApart :=
  ⟨ordered.functions.nodup, ordered.datatypes.nodup, ordered.vars.nodup⟩

/-- A table is printed in the order of the text. -/
theorem InSourceOrder.print_eq (ordered : u.InSourceOrder p) (perm : t.Perm u) :
    t.print = String.join (u.functions.map FunctionSymbol.print) ++
      String.join (u.datatypes.map DatatypeSymbol.print) ++
      String.join (u.vars.map VariableSymbol.print) := by
  rw [print, ordered.functions.inOrder_eq perm.functions, ordered.datatypes.inOrder_eq perm.datatypes,
    ordered.vars.inOrder_eq perm.vars]

end SymbolTable

/-! ## The declarations of a text -/

/-- Where the statements of a program start one behind the other, so do its declarations of each kind. -/
theorem KeepsFirsts.inSourceOrder {α β : Type} {name : β → String} {span : β → Span} {table : List β}
    {p : Program} {declared? : Statement → Option (Located α)} {symbol : Located α → β}
    (keeps : KeepsFirsts name table ((p.filterMap declared?).map symbol))
    (ordered : Span.Ordered (p.map Statement.span)) (region : ∀ d, span (symbol d) = d.span)
    (place : ∀ s, ∀ d ∈ declared? s, d.span = s.span) :
    InSourceOrder span table ((p.filterMap declared?).map symbol) := by
  -- the table is a part of the declarations, and these are a part of the statements
  refine ⟨keeps.sublist, List.Pairwise.sublist keeps.sublist ?_⟩
  rw [List.pairwise_map, List.pairwise_filterMap]
  refine (List.pairwise_map.mp ordered).imp fun {s t} apart d declares e declaresLater => ?_
  rw [region, region, place s d declares, place t e declaresLater]
  exact apart.1

namespace Program

theorem globals_inSourceOrder {p : Program} (ordered : Span.Ordered (p.map Statement.span)) :
    p.globals.InSourceOrder p := by
  obtain ⟨functions, datatypes, vars⟩ := p.globals_keepsFirsts
  refine ⟨functions.inSourceOrder ordered (fun _ => rfl) ?_, datatypes.inSourceOrder ordered (fun _ => rfl) ?_,
    vars.inSourceOrder ordered (fun _ => rfl) ?_⟩
  all_goals
    intro s d declares
    cases s <;> cases declares
    rfl

end Program

/-! ## Names without line breaks -/

theorem IsName.noBreak {name : String} (isName : IsName name) : NoBreak name :=
  isName.notMem (by decide)

theorem TypeName.noBreak_tag {type : TypeName} (plain : type.Plain IsName) : NoBreak type.tag.text := by
  have scalar : NoBreak type.scalar.name := notMem_scalar plain (by decide)
  rw [tag, TypeTag.text]
  split
  · exact (noBreak_append _ _).mpr ⟨by decide, scalar⟩
  · exact scalar

theorem Program.globals_oneLineEach {p : Program} (named : Statement.EachNamed IsName p) : p.globals.OneLineEach := by
  obtain ⟨functions, datatypes, vars⟩ := p.globals_keepsFirsts
  rw [Statement.eachNamed_iff] at named
  -- each entry is declared by a statement, and has its names and types
  constructor
  · intro f member
    obtain ⟨s, inProgram, ⟨⟨name, params, returns, body⟩, region⟩, declares, rfl⟩ :=
      exists_of_keepsFirsts functions member
    cases s <;> cases declares
    obtain ⟨isName, ofParams, ofReturns, -⟩ := named _ inProgram
    exact FunctionSymbol.isLineOf isName.noBreak
      (List.forall_mem_map.mpr fun param inParams => TypeName.noBreak_tag (ofParams param inParams).1)
      (List.forall_mem_map.mpr fun type inReturns => TypeName.noBreak_tag (ofReturns type inReturns))
  · intro d member
    obtain ⟨s, inProgram, d, declares, rfl⟩ := exists_of_keepsFirsts datatypes member
    cases s <;> cases declares
    obtain ⟨isName, fields⟩ := named _ inProgram
    exact DatatypeSymbol.isLineOf isName.noBreak (List.forall_mem_map.mpr fun field inFields =>
      ⟨TypeName.noBreak_tag (fields field inFields).1, (fields field inFields).2.noBreak⟩)
  · intro v member
    obtain ⟨s, inProgram, d, declares, rfl⟩ := exists_of_keepsFirsts vars member
    cases s <;> cases declares
    obtain ⟨plain, isName, -⟩ := named _ inProgram
    exact VariableSymbol.isLineOf isName.noBreak (TypeName.noBreak_tag plain)

/-- Nothing that a text declares starts where something else of its kind does. So whatever order the table of
its declarations is gone through, what is printed is the same: the functions, behind them the datatypes and
behind these the variables, each kind in the order of the text, and of each declaration one line that names it. -/
theorem check_print_perm (style : Lexer.CommentStyle) {source : String} (nonempty : source ≠ "") :
    ∃ tokens program c, Lexer.tokenize style source = .ok tokens ∧
      Program.parse tokens.value = .ok program ∧ check style source = .ok c ∧
      c.result.globals.StartsApart ∧ c.result.globals.InSourceOrder program.value ∧
      c.result.globals.OneLineEach ∧
      ∀ t : SymbolTable, t.Perm c.result.globals →
        t.print = String.join (c.result.globals.functions.map FunctionSymbol.print) ++
          String.join (c.result.globals.datatypes.map DatatypeSymbol.print) ++
          String.join (c.result.globals.vars.map VariableSymbol.print) := by
  obtain ⟨tokens, program, library, all⟩ := exists_placesAll style nonempty
  have ordered := Program.globals_inSourceOrder all.placed.ordered
  have named := (Program.named_of_parse all.tokenize all.parse).1
  exact ⟨tokens, program, _, all.tokenize, all.parse, all.result, ordered.startsApart, ordered,
    Program.globals_oneLineEach named, fun t perm => ordered.print_eq perm⟩

/-- Three declarations share a type, one of them of a name that is taken, and functions and datatypes stand
between others of their kind. -/
def interleavedText : String :=
  "int x = 1, y = 2, x = 3.\nfun g() \x7b\x7d\ndatatype d \x7bint x\x7d\nfun f() \x7b\x7d\nstring s = \"\"."

theorem check_print_perm_interleaved :
    interleavedText ≠ "" ∧
      ∃ tokens program c, Lexer.tokenize .line interleavedText = .ok tokens ∧
        Program.parse tokens.value = .ok program ∧ check .line interleavedText = .ok c ∧
        c.result.globals.StartsApart ∧ c.result.globals.InSourceOrder program.value ∧
        c.result.globals.OneLineEach ∧
        ∀ t : SymbolTable, t.Perm c.result.globals →
          t.print = String.join (c.result.globals.functions.map FunctionSymbol.print) ++
            String.join (c.result.globals.datatypes.map DatatypeSymbol.print) ++
            String.join (c.result.globals.vars.map VariableSymbol.print) :=
  ⟨by decide, check_print_perm .line (by decide)⟩

end FrontEnd
