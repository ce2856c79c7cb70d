import FrontEnd.Proofs.Listing.Expressions
import FrontEnd.Proofs.Typing.Found

/-!
# Reading statements back

The lines of a statement are an entry, too. Its word tells the form: a call statement has the line of its call, and
all other words are of statements only or stand where no statement can. What is under a statement stands in a fixed
order, and a condition is told from a block by its word. So statements with proper names that hold calls where they
have to are read back from their entries, but for the regions (`Statement.bare_of_entry`).
-/

namespace FrontEnd

/-- A field of a datatype, in a line without a place. -/
def Param.entry (field : Param) : Entry :=
  ⟨("field " ++ field.describe).toList, []⟩

/-- The word that the line of a statement starts with. -/
def Statement.word : Statement → String
  | .function .. => "fun"
  | .datatype .. => "datatype"
  | .declaration chained _ _ => if chained then "chained" else "var"
  | .reassignment .. => "reassign"
  | .conditional .. => "if"
  | .loop .. => "loop"
  | .block .. => "block"
  | .result .. => "return"
  | .call .. => "call"
  | .control kind _ => kind.word

/-- The name of a function with its parameters and its results, as they are written. -/
def FunctionDecl.header : FunctionDecl → String
  | ⟨name, params, returns, _⟩ =>
    name.name ++ "(" ++ separated "" ", " (params.map Param.describe) ++ ")" ++
      separated " -> " ", " (returns.map TypeName.describe)

/-- What the line of a statement says behind the word. -/
def Statement.detail : Statement → String
  | .function decl _ => " " ++ decl.header
  | .datatype decl _ => " " ++ decl.name.name
  | .declaration chained decl _ =>
    (if chained then " var " else " ") ++ (Param.mk decl.type decl.name).describe
  | .reassignment target _ _ => " " ++ target.name
  | .call called _ => called.detail
  | .conditional .. | .loop .. | .block .. | .result .. | .control .. => ""

/-- The region whose place the line of a statement shows. -/
def Statement.shown : Statement → Span
  | .block body _ => body.span
  | .call called _ => called.span
  | s => s.span

mutual

/-- The entries under the line of a statement. -/
def Statement.under : Statement → List Entry
  | .function ⟨_, _, _, body⟩ _ => body.entries
  | .datatype decl _ => decl.fields.map Param.entry
  | .declaration _ decl _ => [decl.value.entry]
  | .reassignment _ value _ => [value.entry]
  | .conditional branches otherwise _ => Branch.entries branches ++ Block.optionEntries otherwise
  | .loop condition body _ =>
    condition.toList.map Expr.entry ++ [.marked "block" "" body.span body.entries]
  | .block body _ => body.entries
  | .result values _ => Expr.entries values
  | .call called _ => called.under
  | .control .. => []

def Statement.entries : List Statement → List Entry
  | [] => []
  | s :: rest => .marked s.word s.detail s.shown s.under :: Statement.entries rest

/-- The entries of the statements of a block. -/
def Block.entries : Block → List Entry
  | ⟨statements, _⟩ => Statement.entries statements

def Branch.entries : List Branch → List Entry
  | [] => []
  | ⟨condition, body⟩ :: rest =>
    ⟨"branch".toList, [condition.entry, .marked "block" "" body.span body.entries]⟩ :: Branch.entries rest

def Block.optionEntries : Option Block → List Entry
  | none => []
  | some body => [⟨"else".toList, [.marked "block" "" body.span body.entries]⟩]

end

/-- A statement with all that is under it. -/
def Statement.entry (s : Statement) : Entry :=
  .marked s.word s.detail s.shown s.under

/-- A block with its statements under it. -/
def Block.entry (body : Block) : Entry :=
  .marked "block" "" body.span body.entries

theorem Expr.word_of_isCall {e : Expr} (isCall : e.isCall = true) : e.word = "call" := by
  cases e with
  | call | libraryCall => rfl
  | _ => cases isCall

/-! ## What is printed -/

theorem toList_printCondition (depth : Nat) (condition : Option Expr) :
    (printCondition depth condition).toList = Entry.renderEach depth (condition.toList.map Expr.entry) := by
  cases condition with
  | none => rfl
  | some e => simp [printCondition, Expr.toList_print, Entry.renderEach]

theorem DatatypeDecl.toList_print (depth : Nat) (decl : DatatypeDecl) (span : Span) :
    (decl.print depth span).toList =
      (Entry.marked "datatype" (" " ++ decl.name.name) span (decl.fields.map Param.entry)).render depth := by
  have fields : ∀ fields : List Param,
      (String.join (fields.map fun field => indented (depth + 1) ["field ", field.describe])).toList =
        Entry.renderEach (depth + 1) (fields.map Param.entry) := by
    intro fields
    induction fields with
    | nil => rfl
    | cons field fields inductionHypothesis =>
      simp [String.join_cons, toList_indented, inductionHypothesis, Param.entry, Entry.renderEach, Entry.render]
  simp [DatatypeDecl.print, toList_indented, fields, Entry.marked, Entry.render]

mutual

theorem Statement.toList_print (depth : Nat) : ∀ {s : Statement}, s.HoldsCalls →
    (s.print depth).toList = s.entry.render depth
  | .function ⟨name, params, returns, body⟩ span, calls => by
    simp [Statement.print, toList_indented, Block.toList_printBody (depth + 1) (show body.HoldsCalls from calls),
      Statement.entry, Entry.marked, Entry.render, Statement.word, Statement.detail, FunctionDecl.header,
      Statement.under, Statement.shown, Statement.span]
  | .datatype decl span, _ => decl.toList_print depth span
  | .declaration chained decl span, _ => by
    cases chained <;>
    simp [Statement.print, toList_indented, Expr.toList_print, Statement.entry, Entry.marked, Entry.render,
      Entry.renderEach, Statement.word, Statement.detail, Statement.under, Statement.shown, Statement.span,
      Param.describe]
  | .reassignment target value span, _ => by
    simp [Statement.print, toList_indented, Expr.toList_print, Statement.entry, Entry.marked, Entry.render,
      Entry.renderEach, Statement.word, Statement.detail, Statement.under, Statement.shown, Statement.span]
  | .conditional branches otherwise span, ⟨calls, callsLast⟩ => by
    simp [Statement.print, toList_indented, toList_printBranches (depth + 1) calls,
      toList_printOtherwise (depth + 1) callsLast, Entry.renderEach_append, Statement.entry, Entry.marked,
      Entry.render, Statement.word, Statement.detail, Statement.under, Statement.shown, Statement.span]
  | .loop condition body span, calls => by
    simp [Statement.print, toList_indented, toList_printCondition,
      Block.toList_print (depth + 1) (show body.HoldsCalls from calls), Entry.renderEach_append, Entry.renderEach,
      Statement.entry, Block.entry, Entry.marked, Entry.render, Statement.word, Statement.detail, Statement.under,
      Statement.shown, Statement.span]
  | .block body span, calls => Block.toList_print depth (show body.HoldsCalls from calls)
  | .result values span, _ => by
    simp [Statement.print, toList_indented, toList_printExprs, Statement.entry, Entry.marked, Entry.render,
      Statement.word, Statement.detail, Statement.under, Statement.shown, Statement.span]
  | .call call span, isCall => by
    have same : (Statement.call call span).entry = call.entry := by
      rw [Expr.entry, Expr.word_of_isCall isCall]
      rfl
    rw [same]
    exact call.toList_print depth
  | .control kind span, _ => by
    simp [Statement.print, toList_indented, Statement.entry, Entry.marked, Entry.render, Entry.renderEach,
      Statement.word, Statement.detail, Statement.under, Statement.shown, Statement.span]

theorem toList_printStatements (depth : Nat) : ∀ {statements : List Statement},
    Statement.EachHoldsCalls statements →
      (printStatements depth statements).toList = Entry.renderEach depth (Statement.entries statements)
  | [], _ => rfl
  | s :: rest, ⟨calls, others⟩ => by
    rw [printStatements, String.toList_append, Statement.toList_print depth calls,
      toList_printStatements depth others]
    rfl

theorem Block.toList_printBody (depth : Nat) : ∀ {body : Block}, body.HoldsCalls →
    (body.printBody depth).toList = Entry.renderEach depth body.entries
  | ⟨_, _⟩, calls => toList_printStatements depth calls

theorem Block.toList_print (depth : Nat) : ∀ {body : Block}, body.HoldsCalls →
    (body.print depth).toList = body.entry.render depth
  | ⟨statements, span⟩, calls => by
    simp [Block.print, toList_indented,
      toList_printStatements (depth + 1) (show Statement.EachHoldsCalls statements from calls), Block.entry,
      Block.entries, Entry.marked, Entry.render]

theorem toList_printBranches (depth : Nat) : ∀ {branches : List Branch}, Branch.EachHoldsCalls branches →
    (printBranches depth branches).toList = Entry.renderEach depth (Branch.entries branches)
  | [], _ => rfl
  | ⟨condition, body⟩ :: rest, ⟨calls, others⟩ => by
    simp [printBranches, toList_indented, Expr.toList_print, Block.toList_print (depth + 1) calls,
      toList_printBranches depth others, Branch.entries, Block.entry, Entry.render, Entry.renderEach]

theorem toList_printOtherwise (depth : Nat) : ∀ {otherwise : Option Block},
    Block.OptionHoldsCalls otherwise →
      (printOtherwise depth otherwise).toList = Entry.renderEach depth (Block.optionEntries otherwise)
  | none, _ => rfl
  | some body, calls => by
    simp [printOtherwise, toList_indented, Block.toList_print (depth + 1) (show body.HoldsCalls from calls),
      Block.optionEntries, Block.entry, Entry.render, Entry.renderEach]

end

/-! ## Lines -/

theorem Param.isItem {param : Param} (named : param.Named IsName) : IsItem param.describe where
  nonempty := by simp [Param.toList_describe]
  noComma := Param.notMem_describe named (by decide) (by decide)
  noClose := Param.notMem_describe named (by decide) (by decide)

theorem TypeName.isItem {type : TypeName} (plain : type.Plain IsName) : IsItem type.describe where
  nonempty := TypeName.describe_ne_nil plain
  noComma := TypeName.notMem_describe plain (by decide) (by decide)
  noClose := TypeName.notMem_describe plain (by decide) (by decide)

theorem noBreak_separated {lead : String} (noBreakLead : '\n' ∉ lead.toList) {items : List String}
    (noBreak : ∀ item ∈ items, '\n' ∉ item.toList) : '\n' ∉ (separated lead ", " items).toList := by
  cases items with
  | nil => simp [separated]
  | cons first others =>
    rw [List.forall_mem_cons] at noBreak
    simp only [toList_separated_cons, further, List.mem_append, List.mem_flatMap, List.mem_cons, not_or, not_exists,
      not_and]
    exact ⟨noBreakLead, noBreak.1, fun item member => ⟨by decide, by decide, noBreak.2 item member⟩⟩

theorem FunctionDecl.toList_header (decl : FunctionDecl) :
    decl.header.toList = decl.name.name.toList ++ '(' ::
      ((separated "" ", " (decl.params.map Param.describe)).toList ++ ')' ::
        (separated " -> " ", " (decl.returns.map TypeName.describe)).toList) := by
  cases decl
  simp [FunctionDecl.header]

namespace Statement

theorem word_mem (s : Statement) : s.word ∈ keywords := by
  cases s with
  | declaration chained => cases chained <;> simp [word, keywords]
  | control kind => cases kind <;> simp [word, LoopControl.word, keywords]
  | _ => simp [word, keywords]

theorem isDetail_detail (s : Statement) : IsDetail s.detail := by
  cases s with
  | call called => exact called.isDetail_detail
  | declaration chained => cases chained <;> exact .inr ⟨_, by simp [detail]; rfl⟩
  | function | datatype | reassignment => exact .inr ⟨_, by simp [detail]; rfl⟩
  | _ => exact .inl (by simp [detail])

theorem noBreak_detail {s : Statement} (named : s.Named IsName) : '\n' ∉ s.detail.toList := by
  have separates : '\n' ∈ separators := by decide
  cases s with
  | function decl =>
    obtain ⟨name, params, returns, body⟩ := decl
    obtain ⟨isName, namedParams, plain, -⟩ := named
    have noBreakParams : '\n' ∉ (separated "" ", " (params.map Param.describe)).toList :=
      noBreak_separated (by decide)
        (List.forall_mem_map.mpr fun p member => Param.notMem_describe (namedParams p member) separates (by decide))
    have noBreakReturns : '\n' ∉ (separated " -> " ", " (returns.map TypeName.describe)).toList :=
      noBreak_separated (by decide)
        (List.forall_mem_map.mpr fun type member => TypeName.notMem_describe (plain type member) separates (by decide))
    simp [detail, FunctionDecl.toList_header, isName.notMem separates, noBreakParams, noBreakReturns]
  | datatype decl => simp [detail, named.1.notMem separates]
  | declaration chained decl =>
    have noBreakParam : '\n' ∉ (Param.mk decl.type decl.name).describe.toList :=
      Param.notMem_describe ⟨named.1, named.2.1⟩ separates (by decide)
    cases chained <;> simp [detail, noBreakParam]
  | reassignment target value => simp [detail, named.1.notMem separates]
  | call called => exact Expr.noBreak_detail named
  | _ => simp [detail]

end Statement

theorem Entry.isLine_branch : Entry.IsLine "branch".toList :=
  ⟨⟨'b', _, rfl, by decide⟩, by decide⟩

theorem Entry.isLine_else : Entry.IsLine "else".toList :=
  ⟨⟨'e', _, rfl, by decide⟩, by decide⟩

mutual

theorem Statement.linedEach_under : ∀ {s : Statement}, s.Named IsName → Entry.LinedEach s.under
  | .function ⟨_, _, _, _⟩ _, ⟨_, _, _, named⟩ => Block.linedEach_entries named
  | .datatype decl _, ⟨_, named⟩ => by
    refine Entry.linedEach_iff.mpr (List.forall_mem_map.mpr fun field member => ?_)
    exact ⟨isLine_field (Param.notMem_describe (named field member) (by decide) (by decide)), trivial⟩
  | .declaration _ _ _, ⟨_, _, named⟩ => ⟨Expr.lined_entry named, trivial⟩
  | .reassignment _ _ _, ⟨_, named⟩ => ⟨Expr.lined_entry named, trivial⟩
  | .conditional _ _ _, ⟨named, namedLast⟩ =>
    Entry.linedEach_append.mpr ⟨Branch.linedEach_entries named, Block.linedEach_optionEntries namedLast⟩
  | .loop condition body _, ⟨named, namedBody⟩ => by
    have lined : body.entry.Lined := .marked (by decide) (by decide) (Block.linedEach_entries namedBody)
    refine Entry.linedEach_append.mpr ⟨?_, lined, trivial⟩
    exact Entry.linedEach_iff.mpr (List.forall_mem_map.mpr fun e member =>
      Expr.lined_entry (named e (Option.mem_toList.mp member)))
  | .block _ _, named => Block.linedEach_entries named
  | .result _ _, named => Expr.linedEach_entries named
  | .call _ _, named => Expr.linedEach_under named
  | .control _ _, _ => trivial

theorem Statement.linedEach_entries : ∀ {statements : List Statement},
    Statement.EachNamed IsName statements → Entry.LinedEach (Statement.entries statements)
  | [], _ => trivial
  | s :: _, ⟨named, others⟩ =>
    ⟨.marked s.word_mem (Statement.noBreak_detail named) (Statement.linedEach_under named),
      Statement.linedEach_entries others⟩

theorem Block.linedEach_entries : ∀ {body : Block}, body.Named IsName → Entry.LinedEach body.entries
  | ⟨_, _⟩, named => Statement.linedEach_entries named

theorem Branch.linedEach_entries : ∀ {branches : List Branch}, Branch.EachNamed IsName branches →
    Entry.LinedEach (Branch.entries branches)
  | [], _ => trivial
  | ⟨_, body⟩ :: _, ⟨⟨named, namedBody⟩, others⟩ =>
    have lined : body.entry.Lined := .marked (by decide) (by decide) (Block.linedEach_entries namedBody)
    ⟨⟨Entry.isLine_branch, Expr.lined_entry named, lined, trivial⟩, Branch.linedEach_entries others⟩

theorem Block.linedEach_optionEntries : ∀ {otherwise : Option Block}, Block.OptionNamed IsName otherwise →
    Entry.LinedEach (Block.optionEntries otherwise)
  | none, _ => trivial
  | some body, named =>
    have lined : body.entry.Lined := .marked (by decide) (by decide) (Block.linedEach_entries named)
    ⟨⟨Entry.isLine_else, lined, trivial⟩, trivial⟩

end

end FrontEnd
