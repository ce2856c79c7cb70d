import FrontEnd.Proofs.Listing.Statements
import FrontEnd.Proofs.Reading
import FrontEnd.Proofs.Relayout

/-!
# Reading programs back

An entry is told apart by its word, and what is under it is cut up in the order in which it was put together. So
statements with proper names that hold calls where they have to are read back from their entries, but for the regions
(`Statement.bare_of_entries`). A program that was parsed from a text is of that kind, whatever errors it has, and its
lines are read back as entries: what is printed of it determines it (`Program.bare_of_print`).
-/

namespace FrontEnd

/-! ## Reading back -/

namespace Statement

/-- The forms of statements, by the word. -/
def forms : List (String × Nat) :=
  [("fun", 0), ("datatype", 1), ("chained", 2), ("var", 2), ("reassign", 3), ("if", 4), ("loop", 5), ("block", 6),
   ("return", 7), ("call", 8), ("break", 9), ("continue", 9)]

theorem lookup_word (s : Statement) : forms.lookup s.word = some s.ctorIdx := by
  cases s with
  | declaration chained => cases chained <;> rfl
  | control kind => cases kind <;> rfl
  | _ => rfl

/-- The parts of a statement are read back from its entry, and what form it has. -/
theorem parts_of_entry {s other : Statement} (same : s.entry = other.entry) :
    s.ctorIdx = other.ctorIdx ∧ s.word = other.word ∧ s.detail = other.detail ∧ s.under = other.under := by
  obtain ⟨word, detail, under⟩ :=
    Entry.marked_inj s.word_mem other.word_mem s.isDetail_detail other.isDetail_detail same
  refine ⟨?_, word, detail, under⟩
  rw [← Option.some_inj, ← lookup_word, ← lookup_word, word]

end Statement

/-- What is told by one view of things is told by another. -/
theorem map_eq_of_map {α β γ : Type} {f : α → β} {g : α → γ} : ∀ {xs ys : List α},
    (∀ x ∈ xs, ∀ y ∈ ys, f x = f y → g x = g y) → xs.map f = ys.map f → xs.map g = ys.map g
  | [], [], _, _ => rfl
  | [], _ :: _, _, same | _ :: _, [], _, same => by simp at same
  | x :: xs, y :: ys, tells, same => by
    obtain ⟨first, rest⟩ := List.cons.inj same
    have others := map_eq_of_map (fun x member y memberAgain =>
      tells x (List.mem_cons_of_mem _ member) y (List.mem_cons_of_mem _ memberAgain)) rest
    rw [List.map_cons, List.map_cons, tells x List.mem_cons_self y List.mem_cons_self first, others]

theorem Param.map_bare_of_describe {params others : List Param} (named : ∀ p ∈ params, p.Named IsName)
    (namedAgain : ∀ p ∈ others, p.Named IsName) (same : params.map Param.describe = others.map Param.describe) :
    params.map Param.bare = others.map Param.bare :=
  map_eq_of_map (fun p member q memberAgain =>
    Param.bare_of_describe (named p member) (namedAgain q memberAgain)) same

/-- The header of a function is read back: its parameters stand between the first parentheses. -/
theorem FunctionDecl.parts_of_header {decl other : FunctionDecl} (isName : IsName decl.name.name)
    (isNameAgain : IsName other.name.name) (params : ∀ p ∈ decl.params, p.Named IsName)
    (paramsAgain : ∀ p ∈ other.params, p.Named IsName) (returns : ∀ type ∈ decl.returns, type.Plain IsName)
    (returnsAgain : ∀ type ∈ other.returns, type.Plain IsName) (same : decl.header = other.header) :
    decl.name.bare = other.name.bare ∧ decl.params.map Param.bare = other.params.map Param.bare ∧
      decl.returns.map TypeName.bare = other.returns.map TypeName.bare := by
  have texts := congrArg String.toList same
  rw [toList_header, toList_header] at texts
  have isOpen : '(' ∈ separators := by decide
  have itemsOf : ∀ {params : List Param}, (∀ p ∈ params, p.Named IsName) →
      ∀ item ∈ params.map Param.describe, IsItem item :=
    fun named => List.forall_mem_map.mpr fun p member => Param.isItem (named p member)
  have typesOf : ∀ {types : List TypeName}, (∀ type ∈ types, type.Plain IsName) →
      ∀ item ∈ types.map TypeName.describe, IsItem item :=
    fun plain => List.forall_mem_map.mpr fun type member => TypeName.isItem (plain type member)
  obtain ⟨names, rest⟩ := cut_first (isName.notMem isOpen) (isNameAgain.notMem isOpen) texts
  obtain ⟨sameParams, results⟩ := cut_separated (by decide) (itemsOf params) (itemsOf paramsAgain) rest
  have closed := congrArg (· ++ [')']) results
  have noClose : ')' ∉ " -> ".toList := by decide
  obtain ⟨sameReturns, -⟩ := cut_separated noClose (typesOf returns) (typesOf returnsAgain) closed
  refine ⟨Ident.bare_of_name (String.toList_inj.mp names),
    Param.map_bare_of_describe params paramsAgain sameParams, ?_⟩
  exact map_eq_of_map (fun type member other memberAgain =>
    TypeName.bare_of_describe (returns type member) (returnsAgain other memberAgain)) sameReturns

theorem VariableDecl.bare_of_parts {decl other : VariableDecl} (named : decl.Named IsName)
    (namedAgain : other.Named IsName)
    (same : (Param.mk decl.type decl.name).describe = (Param.mk other.type other.name).describe)
    (values : decl.value.entry = other.value.entry) : decl.bare = other.bare := by
  have params := Param.bare_of_describe ⟨named.1, named.2.1⟩ ⟨namedAgain.1, namedAgain.2.1⟩ same
  obtain ⟨types, names⟩ := Param.mk.inj params
  have decls := congr (congrArg₂ VariableDecl.mk types names) (Expr.bare_of_entry named.2.2 namedAgain.2.2 values)
  exact decls

theorem Param.map_bare_of_entry {fields others : List Param} (named : ∀ p ∈ fields, p.Named IsName)
    (namedAgain : ∀ p ∈ others, p.Named IsName) (same : fields.map Param.entry = others.map Param.entry) :
    fields.map Param.bare = others.map Param.bare := by
  refine map_eq_of_map (fun p member q memberAgain entries => ?_) same
  have texts := String.toList_inj.mp (Entry.mk.inj entries).1
  exact Param.bare_of_describe (named p member) (namedAgain q memberAgain) ((String.append_right_inj _).mp texts)

theorem Expr.bare_of_conditionEntries {condition other : Option Expr} (named : ∀ e ∈ condition, e.Named IsName)
    (namedAgain : ∀ e ∈ other, e.Named IsName)
    (same : condition.toList.map Expr.entry = other.toList.map Expr.entry) :
    condition.map Expr.bare = other.map Expr.bare := by
  cases condition with
  | none =>
    cases other with
    | none => rfl
    | some => cases same
  | some e =>
    cases other with
    | none => cases same
    | some f =>
      rw [Option.map_some, Option.map_some,
        Expr.bare_of_entry (named e rfl) (namedAgain f rfl) (List.cons.inj same).1]

theorem Branch.text_of_entries {branches : List Branch} {e : Entry} (member : e ∈ Branch.entries branches) :
    ∃ below, e = ⟨"branch".toList, below⟩ := by
  induction branches with
  | nil => cases member
  | cons branch rest inductionHypothesis =>
    cases branch
    obtain rfl | others := List.mem_cons.mp member
    · exact ⟨_, rfl⟩
    · exact inductionHypothesis others

/-- The branches are told from the alternative by their word. -/
theorem Branch.cut_entries {branches others : List Branch} {otherwise last : Option Block}
    (same : Branch.entries branches ++ Block.optionEntries otherwise =
      Branch.entries others ++ Block.optionEntries last) :
    Branch.entries branches = Branch.entries others ∧ Block.optionEntries otherwise = Block.optionEntries last := by
  have apart : ∀ {branches others : List Branch} {body : Block},
      Branch.entries branches ++ Block.optionEntries (some body) ≠ Branch.entries others := by
    intro branches others body same
    have member : _ ∈ Branch.entries branches ++ Block.optionEntries (some body) :=
      List.mem_append_right _ List.mem_cons_self
    rw [same] at member
    obtain ⟨below, texts⟩ := Branch.text_of_entries member
    exact absurd (Entry.mk.inj texts).1 (by decide)
  cases otherwise with
  | none =>
    cases last with
    | none => exact ⟨by simpa [Block.optionEntries] using same, rfl⟩
    | some body => exact absurd same.symm (by simpa [Block.optionEntries] using apart)
  | some body =>
    cases last with
    | none => exact absurd same (by simpa [Block.optionEntries] using apart)
    | some other =>
      have asMany : (Block.optionEntries (some body)).length = (Block.optionEntries (some other)).length := by
        rw [Block.optionEntries, Block.optionEntries, List.length_singleton, List.length_singleton]
      exact List.append_inj' same asMany

theorem Statement.entry_call {called : Expr} {span : Span} (isCall : called.isCall = true) :
    (Statement.call called span).entry = called.entry := by
  rw [Expr.entry, Expr.word_of_isCall isCall]
  rfl

mutual

/-- A statement with proper names that holds calls where it has to is read back from its entry. -/
theorem Statement.bare_of_entry : ∀ {s other : Statement}, s.Named IsName → other.Named IsName →
    s.HoldsCalls → other.HoldsCalls → s.entry = other.entry → s.bare = other.bare
  | .function ⟨name, params, returns, body⟩ _, other, named, namedAgain, calls, callsAgain, same => by
    obtain ⟨form, -, detail, under⟩ := Statement.parts_of_entry same
    cases other with
    | function declAgain =>
      obtain ⟨nameAgain, paramsAgain, returnsAgain, bodyAgain⟩ := declAgain
      obtain ⟨isName, namedParams, plain, namedBody⟩ := named
      obtain ⟨isNameAgain, namedParamsAgain, plainAgain, namedBodyAgain⟩ := namedAgain
      obtain ⟨names, allParams, allReturns⟩ := FunctionDecl.parts_of_header isName isNameAgain namedParams
        namedParamsAgain plain plainAgain ((String.append_right_inj _).mp detail)
      have decls := congr (congr (congrArg₂ FunctionDecl.mk names allParams) allReturns)
        (Block.bare_of_entries namedBody namedBodyAgain calls callsAgain under)
      exact congrArg (Statement.function · default) decls
    | _ => cases form
  | .datatype decl _, other, named, namedAgain, _, _, same => by
    obtain ⟨form, -, detail, under⟩ := Statement.parts_of_entry same
    cases other with
    | datatype declAgain =>
      have fields := Param.map_bare_of_entry named.2 namedAgain.2 under
      have decls := congrArg₂ DatatypeDecl.mk (Ident.bare_of_name ((String.append_right_inj _).mp detail)) fields
      exact congrArg (Statement.datatype · default) decls
    | _ => cases form
  | .declaration chained decl _, other, named, namedAgain, _, _, same => by
    obtain ⟨form, word, detail, under⟩ := Statement.parts_of_entry same
    cases other with
    | declaration chainedAgain declAgain =>
      obtain rfl : chained = chainedAgain := by
        cases chained <;> cases chainedAgain <;> first | rfl | exact absurd word (by simp [Statement.word])
      have params := (String.append_right_inj _).mp detail
      exact congrArg (Statement.declaration chained · default)
        (VariableDecl.bare_of_parts named namedAgain params (List.cons.inj under).1)
    | _ => cases form
  | .reassignment target value _, other, named, namedAgain, _, _, same => by
    obtain ⟨form, -, detail, under⟩ := Statement.parts_of_entry same
    cases other with
    | reassignment targetAgain valueAgain =>
      exact congrArg₂ (Statement.reassignment · · default)
        (Ident.bare_of_name ((String.append_right_inj _).mp detail))
        (Expr.bare_of_entry named.2 namedAgain.2 (List.cons.inj under).1)
    | _ => cases form
  | .conditional branches otherwise _, other, named, namedAgain, calls, callsAgain, same => by
    obtain ⟨form, -, -, under⟩ := Statement.parts_of_entry same
    cases other with
    | conditional branchesAgain otherwiseAgain =>
      obtain ⟨all, last⟩ := Branch.cut_entries under
      exact congrArg₂ (Statement.conditional · · default)
        (Branch.bare_of_entries named.1 namedAgain.1 calls.1 callsAgain.1 all)
        (Block.bare_of_optionEntries named.2 namedAgain.2 calls.2 callsAgain.2 last)
    | _ => cases form
  | .loop condition body _, other, named, namedAgain, calls, callsAgain, same => by
    obtain ⟨form, -, -, under⟩ := Statement.parts_of_entry same
    cases other with
    | loop conditionAgain bodyAgain =>
      obtain ⟨conditions, bodies⟩ := List.append_inj' under (by rw [List.length_singleton, List.length_singleton])
      exact congrArg₂ (Statement.loop · · default) (Expr.bare_of_conditionEntries named.1 namedAgain.1 conditions)
        (Block.bare_of_entries named.2 namedAgain.2 calls callsAgain (Entry.mk.inj (List.cons.inj bodies).1).2)
    | _ => cases form
  | .block body _, other, named, namedAgain, calls, callsAgain, same => by
    obtain ⟨form, -, -, under⟩ := Statement.parts_of_entry same
    cases other with
    | block bodyAgain =>
      exact congrArg (Statement.block · default) (Block.bare_of_entries named namedAgain calls callsAgain under)
    | _ => cases form
  | .result values _, other, named, namedAgain, _, _, same => by
    obtain ⟨form, -, -, under⟩ := Statement.parts_of_entry same
    cases other with
    | result valuesAgain =>
      exact congrArg (Statement.result · default) (Expr.bare_of_entries named namedAgain under)
    | _ => cases form
  | .call called _, other, named, namedAgain, isCall, callsAgain, same => by
    obtain ⟨form, -⟩ := Statement.parts_of_entry same
    cases other with
    | call calledAgain =>
      rw [Statement.entry_call isCall, Statement.entry_call callsAgain] at same
      exact congrArg (Statement.call · default) (Expr.bare_of_entry named namedAgain same)
    | _ => cases form
  | .control kind _, other, _, _, _, _, same => by
    obtain ⟨form, word, -⟩ := Statement.parts_of_entry same
    cases other with
    | control kindAgain =>
      obtain rfl : kind = kindAgain := by
        cases kind <;> cases kindAgain <;> first | rfl | exact absurd word (by simp [Statement.word, LoopControl.word])
      rfl
    | _ => cases form
termination_by structural s => s

theorem Statement.bare_of_entries : ∀ {statements others : List Statement},
    Statement.EachNamed IsName statements → Statement.EachNamed IsName others →
      Statement.EachHoldsCalls statements → Statement.EachHoldsCalls others →
        Statement.entries statements = Statement.entries others →
          Statement.recastEach .blank statements = Statement.recastEach .blank others
  | [], [], _, _, _, _, _ => rfl
  | [], _ :: _, _, _, _, _, same | _ :: _, [], _, _, _, _, same => by simp [Statement.entries] at same
  | s :: rest, other :: others, named, namedAgain, calls, callsAgain, same => by
    obtain ⟨first, tails⟩ := List.cons.inj same
    exact congrArg₂ List.cons (Statement.bare_of_entry named.1 namedAgain.1 calls.1 callsAgain.1 first)
      (Statement.bare_of_entries named.2 namedAgain.2 calls.2 callsAgain.2 tails)
termination_by structural statements => statements

theorem Block.bare_of_entries : ∀ {body other : Block}, body.Named IsName → other.Named IsName →
    body.HoldsCalls → other.HoldsCalls → body.entries = other.entries → body.bare = other.bare
  | ⟨statements, _⟩, ⟨statementsAgain, _⟩, named, namedAgain, calls, callsAgain, same => by
    exact congrArg (Block.mk · default) (Statement.bare_of_entries named namedAgain calls callsAgain same)
termination_by structural body => body

theorem Branch.bare_of_entries : ∀ {branches others : List Branch}, Branch.EachNamed IsName branches →
    Branch.EachNamed IsName others → Branch.EachHoldsCalls branches → Branch.EachHoldsCalls others →
      Branch.entries branches = Branch.entries others →
        Branch.recastEach .blank branches = Branch.recastEach .blank others
  | [], [], _, _, _, _, _ => rfl
  | [], ⟨_, _⟩ :: _, _, _, _, _, same | ⟨_, _⟩ :: _, [], _, _, _, _, same => by simp [Branch.entries] at same
  | ⟨condition, body⟩ :: rest, ⟨conditionAgain, bodyAgain⟩ :: others, named, namedAgain, calls, callsAgain, same => by
    obtain ⟨first, tails⟩ := List.cons.inj same
    obtain ⟨conditions, bodies⟩ := List.cons.inj (Entry.mk.inj first).2
    have sameBody := Block.bare_of_entries named.1.2 namedAgain.1.2 calls.1 callsAgain.1
      (Entry.mk.inj (List.cons.inj bodies).1).2
    exact congrArg₂ List.cons
      (congrArg₂ Branch.mk (Expr.bare_of_entry named.1.1 namedAgain.1.1 conditions) sameBody)
      (Branch.bare_of_entries named.2 namedAgain.2 calls.2 callsAgain.2 tails)
termination_by structural branches => branches

theorem Block.bare_of_optionEntries : ∀ {otherwise last : Option Block}, Block.OptionNamed IsName otherwise →
    Block.OptionNamed IsName last → Block.OptionHoldsCalls otherwise → Block.OptionHoldsCalls last →
      Block.optionEntries otherwise = Block.optionEntries last →
        Block.recastOption .blank otherwise = Block.recastOption .blank last
  | none, none, _, _, _, _, _ => rfl
  | none, some _, _, _, _, _, same | some _, none, _, _, _, _, same => by simp [Block.optionEntries] at same
  | some body, some other, named, namedAgain, calls, callsAgain, same => by
    have bodies := (List.cons.inj (Entry.mk.inj (List.cons.inj same).1).2).1
    exact congrArg some (Block.bare_of_entries named namedAgain calls callsAgain (Entry.mk.inj bodies).2)
termination_by structural otherwise => otherwise

end

/-! ## Programs -/

namespace Program

variable {style styleAgain : Lexer.CommentStyle} {source sourceAgain : String}
  {tokens tokensAgain : Outcome Lexer.Error (List Token)} {p q : Outcome Parser.Error Program}

/-- What was parsed from a text has proper names and holds calls where it has to, with errors or without. -/
theorem named_of_parse (lexed : Lexer.tokenize style source = .ok tokens)
    (parsed : parse tokens.value = .ok p) :
    Statement.EachNamed IsName p.value ∧ Statement.EachHoldsCalls p.value := by
  have nonempty := Lexer.tokens_ne_nil lexed
  obtain ⟨made, t, ran, parsedAgain⟩ := Parser.parse_eq (List.getLast?_eq_some_getLast nonempty)
  obtain rfl := Except.ok.inj (parsed.symm.trans parsedAgain)
  exact ⟨Parser.eachNamed_of_run (Lexer.lexed_of_tokenize lexed).worded ran, Parser.holdsCalls_of_run ran⟩

/-- What is printed of the program of a text determines it, but for the regions: whatever text has a program of which
the same is printed, its program is the same. -/
theorem bare_of_print (lexed : Lexer.tokenize style source = .ok tokens) (parsed : parse tokens.value = .ok p)
    (lexedAgain : Lexer.tokenize styleAgain sourceAgain = .ok tokensAgain)
    (parsedAgain : parse tokensAgain.value = .ok q) (same : p.value.print = q.value.print) :
    p.value.bare = q.value.bare := by
  obtain ⟨named, calls⟩ := named_of_parse lexed parsed
  obtain ⟨namedAgain, callsAgain⟩ := named_of_parse lexedAgain parsedAgain
  have lines := congrArg (String.toList · ++ []) same
  simp only [print, toList_printStatements _ calls, toList_printStatements _ callsAgain] at lines
  obtain ⟨entries, -⟩ := Entry.eq_of_renderEach (Statement.linedEach_entries named)
    (Statement.linedEach_entries namedAgain) (.inl rfl) (.inl rfl) lines
  have each := Statement.bare_of_entries named namedAgain calls callsAgain entries
  rwa [Statement.recastEach_eq_map, Statement.recastEach_eq_map] at each

/-- The arguments of a call, on a line of their own that starts at the byte `start`, and a dot too many. -/
def splitCallTokens (start : Nat) : List Token :=
  [⟨.lParen, "(", ⟨start, 1, 2, 0⟩⟩, ⟨.string, "\n", ⟨start + 1, 3, 2, 1⟩⟩, ⟨.rParen, ")", ⟨start + 4, 1, 3, 1⟩⟩,
   ⟨.dot, ".", ⟨start + 5, 1, 3, 2⟩⟩, ⟨.dot, ".", ⟨start + 6, 1, 3, 3⟩⟩, ⟨.eof, "", ⟨start + 7, 0, 3, 4⟩⟩]

/-- The program of such a call. -/
def splitCall (start : Nat) : Program :=
  [.call (.call ⟨"f", ⟨0, 1, 1, 0⟩⟩ [.string "\n" ⟨start + 1, 3, 2, 1⟩] ⟨0, start + 5, 1, 0⟩) ⟨0, start + 6, 1, 0⟩]

/-- With a remark behind the name, the regions are longer, but the same is printed. -/
theorem bare_of_print_splitCall :
    ∃ tokens tokensAgain p q, Lexer.tokenize .line "f\n(\"\n\").." = .ok tokens ∧ parse tokens.value = .ok p ∧
      Lexer.tokenize .markerRun "f #\n(\"\n\").." = .ok tokensAgain ∧ parse tokensAgain.value = .ok q ∧
      p = ⟨splitCall 2, [⟨.expectedStatement .dot, ⟨8, 1, 3, 3⟩⟩]⟩ ∧
      q = ⟨splitCall 4, [⟨.expectedStatement .dot, ⟨10, 1, 3, 3⟩⟩]⟩ ∧
      p.value.print = q.value.print ∧ p.value.bare = q.value.bare := by
  have lexed : Lexer.tokenize .line "f\n(\"\n\").." = .ok
      ⟨⟨.identifier, "f", ⟨0, 1, 1, 0⟩⟩ :: ⟨.whitespace, "\n", ⟨1, 1, 1, 1⟩⟩ :: splitCallTokens 2, []⟩ := by
    rw [Lexer.tokenize_of_nonempty _ (by decide)]
    repeat rw [Lexer.steps_of_cons rfl]
    rw [Lexer.steps_of_nil rfl]
    rfl
  have lexedAgain : Lexer.tokenize .markerRun "f #\n(\"\n\").." = .ok
      ⟨⟨.identifier, "f", ⟨0, 1, 1, 0⟩⟩ :: ⟨.whitespace, " ", ⟨1, 1, 1, 1⟩⟩ :: ⟨.comment, "#", ⟨2, 1, 1, 2⟩⟩ ::
        ⟨.whitespace, "\n", ⟨3, 1, 1, 3⟩⟩ :: splitCallTokens 4, []⟩ := by
    rw [Lexer.tokenize_of_nonempty _ (by decide)]
    repeat rw [Lexer.steps_of_cons rfl]
    rw [Lexer.steps_of_nil rfl]
    rfl
  have same : (splitCall 2).print = (splitCall 4).print := rfl
  exact ⟨_, _, _, _, lexed, rfl, lexedAgain, rfl, rfl, rfl, same, bare_of_print lexed rfl lexedAgain rfl same⟩

end Program

end FrontEnd
