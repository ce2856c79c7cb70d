import FrontEnd.Proofs.Parsing.ReadsExpression

/-!
# Statements and programs are read

Whatever spells a statement, a block or a program is read back, regions aside. A conditional is the one
statement whose end depends on what follows it: no further branch may stand there. The chains of
declarations, the branches of a conditional and the statements of a block are loops, and each round of
them takes at least one terminal.
-/

namespace FrontEnd.Parser

open Terminal

variable {α β : Type}

/-- Whether the current token does not continue a conditional before it. -/
def State.EndsBranches (s : State) : Prop :=
  s.kind ≠ .kwElseIf ∧ s.kind ≠ .kwElse

/-! ## Declarations of variables -/

theorem reads_assignment {name : Ident} {e : Expr} {ts : List Terminal} (spelled : Expr.Spelled e ts)
    {s t : State} (passes : s.Passes (name.terminal :: assign :: ts) t)
    (ends : t.kind = .comma ∨ t.kind = .dot) :
    Reads assignment s t fun found => found.1.bare = name.bare ∧ found.2.bare = e.bare := by
  obtain ⟨u, takesName, v, takesAssign, passesValue⟩ := passes
  refine (reads_ident takesName).bind fun found sameName => ?_
  refine (reads_consumeAssign takesAssign).bind fun _ _ => ?_
  refine (reads_value spelled passesValue ends).bind fun e sameValue => ?_
  exact reads_pure ⟨Ident.bare_of_name sameName, sameValue⟩

/-- Whether an attempt is complete and made these statements. -/
def Made (statements : List Statement) (a : Attempt) : Prop :=
  a.complete = true ∧ Statement.recastEach .blank a.made = Statement.recastEach .blank statements

theorem reads_single {p : Parser Statement} {statement : Statement} {s t : State}
    (reads : Reads p s t fun found => found.bare = statement.bare) :
    Reads (single p) s t (Made [statement]) := by
  refine reads.attempt.bind ?_
  rintro _ ⟨found, rfl, same⟩
  exact reads_pure ⟨rfl, congrArg (· :: []) same⟩

theorem chain_head_terminal {others : List Statement} {ts : List Terminal}
    (chained : Statement.ChainSpelled others ts) {s t : State}
    (passes : s.Passes (ts ++ [sign .dot]) t) : s.kind = .comma ∨ s.kind = .dot := by
  cases chained with
  | nil => exact .inr (State.passes_singleton_iff.mp passes).kind
  | cons =>
    obtain ⟨u, takes, -⟩ := passes
    exact .inl takes.kind

theorem reads_chainUpTo {others : List Statement} {ts : List Terminal}
    (chained : Statement.ChainSpelled others ts) {top : Bool} {type before : TypeName}
    (grammatical : Statement.EachGrammatical top (some before) others)
    (sameType : type.bare = before.bare) {n : Nat} (fuel : ts.length < n) {s t : State}
    (passes : s.Passes (ts ++ [sign .dot]) t) : Reads (chainUpTo type n) s t (Made others) := by
  -- The type of a declaration is that of the one before it, and so that of the first, which the
  -- parser hands on.
  induction chained generalizing before n s with
  | nil =>
    obtain ⟨n, rfl⟩ := Nat.exists_eq_add_one.mpr fuel
    have takes := State.passes_singleton_iff.mp passes
    apply reads_leave_bind (fun comma => by simp [takes.kind] at comma)
    refine (reads_consume takes rfl).attempt.bind ?_
    rintro _ ⟨_, rfl, -⟩
    exact reads_pure ⟨rfl, rfl⟩
  | @cons decl span rest part terminals value tail inductionHypothesis =>
    obtain ⟨n, rfl⟩ := Nat.exists_eq_add_one.mpr (Nat.zero_lt_of_lt fuel)
    simp only [List.cons_append, List.append_assoc] at passes
    obtain ⟨u, takesComma, v, takesName, w, takesAssign, passes⟩ := passes
    obtain ⟨x, passesValue, passesRest⟩ := State.passes_append_iff.mp passes
    have passesAssignment : u.Passes (decl.name.terminal :: assign :: part) x :=
      .cons takesName (.cons takesAssign passesValue)
    obtain ⟨follows, -, grammaticalTail⟩ := grammatical
    have sameDecl : type.bare = decl.type.bare :=
      sameType.trans (Option.some.inj follows)
    apply reads_take_bind takesComma rfl
    have readsFirst : Reads (chainedDeclaration type) _ _ fun found =>
        found.bare = (Statement.declaration true decl span).bare :=
      (reads_assignment value passesAssignment (chain_head_terminal tail passesRest)).bind
        fun found same => by
          have decls := congr (congrArg₂ VariableDecl.mk sameDecl same.1) same.2
          exact reads_pure (congrArg (Statement.declaration true · default) decls)
    refine readsFirst.attempt.bind ?_
    · rintro _ ⟨found, rfl, same⟩
      refine (inductionHypothesis grammaticalTail sameDecl ?_ passesRest).bind ?_
      · simp only [List.length_cons, List.length_append] at fuel
        omega
      · exact fun a made => reads_pure ⟨made.1, congrArg₂ List.cons same made.2⟩

theorem reads_variableDecls {decl : VariableDecl} {span : Span} {others : List Statement}
    {first second : List Terminal} (value : Expr.Spelled decl.value first)
    (chained : Statement.ChainSpelled others second) {top : Bool}
    (grammatical : Statement.EachGrammatical top (some decl.type) others) {s t : State}
    (passes : s.Passes (decl.type.terminals ++ decl.name.terminal :: assign ::
      (first ++ (second ++ [sign .dot]))) t) :
    Reads variableDecls s t (Made (.declaration false decl span :: others)) := by
  obtain ⟨u, passesType, v, takesName, w, takesAssign, passes⟩ := State.passes_append_iff.mp passes
  obtain ⟨x, passesValue, passesRest⟩ := State.passes_append_iff.mp passes
  have passesAssignment : u.Passes (decl.name.terminal :: assign :: first) x :=
    .cons takesName (.cons takesAssign passesValue)
  have readsFirst : Reads firstDeclaration s x fun found => found.1.bare = decl.type.bare ∧
      found.2.bare = (Statement.declaration false decl span).bare := by
    refine (reads_typeName passesType).bind fun type sameType => ?_
    refine (reads_assignment value passesAssignment (chain_head_terminal chained passesRest)).bind
      fun found same => reads_pure ⟨sameType, ?_⟩
    have decls := congr (congrArg₂ VariableDecl.mk sameType same.1) same.2
    exact congrArg (Statement.declaration false · default) decls
  refine readsFirst.attempt.bind ?_
  rintro _ ⟨⟨type, statement⟩, rfl, sameType, same⟩
  apply reads_left_bind
  refine (reads_chainUpTo chained grammatical sameType ?_ passesRest).bind ?_
  · rw [passesRest.length, List.length_append]
    omega
  · exact fun a made => reads_pure ⟨made.1, congrArg₂ List.cons same made.2⟩

/-! ## Statements without blocks -/

theorem reads_datatypeDecl {name : Ident} {fields : List Param} {span : Span} {inner : List Terminal}
    (listed : Separated (fields.map Param.terminals) inner) {s t : State}
    (passes : s.Passes (sign .kwDatatype :: name.terminal :: sign .lBrace ::
      (inner ++ [sign .rBrace])) t) :
    Reads datatypeDecl s t fun found => found.bare = (Statement.datatype ⟨name, fields⟩ span).bare := by
  obtain ⟨u, takesWord, v, takesName, w, takesOpen, passesFields⟩ := passes
  refine (reads_consume takesWord rfl).bind fun _ _ => ?_
  refine (reads_ident takesName).bind fun found sameName => ?_
  refine (reads_consume takesOpen rfl).bind fun _ _ => ?_
  refine reads_bracketed_bind (by simp) listed (itemsRead_param (by decide) fields) passesFields
    fun params _ same => ?_
  exact reads_pure (congrArg (Statement.datatype · default)
    (congrArg₂ DatatypeDecl.mk (Ident.bare_of_name sameName) same))

theorem reads_reassignment {target : Ident} {e : Expr} {span : Span} {ts : List Terminal}
    (spelled : Expr.Spelled e ts) {s t : State}
    (passes : s.Passes (target.terminal :: assign :: (ts ++ [sign .dot])) t) :
    Reads reassignment s t fun found => found.bare = (Statement.reassignment target e span).bare := by
  obtain ⟨u, takesName, v, takesAssign, passes⟩ := passes
  obtain ⟨w, passesValue, passesDot⟩ := State.passes_append_iff.mp passes
  have takesDot := State.passes_singleton_iff.mp passesDot
  refine (reads_assignment spelled (.cons takesName (.cons takesAssign passesValue))
    (.inr takesDot.kind)).bind fun found same => ?_
  refine (reads_consume takesDot rfl).bind fun _ _ => ?_
  exact reads_pure (congrArg₂ (Statement.reassignment · · default) same.1 same.2)

theorem reads_callStatement {call : Expr} {span : Span} {ts : List Terminal}
    (spelled : Expr.Spelled call ts) {s t : State} (passes : s.Passes (ts ++ [sign .dot]) t) :
    Reads callStatement s t fun found => found.bare = (Statement.call call span).bare := by
  obtain ⟨u, passesCall, passesDot⟩ := State.passes_append_iff.mp passes
  have takesDot := State.passes_singleton_iff.mp passesDot
  refine (reads_expression spelled (fun _ => rfl) passesCall
    (State.endsName_of_kind takesDot.kind (by simp))).bind fun found same => ?_
  refine (reads_consume takesDot rfl).bind fun _ _ => ?_
  exact reads_pure (congrArg (Statement.call · default) same)

theorem reads_control {kind : LoopControl} {span : Span} {s t : State}
    (passes : s.Passes [kind.terminal, sign .dot] t) :
    Reads control s t fun found => found.bare = (Statement.control kind span).bare := by
  obtain ⟨u, takesWord, passesDot⟩ := passes
  have takesDot := State.passes_singleton_iff.mp passesDot
  refine (reads_consumeAny takesWord (by cases kind <;> simp [LoopControl.terminal])).bind
    fun keyword same => ?_
  refine (reads_consume takesDot rfl).bind fun _ _ => reads_pure ?_
  have sameKind : keyword.kind = kind.terminal.kind := congrArg Terminal.kind same
  cases kind <;> simp [LoopControl.terminal] at sameKind <;> simp [Statement.recast, Span.blank, sameKind]

theorem valuesRead {values : List Expr} {parts : List (List Terminal)}
    (each : Expr.EachSpelled values parts) :
    List.Forall₂ (fun e part => ∀ s t : State, s.Passes part t →
      t.kind = .comma ∨ t.kind = .dot → Reads value s t fun found => found.bare = e.bare)
      values parts := by
  induction values generalizing parts with
  | nil => cases each; exact .nil
  | cons e es inductionHypothesis =>
    cases each with
    | cons head tail =>
      exact .cons (fun s t passes ends => reads_value head passes ends) (inductionHypothesis tail)

theorem reads_results {values : List Expr} {parts : List (List Terminal)}
    (each : Expr.EachSpelled values parts) {s t : State} (passes : s.Passes (commaList parts) t)
    (atDot : t.kind = .dot) :
    Reads results s t fun found => found.map Expr.bare = values.map Expr.bare := by
  apply reads_peek_bind
  cases each with
  | nil =>
    cases passes
    rw [if_pos (show s.current.kind = .dot from atDot)]
    exact reads_pure rfl
  | @cons e es part parts head tail =>
    obtain ⟨first, rest, rfl, starts⟩ := spelled_expr_starts head
    -- an expression does not start with the full stop
    have notDot : s.current.kind ≠ .dot := by
      obtain ⟨others, same⟩ := commaList_starts first rest parts
      rw [same] at passes
      obtain ⟨u, takes, -⟩ := passes
      intro dot
      rw [← takes.kind, show s.kind = .dot from dot] at starts
      simp [expressionKinds] at starts
    rw [if_neg notDot]
    apply reads_left_bind
    refine reads_separatedUpTo (· = .dot) (by simp) (valuesRead (.cons head tail)) ?_ passes atDot
    have enough := length_le_commaList (first :: rest) parts
    rw [passes.length]
    omega

theorem reads_result {values : List Expr} {span : Span} {parts : List (List Terminal)}
    (each : Expr.EachSpelled values parts) {s t : State}
    (passes : s.Passes (sign .kwReturn :: (commaList parts ++ [sign .dot])) t) :
    Reads result s t fun found => found.bare = (Statement.result values span).bare := by
  obtain ⟨u, takesWord, passes⟩ := passes
  obtain ⟨v, passesValues, passesDot⟩ := State.passes_append_iff.mp passes
  have takesDot := State.passes_singleton_iff.mp passesDot
  refine (reads_consume takesWord rfl).bind fun _ _ => ?_
  refine (reads_results each passesValues takesDot.kind).bind fun found same => ?_
  refine (reads_consume takesDot rfl).bind fun _ _ => ?_
  rw [← Expr.recastEach_eq_map, ← Expr.recastEach_eq_map] at same
  exact reads_pure (congrArg (Statement.result · default) same)

/-! ## Statements with blocks -/

/-- Whether blocks spelled by at most `n` terminals are read by `body`. -/
def ReadsBlocks (body : Parser Block) (n : Nat) : Prop :=
  ∀ {b : Block} {ts : List Terminal}, Block.Spelled b ts → b.Grammatical → ts.length ≤ n →
    ∀ {s t : State}, s.Passes ts t → Reads body s t fun found => found.bare = b.bare

theorem kind_mem_of_spelled_block {b : Block} {ts : List Terminal} (spelled : Block.Spelled b ts)
    {s t : State} (passes : s.Passes ts t) : s.kind ∈ blockKinds := by
  obtain ⟨first, rest, rfl, starts⟩ := spelled_block_starts spelled
  obtain ⟨u, takes, -⟩ := passes
  rwa [takes.kind]

theorem endsName_of_mem_blockKinds {s : State} (h : s.kind ∈ blockKinds) : s.EndsName false := by
  simp only [blockKinds, List.mem_cons, List.not_mem_nil, or_false] at h
  rcases h with h | h <;> simp [State.EndsName, h]

section

variable {body : Parser Block} {n : Nat}

theorem reads_returnTypes {returns : List TypeName} {s t : State}
    (passes : s.Passes (returnTerminals returns) t) (ends : t.kind ∈ blockKinds) :
    Reads returnTypes s t fun found => found.map TypeName.bare = returns.map TypeName.bare := by
  cases returns with
  | nil =>
    cases passes
    refine reads_leave_bind (fun arrow : s.kind = .arrow => ?_) (reads_pure rfl)
    rw [arrow] at ends
    simp [blockKinds] at ends
  | cons type types =>
    obtain ⟨u, takesArrow, passesTypes⟩ := passes
    have enough := length_le_commaList type.terminals (types.map TypeName.terminals)
    apply reads_take_bind takesArrow rfl
    apply reads_left_bind
    refine reads_separatedUpTo (· ∈ blockKinds) (by simp [blockKinds]) ?_ ?_ passesTypes ends
    · rw [← List.map_cons, List.forall₂_map_right_iff, List.forall₂_same]
      exact fun type _ s t passes _ => reads_typeName passes
    · rw [passesTypes.length]
      simp only [List.map_cons] at enough ⊢
      omega

theorem reads_functionDecl (readsBlocks : ReadsBlocks body n) {name : Ident} {params : List Param}
    {returns : List TypeName} {b : Block} {span : Span} {inner ts : List Terminal}
    (listed : Separated (params.map Param.terminals) inner) (inside : Block.Spelled b ts)
    (grammatical : b.Grammatical) (small : ts.length ≤ n) {s t : State}
    (passes : s.Passes (sign .kwFun :: name.terminal :: sign .lParen ::
      (inner ++ sign .rParen :: (returnTerminals returns ++ ts))) t) :
    Reads (functionDecl body) s t fun found =>
      found.bare = (Statement.function ⟨name, params, returns, b⟩ span).bare := by
  obtain ⟨u, takesWord, v, takesName, w, takesOpen, passes⟩ := passes
  rw [← List.singleton_append, ← List.append_assoc inner] at passes
  obtain ⟨x, passesParams, passes⟩ := State.passes_append_iff.mp passes
  obtain ⟨y, passesReturns, passesBody⟩ := State.passes_append_iff.mp passes
  refine (reads_consume takesWord rfl).bind fun _ _ => ?_
  refine (reads_ident takesName).bind fun found sameName => ?_
  refine (reads_consume takesOpen rfl).bind fun _ _ => ?_
  refine reads_bracketed_bind (by simp) listed (itemsRead_param (by decide) params) passesParams
    fun _ _ sameParams => ?_
  refine (reads_returnTypes passesReturns (kind_mem_of_spelled_block inside passesBody)).bind
    fun _ sameReturns => ?_
  refine (readsBlocks inside grammatical small passesBody).bind fun _ sameBody => ?_
  have sameDecl := congr (congr (congrArg₂ FunctionDecl.mk (Ident.bare_of_name sameName) sameParams) sameReturns) sameBody
  exact reads_pure (congrArg (Statement.function · default) sameDecl)

theorem reads_branch (readsBlocks : ReadsBlocks body n) {e : Expr} {b : Block}
    {first second : List Terminal} (spelled : Expr.Spelled e first) (isCondition : e.IsCondition)
    (inside : Block.Spelled b second) (grammatical : b.Grammatical) (small : second.length ≤ n)
    {s t : State} (passes : s.Passes (first ++ second) t) :
    Reads (branch body) s t fun found => found.condition.bare = e.bare ∧ found.body.bare = b.bare := by
  obtain ⟨u, passesCondition, passesBody⟩ := State.passes_append_iff.mp passes
  refine (reads_condition spelled isCondition.2 passesCondition
    (endsName_of_mem_blockKinds (kind_mem_of_spelled_block inside passesBody))).bind fun _ same => ?_
  refine (readsBlocks inside grammatical small passesBody).bind fun _ sameBody => ?_
  exact reads_pure ⟨same, sameBody⟩

theorem reads_branchesUpTo (readsBlocks : ReadsBlocks body n) {branches : List Branch}
    {ts : List Terminal} (each : Branch.EachSpelled branches ts)
    (grammatical : Branch.EachGrammatical branches) (small : ts.length ≤ n) {m : Nat}
    (fuel : ts.length ≤ m) {s t : State} (passes : s.Passes ts t) (ends : t.kind ≠ .kwElseIf) :
    Reads (branchesUpTo body m) s t fun found =>
      Branch.recastEach .blank found = Branch.recastEach .blank branches := by
  induction branches generalizing ts m s with
  | nil =>
    -- what stands behind the last branch is no further one
    cases each
    cases passes
    cases m with
    | zero => exact reads_pure rfl
    | succ m => exact reads_leave_bind ends (reads_pure rfl)
  | cons head rest inductionHypothesis =>
    cases each with
    | @cons condition b _ first second third spelled inside tail =>
      obtain ⟨isCondition, grammaticalBody, grammaticalRest⟩ := grammatical
      obtain ⟨m, rfl⟩ := Nat.exists_eq_add_one.mpr (Nat.zero_lt_of_lt fuel)
      simp only [List.length_cons, List.length_append] at small fuel
      rw [← List.append_assoc] at passes
      obtain ⟨u, takesWord, passes⟩ := passes
      obtain ⟨v, passesFirst, passesRest⟩ := State.passes_append_iff.mp passes
      apply reads_take_bind takesWord rfl
      refine (reads_branch readsBlocks spelled isCondition inside grammaticalBody (by omega)
        passesFirst).bind fun found same => ?_
      refine (inductionHypothesis tail grammaticalRest (by omega) (by omega) passesRest).bind
        fun others sameOthers => ?_
      have sameBranch := congrArg₂ Branch.mk same.1 same.2
      exact reads_pure ((Branch.recastEach_cons ..).trans (congrArg₂ List.cons sameBranch sameOthers))

theorem reads_alternative (readsBlocks : ReadsBlocks body n) {otherwise : Option Block}
    {ts : List Terminal} (spelled : Block.OptionSpelled otherwise ts)
    (grammatical : Block.OptionGrammatical otherwise) (small : ts.length ≤ n) {s t : State}
    (passes : s.Passes ts t) (ends : t.EndsBranches) :
    Reads (alternative body) s t fun found =>
      Block.recastOption .blank found = Block.recastOption .blank otherwise := by
  cases spelled with
  | none =>
    cases passes
    exact reads_leave_bind ends.2 (reads_pure rfl)
  | some inside =>
    obtain ⟨u, takesWord, passesBody⟩ := passes
    rw [List.length_cons] at small
    apply reads_take_bind takesWord rfl
    refine (readsBlocks inside grammatical (by omega) passesBody).bind fun _ same => ?_
    exact reads_pure (congrArg some same)

theorem kind_ne_kwElseIf_of_optionSpelled {otherwise : Option Block} {ts : List Terminal}
    (spelled : Block.OptionSpelled otherwise ts) {s t : State} (passes : s.Passes ts t)
    (ends : t.EndsBranches) : s.kind ≠ .kwElseIf := by
  cases spelled with
  | none => cases passes; exact ends.1
  | some =>
    obtain ⟨u, takesWord, -⟩ := passes
    simp [takesWord.kind]

theorem reads_conditional (readsBlocks : ReadsBlocks body n) {e : Expr} {b : Block}
    {branches : List Branch} {otherwise : Option Block} {span : Span}
    {first second third fourth : List Terminal} (spelled : Expr.Spelled e first)
    (inside : Block.Spelled b second) (others : Branch.EachSpelled branches third)
    (last : Block.OptionSpelled otherwise fourth)
    (grammatical : Branch.EachGrammatical (⟨e, b⟩ :: branches))
    (grammaticalLast : Block.OptionGrammatical otherwise)
    (small : (first ++ (second ++ (third ++ fourth))).length ≤ n) {s t : State}
    (passes : s.Passes (sign .kwIf :: (first ++ (second ++ (third ++ fourth)))) t)
    (ends : t.EndsBranches) :
    Reads (conditional body) s t fun found =>
      found.bare = (Statement.conditional (⟨e, b⟩ :: branches) otherwise span).bare := by
  obtain ⟨isCondition, grammaticalBody, grammaticalRest⟩ := grammatical
  simp only [List.length_append] at small
  rw [← List.append_assoc first] at passes
  obtain ⟨u, takesWord, passes⟩ := passes
  obtain ⟨v, passesFirst, passes⟩ := State.passes_append_iff.mp passes
  obtain ⟨w, passesOthers, passesLast⟩ := State.passes_append_iff.mp passes
  refine (reads_consume takesWord rfl).bind fun _ _ => ?_
  refine (reads_branch readsBlocks spelled isCondition inside grammaticalBody (by omega)
    passesFirst).bind fun _ same => ?_
  apply reads_left_bind
  -- the branches are read up to the alternative, or to what ends all branches
  refine (reads_branchesUpTo readsBlocks others grammaticalRest (by omega)
    (by rw [passesOthers.length]; omega) passesOthers
    (kind_ne_kwElseIf_of_optionSpelled last passesLast ends)).bind fun _ sameOthers => ?_
  refine (reads_alternative readsBlocks last grammaticalLast (by omega) passesLast ends).bind
    fun _ sameLast => ?_
  have sameBranch := congrArg₂ Branch.mk same.1 same.2
  have sameBranches := (Branch.recastEach_cons ..).trans (congrArg₂ List.cons sameBranch sameOthers)
  exact reads_pure (congrArg₂ (Statement.conditional · · default) sameBranches sameLast)

theorem reads_loop (readsBlocks : ReadsBlocks body n) {condition : Option Expr} {b : Block}
    {span : Span} {first second : List Terminal} (spelled : Expr.OptionSpelled condition first)
    (inside : Block.Spelled b second) (isCondition : ∀ e ∈ condition, e.IsCondition)
    (grammatical : b.Grammatical) (small : second.length ≤ n) {s t : State}
    (passes : s.Passes (sign .kwLoop :: (first ++ second)) t) :
    Reads (loop body) s t fun found => found.bare = (Statement.loop condition b span).bare := by
  obtain ⟨u, takesWord, passes⟩ := passes
  obtain ⟨v, passesCondition, passesBody⟩ := State.passes_append_iff.mp passes
  have opens := kind_mem_of_spelled_block inside passesBody
  have readsCondition : Reads loopCondition u v fun found =>
      found.map Expr.bare = condition.map Expr.bare := by
    apply reads_peek_bind
    -- without a condition, the body of the loop follows at once
    cases spelled with
    | none =>
      cases passesCondition
      rw [if_pos (show u.current.kind ∈ blockKinds from opens)]
      exact reads_pure rfl
    | some spelled =>
      have notBlock : u.current.kind ∉ blockKinds := by
        obtain ⟨head, rest, rfl, starts⟩ := spelled_expr_starts spelled
        obtain ⟨w, takes, -⟩ := passesCondition
        rw [show u.current.kind = head.kind from takes.kind]
        revert starts
        cases head.kind <;> simp [expressionKinds, blockKinds]
      rw [if_neg notBlock]
      refine (reads_condition spelled (isCondition _ rfl).2 passesCondition
        (endsName_of_mem_blockKinds opens)).bind fun _ same => ?_
      exact reads_pure (by simp [same])
  refine (reads_consume takesWord rfl).bind fun _ _ => ?_
  refine readsCondition.bind fun _ same => ?_
  refine (readsBlocks inside grammatical small passesBody).bind fun _ sameBody => ?_
  exact reads_pure (congrArg₂ (Statement.loop · · default) same sameBody)

end

/-! ## All statements -/

theorem second_of_passes {s t : State} {first second : Terminal} {rest : List Terminal}
    (passes : s.Passes (first :: second :: rest) t) : s.second.terminal = second := by
  obtain ⟨u, takes, v, takesSecond, -⟩ := passes
  rw [takes.second, takesSecond.current]

theorem reads_ofName {body : Parser Block} {top : Bool} {s t : State} {good : Attempt → Prop}
    (kind : s.kind = .identifier) (reads : Reads namedStatement s t good) :
    Reads (statementBody body top) s t good := by
  apply reads_peek_bind
  rw [show s.current.kind = .identifier from kind]
  exact reads

/-- A declaration whose type is a name starts with two names, and any other with a token that only a type
starts with. -/
theorem reads_declarations {body : Parser Block} {decl : VariableDecl} {span : Span}
    {others : List Statement} {first second : List Terminal} (value : Expr.Spelled decl.value first)
    (chained : Statement.ChainSpelled others second) {top : Bool}
    (grammatical : Statement.EachGrammatical top (some decl.type) others) {s t : State}
    (passes : s.Passes (decl.type.terminals ++ decl.name.terminal :: assign ::
      (first ++ (second ++ [sign .dot]))) t) :
    Reads (statementBody body top) s t (Made (.declaration false decl span :: others)) := by
  have reads : Reads variableDecls s t (Made (.declaration false decl span :: others)) :=
    reads_variableDecls value chained grammatical passes
  obtain ⟨⟨scalar, isList, typeSpan⟩, name, e⟩ := decl
  cases isList with
  | true =>
    apply reads_peek_bind
    obtain ⟨u, takes, -⟩ := passes
    rw [show s.current.kind = .kwListOf from takes.kind]
    exact reads
  | false =>
    have firstKind : s.current.kind = scalar.terminal.kind := by
      obtain ⟨u, takes, -⟩ := passes
      exact takes.kind
    cases scalar with
    | datatype type =>
      apply reads_ofName firstKind
      refine reads_looking_bind (x := s.second) rfl ?_
      rw [show s.second.kind = .identifier from congrArg Terminal.kind (second_of_passes passes)]
      exact reads
    | int | string | bool =>
      apply reads_peek_bind
      rw [firstKind]
      exact reads

theorem reads_reassigning {body : Parser Block} {top : Bool} {target : Ident} {e : Expr} {span : Span}
    {ts : List Terminal} (spelled : Expr.Spelled e ts) {s t : State}
    (passes : s.Passes (target.terminal :: assign :: (ts ++ [sign .dot])) t) :
    Reads (statementBody body top) s t (Made [.reassignment target e span]) := by
  have second : s.second.terminal = assign := second_of_passes passes
  apply reads_ofName passes.kind
  refine reads_looking_bind (x := s.second) rfl ?_
  rw [show s.second.kind = .operator from congrArg Terminal.kind second]
  simp only [show s.second.literal = "=" from congrArg Terminal.literal second, and_self, if_true]
  exact reads_single (reads_reassignment spelled passes)

/-- Behind the name of a function stands a parenthesis or a double colon. -/
theorem reads_calling {body : Parser Block} {top : Bool} {call : Expr} {span : Span}
    {ts : List Terminal} (spelled : Expr.Spelled call ts) (isCall : call.isCall = true) {s t : State}
    (passes : s.Passes (ts ++ [sign .dot]) t) :
    Reads (statementBody body top) s t (Made [.call call span]) := by
  have reads : Reads (single callStatement) s t (Made [.call call span]) :=
    reads_single (reads_callStatement spelled passes)
  obtain ⟨first, second, rest, rfl, kind, opens⟩ := spelled_call_starts spelled isCall
  have secondKind : s.second.kind = second.kind :=
    congrArg Terminal.kind (second_of_passes passes)
  apply reads_ofName (passes.kind.trans kind)
  refine reads_looking_bind (x := s.second) rfl ?_
  cases opens with
  | inl paren =>
    rw [secondKind.trans paren]
    exact reads
  | inr colons =>
    rw [secondKind.trans colons]
    exact reads

theorem reads_blockStatement {body : Parser Block} {top : Bool} {n : Nat}
    (readsBlocks : ReadsBlocks body n) {b : Block} {span : Span} {ts : List Terminal}
    (inside : Block.Spelled b ts) (grammatical : b.Grammatical) (small : ts.length ≤ n) {s t : State}
    (passes : s.Passes ts t) : Reads (statementBody body top) s t (Made [.block b span]) := by
  have reads : Reads (blockStatement body) s t fun found =>
      found.bare = (Statement.block b span).bare :=
    (readsBlocks inside grammatical small passes).bind fun _ same =>
      reads_pure (congrArg (Statement.block · default) same)
  have opens := kind_mem_of_spelled_block inside passes
  simp only [blockKinds, List.mem_cons, List.not_mem_nil, or_false] at opens
  apply reads_peek_bind
  cases opens with
  | inl brace =>
    rw [show s.current.kind = .lBrace from brace]
    exact reads_single reads
  | inr word =>
    rw [show s.current.kind = .kwBlock from word]
    exact reads_single reads

/-- Whether statements spelled by at most `n` terminals are read by `statement`. -/
def ReadsStatements (statement : Parser Attempt) (top : Bool) (n : Nat) : Prop :=
  ∀ {made : List Statement} {ts : List Terminal} {type : Option TypeName},
    Statement.Spelled made ts → Statement.EachGrammatical top type made → ts.length ≤ n →
      ∀ {s t : State}, s.Passes ts t → t.EndsBranches → Reads statement s t (Made made)

theorem reads_statementBody {body : Parser Block} {top : Bool} {n : Nat}
    (readsBlocks : ReadsBlocks body n) : ReadsStatements (statementBody body top) top n := by
  intro made ts type spelled grammatical small s t passes ends
  cases spelled with
  | function listed inside =>
    obtain ⟨-, ⟨rfl, -, -, -, grammaticalBody⟩, -⟩ := grammatical
    simp only [List.length_cons, List.length_append] at small
    apply reads_peek_bind
    rw [show s.current.kind = .kwFun from passes.kind]
    exact reads_single (reads_functionDecl readsBlocks listed inside grammaticalBody (by omega) passes)
  | datatype listed =>
    obtain ⟨-, ⟨rfl, -⟩, -⟩ := grammatical
    apply reads_peek_bind
    rw [show s.current.kind = .kwDatatype from passes.kind]
    exact reads_single (reads_datatypeDecl listed passes)
  | declarations value chained =>
    exact reads_declarations value chained grammatical.2.2 passes
  | reassignment spelled => exact reads_reassigning spelled passes
  | conditional spelled inside others last =>
    obtain ⟨-, ⟨-, grammaticalBranches, grammaticalLast⟩, -⟩ := grammatical
    rw [List.length_cons] at small
    apply reads_peek_bind
    rw [show s.current.kind = .kwIf from passes.kind]
    exact reads_single (reads_conditional readsBlocks spelled inside others last grammaticalBranches
      grammaticalLast (by omega) passes ends)
  | loop spelled inside =>
    obtain ⟨-, ⟨isCondition, grammaticalBody⟩, -⟩ := grammatical
    simp only [List.length_cons, List.length_append] at small
    apply reads_peek_bind
    rw [show s.current.kind = .kwLoop from passes.kind]
    exact reads_single (reads_loop readsBlocks spelled inside isCondition grammaticalBody (by omega)
      passes)
  | block inside => exact reads_blockStatement readsBlocks inside grammatical.2.1 small passes
  | result each =>
    apply reads_peek_bind
    rw [show s.current.kind = .kwReturn from passes.kind]
    exact reads_single (reads_result each passes)
  | call spelled => exact reads_calling spelled grammatical.2.1.2 passes
  | @control kind =>
    apply reads_peek_bind
    cases kind with
    | exit =>
      rw [show s.current.kind = .kwBreak from passes.kind]
      exact reads_single (reads_control passes)
    | next =>
      rw [show s.current.kind = .kwContinue from passes.kind]
      exact reads_single (reads_control passes)

/-! ## Sequences and programs -/

/-- Behind a statement stands the end or another statement, and so no branch. -/
theorem endsBranches_of_eachSpelled {statements : List Statement} {ts : List Terminal}
    (each : Statement.EachSpelled statements ts) {top : Bool} {type : Option TypeName}
    (grammatical : Statement.EachGrammatical top type statements) {s t : State}
    (passes : s.Passes ts t) (ends : t.EndsBranches) : s.EndsBranches := by
  cases each with
  | nil =>
    cases passes
    exact ends
  | cons head tail =>
    obtain ⟨opening, others, rfl, starts⟩ :=
      spelled_statement_starts head (Statement.eachGrammatical_append grammatical).1
    have kind : s.kind = opening.kind := passes.kind
    constructor <;> rw [kind] <;> intro same <;> simp [same, statementKinds] at starts

theorem reads_sequenceUpTo {ends stops : List TokenKind} (apart : ∀ kind ∈ statementKinds, kind ∉ ends)
    {statement : Parser Attempt} {top : Bool} {n : Nat} (reads : ReadsStatements statement top n)
    {statements : List Statement} {ts : List Terminal}
    (each : Statement.EachSpelled statements ts) {type : Option TypeName}
    (grammatical : Statement.EachGrammatical top type statements) (small : ts.length ≤ n) {m : Nat}
    (fuel : ts.length ≤ m) {s t : State} (passes : s.Passes ts t) (atEnd : t.isAtEnd ends = true)
    (endsBranches : t.EndsBranches) :
    Reads (sequenceUpTo ends stops statement m) s t fun found =>
      Statement.recastEach .blank found = Statement.recastEach .blank statements := by
  -- by induction on the rounds, each of which reads a statement and so takes a token
  induction m generalizing statements ts type s with
  | zero =>
    cases each with
    | nil =>
      cases passes
      exact reads_pure rfl
    | cons head tail =>
      -- no round without a token: every statement is spelled by at least one
      obtain ⟨first, rest, rfl, -⟩ :=
        spelled_statement_starts head (Statement.eachGrammatical_append grammatical).1
      simp at fuel
  | succ m inductionHypothesis =>
    cases each with
    | nil =>
      cases passes
      apply reads_atEnd_bind
      rw [atEnd]
      exact reads_pure rfl
    | @cons made rest first second head tail =>
      obtain ⟨grammaticalHead, before, grammaticalTail⟩ :=
        Statement.eachGrammatical_append grammatical
      obtain ⟨u, passesHead, passesTail⟩ := State.passes_append_iff.mp passes
      obtain ⟨opening, others, rfl, starts⟩ := spelled_statement_starts head grammaticalHead
      simp only [List.length_append, List.length_cons] at small fuel
      have endsHead : u.EndsBranches :=
        endsBranches_of_eachSpelled tail grammaticalTail passesTail endsBranches
      apply reads_atEnd_bind
      rw [not_isAtEnd_of_passes passesHead (apart _ starts)]
      refine (reads head grammaticalHead (by simp only [List.length_cons]; omega) passesHead
        endsHead).bind fun tried isMade => ?_
      simp only [isMade.1, if_true]
      have reported : Reads (pure true : Parser Bool) u u fun _ => True := reads_pure trivial
      refine reported.bind fun _ _ => ?_
      refine (inductionHypothesis tail grammaticalTail (by omega) (by omega) passesTail).bind
        fun found same => ?_
      exact reads_pure (by simp [Statement.recastEach_append, isMade.2, same])

theorem reads_sequence {ends stops : List TokenKind} (apart : ∀ kind ∈ statementKinds, kind ∉ ends)
    {statement : Parser Attempt} {top : Bool} {n : Nat} (reads : ReadsStatements statement top n)
    {statements : List Statement} {ts : List Terminal}
    (each : Statement.EachSpelled statements ts) {type : Option TypeName}
    (grammatical : Statement.EachGrammatical top type statements) (small : ts.length ≤ n)
    {s t : State} (passes : s.Passes ts t) (atEnd : t.isAtEnd ends = true)
    (endsBranches : t.EndsBranches) :
    Reads (sequence ends stops statement) s t fun found =>
      Statement.recastEach .blank found = Statement.recastEach .blank statements := by
  apply reads_left_bind
  exact reads_sequenceUpTo apart reads each grammatical small (by rw [passes.length]; omega) passes
    atEnd endsBranches

/-- A block between the two tokens of either style. -/
theorem reads_blockBetween {statement : Parser Attempt} {n : Nat}
    (reads : ReadsStatements statement false n) {opening : TokenKind} (opens : opening ∈ blockKinds)
    {statements : List Statement} {inner : List Terminal}
    (each : Statement.EachSpelled statements inner)
    (grammatical : Statement.EachGrammatical false none statements) (small : inner.length ≤ n)
    {s t : State} (passes : s.Passes (sign opening :: (inner ++ [sign (closing opening)])) t) :
    Reads (block statement) s t fun found =>
      found.bare = (Block.mk statements default).bare := by
  -- the token that closes the block neither starts a statement nor continues one
  have apart : ∀ opening ∈ blockKinds, ∀ kind ∈ statementKinds, kind ∉ [closing opening] := by decide
  have closes : ∀ opening ∈ blockKinds, closing opening ≠ .eof ∧ closing opening ≠ .kwElseIf ∧
      closing opening ≠ .kwElse := by decide
  obtain ⟨notEof, notBranch⟩ := closes opening opens
  obtain ⟨u, takesOpen, passes⟩ := passes
  obtain ⟨v, passesInner, passesClose⟩ := State.passes_append_iff.mp passes
  have takesClose := State.passes_singleton_iff.mp passesClose
  have kind : v.kind = closing opening := takesClose.kind
  refine (reads_consumeAny takesOpen opens).bind fun token same => ?_
  rw [show token.kind = opening from congrArg Terminal.kind same]
  refine (reads_sequence (apart opening opens) reads each grammatical small passesInner
    (by simp [State.isAtEnd, kind]) (by rwa [State.EndsBranches, kind])).bind fun _ same => ?_
  apply reads_peek_bind
  rw [if_neg (show v.current.kind ≠ .eof from fun eof => notEof (kind.symm.trans eof))]
  refine (reads_consume takesClose rfl).bind fun _ _ => ?_
  exact reads_pure (congrArg (Block.mk · default) same)

theorem reads_block {statement : Parser Attempt} {n : Nat}
    (reads : ReadsStatements statement false n) : ReadsBlocks (block statement) (n + 1) := by
  intro b ts spelled grammatical small s t passes
  cases spelled with
  | braces each =>
    simp only [List.length_cons, List.length_append] at small
    have opens : TokenKind.lBrace ∈ blockKinds := by decide
    exact reads_blockBetween reads opens each grammatical (by omega) passes
  | words each =>
    simp only [List.length_cons, List.length_append] at small
    have opens : TokenKind.kwBlock ∈ blockKinds := by decide
    exact reads_blockBetween reads opens each grammatical (by omega) passes

theorem reads_statementUpTo (n : Nat) (top : Bool) : ReadsStatements (statementUpTo n top) top n := by
  induction n generalizing top with
  | zero =>
    intro made ts type spelled grammatical small s t passes ends
    -- no statement is spelled by no terminals
    obtain ⟨first, rest, rfl, -⟩ := spelled_statement_starts spelled grammatical
    simp at small
  | succ n inductionHypothesis => exact reads_statementBody (reads_block (inductionHypothesis false))

theorem reads_statement {made : List Statement} {ts : List Terminal}
    (spelled : Statement.Spelled made ts) {type : Option TypeName}
    (grammatical : Statement.EachGrammatical true type made) {s t : State} (passes : s.Passes ts t)
    (ends : t.EndsBranches) : Reads statement s t (Made made) := by
  apply reads_left_bind
  exact reads_statementUpTo _ true spelled grammatical (by rw [passes.length]; omega) passes ends

theorem reads_program {p : Program} {ts : List Terminal} (each : Statement.EachSpelled p ts)
    (grammatical : p.Grammatical) {s t : State} (passes : s.Passes ts t) (atEof : t.kind = .eof) :
    Reads program s t fun found => found.bare = p.bare := by
  have reads : ReadsStatements statement true ts.length :=
    fun spelled grammatical _ _ _ passes ends => reads_statement spelled grammatical passes ends
  refine (reads_sequence (by simp) reads each grammatical (Nat.le_refl _) passes
    (by simp [State.isAtEnd, atEof]) (by simp [State.EndsBranches, atEof])).imp fun found same => ?_
  rwa [Statement.recastEach_eq_map, Statement.recastEach_eq_map] at same

end FrontEnd.Parser
