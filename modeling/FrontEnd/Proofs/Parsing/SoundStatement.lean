import FrontEnd.Proofs.Parsing.SoundExpression
import FrontEnd.Proofs.Parsing.Starts

/-!
# Statements and programs are spelled by what was passed over

A statement that is skipped, dropped or left open has been reported. So a run that reports nothing keeps
every statement and passes over nothing else, and a program read in such a run ends at the end mark.
-/

namespace FrontEnd.Parser

open Terminal

variable {α β : Type}

/-- Whether an attempt is complete, and `ts` spell what it made wherever a statement may stand. -/
def SpellsMade (top : Bool) (tried : Attempt) (ts : List Terminal) : Prop :=
  tried.complete = true ∧ Statement.Spelled tried.made ts ∧
    ∀ type, Statement.EachGrammatical top type tried.made

/-- Whether `ts` spell a single statement. -/
def SpellsSingle (top : Bool) (statement : Statement) (ts : List Terminal) : Prop :=
  Statement.Spelled [statement] ts ∧ statement.Grammatical top ∧
    ∀ type, statement.Follows type

theorem sound_single {p : Parser Statement} {top : Bool} {s : State}
    (sound : Sound p (SpellsSingle top) s) : Sound (single p) (SpellsMade top) s := by
  refine sound.attempt_bind fun statement ts t spelled _ => ?_
  obtain ⟨spelled, grammatical, follows⟩ := spelled
  exact sound_pure ⟨rfl, by simpa using spelled, fun type => ⟨follows type, grammatical, trivial⟩⟩

/-! ## Declarations of variables -/

theorem sound_assignment {s : State} :
    Sound assignment (fun found ts => IsName found.1.name ∧ found.2.Grammatical ∧
      ∃ part, Expr.Spelled found.2 part ∧ ts = found.1.terminal :: assign :: part) s := by
  refine sound_ident.bind ?_
  rintro name _ t ⟨rfl, isName⟩ -
  refine sound_consumeAssign.bind ?_
  rintro _ _ u rfl -
  refine sound_value.bind ?_
  rintro e part v ⟨spelled, grammatical⟩ -
  exact sound_pure ⟨isName, grammatical, part, spelled, by simp⟩

theorem sound_chainUpTo {type : TypeName} (typeGrammatical : type.Grammatical) (top : Bool) {n : Nat}
    {s : State} (fuel : s.ahead.length < n) :
    Sound (chainUpTo type n) (fun tried ts => tried.complete = true ∧
      Statement.EachGrammatical top (some type) tried.made ∧
        ∃ chain, Statement.ChainSpelled tried.made chain ∧ ts = chain ++ [sign .dot]) s := by
  -- a chain may go on for as many rounds as there are tokens
  induction n generalizing s with
  | zero => omega
  | succ n inductionHypothesis =>
    refine sound_take_bind rfl (fun t takes => ?_) fun _ => ?_
    · have shorter := takes.length
      have soundLink : Sound (chainedDeclaration type) (fun statement ts =>
          ∃ decl span part, statement = .declaration true decl span ∧ decl.type = type ∧
            decl.Grammatical ∧ Expr.Spelled decl.value part ∧
              ts = decl.name.terminal :: assign :: part) t := by
        refine sound_assignment.bind ?_
        rintro ⟨name, value⟩ _ u ⟨isName, grammatical, part, spelled, rfl⟩ -
        exact sound_pure ⟨⟨type, name, value⟩, _, part, rfl, rfl,
          ⟨typeGrammatical, isName, grammatical⟩, spelled, by simp⟩
      refine soundLink.attempt_bind fun statement ts u spelled passes => ?_
      obtain ⟨decl, span, part, rfl, rfl, grammatical, spelled, rfl⟩ := spelled
      have length := passes.length
      refine (inductionHypothesis (by omega)).bind ?_
      rintro others _ v ⟨complete, each, chain, chained, rfl⟩ -
      refine sound_pure ⟨complete, ⟨rfl, grammatical, each⟩, _, .cons spelled chained, by simp⟩
    · refine (sound_consume rfl).attempt_bind fun _ _ t spelled _ => ?_
      subst spelled
      exact sound_pure ⟨rfl, trivial, [], .nil, rfl⟩

theorem sound_variableDecls {top : Bool} {s : State} :
    Sound variableDecls (SpellsMade top) s := by
  have soundFirst : Sound firstDeclaration (fun found ts => ∃ decl span part,
      found = (decl.type, .declaration false decl span) ∧ decl.Grammatical ∧
        Expr.Spelled decl.value part ∧
          ts = decl.type.terminals ++ decl.name.terminal :: assign :: part) s := by
    refine sound_typeName.bind ?_
    rintro type _ t ⟨rfl, typeGrammatical⟩ -
    refine sound_assignment.bind ?_
    rintro ⟨name, value⟩ _ u ⟨isName, grammatical, part, spelled, rfl⟩ -
    exact sound_pure ⟨⟨type, name, value⟩, _, part, rfl, ⟨typeGrammatical, isName, grammatical⟩,
      spelled, by simp⟩
  refine soundFirst.attempt_bind ?_
  rintro _ _ t ⟨decl, span, part, rfl, grammatical, spelled, rfl⟩ -
  apply sound_left_bind
  refine (sound_chainUpTo grammatical.1 top (Nat.lt_succ_self _)).bind ?_
  rintro others _ u ⟨complete, each, chain, chained, rfl⟩ -
  refine sound_pure ⟨complete, ?_, fun _ => ⟨trivial, grammatical, each⟩⟩
  simpa using Statement.Spelled.declarations spelled chained

/-! ## Statements without blocks -/

theorem sound_datatypeDecl {s : State} : Sound datatypeDecl (SpellsSingle true) s := by
  refine (sound_consume rfl).bind ?_
  rintro start _ t rfl -
  refine sound_ident.bind ?_
  rintro name _ u ⟨rfl, isName⟩ -
  refine (sound_consume rfl).bind ?_
  rintro _ _ v rfl -
  refine sound_bracketed_bind rfl (fun _ _ => sound_param) (Nat.lt_succ_self _) ?_
  intro fields last parts items w each listed _
  obtain ⟨rfl, grammatical⟩ := eq_map_of_forall₂ each
  refine sound_pure ⟨?_, ⟨rfl, isName, grammatical⟩, fun _ => trivial⟩
  simpa using Statement.Spelled.datatype listed

theorem sound_reassignment {top : Bool} {s : State} : Sound reassignment (SpellsSingle top) s := by
  refine sound_assignment.bind ?_
  rintro ⟨target, value⟩ _ t ⟨isName, grammatical, part, spelled, rfl⟩ -
  refine (sound_consume rfl).bind ?_
  rintro last _ u rfl -
  refine sound_pure ⟨?_, ⟨isName, grammatical⟩, fun _ => trivial⟩
  simpa using Statement.Spelled.reassignment spelled

theorem sound_control {top : Bool} {s : State} : Sound control (SpellsSingle top) s := by
  refine (sound_consumeAny (by decide)).bind ?_
  rintro keyword _ t ⟨rfl, kind, lexical⟩ -
  refine (sound_consume rfl).bind ?_
  rintro last _ u rfl -
  refine sound_pure ⟨?_, trivial, fun _ => trivial⟩
  simp only [List.mem_cons, List.not_mem_nil, or_false] at kind
  rcases kind with kind | kind
  · have same := eq_sign_of_lexical lexical (by simp [kind, TokenKind.spelling?])
    rw [same, Token.kind_terminal, kind, if_pos rfl]
    exact .control
  · have same := eq_sign_of_lexical lexical (by simp [kind, TokenKind.spelling?])
    rw [same, Token.kind_terminal, kind, if_neg (by decide)]
    exact .control

theorem sound_results {s : State} :
    Sound results (fun values ts => Expr.EachGrammatical values ∧
      ∃ parts, Expr.EachSpelled values parts ∧ ts = commaList parts) s := by
  apply sound_peek_bind
  split
  next => exact sound_pure ⟨trivial, [], .nil, rfl⟩
  next =>
    refine (sound_separated (fun _ _ => sound_value) (Nat.lt_succ_self _)).imp ?_
    rintro values _ ⟨-, parts, each, rfl⟩
    obtain ⟨eachSpelled, eachGrammatical⟩ := eachSpelled_of_forall₂ each
    exact ⟨eachGrammatical, parts, eachSpelled, rfl⟩

theorem sound_result {top : Bool} {s : State} : Sound result (SpellsSingle top) s := by
  refine (sound_consume rfl).bind ?_
  rintro start _ t rfl -
  refine sound_results.bind ?_
  rintro values _ u ⟨eachGrammatical, parts, eachSpelled, rfl⟩ -
  refine (sound_consume rfl).bind ?_
  rintro last _ v rfl -
  refine sound_pure ⟨?_, eachGrammatical, fun _ => trivial⟩
  simpa using Statement.Spelled.result eachSpelled

/-- An expression that starts as a call does and is followed by a full stop is one. -/
theorem isCall_of_passes {e : Expr} {ts : List Terminal} (spelled : Expr.Spelled e ts) {s t : State}
    (passes : s.Passes (ts ++ [sign .dot]) t) (first : s.kind = .identifier)
    (second : s.second.kind = .lParen ∨ s.second.kind = .doubleColon) : e.isCall = true := by
  cases spelled with
  | call | libraryCall => rfl
  | name =>
    -- with a single terminal, the full stop would be the second token
    obtain ⟨u, takes, v, takesDot, -⟩ := passes
    have dot : s.second.kind = .dot := by rw [takes.second]; exact takesDot.kind
    simp [dot] at second
  | record =>
    obtain ⟨u, takes, v, takesOpen, -⟩ := passes
    have opening : s.second.kind = .lBrace := by rw [takes.second]; exact takesOpen.kind
    simp [opening] at second
  | _ =>
    have kind := passes.kind
    rw [show s.current.kind = .identifier from first] at kind
    simp [ofBool, ofOperator] at kind

theorem sound_callStatement {top : Bool} {s : State} (first : s.kind = .identifier)
    (second : s.second.kind = .lParen ∨ s.second.kind = .doubleColon) :
    Sound callStatement (SpellsSingle top) s := by
  refine sound_expression.bind ?_
  rintro call part t ⟨spelled, grammatical, -⟩ passes
  refine (sound_consume rfl).bind ?_
  rintro last _ u rfl passesDot
  have isCall := isCall_of_passes spelled (passes.append passesDot) first second
  exact sound_pure ⟨by simpa using .call spelled, ⟨grammatical, isCall⟩, fun _ => trivial⟩

/-! ## Statements with blocks -/

/-- Whether `body` is sound before fewer than `n` tokens. -/
def SoundBlocks (body : Parser Block) (n : Nat) : Prop :=
  ∀ s : State, s.ahead.length < n →
    Sound body (fun b ts => Block.Spelled b ts ∧ b.Grammatical) s

theorem sound_returnTypes {s : State} :
    Sound returnTypes (fun returns ts => ts = returnTerminals returns ∧
      ∀ type ∈ returns, type.Grammatical) s := by
  refine sound_take_bind rfl (fun t _ => ?_) fun _ => sound_pure ⟨rfl, by simp⟩
  refine (sound_separated (fun _ _ => sound_typeName) (Nat.lt_succ_self _)).imp ?_
  rintro types _ ⟨nonempty, parts, each, rfl⟩
  obtain ⟨rfl, grammatical⟩ := eq_map_of_forall₂ each
  cases types with
  | nil => exact absurd rfl nonempty
  | cons type types => exact ⟨rfl, grammatical⟩

section

variable {body : Parser Block} {n : Nat}

theorem sound_functionDecl (soundBlocks : SoundBlocks body n) {s : State}
    (small : s.ahead.length < n) : Sound (functionDecl body) (SpellsSingle true) s := by
  refine (sound_consume rfl).bind ?_
  rintro start _ t rfl passesWord
  refine sound_ident.bind ?_
  rintro name _ u ⟨rfl, isName⟩ passesName
  refine (sound_consume rfl).bind ?_
  rintro _ _ v rfl passesOpen
  refine sound_bracketed_bind rfl (fun _ _ => sound_param) (Nat.lt_succ_self _) ?_
  intro params _ parts items w each listed passesParams
  obtain ⟨rfl, grammaticalParams⟩ := eq_map_of_forall₂ each
  refine sound_returnTypes.bind ?_
  rintro returns _ x ⟨rfl, grammaticalReturns⟩ passesReturns
  have before := (passesWord.append (passesName.append (passesOpen.append
    (passesParams.append passesReturns)))).length
  refine (soundBlocks x (by omega)).bind ?_
  rintro body terminals y ⟨spelled, grammatical⟩ -
  refine sound_pure ⟨?_, ⟨rfl, isName, grammaticalParams, grammaticalReturns, grammatical⟩,
    fun _ => trivial⟩
  simpa using Statement.Spelled.function listed spelled

/-- Whether `ts` spell a condition and the block under it. -/
def SpellsBranch (branch : Branch) (ts : List Terminal) : Prop :=
  ∃ first second, Expr.Spelled branch.condition first ∧ Block.Spelled branch.body second ∧
    branch.condition.IsCondition ∧ branch.body.Grammatical ∧ ts = first ++ second

theorem sound_branch (soundBlocks : SoundBlocks body n) {s : State} (small : s.ahead.length < n) :
    Sound (branch body) SpellsBranch s := by
  refine sound_condition.bind ?_
  rintro condition first t ⟨spelled, isCondition⟩ passes
  have shorter := passes.length
  refine (soundBlocks t (by omega)).bind ?_
  rintro body second u ⟨inside, grammatical⟩ -
  exact sound_pure ⟨first, second, spelled, inside, isCondition, grammatical, by simp⟩

theorem sound_branchesUpTo (soundBlocks : SoundBlocks body n) (rounds : Nat) {s : State}
    (small : s.ahead.length < n) :
    Sound (branchesUpTo body rounds)
      (fun branches ts => Branch.EachSpelled branches ts ∧ Branch.EachGrammatical branches) s := by
  induction rounds generalizing s with
  | zero => exact sound_pure ⟨.nil, trivial⟩
  | succ rounds inductionHypothesis =>
    refine sound_take_bind rfl (fun t takes => ?_) fun _ => sound_pure ⟨.nil, trivial⟩
    have shorter := takes.length
    refine (sound_branch soundBlocks (by omega)).bind ?_
    rintro ⟨condition, body⟩ _ u ⟨first, second, spelled, inside, isCondition, grammatical, rfl⟩ passes
    have shorterStill := passes.length
    refine (inductionHypothesis (by omega)).bind ?_
    rintro rest third v ⟨eachSpelled, eachGrammatical⟩ -
    exact sound_pure ⟨by simpa using .cons spelled inside eachSpelled, isCondition, grammatical,
      eachGrammatical⟩

theorem sound_alternative (soundBlocks : SoundBlocks body n) {s : State}
    (small : s.ahead.length < n) :
    Sound (alternative body) (fun otherwise ts => Block.OptionSpelled otherwise ts ∧
      Block.OptionGrammatical otherwise) s := by
  refine sound_take_bind rfl (fun t takes => ?_) fun _ => sound_pure ⟨.none, trivial⟩
  have shorter := takes.length
  refine (soundBlocks t (by omega)).bind ?_
  rintro body terminals u ⟨inside, grammatical⟩ -
  exact sound_pure ⟨by simpa using .some inside, grammatical⟩

theorem sound_conditional (soundBlocks : SoundBlocks body n) {top : Bool} {s : State}
    (small : s.ahead.length < n) : Sound (conditional body) (SpellsSingle top) s := by
  refine (sound_consume rfl).bind ?_
  rintro start _ t rfl passesWord
  have lengthWord := passesWord.length
  refine (sound_branch soundBlocks (by omega)).bind ?_
  rintro ⟨condition, body⟩ _ u ⟨first, second, spelled, inside, isCondition, grammatical, rfl⟩ passes
  have lengthBranch := passes.length
  apply sound_left_bind
  refine (sound_branchesUpTo soundBlocks _ (by omega)).bind ?_
  rintro branches third v ⟨others, grammaticalOthers⟩ passesOthers
  have lengthOthers := passesOthers.length
  refine (sound_alternative soundBlocks (by omega)).bind ?_
  rintro otherwise fourth w ⟨last, grammaticalLast⟩ -
  refine sound_pure ⟨?_, ⟨by simp, ⟨isCondition, grammatical, grammaticalOthers⟩, grammaticalLast⟩,
    fun _ => trivial⟩
  simpa using Statement.Spelled.conditional spelled inside others last

theorem sound_loopCondition {s : State} :
    Sound loopCondition (fun condition ts => Expr.OptionSpelled condition ts ∧
      ∀ e ∈ condition, e.IsCondition) s := by
  apply sound_peek_bind
  split
  next => exact sound_pure ⟨.none, by simp⟩
  next =>
    refine sound_condition.bind ?_
    rintro condition ts t ⟨spelled, isCondition⟩ -
    exact sound_pure ⟨by simpa using .some spelled, by simpa using isCondition⟩

theorem sound_loop (soundBlocks : SoundBlocks body n) {top : Bool} {s : State}
    (small : s.ahead.length < n) : Sound (loop body) (SpellsSingle top) s := by
  refine (sound_consume rfl).bind ?_
  rintro start _ t rfl passesWord
  refine sound_loopCondition.bind ?_
  rintro condition first u ⟨spelled, isCondition⟩ passesCondition
  have before := (passesWord.append passesCondition).length
  refine (soundBlocks u (by omega)).bind ?_
  rintro body second v ⟨inside, grammatical⟩ -
  refine sound_pure ⟨?_, ⟨isCondition, grammatical⟩, fun _ => trivial⟩
  simpa using Statement.Spelled.loop spelled inside

theorem sound_blockStatement (soundBlocks : SoundBlocks body n) {top : Bool} {s : State}
    (small : s.ahead.length < n) : Sound (blockStatement body) (SpellsSingle top) s := by
  refine (soundBlocks s small).bind ?_
  rintro body terminals t ⟨inside, grammatical⟩ -
  exact sound_pure ⟨by simpa using .block inside, grammatical, fun _ => trivial⟩

end

/-! ## All statements -/

/-- A declaration in the wrong place is reported, whether it was read or not. -/
theorem sound_nested {p : Parser Statement} {spells : Statement → List Terminal → Prop}
    {goal : Attempt → List Terminal → Prop} {s : State} (sound : Sound p spells s) :
    Sound (nested p) goal s :=
  sound_peek_bind (sound.attempt_bind fun _ _ _ _ _ => sound_report_bind)

theorem sound_declaration {p : Parser Statement} {top : Bool} {s : State}
    (sound : Sound p (SpellsSingle true) s) : Sound (declaration top p) (SpellsMade top) s := by
  cases top with
  | true => exact sound_single sound
  | false => exact sound_nested sound

theorem sound_namedStatement {top : Bool} {s : State} (named : s.kind = .identifier) :
    Sound namedStatement (SpellsMade top) s := by
  apply sound_peekSecond_bind
  split
  next => exact sound_variableDecls
  next opening => exact sound_single (sound_callStatement named (.inl opening))
  next colons => exact sound_single (sound_callStatement named (.inr colons))
  next =>
    split
    next => exact sound_single sound_reassignment
    next => exact sound_single sound_reject

variable {n : Nat}

theorem sound_statementBody {body : Parser Block} (soundBlocks : SoundBlocks body n) {top : Bool}
    {s : State} (small : s.ahead.length < n) : Sound (statementBody body top) (SpellsMade top) s := by
  apply sound_peek_bind
  split
  next => exact sound_declaration (sound_functionDecl soundBlocks small)
  next => exact sound_declaration sound_datatypeDecl
  next => exact sound_single (sound_conditional soundBlocks small)
  next => exact sound_single (sound_loop soundBlocks small)
  next => exact sound_single (sound_blockStatement soundBlocks small)
  next => exact sound_single (sound_blockStatement soundBlocks small)
  next => exact sound_single sound_result
  next => exact sound_single sound_control
  next => exact sound_single sound_control
  next => exact sound_variableDecls
  next => exact sound_variableDecls
  next => exact sound_variableDecls
  next => exact sound_variableDecls
  next named => exact sound_namedStatement named
  next => exact sound_single sound_reject

/-- Whether `statement` is sound before fewer than `n` tokens. -/
def SoundStatements (statement : Parser Attempt) (top : Bool) (n : Nat) : Prop :=
  ∀ s : State, s.ahead.length < n → Sound statement (SpellsMade top) s

theorem sound_sequenceUpTo {ends stops : List TokenKind} {statement : Parser Attempt} {top : Bool}
    (soundStatements : SoundStatements statement top n) (rounds : Nat) {s : State}
    (small : s.ahead.length < n) :
    Sound (sequenceUpTo ends stops statement rounds) (fun found ts =>
      Statement.EachSpelled found ts ∧ (∀ type, Statement.EachGrammatical top type found) ∧
        (ends = [] → s.ahead.length ≤ rounds → ts.length = s.ahead.length)) s := by
  -- Where only the end mark ends the sequence it takes all tokens, for every round takes one.
  induction rounds generalizing s with
  | zero => exact sound_pure ⟨.nil, fun _ => trivial, fun _ fuel => by simp; omega⟩
  | succ rounds inductionHypothesis =>
    apply sound_atEnd_bind
    split
    next atEnd =>
      refine sound_pure ⟨.nil, fun _ => trivial, ?_⟩
      rintro rfl -
      have eof : s.kind = .eof := by simpa [State.isAtEnd] using atEnd
      simp [s.kind_eq_eof_iff.mp eof]
    next =>
      refine (soundStatements s small).bind ?_
      rintro tried first t ⟨complete, spelled, grammatical⟩ passes
      have length := passes.length
      obtain ⟨opening, others, rfl, -⟩ := spelled_statement_starts spelled (grammatical none)
      simp only [List.length_cons] at length
      -- an incomplete statement would have reported an error, so nothing is skipped
      simp only [complete, if_true]
      have soundPure : Sound (pure true : Parser Bool) (fun _ ts => ts = []) t := sound_pure rfl
      refine soundPure.bind ?_
      rintro _ _ u rfl passesNone
      cases passesNone
      refine (inductionHypothesis (by omega)).bind ?_
      rintro rest second v ⟨eachSpelled, eachGrammatical, all⟩ -
      refine sound_pure ⟨by simpa using .cons spelled eachSpelled,
        fun type => (grammatical type).append eachGrammatical, ?_⟩
      intro none fuel
      have taken := all none (by omega)
      simp only [List.append_nil, List.nil_append, List.length_append, List.length_cons]
      omega

theorem sound_sequence {ends stops : List TokenKind} {statement : Parser Attempt} {top : Bool}
    (soundStatements : SoundStatements statement top n) {s : State} (small : s.ahead.length < n) :
    Sound (sequence ends stops statement) (fun found ts =>
      Statement.EachSpelled found ts ∧ (∀ type, Statement.EachGrammatical top type found) ∧
        (ends = [] → ts.length = s.ahead.length)) s := by
  apply sound_left_bind
  refine (sound_sequenceUpTo soundStatements _ small).imp ?_
  rintro found ts ⟨eachSpelled, eachGrammatical, all⟩
  exact ⟨eachSpelled, eachGrammatical, fun none => all none (Nat.le_refl _)⟩

theorem spelled_blockBetween {opening : TokenKind} (opens : opening ∈ blockKinds)
    {statements : List Statement} {span : Span} {inner : List Terminal}
    (inside : Statement.EachSpelled statements inner) :
    Block.Spelled ⟨statements, span⟩ (sign opening :: (inner ++ [sign (closing opening)])) := by
  simp only [blockKinds, List.mem_cons, List.not_mem_nil, or_false] at opens
  rcases opens with rfl | rfl
  · exact .braces inside
  · exact .words inside

theorem sound_block {statement : Parser Attempt} (soundStatements : SoundStatements statement false n) :
    SoundBlocks (block statement) (n + 1) := by
  have isSign : ∀ kind ∈ blockKinds, kind.spelling?.isSome ∧ (closing kind).spelling?.isSome := by
    decide
  intro s small
  refine (sound_consumeAny (by decide)).bind ?_
  rintro opening _ t ⟨rfl, opens, lexical⟩ passesOpen
  have shorter := passesOpen.length
  rw [List.length_singleton] at shorter
  dsimp only
  refine (sound_sequence soundStatements (by omega)).bind ?_
  rintro statements inner u ⟨eachSpelled, eachGrammatical, -⟩ -
  apply sound_peek_bind
  split
  -- a block that the end of input cuts short is reported
  next => exact sound_report_bind
  next =>
    refine (sound_consume (isSign _ opens).2).bind ?_
    rintro last _ v rfl -
    refine sound_pure ⟨?_, eachGrammatical none⟩
    rw [eq_sign_of_lexical lexical (isSign _ opens).1]
    simpa using spelled_blockBetween opens eachSpelled

theorem sound_statementUpTo {top : Bool} {s : State} (small : s.ahead.length < n) :
    Sound (statementUpTo n top) (SpellsMade top) s := by
  induction n generalizing top s with
  | zero => omega
  | succ n inductionHypothesis =>
    -- a statement inside of another one has fewer tokens before it
    have soundStatements : SoundStatements (statementUpTo n false) false n :=
      fun t smaller => inductionHypothesis smaller
    exact sound_statementBody (sound_block soundStatements) small

/-- A program that was read without an error is spelled by all of the tokens. -/
theorem sound_program {s : State} :
    Sound program (fun p ts => Statement.EachSpelled p ts ∧ p.Grammatical ∧
      ts.length = s.ahead.length) s := by
  have soundStatements : SoundStatements statement true (s.ahead.length + 1) :=
    fun t _ => sound_left_bind (sound_statementUpTo (Nat.lt_succ_self _))
  refine (sound_sequence soundStatements (Nat.lt_succ_self _)).imp ?_
  rintro p ts ⟨eachSpelled, eachGrammatical, all⟩
  exact ⟨eachSpelled, eachGrammatical none, all rfl⟩

end FrontEnd.Parser
