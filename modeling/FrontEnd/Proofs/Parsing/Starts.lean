import FrontEnd.Proofs.Grammar.Grammatical
import FrontEnd.Proofs.Grammar.Spelling
import FrontEnd.Tree.Parser.Statement

/-!
# How productions start

The first terminal of whatever a production spells is of one of a few kinds, and this is what the parser
decides by. In particular nothing but the empty list of statements is spelled by no terminals.
-/

namespace FrontEnd.Parser

open Terminal

theorem kind_terminal_mem_scalarKinds (scalar : Scalar) : scalar.terminal.kind ∈ scalarKinds := by
  cases scalar <;> simp [Scalar.terminal, scalarKinds]

/-- The kinds of tokens that a type starts with. -/
theorem terminals_typeName (type : TypeName) :
    ∃ first rest, type.terminals = first :: rest ∧ first.kind ∈ TokenKind.kwListOf :: scalarKinds := by
  obtain ⟨scalar, isList, span⟩ := type
  cases isList with
  | true => exact ⟨_, _, rfl, List.mem_cons_self⟩
  | false => exact ⟨_, _, rfl, List.mem_cons_of_mem _ (kind_terminal_mem_scalarKinds scalar)⟩

theorem spelled_expr_starts {e : Expr} {ts : List Terminal} (spelled : Expr.Spelled e ts) :
    ∃ first rest, ts = first :: rest ∧ first.kind ∈ expressionKinds := by
  cases spelled <;> exact ⟨_, _, rfl, by simp [expressionKinds, ofOperator, ofBool, Ident.terminal]⟩

theorem spelled_block_starts {b : Block} {ts : List Terminal} (spelled : Block.Spelled b ts) :
    ∃ first rest, ts = first :: rest ∧ first.kind ∈ blockKinds := by
  cases spelled <;> exact ⟨_, _, rfl, by simp [blockKinds]⟩

/-- The kinds of tokens that a statement starts with. -/
def statementKinds : List TokenKind :=
  [.kwFun, .kwDatatype, .kwIf, .kwLoop, .lBrace, .kwBlock, .kwReturn, .kwBreak, .kwContinue, .kwListOf,
   .kwInt, .kwString, .kwBool, .identifier]

theorem spelled_call_starts {call : Expr} {ts : List Terminal} (spelled : Expr.Spelled call ts)
    (isCall : call.isCall = true) : ∃ first second rest, ts = first :: second :: rest ∧
      first.kind = .identifier ∧ (second.kind = .lParen ∨ second.kind = .doubleColon) := by
  cases spelled with
  | call => exact ⟨_, _, _, rfl, rfl, .inl rfl⟩
  | libraryCall => exact ⟨_, _, _, rfl, rfl, .inr rfl⟩
  | _ => simp [Expr.isCall] at isCall

theorem spelled_statement_starts {made : List Statement} {ts : List Terminal}
    (spelled : Statement.Spelled made ts) {top : Bool} {type : Option TypeName}
    (grammatical : Statement.EachGrammatical top type made) :
    ∃ first rest, ts = first :: rest ∧ first.kind ∈ statementKinds := by
  have types : ∀ kind ∈ TokenKind.kwListOf :: scalarKinds, kind ∈ statementKinds := by decide
  have blocks : ∀ kind ∈ blockKinds, kind ∈ statementKinds := by decide
  cases spelled with
  | @declarations decl =>
    obtain ⟨first, rest, starts, kind⟩ := terminals_typeName decl.type
    exact ⟨first, _, by rw [starts]; rfl, types _ kind⟩
  | block inside =>
    obtain ⟨first, rest, rfl, kind⟩ := spelled_block_starts inside
    exact ⟨first, rest, rfl, blocks _ kind⟩
  | call spelled =>
    obtain ⟨first, second, rest, rfl, kind, -⟩ := spelled_call_starts spelled grammatical.2.1.2
    exact ⟨first, _, rfl, by simp [kind, statementKinds]⟩
  | @control kind => exact ⟨_, _, rfl, by cases kind <;> simp [LoopControl.terminal, statementKinds]⟩
  | _ => exact ⟨_, _, rfl, by simp [statementKinds, Ident.terminal]⟩

end FrontEnd.Parser
