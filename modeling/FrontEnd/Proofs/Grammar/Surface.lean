import FrontEnd.Proofs.Grammar.Derivation
import FrontEnd.Proofs.Grammar.Terminal

/-!
# The surface grammar

The grammar of programs as a context-free grammar, up to the end mark. There are two of them: in the strict one a
bracketed list is empty, or it is items with a comma between any two of them; in the lenient one a comma may also
stand behind the last item. This is the only difference, and it shows: what belongs to the strict language is
what belongs to the lenient one and has no comma in front of a closing bracket (`mem_strict_iff`).
-/

namespace FrontEnd

/-- What the grammar tells apart: the kinds of tokens and, among the operators, the sign of an assignment. -/
inductive Letter where
  | of (kind : TokenKind)
  | assign
  deriving DecidableEq

namespace Letter

/-- Whether a letter closes a bracketed list. -/
def closes (a : Letter) : Bool :=
  a = of .rParen || a = of .rBracket || a = of .rBrace

/-- Whether no comma stands in front of a closing bracket. -/
def Tidy (word : List Letter) : Prop :=
  word.IsChain fun a b => a = of .comma → b.closes = false

instance : DecidablePred Tidy :=
  fun word => inferInstanceAs (Decidable (word.IsChain fun a b => a = of .comma → b.closes = false))

end Letter

/-- The letter of a terminal. -/
def Terminal.letter (t : Terminal) : Letter :=
  if t = assign then .assign else .of t.kind

/-- The phrases of the surface language. -/
inductive Phrase where
  | program | item | function | returns | datatype | param | type | scalar
  | block | statements | statement | chain | loopGuard | elseifs | alternative | results | call
  /-- An expression that is no record, as conditions are. -/
  | plain
  | expression | operator | field
  /-- One or more of a phrase, with a comma between any two of them. -/
  | oneOrMore (part : Phrase)
  /-- What stands between brackets, which may be nothing. -/
  | listed (part : Phrase)
  deriving DecidableEq

namespace Surface

open Letter Phrase

/-- A rule of the grammar. -/
abbrev Rule := ContextFreeRule Letter Phrase

/-- A letter or a phrase. -/
abbrev Part := Symbol Letter Phrase

/-- A token of a kind. -/
def word (kind : TokenKind) : Part := .terminal (of kind)

/-- A part of a phrase that is a phrase itself. -/
def sub (phrase : Phrase) : Part := .nonterminal phrase

/-- The rules of all phrases but for lists. -/
def phraseRules : List Rule := [
  ⟨program, []⟩,
  ⟨program, [sub item, sub program]⟩,
  ⟨item, [sub function]⟩,
  ⟨item, [sub datatype]⟩,
  ⟨item, [sub statement]⟩,
  ⟨function, [word .kwFun, word .identifier, word .lParen, sub (listed param), word .rParen, sub returns,
    sub block]⟩,
  ⟨returns, []⟩,
  ⟨returns, [word .arrow, sub (oneOrMore type)]⟩,
  ⟨datatype, [word .kwDatatype, word .identifier, word .lBrace, sub (listed param), word .rBrace]⟩,
  ⟨param, [sub type, word .identifier]⟩,
  ⟨type, [sub scalar]⟩,
  ⟨type, [word .kwListOf, sub scalar]⟩,
  ⟨scalar, [word .kwInt]⟩,
  ⟨scalar, [word .kwString]⟩,
  ⟨scalar, [word .kwBool]⟩,
  ⟨scalar, [word .identifier]⟩,
  ⟨block, [word .lBrace, sub statements, word .rBrace]⟩,
  ⟨block, [word .kwBlock, sub statements, word .kwEnd]⟩,
  ⟨statements, []⟩,
  ⟨statements, [sub statement, sub statements]⟩,
  ⟨statement, [sub type, word .identifier, .terminal assign, sub expression, sub chain]⟩,
  ⟨statement, [word .identifier, .terminal assign, sub expression, word .dot]⟩,
  ⟨statement, [word .kwIf, sub plain, sub block, sub elseifs, sub alternative]⟩,
  ⟨statement, [word .kwLoop, sub loopGuard, sub block]⟩,
  ⟨statement, [sub block]⟩,
  ⟨statement, [word .kwReturn, sub results, word .dot]⟩,
  ⟨statement, [sub call, word .dot]⟩,
  ⟨statement, [word .kwBreak, word .dot]⟩,
  ⟨statement, [word .kwContinue, word .dot]⟩,
  ⟨chain, [word .dot]⟩,
  ⟨chain, [word .comma, word .identifier, .terminal assign, sub expression, sub chain]⟩,
  ⟨elseifs, []⟩,
  ⟨elseifs, [word .kwElseIf, sub plain, sub block, sub elseifs]⟩,
  ⟨alternative, []⟩,
  ⟨alternative, [word .kwElse, sub block]⟩,
  ⟨loopGuard, []⟩,
  ⟨loopGuard, [sub plain]⟩,
  ⟨results, []⟩,
  ⟨results, [sub (oneOrMore expression)]⟩,
  ⟨call, [word .identifier, word .lParen, sub (listed expression), word .rParen]⟩,
  ⟨call, [word .identifier, word .doubleColon, word .identifier, word .lParen, sub (listed expression),
    word .rParen]⟩,
  ⟨plain, [word .int]⟩,
  ⟨plain, [word .string]⟩,
  ⟨plain, [word .bool]⟩,
  ⟨plain, [word .identifier]⟩,
  ⟨plain, [sub call]⟩,
  ⟨plain, [word .lBracket, sub (listed expression), word .rBracket]⟩,
  ⟨plain, [sub operator, word .lParen, sub (listed expression), word .rParen]⟩,
  ⟨operator, [word .operator]⟩,
  ⟨operator, [.terminal assign]⟩,
  ⟨expression, [sub plain]⟩,
  ⟨expression, [word .identifier, word .lBrace, sub (listed field), word .rBrace]⟩,
  ⟨field, [word .identifier, word .colon, sub expression]⟩]

/-- The rules of lists: one or more items, and such items between brackets or nothing. -/
def listRules (part : Phrase) : List Rule := [
  ⟨oneOrMore part, [sub part]⟩,
  ⟨oneOrMore part, [sub part, word .comma, sub (oneOrMore part)]⟩,
  ⟨listed part, []⟩,
  ⟨listed part, [sub (oneOrMore part)]⟩]

/-- What there are lists of. -/
def listParts : List Phrase := [type, param, expression, field]

def strictRules : List Rule :=
  phraseRules ++ listParts.flatMap listRules

/-- A comma behind the last of the items between brackets. -/
def trailingRule (part : Phrase) : Rule :=
  ⟨listed part, [sub (oneOrMore part), word .comma]⟩

/-- The grammar of programs. -/
abbrev strict : ContextFreeGrammar Letter where
  NT := Phrase
  initial := program
  rules := strictRules.toFinset

/-- The grammar of programs in which a comma may stand behind the last of the items between brackets. -/
abbrev lenient : ContextFreeGrammar Letter where
  NT := Phrase
  initial := program
  rules := (strictRules ++ listParts.map trailingRule).toFinset

theorem mem_lenient_iff {r : Rule} :
    r ∈ lenient.rules ↔ r ∈ strict.rules ∨ ∃ part ∈ listParts, trailingRule part = r := by
  simp [lenient, strict]

/-! ## A strict word is tidy -/

/-- Whether a phrase may be empty. -/
def nullable : Phrase → Bool
  | program | returns | statements | loopGuard | elseifs | alternative | results | listed _ => true
  | _ => false

/-- Whether something may stand behind a comma: it is never empty and starts with no closing bracket. -/
def mayFollowComma : Part → Bool
  | .terminal a => !a.closes
  | .nonterminal phrase => !nullable phrase

/-- Neighbours of which the second may stand behind a comma if the first is one. -/
def Continued (x y : Part) : Prop :=
  x = word .comma → mayFollowComma y = true

instance : DecidableRel Continued := fun _ _ => inferInstanceAs (Decidable (_ → _))

theorem keeps_continued : ∀ r ∈ strict.rules, r.Keeps Continued := by
  have checked : ∀ r ∈ strictRules, r.output.IsChain Continued ∧ r.output.getLast? ≠ some (word .comma) ∧
      (nullable r.input = false → r.output.head?.any mayFollowComma = true) := by
    decide
  intro r member
  obtain ⟨inside, last, first⟩ := checked r (List.mem_toFinset.mp member)
  -- a nonterminal behind a comma makes something that may stand there
  have starts : ∀ x, Continued x (.nonterminal r.input) → x = word .comma →
      r.output.head?.any mayFollowComma = true :=
    fun x related comma => first (by simpa [mayFollowComma] using related comma)
  refine ⟨inside, ?_, ?_, ?_⟩
  · intro x related y isFirst comma
    have follows := starts x related comma
    rwa [Option.mem_def.mp isFirst] at follows
  · rintro y - x isLast rfl
    exact absurd isLast last
  · intro empty x y related _ comma
    have follows := starts x related comma
    simp [empty] at follows

theorem tidy_of_continued {letters : List Letter}
    (chain : (letters.map Symbol.terminal : List Part).IsChain Continued) : Tidy letters := by
  rw [List.isChain_map] at chain
  refine chain.imp fun a b related comma => ?_
  simpa [mayFollowComma] using related (by rw [comma, word])

/-! ## A tidy word of the lenient grammar is strict -/

/-- Whether something closes a bracketed list. -/
def isClosing : Part → Bool
  | .terminal a => a.closes
  | .nonterminal _ => false

/-- Whether something is a bracketed list. -/
def isListed : Part → Bool
  | .nonterminal (listed _) => true
  | _ => false

/-- Neighbours of which the second closes a bracketed list if the first is one. -/
def Closed (x y : Part) : Prop :=
  isListed x = true → isClosing y = true

instance : DecidableRel Closed := fun _ _ => inferInstanceAs (Decidable (_ → _))

theorem keeps_closed : ∀ r ∈ strict.rules, r.Keeps Closed := by
  have checked : ∀ r ∈ strictRules, r.output.IsChain Closed ∧ r.output.getLast?.any isListed = false := by
    decide
  intro r member
  obtain ⟨inside, last⟩ := checked r (List.mem_toFinset.mp member)
  -- a bracketed list stands before no nonterminal
  have notListed : ∀ x, Closed x (.nonterminal r.input) → isListed x = false :=
    fun x related => Bool.eq_false_iff.mpr fun isList => by simpa [isClosing] using related isList
  refine ⟨inside, ?_, ?_, ?_⟩
  · intro x related y _ isList
    simp [notListed x related] at isList
  · intro y _ x isLast isList
    rw [Option.mem_def.mp isLast, Option.any_some, isList] at last
    cases last
  · intro _ x y related _ isList
    simp [notListed x related] at isList

/-- A comma that the lenient grammar alone allows is seen in all that is derived. -/
theorem not_tidy_of_trailing {part : Phrase} {u v : List Part} {letters : List Letter}
    (rewrites : (trailingRule part).Rewrites u v) (closed : (u ++ [word .eof]).IsChain Closed)
    (derives : lenient.Derives v (letters.map .terminal)) : ¬ Tidy letters := by
  intro tidy
  obtain ⟨before, behind, rfl, rfl⟩ := rewrites.exists_parts
  -- the list is closed by the letter behind it, and the comma stands in front of this
  obtain ⟨a, rest, rfl, closes⟩ : ∃ a rest, behind = .terminal a :: rest ∧ a.closes = true := by
    rw [List.append_assoc, List.append_assoc, List.singleton_append] at closed
    obtain ⟨next, -⟩ := List.isChain_cons.mp closed.right_of_append
    cases behind with
    | nil =>
      have closes := next (word .eof) rfl rfl
      cases closes
    | cons y rest =>
      have closes := next y rfl rfl
      cases y with
      | terminal a => exact ⟨a, rest, rfl, closes⟩
      | nonterminal phrase => cases closes
  have beside : [word .comma, .terminal a] <:+:
      before ++ (trailingRule part).output ++ .terminal a :: rest :=
    ⟨before ++ [sub (oneOrMore part)], rest, by simp [trailingRule]⟩
  have seen := derives.beside beside
  have chain : (letters.map Symbol.terminal : List Part).IsChain
      fun x y => x = word .comma → isClosing y = false := by
    rw [List.isChain_map]
    exact tidy.imp fun b c related comma => related (Symbol.terminal.inj comma)
  have pair := List.IsChain.infix chain seen
  have notClosing := List.isChain_pair.mp pair rfl
  rw [isClosing, closes] at notClosing
  cases notClosing

theorem strict_of_tidy {u : List Part} {letters : List Letter} (tidy : Tidy letters)
    (derives : lenient.Derives u (letters.map .terminal)) (closed : (u ++ [word .eof]).IsChain Closed) :
    strict.Derives u (letters.map .terminal) := by
  induction derives using Relation.ReflTransGen.head_induction_on with
  | refl => exact .refl _
  | head step derives inductionHypothesis =>
    obtain ⟨r, member, rewrites⟩ := step
    cases mem_lenient_iff.mp member with
    | inl isStrict =>
      have produces : strict.Produces _ _ := ⟨r, isStrict, rewrites⟩
      have closedNext := (produces.append_right [word .eof]).isChain keeps_closed closed
      exact produces.trans_derives (inductionHypothesis closedNext)
    | inr trailing =>
      obtain ⟨part, -, rfl⟩ := trailing
      exact absurd tidy (not_tidy_of_trailing rewrites closed derives)

/-- The two languages differ by the commas in front of closing brackets. -/
theorem mem_strict_iff {letters : List Letter} :
    letters ∈ strict.language ↔ letters ∈ lenient.language ∧ Tidy letters := by
  constructor
  · intro derives
    refine ⟨?_, tidy_of_continued (derives.isChain keeps_continued (List.isChain_singleton _))⟩
    have looser : ∀ u v : List Part, strict.Produces u v → lenient.Produces u v :=
      fun u v ⟨r, member, rewrites⟩ => ⟨r, mem_lenient_iff.mpr (.inl member), rewrites⟩
    exact Relation.ReflTransGen.mono looser _ _ derives
  · rintro ⟨derives, tidy⟩
    exact strict_of_tidy tidy derives (by decide)

end Surface

end FrontEnd
