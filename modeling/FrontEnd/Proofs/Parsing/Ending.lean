import FrontEnd.Proofs.Parsing.Cursor
import FrontEnd.Proofs.Parsing.SafeStatement

/-!
# Parsing comes to its end

From any tokens but none at all a program is made, and the parser has then come to the first end mark. On
the way it keeps to all that it takes for granted, so that no loop and no recursion runs out of rounds, and it
never stands outside of the tokens (`parse_ends`). What is behind the first end mark makes no difference
(`parse_cut`).
-/

namespace FrontEnd.Parser

variable {α β : Type}

/-! ## Productions that always make something -/

def Total (p : Parser α) : Prop :=
  ∀ s, ∃ x t, p.run s = (some x, t)

theorem Total.bind {p : Parser α} {f : α → Parser β} (first : Total p)
    (second : ∀ x, Total (f x)) : Total (p >>= f) := by
  intro s
  obtain ⟨x, t, ran⟩ := first s
  obtain ⟨y, u, ranBehind⟩ := second x t
  exact ⟨y, u, by rw [run_bind, ran]; exact ranBehind⟩

theorem total_pure (x : α) : Total (pure x) :=
  fun s => ⟨x, s, rfl⟩

theorem total_looking {look : State → α} : Total (looking fun s => some (look s)) :=
  fun s => ⟨look s, s, rfl⟩

theorem total_ensure (holds : State → Prop) : Total (ensure holds) :=
  fun s => ⟨(), s, rfl⟩

theorem total_report (e : Error) (span : Span) : Total (report e span) :=
  fun s => ⟨(), s.report e span, rfl⟩

theorem total_attempt (p : Parser α) : Total (attempt p) :=
  fun s => ⟨(p.run s).1, (p.run s).2, rfl⟩

theorem total_resync (resume : TokenKind) (stops : List TokenKind) : Total (resync resume stops) :=
  fun s => ⟨(s.resync resume stops).1, (s.resync resume stops).2, rfl⟩

theorem total_take (kind : TokenKind) : Total (take kind) := by
  intro s
  by_cases same : s.kind = kind
  · exact ⟨true, s.advance, if_pos same⟩
  · exact ⟨false, s, if_neg same⟩

/-! An attempt fails by making nothing. -/

theorem total_single (p : Parser Statement) : Total (single p) :=
  (total_attempt p).bind fun made => by cases made <;> exact total_pure _

theorem total_nested (p : Parser Statement) : Total (nested p) :=
  total_looking.bind fun keyword => (total_attempt p).bind fun made => by
    cases made with
    | none => exact total_pure _
    | some _ => exact (total_report _ _).bind fun _ => total_pure _

theorem total_declaration (top : Bool) (p : Parser Statement) : Total (declaration top p) := by
  cases top with
  | true => exact total_single p
  | false => exact total_nested p

theorem total_chainUpTo (type : TypeName) (n : Nat) : Total (chainUpTo type n) := by
  induction n with
  | zero => exact (total_ensure _).bind fun _ => total_pure _
  | succ n inductionHypothesis =>
    refine (total_take _).bind fun continues => ?_
    cases continues with
    | true =>
      refine (total_attempt _).bind fun made => ?_
      cases made with
      | none => exact total_pure _
      | some _ => exact inductionHypothesis.bind fun _ => total_pure _
    | false => exact (total_attempt _).bind fun made => by cases made <;> exact total_pure _

theorem total_variableDecls : Total variableDecls := by
  refine (total_attempt _).bind fun made => ?_
  cases made with
  | none => exact total_pure _
  | some _ => exact total_looking.bind fun _ => (total_chainUpTo _ _).bind fun _ => total_pure _

theorem total_namedStatement : Total namedStatement := by
  refine total_looking.bind fun second => ?_
  split
  · exact total_variableDecls
  · exact total_single _
  · exact total_single _
  · split <;> exact total_single _

theorem total_statementBody (body : Parser Block) (top : Bool) : Total (statementBody body top) := by
  refine total_looking.bind fun token => ?_
  split
  any_goals exact total_single _
  any_goals exact total_declaration top _
  any_goals exact total_variableDecls
  exact total_namedStatement

theorem total_statementUpTo (n : Nat) (top : Bool) : Total (statementUpTo n top) := by
  cases n with
  | zero => exact (total_ensure _).bind fun _ => total_pure _
  | succ n => exact total_statementBody _ top

theorem total_sequenceUpTo {ends stops : List TokenKind} {statement : Parser Attempt}
    (total : Total statement) (n : Nat) : Total (sequenceUpTo ends stops statement n) := by
  induction n with
  | zero => exact (total_ensure _).bind fun _ => total_pure _
  | succ n inductionHypothesis =>
    refine total_looking.bind fun atEnd => ?_
    split
    · exact total_pure _
    · refine total.bind fun tried => ?_
      dsimp only
      split
      · exact (total_pure _).bind fun _ => inductionHypothesis.bind fun _ => total_pure _
      · exact (total_resync _ _).bind fun _ => inductionHypothesis.bind fun _ => total_pure _

theorem total_program : Total program :=
  total_looking.bind fun _ => total_sequenceUpTo
    (total_looking.bind fun _ => total_statementUpTo _ true) _

/-! ## The end of the tokens -/

theorem parse_eq {tokens : List Token} {last : Token} (isLast : tokens.getLast? = some last) :
    ∃ p t, program.run (.before tokens last) = (some p, t) ∧
      Program.parse tokens = .ok ⟨p, t.errors⟩ := by
  obtain ⟨p, t, ran⟩ := total_program (.before tokens last)
  refine ⟨p, t, ran, ?_⟩
  simp only [Program.parse, State.ofTokens?, isLast, Option.map_some, ran, Option.getD_some]

/-- What is behind an end mark makes no difference to what is parsed. -/
theorem parse_cut {before behind : List Token} {eof : Token} (isEof : eof.kind = .eof) :
    Program.parse (before ++ eof :: behind) = Program.parse (before ++ [eof]) := by
  obtain ⟨last, isLast⟩ : ∃ last, (before ++ eof :: behind).getLast? = some last :=
    ⟨_, List.getLast?_eq_some_getLast (by simp)⟩
  have same : State.before (before ++ eof :: behind) last = State.before (before ++ [eof]) eof := by
    simp only [State.before, arrange_eof isEof]
  rw [Program.parse, Program.parse, State.ofTokens?, State.ofTokens?, isLast, List.getLast?_concat,
    Option.map_some, Option.map_some, same]

theorem final_arrange (missing : Token) (skipped tokens : List Token) :
    (arrange missing skipped tokens).2.token ∈ missing :: tokens := by
  induction tokens generalizing skipped with
  | nil => simp [arrange]
  | cons t rest inductionHypothesis =>
    have later : ∀ skipped, (arrange missing skipped rest).2.token ∈ missing :: t :: rest := by
      intro skipped
      rcases List.mem_cons.mp (inductionHypothesis skipped) with same | member
      · rw [same]
        exact List.mem_cons_self
      · exact List.mem_cons_of_mem _ (List.mem_cons_of_mem _ member)
    rw [arrange]
    split
    · simp
    · split
      · exact later skipped
      · split
        · exact later (skipped ++ [t])
        · exact later []

variable {tokens : List Token} {last : Token}

theorem fits_before (isLast : tokens.getLast? = some last) (fits : ∀ t ∈ tokens, t.span.Fits) :
    (State.before tokens last).Fits := by
  have fitsMissing : (endAfter last).span.Fits := fits last (List.mem_of_getLast? isLast)
  refine ⟨fun t member => ?_, ?_⟩
  · rw [State.ahead_before] at member
    exact fits _ (mem_arrange t member).1
  · rw [State.final_before]
    rcases List.mem_cons.mp (final_arrange (endAfter last) [] tokens) with same | member
    · rw [same]
      exact fitsMissing
    · exact fits _ member

/-- How parsing some tokens comes to its end, with a program and in a state. -/
structure ComesToEnd (tokens : List Token) (last : Token) (p : Program) (t : State) : Prop where
  run : program.run (State.before tokens last) = (some p, t)
  asserts : program.asserts (State.before tokens last)
  /-- Wherever the parser comes to, it stands at one of the tokens. -/
  inside : ∀ u, (State.before tokens last).Reaches u → ∃ i, u.StandsAt (supplied tokens last) i
  /-- At last it stands at the first end mark. -/
  atEof : ∃ i, t.StandsAt (supplied tokens last) i ∧
    (supplied tokens last).findIdx? Token.isEof = some i

/-- A parser comes to the end of any tokens that fit, with a program whose call statements hold calls. -/
theorem comesToEnd_of_fits (isLast : tokens.getLast? = some last)
    (fits : ∀ t ∈ tokens, t.span.Fits) :
    ∃ p t, ComesToEnd tokens last p t ∧ Program.parse tokens = .ok ⟨p, t.errors⟩ ∧
      Statement.EachHoldsCalls p := by
  obtain ⟨p, t, ran, parsed⟩ := parse_eq isLast
  obtain ⟨asserts, made⟩ := safe_program (fits_before isLast fits)
  obtain ⟨calls, eof⟩ := made p t ran
  obtain ⟨ended, first, stands⟩ := State.standsAt_before isLast
  have inside : ∀ u, (State.before tokens last).Reaches u →
      ∃ i, u.StandsAt (supplied tokens last) i := by
    intro u reached
    obtain ⟨i, -, standsThere⟩ := stands.reaches ended reached
    exact ⟨i, standsThere⟩
  obtain ⟨i, standsLast⟩ := inside t (reaches_of_run ran)
  exact ⟨p, t, ⟨ran, asserts, inside, i, standsLast, standsLast.first eof⟩, parsed, calls⟩

/-- Any tokens that there are and that end where 32 bits can still count are parsed, up to the first end
mark and without regard to what is behind it. -/
theorem parse_ends {tokens : List Token} (nonempty : tokens ≠ [])
    (fits : ∀ t ∈ tokens, t.span.hi < UInt32.size) :
    ∃ p t, ComesToEnd tokens (tokens.getLast nonempty) p t ∧
      Program.parse tokens = .ok ⟨p, t.errors⟩ ∧
        ∀ before eof behind, tokens = before ++ eof :: behind → eof.kind = .eof →
          Program.parse (before ++ [eof]) = .ok ⟨p, t.errors⟩ := by
  have isLast := List.getLast?_eq_some_getLast nonempty
  obtain ⟨p, t, ends, parsed, -⟩ := comesToEnd_of_fits isLast fits
  refine ⟨p, t, ends, parsed, ?_⟩
  rintro before eof behind rfl isEof
  exact (parse_cut isEof).symm.trans parsed

/-- A word in the wrong place, a parenthesis that was never opened, an end mark in the middle and an illegal
character behind it. -/
def strayTokens : List Token :=
  [⟨.kwElse, "else", ⟨0, 4, 1, 0⟩⟩, ⟨.rParen, ")", ⟨4, 1, 1, 4⟩⟩, ⟨.eof, "", ⟨5, 0, 1, 5⟩⟩,
   ⟨.illegal, "$", ⟨5, 1, 1, 5⟩⟩]

theorem parse_ends_stray :
    ∃ nonempty : strayTokens ≠ [], (∀ t ∈ strayTokens, t.span.hi < UInt32.size) ∧
      ∃ p t, ComesToEnd strayTokens (strayTokens.getLast nonempty) p t ∧
        Program.parse strayTokens = .ok ⟨p, t.errors⟩ ∧
          ∀ before eof behind, strayTokens = before ++ eof :: behind → eof.kind = .eof →
            Program.parse (before ++ [eof]) = .ok ⟨p, t.errors⟩ := by
  have nonempty : strayTokens ≠ [] := by decide
  have fits : ∀ t ∈ strayTokens, t.span.hi < UInt32.size := by decide
  exact ⟨nonempty, fits, parse_ends nonempty fits⟩

end FrontEnd.Parser
