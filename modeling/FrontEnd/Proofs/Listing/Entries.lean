import Mathlib.Data.List.Basic

/-!
# Lines under lines

A text in which every line stands two blanks deeper than the line that it is under can be read back, if no line
starts with a blank or is empty: from the first line of each depth on, all that is deeper is under it
(`Entry.eq_of_renderEach`). What the lines say is of no matter here.
-/

namespace FrontEnd

/-! ## Cutting texts -/

/-- Texts are cut at the first character of some sort. -/
theorem cut_where {p : Char → Prop} : ∀ {first second behind behindAgain : List Char}, (∀ c ∈ first, ¬ p c) →
    (∀ c ∈ second, ¬ p c) → (∃ c tail, behind = c :: tail ∧ p c) → (∃ c tail, behindAgain = c :: tail ∧ p c) →
      first ++ behind = second ++ behindAgain → first = second ∧ behind = behindAgain
  | [], [], _, _, _, _, _, _, same => ⟨rfl, same⟩
  | [], d :: _, _, _, _, apart, ⟨c, _, rfl, found⟩, _, same =>
    absurd ((List.cons.inj same).1 ▸ found) (List.forall_mem_cons.mp apart).1
  | d :: _, [], _, _, apart, _, _, ⟨c, _, rfl, found⟩, same =>
    absurd ((List.cons.inj same).1 ▸ found) (List.forall_mem_cons.mp apart).1
  | d :: first, e :: second, _, _, apart, apartAgain, starts, startsAgain, same => by
    obtain ⟨rfl, others⟩ := List.cons.inj same
    obtain ⟨rfl, behind⟩ := cut_where (List.forall_mem_cons.mp apart).2 (List.forall_mem_cons.mp apartAgain).2
      starts startsAgain others
    exact ⟨rfl, behind⟩

theorem cut_first {c : Char} {first second behind behindAgain : List Char} (notMem : c ∉ first)
    (notMemAgain : c ∉ second) (same : first ++ c :: behind = second ++ c :: behindAgain) :
    first = second ∧ behind = behindAgain := by
  have apart : ∀ {text : List Char}, c ∉ text → ∀ d ∈ text, ¬ d = c := fun notMem d member found =>
    notMem (found ▸ member)
  obtain ⟨rfl, cut⟩ := cut_where (apart notMem) (apart notMemAgain) ⟨c, behind, rfl, rfl⟩
    ⟨c, behindAgain, rfl, rfl⟩ same
  exact ⟨rfl, (List.cons.inj cut).2⟩

/-- Texts are cut at the last place of a character. -/
theorem cut_last {c : Char} {first second behind behindAgain : List Char} (notMem : c ∉ behind)
    (notMemAgain : c ∉ behindAgain) (same : first ++ c :: behind = second ++ c :: behindAgain) :
    first = second ∧ behind = behindAgain := by
  have backwards := congrArg List.reverse same
  simp only [List.reverse_append, List.reverse_cons, List.append_assoc, List.singleton_append] at backwards
  have cut := cut_first (by simpa using notMem) (by simpa using notMemAgain) backwards
  exact ⟨List.reverse_injective cut.2, List.reverse_injective cut.1⟩

/-! ## Entries -/

/-- A line and the lines under it. -/
inductive Entry where
  | mk (text : List Char) (below : List Entry)

namespace Entry

mutual

/-- An entry at a depth. -/
def render (depth : Nat) : Entry → List Char
  | ⟨text, below⟩ =>
    List.replicate (2 * depth) ' ' ++ text ++ '\n' :: renderEach (depth + 1) below

/-- Entries at a depth, one after the other. -/
def renderEach (depth : Nat) : List Entry → List Char
  | [] => []
  | e :: rest => e.render depth ++ renderEach depth rest

end

theorem renderEach_append (depth : Nat) (first second : List Entry) :
    renderEach depth (first ++ second) = renderEach depth first ++ renderEach depth second := by
  induction first with
  | nil => rfl
  | cons e rest inductionHypothesis => simp [renderEach, inductionHypothesis]

/-- Whether something is one line of which it can be told where it starts. -/
structure IsLine (text : List Char) : Prop where
  starts : ∃ c tail, text = c :: tail ∧ c ≠ ' '
  noBreak : '\n' ∉ text

mutual

/-- Whether all texts of an entry are lines. -/
def Lined : Entry → Prop
  | ⟨text, below⟩ => IsLine text ∧ LinedEach below

def LinedEach : List Entry → Prop
  | [] => True
  | e :: rest => e.Lined ∧ LinedEach rest

end

theorem linedEach_iff {entries : List Entry} : LinedEach entries ↔ ∀ e ∈ entries, e.Lined := by
  induction entries with
  | nil => simp [LinedEach]
  | cons e rest inductionHypothesis => simp [LinedEach, inductionHypothesis]

theorem linedEach_append {first second : List Entry} :
    LinedEach (first ++ second) ↔ LinedEach first ∧ LinedEach second := by
  simp only [linedEach_iff, List.forall_mem_append]

/-! ## Where entries end -/

/-- Whether what follows some entries at a depth is none of them: there is nothing, or a line at a lesser depth. -/
def Ends (depth : Nat) (rest : List Char) : Prop :=
  rest = [] ∨ ∃ k c tail, k < depth ∧ c ≠ ' ' ∧ rest = List.replicate (2 * k) ' ' ++ c :: tail

theorem Ends.deeper {depth : Nat} {rest : List Char} (ends : Ends depth rest) : Ends (depth + 1) rest := by
  refine ends.imp id ?_
  rintro ⟨k, c, tail, lesser, notBlank, rfl⟩
  exact ⟨k, c, tail, Nat.lt_succ_of_lt lesser, notBlank, rfl⟩

/-- The blanks that a line starts with are told from what is behind them. -/
theorem blanks_inj {m n : Nat} {c d : Char} {tail tailAgain : List Char} (notBlank : c ≠ ' ')
    (notBlankAgain : d ≠ ' ')
    (same : List.replicate m ' ' ++ c :: tail = List.replicate n ' ' ++ d :: tailAgain) :
    m = n ∧ c :: tail = d :: tailAgain := by
  induction m generalizing n with
  | zero =>
    cases n with
    | zero => exact ⟨rfl, same⟩
    | succ n => exact absurd (List.cons.inj same).1 notBlank
  | succ m inductionHypothesis =>
    cases n with
    | zero => exact absurd (List.cons.inj same).1.symm notBlankAgain
    | succ n =>
      obtain ⟨rfl, tails⟩ := inductionHypothesis (List.cons.inj same).2
      exact ⟨rfl, tails⟩

theorem render_eq (depth : Nat) (text : List Char) (below : List Entry) (rest : List Char) :
    (mk text below).render depth ++ rest =
      List.replicate (2 * depth) ' ' ++ (text ++ '\n' :: (renderEach (depth + 1) below ++ rest)) := by
  simp [render]

/-- An entry starts with as many blanks as its depth asks for. -/
theorem Lined.starts {e : Entry} (lined : e.Lined) (depth : Nat) (rest : List Char) :
    ∃ c tail, c ≠ ' ' ∧ e.render depth ++ rest = List.replicate (2 * depth) ' ' ++ c :: tail := by
  obtain ⟨text, below⟩ := e
  obtain ⟨⟨⟨c, tail, rfl, notBlank⟩, -⟩, -⟩ := lined
  exact ⟨c, _, notBlank, render_eq ..⟩

/-- Further entries at a depth end those that are deeper. -/
theorem LinedEach.ends {entries : List Entry} (lined : LinedEach entries) {depth : Nat} {rest : List Char}
    (ends : Ends depth rest) : Ends (depth + 1) (renderEach depth entries ++ rest) := by
  cases entries with
  | nil => exact ends.deeper
  | cons e others =>
    obtain ⟨c, tail, notBlank, starts⟩ := lined.1.starts depth (renderEach depth others ++ rest)
    exact .inr ⟨depth, c, tail, Nat.lt_succ_self _, notBlank, by rw [renderEach, List.append_assoc, starts]⟩

/-- Where entries end, no further one starts. -/
theorem Ends.not_render {depth : Nat} {rest : List Char} (ends : Ends depth rest) {e : Entry} (lined : e.Lined)
    {behind : List Char} : rest ≠ e.render depth ++ behind := by
  obtain ⟨c, tail, notBlank, starts⟩ := lined.starts depth behind
  rw [starts]
  rintro rfl
  obtain nothing | ⟨k, d, tailAgain, lesser, notBlankAgain, same⟩ := ends
  · simp at nothing
  · have := (blanks_inj notBlank notBlankAgain same).1
    omega

/-! ## Reading back -/

/-- Entries are read back from their lines, whatever follows at a lesser depth. -/
theorem eq_of_renderEach : ∀ {entries others : List Entry} {depth : Nat} {rest restAgain : List Char},
    LinedEach entries → LinedEach others → Ends depth rest → Ends depth restAgain →
      renderEach depth entries ++ rest = renderEach depth others ++ restAgain →
        entries = others ∧ rest = restAgain
  | [], [], _, _, _, _, _, _, _, same => ⟨rfl, same⟩
  | [], e :: others, depth, _, _, _, lined, ends, _, same => by
    simp only [renderEach, List.nil_append, List.append_assoc] at same
    exact absurd same (ends.not_render lined.1)
  | e :: entries, [], depth, _, _, lined, _, _, ends, same => by
    simp only [renderEach, List.nil_append, List.append_assoc] at same
    exact absurd same.symm (ends.not_render lined.1)
  | ⟨text, below⟩ :: entries, ⟨textAgain, belowAgain⟩ :: others, depth, rest, restAgain, lined, linedAgain, ends,
      endsAgain, same => by
    obtain ⟨⟨line, linedBelow⟩, linedRest⟩ := lined
    obtain ⟨⟨lineAgain, linedBelowAgain⟩, linedRestAgain⟩ := linedAgain
    rw [renderEach, renderEach, List.append_assoc, List.append_assoc, render_eq, render_eq,
      List.append_cancel_left_eq] at same
    -- the first line ends at the first break, and what is under it where the further entries start
    obtain ⟨rfl, behindLine⟩ := cut_first line.noBreak lineAgain.noBreak same
    obtain ⟨rfl, behindBelow⟩ := eq_of_renderEach linedBelow linedBelowAgain (linedRest.ends ends)
      (linedRestAgain.ends endsAgain) behindLine
    obtain ⟨rfl, rfl⟩ := eq_of_renderEach linedRest linedRestAgain ends endsAgain behindBelow
    exact ⟨rfl, rfl⟩
termination_by entries => sizeOf entries

end Entry

end FrontEnd
