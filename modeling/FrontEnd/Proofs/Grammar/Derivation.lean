import Mathlib.Computability.ContextFreeGrammar
import Mathlib.Data.List.Chain

/-!
# Derivations and neighbours

What may stand side by side in the sentential forms of a context-free grammar. A relation between neighbours is
kept by a rule (`ContextFreeRule.Keeps`) if it holds inside of what the rule puts in place of its nonterminal, and
if what may stand beside the nonterminal may stand beside that as well. Terminals that stand side by side are
never parted.
-/

section

variable {T N α : Type*}

/-- One element of a list in which neighbours are related may be replaced by a list of the same sort. -/
theorem List.IsChain.replace {R : α → α → Prop} {before behind new : List α} {a : α}
    (chain : (before ++ [a] ++ behind).IsChain R) (inside : new.IsChain R)
    (first : ∀ x, R x a → ∀ y ∈ new.head?, R x y) (last : ∀ y, R a y → ∀ x ∈ new.getLast?, R x y)
    (empty : new = [] → ∀ x y, R x a → R a y → R x y) : (before ++ new ++ behind).IsChain R := by
  rw [List.append_assoc, List.singleton_append, List.isChain_append, List.isChain_cons] at chain
  obtain ⟨chainBefore, ⟨next, chainBehind⟩, previous⟩ := chain
  have previous : ∀ x ∈ before.getLast?, R x a := fun x member => previous x member a rfl
  rw [List.append_assoc, List.isChain_append, List.isChain_append]
  refine ⟨chainBefore, ⟨inside, chainBehind, fun x isLast y isNext => last y (next y isNext) x isLast⟩, ?_⟩
  intro x isPrevious y isFirst
  cases new with
  | nil => exact empty rfl x y (previous x isPrevious) (next y isFirst)
  | cons b rest => exact first x (previous x isPrevious) y isFirst

/-- Whether a rule keeps a relation between neighbours. -/
structure ContextFreeRule.Keeps (r : ContextFreeRule T N) (R : Symbol T N → Symbol T N → Prop) : Prop where
  inside : r.output.IsChain R
  first : ∀ x, R x (.nonterminal r.input) → ∀ y ∈ r.output.head?, R x y
  last : ∀ y, R (.nonterminal r.input) y → ∀ x ∈ r.output.getLast?, R x y
  empty : r.output = [] → ∀ x y, R x (.nonterminal r.input) → R (.nonterminal r.input) y → R x y

namespace ContextFreeGrammar

variable {g : ContextFreeGrammar T} {u v form : List (Symbol T g.NT)} {A : g.NT}

theorem derives_of_mem (member : ⟨A, form⟩ ∈ g.rules) : g.Derives [.nonterminal A] form :=
  Produces.single ⟨_, member, ContextFreeRule.Rewrites.input_output⟩

/-- A part in the middle of a form can be derived from on its own. -/
theorem Derives.part {before behind : List (Symbol T g.NT)} (whole : g.Derives form (before ++ u ++ behind))
    (part : g.Derives u v) : g.Derives form (before ++ v ++ behind) :=
  whole.trans ((part.append_left before).append_right behind)

theorem Produces.isChain {R : Symbol T g.NT → Symbol T g.NT → Prop} (keeps : ∀ r ∈ g.rules, r.Keeps R)
    (produces : g.Produces u v) (chain : u.IsChain R) : v.IsChain R := by
  obtain ⟨r, member, rewrites⟩ := produces
  obtain ⟨before, behind, rfl, rfl⟩ := rewrites.exists_parts
  have kept := keeps r member
  exact chain.replace kept.inside kept.first kept.last kept.empty

/-- What may stand side by side at the start of a derivation is all that ever does. -/
theorem Derives.isChain {R : Symbol T g.NT → Symbol T g.NT → Prop} (keeps : ∀ r ∈ g.rules, r.Keeps R)
    (derives : g.Derives u v) (chain : u.IsChain R) : v.IsChain R := by
  induction derives with
  | refl => exact chain
  | tail _ last inductionHypothesis => exact last.isChain keeps inductionHypothesis

/-- Two terminals side by side are still so after a step. -/
theorem Produces.beside {a b : T} (produces : g.Produces u v)
    (beside : [.terminal a, .terminal b] <:+: u) : [.terminal a, .terminal b] <:+: v := by
  obtain ⟨r, -, rewrites⟩ := produces
  -- the nonterminal that is replaced stands before the two, or behind
  induction rewrites with
  | head rest =>
    obtain ⟨before, behind, split⟩ := beside
    cases before with
    | nil => simp at split
    | cons x before =>
      simp only [List.cons_append, List.cons.injEq] at split
      rw [← split.2]
      exact (List.infix_append before _ behind).trans (List.suffix_append r.output _).isInfix
  | cons x rewrites inductionHypothesis =>
    rw [List.infix_cons_iff] at beside
    obtain atFront | later := beside
    · rw [List.cons_prefix_cons] at atFront
      obtain ⟨rfl, next⟩ := atFront
      cases rewrites with
      | head rest => simp [List.cons_prefix_cons] at next
      | cons y rewrites =>
        rw [List.cons_prefix_cons] at next
        obtain ⟨rfl, -⟩ := next
        exact List.IsPrefix.isInfix (by simp)
    · exact (inductionHypothesis later).trans (List.suffix_cons x _).isInfix

theorem Derives.beside {a b : T} (derives : g.Derives u v)
    (beside : [.terminal a, .terminal b] <:+: u) : [.terminal a, .terminal b] <:+: v := by
  induction derives with
  | refl => exact beside
  | tail _ last inductionHypothesis => exact last.beside inductionHypothesis

end ContextFreeGrammar

end
