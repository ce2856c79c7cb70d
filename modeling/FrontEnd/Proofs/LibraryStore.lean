import FrontEnd.Library.Store
import FrontEnd.Proofs.Headers

/-!
# What the store of the library answers

The functions of the library are kept space by space, but a function is known by the pair of its space and its name:
the first that was added by the pair is found, whatever was added by any other (`addAll_answers`). A space is there
exactly if there are functions in it, though it is opened before its functions are looked at. For a function is
refused only where there is one of its name, and then its space was there before.
-/

namespace FrontEnd

namespace Library

namespace Store

/-! ## Tables of spaces -/

theorem lookup_cons_ite {α : Type} (entry : String × α) (rest : List (String × α)) (key : String) :
    (entry :: rest).lookup key = if key = entry.1 then some entry.2 else rest.lookup key := by
  rw [List.lookup_cons]
  by_cases same : key = entry.1
  · rw [if_pos same, beq_iff_eq.mpr same]
  · rw [if_neg same, beq_eq_false_iff_ne.mpr same]

variable (s : Store)

theorem lookup_openSpace (space other : String) :
    (s.openSpace space).spaces.lookup other =
      if other = space then some ((s.spaces.lookup space).getD []) else s.spaces.lookup other := by
  rw [openSpace, hasSpace]
  cases found : s.spaces.lookup space with
  | some table => by_cases same : other = space <;> simp [same, found]
  | none => by_cases same : other = space <;> simp [same, found, List.lookup_append, lookup_cons_ite]

/-- A table is put in the place of the one that was there. -/
theorem lookup_setSpace (space other : String) (table : Space) :
    (s.setSpace space table).spaces.lookup other =
      if other = space then (s.spaces.lookup space).map fun _ => table else s.spaces.lookup other := by
  obtain ⟨spaces⟩ := s
  rw [setSpace]
  induction spaces with
  | nil => simp
  | cons entry rest inductionHypothesis =>
    rw [List.map_cons, lookup_cons_ite, lookup_cons_ite, lookup_cons_ite, inductionHypothesis]
    by_cases here : space = entry.1
    · subst here
      by_cases same : other = entry.1 <;> simp [same]
    · by_cases same : other = space
      · subst same
        simp [here, Ne.symm here]
      · simp [same, Ne.symm here]

/-! ## One call -/

theorem getFunction?_eq (space name : String) :
    s.getFunction? space name = ((s.spaces.lookup space).getD []).lookup name := by
  rw [getFunction?]
  cases s.spaces.lookup space <;> rfl

theorem lookup_openSpace_self (space : String) :
    ((s.openSpace space).spaces.lookup space).getD [] = (s.spaces.lookup space).getD [] := by
  rw [lookup_openSpace, if_pos rfl, Option.getD_some]

theorem add_eq (space name : String) (f : FunctionSymbol) :
    s.add space name f =
      if (s.getFunction? space name).isSome then
        (.error (.duplicateSymbol .function (space ++ "::" ++ name) 0), s.openSpace space)
      else (.ok (), (s.openSpace space).setSpace space ((s.spaces.lookup space).getD [] ++ [(name, f)])) := by
  rw [add, lookup_openSpace_self, getFunction?_eq]

/-- A function is refused exactly if there is one of its space and its name. -/
theorem add_fst (space name : String) (f : FunctionSymbol) :
    (s.add space name f).1 =
      if (s.getFunction? space name).isSome then
        .error (.duplicateSymbol .function (space ++ "::" ++ name) 0)
      else .ok () := by
  rw [add_eq]
  exact apply_ite Prod.fst _ _ _

theorem hasSpace_of_isSome {space name : String} (found : (s.getFunction? space name).isSome) :
    s.hasSpace space := by
  rw [getFunction?] at found
  rw [hasSpace]
  cases there : s.spaces.lookup space with
  | none => rw [there] at found; cases found
  | some table => rfl

/-- A function that is refused finds its space open, so that nothing changes. -/
theorem add_of_taken {space name : String} (f : FunctionSymbol) (taken : (s.getFunction? space name).isSome) :
    (s.add space name f).2 = s := by
  rw [add_eq, if_pos taken]
  exact if_pos (s.hasSpace_of_isSome taken)

/-- A function that is added stands behind the others of its space. -/
theorem lookup_add_of_free {space name : String} (f : FunctionSymbol) (free : ¬(s.getFunction? space name).isSome)
    (other : String) :
    (s.add space name f).2.spaces.lookup other =
      if other = space then some ((s.spaces.lookup space).getD [] ++ [(name, f)]) else s.spaces.lookup other := by
  rw [add_eq, if_neg free, lookup_setSpace, lookup_openSpace, lookup_openSpace, if_pos rfl]
  by_cases same : other = space <;> simp [same]

/-- What was there is still found, and behind it the function that is added. -/
theorem getFunction?_add (space name : String) (f : FunctionSymbol) (other called : String) :
    (s.add space name f).2.getFunction? other called =
      (s.getFunction? other called).or (if space = other ∧ name = called then some f else none) := by
  by_cases taken : (s.getFunction? space name).isSome
  · rw [s.add_of_taken f taken]
    by_cases same : space = other ∧ name = called
    · -- it was refused, and what was there is found as before
      obtain ⟨rfl, rfl⟩ := same
      rw [Option.or_of_isSome taken]
    · rw [if_neg same, Option.or_none]
  · rw [getFunction?_eq, s.lookup_add_of_free f taken, getFunction?_eq]
    by_cases here : other = space
    · subst here
      by_cases named : name = called <;> simp [List.lookup_append, lookup_cons_ite, named, Ne.symm]
    · simp [here, Ne.symm here]

/-- A call leaves its space behind, whether it is refused or not. -/
theorem hasSpace_add (space name : String) (f : FunctionSymbol) (other : String) :
    (s.add space name f).2.hasSpace other = (s.hasSpace other || decide (other = space)) := by
  by_cases taken : (s.getFunction? space name).isSome
  · rw [s.add_of_taken f taken]
    by_cases same : other = space
    · rw [same, s.hasSpace_of_isSome taken, Bool.true_or]
    · rw [decide_eq_false same, Bool.or_false]
  · rw [hasSpace, s.lookup_add_of_free f taken, hasSpace]
    by_cases same : other = space <;> simp [same]

/-! ## Calls one after the other -/

theorem addAll_concat (calls : List LibraryEntry) (call : LibraryEntry) :
    s.addAll (calls ++ [call]) = ((s.addAll calls).add call.space call.name call.function).2 :=
  List.foldl_append ..

/-- The first call with a space and a name decides, unless there was a function before. -/
theorem getFunction?_addAll (calls : List LibraryEntry) (space name : String) :
    (s.addAll calls).getFunction? space name =
      (s.getFunction? space name).or
        ((calls.find? fun c => c.space = space ∧ c.name = name).map LibraryEntry.function) := by
  induction calls using List.reverseRecOn with
  | nil => exact (Option.or_none).symm
  | append_singleton calls call inductionHypothesis =>
    rw [addAll_concat, getFunction?_add, inductionHypothesis, Option.or_assoc, List.find?_append, Option.map_or]
    by_cases called : call.space = space ∧ call.name = name <;> simp [called]

theorem hasSpace_addAll (calls : List LibraryEntry) (space : String) :
    (s.addAll calls).hasSpace space = (s.hasSpace space || calls.any fun c => c.space = space) := by
  induction calls using List.reverseRecOn with
  | nil => exact (Bool.or_false _).symm
  | append_singleton calls call inductionHypothesis =>
    rw [addAll_concat, hasSpace_add, inductionHypothesis, List.any_append, Bool.or_assoc]
    simp [eq_comm]

/-- There are functions in each space. -/
def Filled : Prop :=
  ∀ space, s.hasSpace space → ∃ name f, s.getFunction? space name = some f

variable {s}

theorem filled_empty : Filled .empty :=
  fun _ opened => absurd opened Bool.false_ne_true

theorem Filled.add (filled : s.Filled) (space name : String) (f : FunctionSymbol) : (s.add space name f).2.Filled := by
  intro other opened
  rw [hasSpace_add, Bool.or_eq_true, decide_eq_true_iff] at opened
  rcases opened with before | rfl
  · -- what was found in the space before is still found
    obtain ⟨called, g, found⟩ := filled other before
    exact ⟨called, g, by rw [getFunction?_add, found, Option.some_or]⟩
  · refine ⟨name, (s.getFunction? other name).getD f, ?_⟩
    rw [getFunction?_add, if_pos ⟨rfl, rfl⟩]
    cases s.getFunction? other name <;> rfl

theorem Filled.addAll (filled : s.Filled) (calls : List LibraryEntry) : (s.addAll calls).Filled := by
  induction calls generalizing s with
  | nil => exact filled
  | cons call rest inductionHypothesis => exact inductionHypothesis (filled.add call.space call.name call.function)

/-! ## The store of a library -/

section

variable (l : Library)

theorem getFunction?_ofLibrary (space name : String) :
    (ofLibrary l).getFunction? space name = l.getFunction? space name :=
  (getFunction?_addAll .empty l.entries space name).trans (Option.none_or ..)

theorem hasSpace_ofLibrary (space : String) : (ofLibrary l).hasSpace space = l.hasSpace space :=
  (hasSpace_addAll .empty l.entries space).trans (Bool.false_or ..)

/-- A call on the store of a library gives the store of the library behind the same call. -/
theorem add_ofLibrary (space name : String) (f : FunctionSymbol) :
    (ofLibrary l).add space name f =
      match l.add space name f with
      | .ok behind => (.ok (), ofLibrary behind)
      | .error fault => (.error fault, ofLibrary l) := by
  have answer := (ofLibrary l).add_fst space name f
  rw [getFunction?_ofLibrary] at answer
  rw [Library.add]
  by_cases taken : (l.getFunction? space name).isSome
  · rw [if_pos taken] at answer ⊢
    exact Prod.ext answer ((ofLibrary l).add_of_taken f (by rwa [getFunction?_ofLibrary]))
  · rw [if_neg taken] at answer ⊢
    exact Prod.ext answer (addAll_concat .empty l.entries ⟨space, name, f⟩).symm

end

theorem filled_of_standard {loaded : Store} (standard : Store.standard = .ok loaded) : loaded.Filled := by
  obtain ⟨library, loads, -⟩ := Library.exists_standard
  rw [Store.standard, loads] at standard
  cases standard
  exact filled_empty.addAll library.entries

/-! ## What is found behind calls -/

/-- What a store answers behind some calls of `add`. -/
structure Answers (initial : Store) (calls : List LibraryEntry) (s : Store) : Prop where
  /-- A function is that of the first call with its space and its name, unless there was one before. -/
  getFunction? : ∀ space name, s.getFunction? space name =
    (initial.getFunction? space name).or
      ((calls.find? fun c => c.space = space ∧ c.name = name).map LibraryEntry.function)
  hasSpace : ∀ space, s.hasSpace space ↔ ∃ name f, s.getFunction? space name = some f
  refused : ∀ space name f fault, (s.add space name f).1 = .error fault ↔
    (s.getFunction? space name).isSome ∧ fault = .duplicateSymbol .function (space ++ "::" ++ name) 0
  /-- A call that is refused leaves all spaces as they were. -/
  unchanged : ∀ space name f fault, (s.add space name f).1 = .error fault → (s.add space name f).2 = s
  /-- A call makes no difference for another pair of a space and a name, whatever the two are put together. -/
  apart : ∀ space name f other called, (other, called) ≠ (space, name) →
    (s.add space name f).2.getFunction? other called = s.getFunction? other called ∧
      ∀ g, ((s.add space name f).2.add other called g).1 = (s.add other called g).1

/-- In a store that was empty or loaded at first, the first call with a space and a name decides, and a space is there
exactly if there are functions in it. A call is refused exactly if there is a function, and then changes nothing. -/
theorem addAll_answers {initial : Store} (begins : initial = .empty ∨ Store.standard = .ok initial)
    (calls : List LibraryEntry) : Answers initial calls (initial.addAll calls) := by
  have filled : (initial.addAll calls).Filled := by
    rcases begins with rfl | loaded
    · exact filled_empty.addAll calls
    · exact (filled_of_standard loaded).addAll calls
  generalize behind : initial.addAll calls = s at filled ⊢
  constructor
  case getFunction? => exact behind ▸ initial.getFunction?_addAll calls
  case hasSpace =>
    intro space
    refine ⟨filled space, fun functions => ?_⟩
    obtain ⟨name, f, found⟩ := functions
    exact s.hasSpace_of_isSome (Option.isSome_of_eq_some found)
  case refused =>
    intro space name f fault
    rw [add_fst]
    by_cases taken : (s.getFunction? space name).isSome <;> simp [taken, eq_comm]
  case unchanged =>
    intro space name f fault refused
    rw [add_fst] at refused
    split at refused
    next taken => exact s.add_of_taken f taken
    next => cases refused
  case apart =>
    intro space name f other called distinct
    have same : (s.add space name f).2.getFunction? other called = s.getFunction? other called := by
      have differs : ¬(space = other ∧ name = called) := fun same => distinct (by rw [same.1, same.2])
      rw [getFunction?_add, if_neg differs, Option.or_none]
    exact ⟨same, fun g => by rw [add_fst, add_fst, same]⟩

/-- Two functions of different spaces and names that are the same put together, one of them added twice. -/
def joined : List LibraryEntry :=
  let f (returns : List TypeTag) : FunctionSymbol := ⟨"f", [], returns, ⟨[], default⟩, default⟩
  [⟨"a", "b::c", f [.int]⟩, ⟨"a::b", "c", f [.bool]⟩, ⟨"a", "b::c", f [.string]⟩]

theorem addAll_answers_joined :
    "a" ++ "::" ++ "b::c" = "a::b" ++ "::" ++ "c" ∧
      Answers .empty joined (Store.empty.addAll joined) ∧
      (∃ loaded, Store.standard = .ok loaded ∧ Answers loaded joined (loaded.addAll joined)) ∧
      ((Store.empty.addAll joined).getFunction? "a" "b::c").map FunctionSymbol.returns = some [.int] ∧
      ((Store.empty.addAll joined).getFunction? "a::b" "c").map FunctionSymbol.returns = some [.bool] := by
  refine ⟨rfl, addAll_answers (.inl rfl) joined, ?_, by decide, by decide⟩
  obtain ⟨library, loads, -⟩ := Library.exists_standard
  have standard : Store.standard = .ok (ofLibrary library) := by rw [Store.standard, loads]; rfl
  exact ⟨_, standard, addAll_answers (.inr standard) joined⟩

end Store

end Library

end FrontEnd
