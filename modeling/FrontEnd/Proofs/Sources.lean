import FrontEnd.UpToLast

/-!
# What is taken from a source

A source may give items without end, and it may have items again where it had none before. What is taken up to a last
item is told call by call: until the source has no item, or gives the last one, each call is answered by the source;
from then on there are no items, and the source stays where it is (`startWith_takes`). So as a source of its own, what
is taken has an end for good.
-/

namespace FrontEnd

namespace Source

variable {σ α : Type} (source : Source σ α)

/-- The state behind some calls. -/
def after (s : σ) : Nat → σ
  | 0 => s
  | n + 1 => (source.next (after s n)).2

/-- The answer to a call, behind some others. -/
def answer (s : σ) (n : Nat) : Option α :=
  (source.next (source.after s n)).1

/-- The items that some calls give, up to the first that gives none. -/
def items (s : σ) : Nat → List α
  | 0 => []
  | n + 1 =>
    match source.next s with
    | (none, _) => []
    | (some item, behind) => item :: items behind n

theorem after_add (s : σ) (m n : Nat) : source.after s (m + n) = source.after (source.after s m) n := by
  induction n with
  | zero => rfl
  | succ n inductionHypothesis => exact congrArg (fun behind => (source.next behind).2) inductionHypothesis

/-- The hint of a source is right about the number of its items to come, of which there may be no end. -/
structure HintHolds (s : σ) : Prop where
  lower : ∃ n, (source.sizeHint s).1 ≤ (source.items s n).length
  upper : ∀ bound, (source.sizeHint s).2 = some bound → ∀ n, (source.items s n).length ≤ bound

theorem hintHolds_ofList (xs : List α) : (ofList α).HintHolds xs := by
  have all : (ofList α).items xs xs.length = xs := by
    induction xs with
    | nil => rfl
    | cons x xs inductionHypothesis => exact congrArg (x :: ·) inductionHypothesis
  have most (n : Nat) : ((ofList α).items xs n).length ≤ xs.length := by
    clear all
    induction n generalizing xs with
    | zero => exact Nat.zero_le _
    | succ n inductionHypothesis =>
      cases xs with
      | nil => exact Nat.le_refl _
      | cons x xs => exact Nat.succ_le_succ (inductionHypothesis xs)
  constructor
  case lower => exact ⟨xs.length, by rw [all]; exact Nat.le_refl _⟩
  case upper =>
    intro bound given
    cases given
    exact most

section

variable {ρ : Type} (isLast : ρ → α → Bool × ρ)

/-- What a test remembers behind some calls, which it is shown the items of. -/
def remembered (memory : ρ) (s : σ) : Nat → ρ
  | 0 => memory
  | n + 1 =>
    match source.answer s n with
    | none => remembered memory s n
    | some item => (isLast (remembered memory s n) item).2

/-- A call behind some others gives no item, or the last one by a test. -/
def EndsAt (memory : ρ) (s : σ) (n : Nat) : Prop :=
  ∀ item, source.answer s n = some item → (isLast (source.remembered isLast memory s n) item).1

end

end Source

/-- Items up to and including the first that is the last by a test. -/
def upTo {ρ α : Type} (isLast : ρ → α → Bool × ρ) : ρ → List α → List α
  | _, [] => []
  | memory, x :: xs =>
    if (isLast memory x).1 then [x] else x :: upTo isLast (isLast memory x).2 xs

/-- By a test without a memory, these are the items before the first that satisfies it, and that one. -/
theorem upTo_eq_takeWhile_append {α : Type} (p : α → Bool) (xs : List α) :
    upTo (fun _ x => (p x, ())) () xs = xs.takeWhile (fun x => !p x) ++ (xs.find? p).toList := by
  induction xs with
  | nil => rfl
  | cons x xs inductionHypothesis =>
    rw [upTo, List.takeWhile_cons, List.find?_cons, inductionHypothesis]
    cases p x <;> rfl

theorem length_upTo_le {ρ α : Type} (isLast : ρ → α → Bool × ρ) (memory : ρ) (xs : List α) :
    (upTo isLast memory xs).length ≤ xs.length := by
  induction xs generalizing memory with
  | nil => exact Nat.le_refl _
  | cons x xs inductionHypothesis =>
    rw [upTo]
    split
    · exact Nat.succ_le_succ (Nat.zero_le _)
    · exact Nat.succ_le_succ (inductionHypothesis _)

namespace UpToLast

variable {σ ρ α : Type}

/-! ## One call -/

theorem next_of_ended {t : UpToLast σ ρ α} (ended : t.ended = true) : (taken σ ρ α).next t = (none, t) :=
  if_pos ended

theorem sizeHint_of_ended {t : UpToLast σ ρ α} (ended : t.ended = true) :
    (taken σ ρ α).sizeHint t = (0, some 0) :=
  if_pos ended

section

variable {source : Source σ α} {isLast : ρ → α → Bool × ρ} {memory : ρ} {s behind : σ}

theorem next_of_none (polled : source.next s = (none, behind)) :
    (taken σ ρ α).next (startWith source isLast memory s) = (none, ⟨source, isLast, behind, memory, true⟩) := by
  simp only [taken, next, startWith, polled]
  rfl

theorem next_of_some {item : α} (polled : source.next s = (some item, behind)) :
    (taken σ ρ α).next (startWith source isLast memory s) =
      (some item, ⟨source, isLast, behind, (isLast memory item).2, (isLast memory item).1⟩) := by
  simp only [taken, next, startWith, polled]
  rfl

/-- The answer of the source is passed on, whatever it is. -/
theorem answer_startWith :
    ((taken σ ρ α).next (startWith source isLast memory s)).1 = (source.next s).1 := by
  rcases polled : source.next s with ⟨_ | item, behind⟩
  · rw [next_of_none polled]
  · rw [next_of_some polled]

end

/-! ## Once the source is left alone -/

section

variable {t : UpToLast σ ρ α} (ended : t.ended = true)

include ended

theorem after_of_ended (n : Nat) : (taken σ ρ α).after t n = t := by
  induction n with
  | zero => rfl
  | succ n inductionHypothesis => rw [Source.after, inductionHypothesis, next_of_ended ended]

theorem items_of_ended (n : Nat) : (taken σ ρ α).items t n = [] := by
  cases n with
  | zero => rfl
  | succ n => rw [Source.items, next_of_ended ended]

theorem hintHolds_of_ended : (taken σ ρ α).HintHolds t := by
  constructor
  case lower => exact ⟨0, by rw [sizeHint_of_ended ended]; exact Nat.le_refl _⟩
  case upper =>
    intro bound given n
    rw [items_of_ended ended]
    exact Nat.zero_le _

end

/-! ## Until then -/

section

variable {source : Source σ α} {isLast : ρ → α → Bool × ρ} {memory : ρ} {s : σ}

/-- What is taken are the items of the source, up to the last one. -/
theorem items_startWith (n : Nat) :
    (taken σ ρ α).items (startWith source isLast memory s) n = upTo isLast memory (source.items s n) := by
  induction n generalizing memory s with
  | zero => rfl
  | succ n inductionHypothesis =>
    rw [Source.items, Source.items]
    rcases polled : source.next s with ⟨_ | item, behind⟩
    · rw [next_of_none polled]
      rfl
    · rw [next_of_some polled]
      simp only [upTo]
      cases last : (isLast memory item).1 with
      | true => rw [items_of_ended rfl, if_pos rfl]
      | false =>
        -- what remains is taken as from the start, with what the test remembers by now
        rw [if_neg Bool.false_ne_true]
        exact congrArg (item :: ·) inductionHypothesis

/-- With a test that has no memory, these are the items of the source before the first that satisfies it, and that
one. -/
theorem items_start (source : Source σ α) (isLast : α → Bool) (s : σ) (n : Nat) :
    (taken σ Unit α).items (start source isLast s) n =
      (source.items s n).takeWhile (fun item => !isLast item) ++ ((source.items s n).find? isLast).toList :=
  (items_startWith n).trans (upTo_eq_takeWhile_append isLast _)

/-- The hint is right wherever that of the source is: no more is taken than the source has. -/
theorem hintHolds_startWith (valid : source.HintHolds s) :
    (taken σ ρ α).HintHolds (startWith source isLast memory s) where
  lower := ⟨0, Nat.le_refl _⟩
  upper := by
    intro bound given n
    rw [items_startWith]
    exact Nat.le_trans (length_upTo_le ..) (valid.upper bound given n)

/-- As long as no call was the end, the source is where it would be by itself. -/
theorem after_startWith {n : Nat} (goesOn : ∀ k < n, ¬source.EndsAt isLast memory s k) :
    (taken σ ρ α).after (startWith source isLast memory s) n =
      startWith source isLast (source.remembered isLast memory s n) (source.after s n) := by
  induction n with
  | zero => rfl
  | succ n inductionHypothesis =>
    rw [Source.after, inductionHypothesis fun k before => goesOn k (Nat.lt_succ_of_lt before)]
    have notEnd := goesOn n (Nat.lt_succ_self n)
    rcases polled : source.next (source.after s n) with ⟨_ | item, behind⟩
    · -- without an item the call would be an end
      have none : source.answer s n = none := congrArg Prod.fst polled
      exact absurd (fun item some => absurd (none.symm.trans some) (Option.some_ne_none item).symm) notEnd
    · have some : source.answer s n = some item := congrArg Prod.fst polled
      have last : (isLast (source.remembered isLast memory s n) item).1 = false := by
        rw [← Bool.not_eq_true]
        intro last
        refine notEnd fun other same => ?_
        cases some.symm.trans same
        exact last
      rw [next_of_some polled, Source.after, polled, Source.remembered, some, last]
      rfl

/-- Behind the call that was the end, the source is left alone. -/
theorem ended_after {k : Nat} (goesOn : ∀ j < k, ¬source.EndsAt isLast memory s j)
    (ends : source.EndsAt isLast memory s k) :
    ((taken σ ρ α).after (startWith source isLast memory s) (k + 1)).ended = true ∧
      ((taken σ ρ α).after (startWith source isLast memory s) (k + 1)).state = source.after s (k + 1) := by
  rw [Source.after, after_startWith goesOn, Source.after]
  rcases polled : source.next (source.after s k) with ⟨_ | item, behind⟩
  · rw [next_of_none polled]
    exact ⟨rfl, rfl⟩
  · rw [next_of_some polled]
    exact ⟨ends item (congrArg Prod.fst polled), rfl⟩

/-- Behind some calls the source is left alone, or it is where it would be by itself. -/
theorem ended_or_eq_startWith (n : Nat) :
    ((taken σ ρ α).after (startWith source isLast memory s) n).ended = true ∨
      ∃ remembered, (taken σ ρ α).after (startWith source isLast memory s) n =
        startWith source isLast remembered (source.after s n) := by
  induction n with
  | zero => exact .inr ⟨memory, rfl⟩
  | succ n inductionHypothesis =>
    rw [Source.after]
    rcases inductionHypothesis with ended | ⟨remembered, stands⟩
    · rw [next_of_ended ended]
      exact .inl ended
    · rw [stands, Source.after]
      rcases polled : source.next (source.after s n) with ⟨_ | item, behind⟩
      · rw [next_of_none polled]
        exact .inl rfl
      · rw [next_of_some polled]
        cases last : (isLast remembered item).1 with
        | true => exact .inl rfl
        | false => exact .inr ⟨(isLast remembered item).2, rfl⟩

end

/-! ## All calls -/

/-- What is taken from a source up to a last item, told by the calls of the source by itself. -/
structure Takes (source : Source σ α) (isLast : ρ → α → Bool × ρ) (memory : ρ) (s : σ)
    (t : UpToLast σ ρ α) : Prop where
  items : ∀ n, (taken σ ρ α).items t n = upTo isLast memory (source.items s n)
  /-- Up to the first call that is an end, each is answered by the source. -/
  goesOn : ∀ n, (∀ k < n, ¬source.EndsAt isLast memory s k) →
    ((taken σ ρ α).after t n).state = source.after s n ∧
      (taken σ ρ α).answer t n = source.answer s n
  /-- Behind it there are no items, and the source stays where that call has left it. -/
  ended : ∀ k n, (∀ j < k, ¬source.EndsAt isLast memory s j) → source.EndsAt isLast memory s k → k < n →
    ((taken σ ρ α).after t n).state = source.after s (k + 1) ∧
      (taken σ ρ α).answer t n = none ∧ (taken σ ρ α).sizeHint ((taken σ ρ α).after t n) = (0, some 0)
  hints : ∀ n, (taken σ ρ α).HintHolds ((taken σ ρ α).after t n)

/-- From any source, with whatever test, the items are taken up to the first that is the last, and no more. The hints
are right if those of the source are. -/
theorem startWith_takes {source : Source σ α} {s : σ} (valid : ∀ n, source.HintHolds (source.after s n))
    (isLast : ρ → α → Bool × ρ) (memory : ρ) :
    Takes source isLast memory s (startWith source isLast memory s) := by
  constructor
  case items => exact items_startWith
  case goesOn =>
    intro n goesOn
    rw [Source.answer, after_startWith goesOn]
    exact ⟨rfl, answer_startWith⟩
  case ended =>
    intro k n goesOn ends later
    obtain ⟨ended, state⟩ := ended_after goesOn ends
    obtain ⟨m, rfl⟩ := Nat.exists_eq_add_of_le (Nat.succ_le_of_lt later)
    have stays : (taken σ ρ α).after (startWith source isLast memory s) (k + 1 + m) =
        (taken σ ρ α).after (startWith source isLast memory s) (k + 1) := by
      rw [Source.after_add, after_of_ended ended]
    rw [Source.answer, stays, next_of_ended ended]
    exact ⟨state, rfl, sizeHint_of_ended ended⟩
  case hints =>
    intro n
    rcases ended_or_eq_startWith n with ended | ⟨remembered, stands⟩
    · exact hintHolds_of_ended ended
    · rw [stands]
      exact hintHolds_startWith (valid n)

/-- The second even number is the last. -/
def secondEven (seen : Bool) (n : Nat) : Bool × Bool :=
  (seen && n % 2 = 0, seen || n % 2 = 0)

/-- The hint of a list is the number of its items. Two of these numbers stay behind the last that is taken. -/
theorem startWith_takes_secondEven :
    let numbers : Source (List Nat) Nat := .ofList Nat
    let t := startWith numbers secondEven false [1, 2, 3, 4, 5, 6]
    (∀ n, numbers.HintHolds (numbers.after [1, 2, 3, 4, 5, 6] n)) ∧
      Takes numbers secondEven false [1, 2, 3, 4, 5, 6] t ∧
      (taken (List Nat) Bool Nat).items t 9 = [1, 2, 3, 4] ∧ ((taken (List Nat) Bool Nat).after t 9).state = [5, 6] := by
  intro numbers t
  have valid (n : Nat) : numbers.HintHolds (numbers.after [1, 2, 3, 4, 5, 6] n) := Source.hintHolds_ofList _
  exact ⟨valid, startWith_takes valid secondEven false, by decide +kernel, by decide +kernel⟩

end UpToLast

end FrontEnd
