/-!
# Items up to a last one

A `Source` gives one item after the other, perhaps without end. `UpToLast` takes from it the items up to
and including the first that satisfies a condition, and leaves the source alone from then on. It is a source itself.
-/

namespace FrontEnd

/-- Something that items can be taken from, as operations on a state. Where there is no item now, there may be
items again later. -/
structure Source (σ α : Type) where
  /-- The next item, if there is one now, and the state behind it. -/
  next : σ → Option α × σ
  /-- A lower and perhaps an upper bound on the number of items to come. -/
  sizeHint : σ → Nat × Option Nat

/-- The items of a list. -/
def Source.ofList (α : Type) : Source (List α) α where
  next
    | [] => (none, [])
    | x :: xs => (some x, xs)
  sizeHint xs := (xs.length, some xs.length)

/-- Items up to a last one. -/
structure UpToLast (σ ρ α : Type) where
  source : Source σ α
  /-- Whether an item is the last one. It may depend on what is remembered of the items before. -/
  isLast : ρ → α → Bool × ρ
  /-- The state of the source, which stays where it is once the source is left alone. -/
  state : σ
  memory : ρ
  /-- Whether the source is left alone: it had no item, or gave the last one. -/
  ended : Bool

namespace UpToLast

variable {σ ρ α : Type}

/-- The items of a source from a state on, up to the first that is the last by a test with a memory. -/
def startWith (source : Source σ α) (isLast : ρ → α → Bool × ρ) (memory : ρ) (state : σ) : UpToLast σ ρ α :=
  ⟨source, isLast, state, memory, false⟩

/-- The items of a source from a state on, up to the first that satisfies `isLast`. -/
def start (source : Source σ α) (isLast : α → Bool) (state : σ) : UpToLast σ Unit α :=
  startWith source (fun _ item => (isLast item, ())) () state

/-- The next item, if there is one, and what remains. -/
def next (t : UpToLast σ ρ α) : Option α × UpToLast σ ρ α :=
  if t.ended then (none, t)
  else
    match t.source.next t.state with
    | (none, state) => (none, { t with state, ended := true })
    | (some item, state) =>
      let (ended, memory) := t.isLast t.memory item
      (some item, { t with state, memory, ended })

/-- A lower and perhaps an upper bound on the number of items to come. -/
def sizeHint (t : UpToLast σ ρ α) : Nat × Option Nat :=
  if t.ended then (0, some 0) else (0, (t.source.sizeHint t.state).2)

/-- The items that are taken, as a source. -/
def taken (σ ρ α : Type) : Source (UpToLast σ ρ α) α :=
  ⟨next, sizeHint⟩

end UpToLast

end FrontEnd
