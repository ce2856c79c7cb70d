import FrontEnd.Proofs.Grammar.WellFormed
import FrontEnd.Tree.Parser.Statement

/-!
# What a run builds, and what it pays for it

`Builds k p s good` says what comes of a run of `p` from `s`, if what it takes for granted is so and `k`
errors were reported already on the way to `s`. What it makes is `good` for the number of errors reported by
then. And if it fails, at least one was reported. So each missing part of a tree can be laid to the account of
an error: it stands where a production failed.

A production is described as if no error was behind it, and `Builds.bind` adds up.
-/

namespace FrontEnd.Parser

variable {α β : Type}

def Builds (k : Nat) (p : Parser α) (s : State) (good : α → Nat → Prop) : Prop :=
  p.asserts s → ∃ m, (p.run s).2.errors.length = s.errors.length + m ∧
    match (p.run s).1 with
    | some x => good x (k + m)
    | none => 0 < k + m

variable {k : Nat} {good : α → Nat → Prop} {goal : β → Nat → Prop} {s : State}

/-! ## Composition -/

theorem builds_pure {x : α} (h : good x k) : Builds k (pure x) s good :=
  fun _ => ⟨0, rfl, h⟩

/-- With errors behind it, a production makes the same and pays as much. -/
theorem Builds.later {better : α → Nat → Prop} {p : Parser α} (builds : Builds 0 p s good)
    (imp : ∀ x m, good x m → better x (k + m)) : Builds k p s better := by
  intro asserts
  obtain ⟨m, count, made⟩ := builds asserts
  refine ⟨m, count, ?_⟩
  simp only [Nat.zero_add] at made
  cases result : (p.run s).1 with
  | none => exact Nat.lt_of_lt_of_le (by simpa only [result] using made) (Nat.le_add_left m k)
  | some x => exact imp x m (by simpa only [result] using made)

theorem Builds.bind {p : Parser α} {f : α → Parser β} (first : Builds 0 p s good)
    (second : ∀ x m t, good x m → Builds (k + m) (f x) t goal) : Builds k (p >>= f) s goal := by
  rintro ⟨asserts, behind⟩
  obtain ⟨m, count, made⟩ := first asserts
  rw [run_bind]
  cases ran : p.run s with
  | mk result t =>
    simp only [ran, Nat.zero_add] at count made
    cases result with
    | none => exact ⟨m, count, Nat.lt_of_lt_of_le made (Nat.le_add_left m k)⟩
    | some x =>
      obtain ⟨more, countBehind, madeBehind⟩ := second x m t made (behind x t ran)
      refine ⟨m + more, by dsimp only; omega, ?_⟩
      rwa [Nat.add_assoc] at madeBehind

/-- A production that fails has reported an error by then. -/
theorem Builds.attempt_bind {p : Parser α} {f : Option α → Parser β} (first : Builds 0 p s good)
    (made : ∀ x m t, good x m → Builds (k + m) (f (some x)) t goal)
    (failed : ∀ m t, 0 < m → Builds (k + m) (f none) t goal) :
    Builds k (attempt p >>= f) s goal := by
  have attempted : Builds 0 (attempt p) s fun o m => (∀ x ∈ o, good x m) ∧ (o = none → 0 < m) := by
    intro asserts
    obtain ⟨m, count, result⟩ := first asserts
    refine ⟨m, count, ?_⟩
    cases found : (p.run s).1 with
    | none => simpa [attempt, found] using result
    | some x => simpa [attempt, found] using result
  refine attempted.bind ?_
  rintro (_ | x) m t ⟨each, reported⟩
  · exact failed m t (reported rfl)
  · exact made x m t (each x rfl)

theorem builds_fail (reported : 0 < k) : Builds k (fail : Parser α) s good :=
  fun _ => ⟨0, rfl, reported⟩

theorem builds_reject {e : Error} {span : Span} : Builds k (reject e span : Parser α) s good :=
  fun _ => ⟨1, by simp [reject, State.report], Nat.succ_pos k⟩

theorem builds_report_bind {e : Error} {span : Span} {f : Unit → Parser β}
    (next : ∀ t, Builds (k + 1) (f ()) t goal) : Builds k (report e span >>= f) s goal := by
  have reported : Builds 0 (report e span) s fun _ m => m = 1 :=
    fun _ => ⟨1, by simp [report, State.report], rfl⟩
  refine reported.bind ?_
  rintro _ _ t rfl
  exact next t

/-! ## What is taken for granted -/

theorem builds_unreachable : Builds k (unreachable : Parser α) s good :=
  False.elim

theorem builds_ensure_bind {holds : State → Prop} {f : Unit → Parser β}
    (next : holds s → Builds k (f ()) s goal) : Builds k (ensure holds >>= f) s goal :=
  fun asserts => next asserts.1 (asserts.2 () s rfl)

theorem builds_joined_bind {first last : Span} {f : Span → Parser β}
    (next : ∀ span, Builds k (f span) s goal) : Builds k (joined first last >>= f) s goal :=
  fun asserts => next (first.upTo last) (asserts.2 (first.upTo last) s rfl)

/-! ## Looking -/

theorem builds_looking_bind {look : State → Option α} {x : α} {f : α → Parser β}
    (looks : look s = some x) (next : Builds k (f x) s goal) :
    Builds k (looking look >>= f) s goal := by
  rintro ⟨-, asserts⟩
  have same : (looking look >>= f).run s = (f x).run s := by simp [run_bind, looking, looks]
  rw [same]
  exact next (asserts x s (by simp [looking, looks]))

theorem builds_peek_bind {f : Token → Parser β} (next : Builds k (f s.current) s goal) :
    Builds k (peek >>= f) s goal :=
  builds_looking_bind rfl next

theorem builds_peekSecond_bind {f : Token → Parser β} (next : Builds k (f s.second) s goal) :
    Builds k (peekSecond >>= f) s goal :=
  builds_looking_bind rfl next

theorem builds_left_bind {f : Nat → Parser β} (next : Builds k (f s.ahead.length) s goal) :
    Builds k (left >>= f) s goal :=
  builds_looking_bind rfl next

theorem builds_atEnd_bind {kinds : List TokenKind} {f : Bool → Parser β}
    (next : Builds k (f (s.isAtEnd kinds)) s goal) : Builds k (atEnd kinds >>= f) s goal :=
  builds_looking_bind rfl next

/-! ## Single tokens -/

/-- A production that makes something in any case. -/
theorem builds_of_made {p : Parser α} (made : (p.run s).1.isSome) :
    Builds 0 p s fun _ _ => True := by
  intro _
  obtain ⟨new, errors⟩ := (p.reaches s).errors
  obtain ⟨x, result⟩ := Option.isSome_iff_exists.mp made
  exact ⟨new.length, by rw [← errors, List.length_append], by simp [result]⟩

theorem builds_advance_bind {f : Token → Parser β}
    (next : ∀ token m t, Builds (k + m) (f token) t goal) : Builds k (advance >>= f) s goal :=
  (builds_of_made rfl).bind fun token m t _ => next token m t

theorem builds_take_bind {kind : TokenKind} {f : Bool → Parser β}
    (next : ∀ answer m t, Builds (k + m) (f answer) t goal) : Builds k (take kind >>= f) s goal := by
  refine (builds_of_made ?_).bind fun answer m t _ => next answer m t
  simp only [take]
  split <;> rfl

theorem builds_resync_bind {resume : TokenKind} {stops : List TokenKind} {f : Bool → Parser β}
    (next : ∀ answer m t, Builds (k + m) (f answer) t goal) :
    Builds k (resync resume stops >>= f) s goal :=
  (builds_of_made rfl).bind fun answer m t _ => next answer m t

theorem builds_expect {accepts : Token → Bool} {e : TokenKind → Error} :
    Builds 0 (expect accepts e) s fun _ _ => True := by
  by_cases accepted : accepts s.current = true
  · exact builds_of_made (by simp [expect, accepted])
  · intro _
    exact ⟨1, by simp [expect, accepted, State.report], by simp [expect, accepted]⟩

theorem builds_consume {kind : TokenKind} : Builds 0 (consume kind) s fun _ _ => True :=
  builds_expect

theorem builds_ident : Builds 0 Parser.ident s fun _ _ => True :=
  builds_consume.bind fun _ _ _ _ => builds_pure trivial

/-! ## Lists -/

theorem builds_delimitedUpTo {close : TokenKind} {item : Parser α} {good : α → Prop}
    (items : ∀ s, Builds 0 item s fun x _ => good x) (n : Nat) {s : State} :
    Builds 0 (delimitedUpTo close item n) s fun xs _ => ∀ x ∈ xs, good x := by
  induction n generalizing s with
  | zero => exact builds_ensure_bind fun _ => builds_pure (by simp)
  | succ n inductionHypothesis =>
    apply builds_atEnd_bind
    split
    next => exact builds_pure (by simp)
    next =>
      refine (items s).attempt_bind ?made ?failed
      case failed =>
        -- the list only fails as a whole where an item has failed, and reported it
        intro m t reported
        refine builds_resync_bind fun answer _ u => ?_
        cases answer with
        | false => exact builds_fail (by omega)
        | true => exact inductionHypothesis.later fun xs _ each => each
      case made =>
        intro x m t isGood
        have others : ∀ k u, Builds k (do
            return x :: (← delimitedUpTo close item n)) u fun xs _ => ∀ y ∈ xs, good y :=
          fun k u => inductionHypothesis.bind fun xs _ _ each =>
            builds_pure (List.forall_mem_cons.mpr ⟨isGood, each⟩)
        refine builds_take_bind fun answer _ u => ?_
        cases answer with
        | true => exact others _ u
        | false =>
          apply builds_atEnd_bind
          split
          · exact builds_pure (by simpa using isGood)
          · exact builds_peek_bind (builds_report_bind fun v => others _ v)

theorem builds_delimited {close : TokenKind} {item : Parser α} {good : α → Prop}
    (items : ∀ s, Builds 0 item s fun x _ => good x) :
    Builds 0 (delimited close item) s fun xs _ => ∀ x ∈ xs, good x := by
  refine builds_ensure_bind fun _ => builds_left_bind ?_
  exact (builds_delimitedUpTo items _).bind fun xs _ _ each =>
    builds_ensure_bind fun _ => builds_pure each

/-- The missing parts of the items add up. -/
theorem builds_separatedUpTo {item : Parser α} {good : α → Prop} (gaps : α → Nat)
    (items : ∀ s, Builds 0 item s fun x m => good x ∧ gaps x ≤ m) (n : Nat) {s : State} :
    Builds 0 (separatedUpTo item n) s fun xs m =>
      (∀ x ∈ xs, good x) ∧ (xs.map gaps).sum ≤ m := by
  induction n generalizing s with
  | zero => exact builds_unreachable
  | succ n inductionHypothesis =>
    refine (items s).bind ?_
    rintro x m t ⟨isGood, paid⟩
    refine builds_take_bind fun answer more u => ?_
    cases answer with
    | true =>
      refine inductionHypothesis.bind ?_
      rintro xs most v ⟨each, paidEach⟩
      refine builds_pure ⟨List.forall_mem_cons.mpr ⟨isGood, each⟩, ?_⟩
      rw [List.map_cons, List.sum_cons]
      omega
    | false => exact builds_pure ⟨by simpa using isGood, by simp; omega⟩

theorem builds_separated {item : Parser α} {good : α → Prop} (gaps : α → Nat)
    (items : ∀ s, Builds 0 item s fun x m => good x ∧ gaps x ≤ m) :
    Builds 0 (separated item) s fun xs m => (∀ x ∈ xs, good x) ∧ (xs.map gaps).sum ≤ m :=
  builds_left_bind (builds_separatedUpTo gaps items _)

end FrontEnd.Parser
