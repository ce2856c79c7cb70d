import FrontEnd.Proofs.Listing.Entries
import FrontEnd.Text.Quoted

/-!
# Reading quoted texts back

No printed character is the start of another, so that a text is read back from its quoted form, and there is no line
break in it.
-/

namespace FrontEnd.Text.Quoted

/-! ## Numbers in base sixteen -/

theorem digitChar_inj : ∀ m < 16, ∀ n < 16, Nat.digitChar m = Nat.digitChar n → m = n := by
  decide

theorem hexadecimal_eq (n : Nat) :
    hexadecimal n = if n < 16 then [n.digitChar] else hexadecimal (n / 16) ++ [(n % 16).digitChar] :=
  Nat.toDigits_eq_if (by decide)

theorem hexadecimal_ne_nil (n : Nat) : hexadecimal n ≠ [] :=
  Nat.toDigits_ne_nil

theorem hexadecimal_injective {m n : Nat} (same : hexadecimal m = hexadecimal n) : m = n := by
  induction m using Nat.strongRecOn generalizing n with
  | ind m inductionHypothesis =>
    rw [hexadecimal_eq m, hexadecimal_eq n] at same
    split at same
    next small =>
      split at same
      next smallAgain => exact digitChar_inj m small n smallAgain (List.singleton_inj.mp same)
      next => exact absurd (congrArg List.length same) (by simp [hexadecimal_ne_nil])
    next large =>
      split at same
      next => exact absurd (congrArg List.length same) (by simp [hexadecimal_ne_nil])
      next =>
        -- the last digits agree, and so do the others
        obtain ⟨front, last⟩ := List.append_inj' same rfl
        have quotient := inductionHypothesis (m / 16) (by omega) front
        have remainder := digitChar_inj _ (Nat.mod_lt m (by decide)) _ (Nat.mod_lt n (by decide))
          (List.singleton_inj.mp last)
        omega

theorem digitChar_plain : ∀ n < 16, Nat.digitChar n ≠ '\x7d' ∧ Nat.digitChar n ≠ '\n' := by
  decide

theorem hexadecimal_plain (n : Nat) : ∀ c ∈ hexadecimal n, c ≠ '\x7d' ∧ c ≠ '\n' := by
  induction n using Nat.strongRecOn with
  | ind n inductionHypothesis =>
    intro c member
    rw [hexadecimal_eq] at member
    split at member
    next small => exact List.mem_singleton.mp member ▸ digitChar_plain n small
    next large =>
      obtain front | last := List.mem_append.mp member
      · exact inductionHypothesis (n / 16) (by omega) c front
      · exact List.mem_singleton.mp last ▸ digitChar_plain _ (Nat.mod_lt n (by decide))

/-! ## Characters -/

/-- The characters that have an escape of their own, with it. -/
def escapes : List (Char × Char) :=
  [('\x00', '0'), ('\t', 't'), ('\r', 'r'), ('\n', 'n'), ('"', '"'), ('\\', '\\')]

/-- How a character is printed: as it is, by an escape of its own or by its number. -/
inductive Printed (c : Char) : List Char → Prop
  | same (plain : c ∉ escapes.map Prod.fst) : Printed c [c]
  | escape {k : Char} (listed : (c, k) ∈ escapes) : Printed c ['\\', k]
  | number : Printed c ('\\' :: 'u' :: '\x7b' :: hexadecimal c.toNat ++ ['\x7d'])

theorem printed_encodeChar (c : Char) : Printed c (encodeChar c) := by
  unfold encodeChar
  split
  any_goals exact .escape (by decide)
  next noZero noTab noReturn noBreak noQuote noSlash =>
    split
    · exact .number
    · exact .same (by simpa [escapes] using ⟨noZero, noTab, noReturn, noBreak, noQuote, noSlash⟩)

theorem escapes_inj : ∀ x ∈ escapes, ∀ y ∈ escapes, x.2 = y.2 → x.1 = y.1 := by
  decide

theorem ne_of_mem_escapes : ∀ x ∈ escapes, x.2 ≠ 'u' ∧ x.2 ≠ '\n' := by
  decide

variable {c d : Char} {first second behind behindAgain : List Char}

theorem Printed.ne_slash (plain : c ∉ escapes.map Prod.fst) : c ≠ '\\' := by
  rintro rfl
  exact plain (by decide)

/-- Printed characters are read from the front. -/
theorem Printed.cut (printed : Printed c first) (printedAgain : Printed d second)
    (same : first ++ behind = second ++ behindAgain) : c = d ∧ behind = behindAgain := by
  cases printed with
  | same plain =>
    cases printedAgain with
    | same _ => exact ⟨(List.cons.inj same).1, (List.cons.inj same).2⟩
    | escape _ | number => exact absurd (List.cons.inj same).1 (ne_slash plain)
  | @escape k listed =>
    cases printedAgain with
    | same plain => exact absurd (List.cons.inj same).1.symm (ne_slash plain)
    | @escape l listedAgain =>
      simp only [List.cons_append, List.nil_append, List.cons.injEq, true_and] at same
      exact ⟨escapes_inj _ listed _ listedAgain same.1, same.2⟩
    | number =>
      simp only [List.cons_append, List.nil_append, List.cons.injEq, true_and] at same
      exact absurd same.1 (ne_of_mem_escapes _ listed).1
  | number =>
    cases printedAgain with
    | same plain => exact absurd (List.cons.inj same).1.symm (ne_slash plain)
    | escape listed =>
      simp only [List.cons_append, List.nil_append, List.cons.injEq, true_and] at same
      exact absurd same.1.symm (ne_of_mem_escapes _ listed).1
    | number =>
      simp only [List.cons_append, List.nil_append, List.append_assoc, List.cons.injEq, true_and] at same
      have noBrace : ∀ n, '\x7d' ∉ hexadecimal n := fun n member => (hexadecimal_plain n _ member).1 rfl
      obtain ⟨digits, others⟩ := cut_first (noBrace _) (noBrace _) same
      exact ⟨Char.toNat_inj.mp (hexadecimal_injective digits), others⟩

theorem Printed.ne_nil (printed : Printed c first) : first ≠ [] := by
  cases printed <;> simp

theorem Printed.noBreak (printed : Printed c first) : '\n' ∉ first := by
  cases printed with
  | same plain =>
    intro member
    exact plain (List.mem_singleton.mp member ▸ by decide)
  | escape listed => simp [(ne_of_mem_escapes _ listed).2.symm]
  | number =>
    intro member
    simp only [List.cons_append, List.mem_cons, List.mem_append, List.not_mem_nil, or_false] at member
    obtain found | found | found | found | found := member
    any_goals cases found
    exact (hexadecimal_plain _ _ found).2 rfl

/-! ## Texts -/

theorem flatMap_encodeChar_injective {first second : List Char}
    (same : first.flatMap encodeChar = second.flatMap encodeChar) : first = second := by
  induction first generalizing second with
  | nil =>
    cases second with
    | nil => rfl
    | cons d second =>
      exact absurd (List.append_eq_nil_iff.mp same.symm).1 (printed_encodeChar d).ne_nil
  | cons c first inductionHypothesis =>
    cases second with
    | nil => exact absurd (List.append_eq_nil_iff.mp same).1 (printed_encodeChar c).ne_nil
    | cons d second =>
      obtain ⟨rfl, others⟩ := (printed_encodeChar c).cut (printed_encodeChar d) same
      rw [inductionHypothesis others]

/-- A text is read back from its quoted form. -/
theorem encode_injective {first second : String} (same : encode first = encode second) : first = second := by
  have texts := congrArg String.toList same
  simp only [encode, String.toList_ofList, List.cons_append, List.cons.injEq, true_and,
    List.append_cancel_right_eq] at texts
  exact String.toList_inj.mp (flatMap_encodeChar_injective texts)

theorem noBreak_encode (s : String) : '\n' ∉ (encode s).toList := by
  simp only [encode, String.toList_ofList, List.cons_append, List.mem_cons, List.mem_append, List.mem_flatMap,
    List.not_mem_nil, or_false]
  rintro (quote | ⟨c, -, member⟩ | quote)
  · cases quote
  · exact (printed_encodeChar c).noBreak member
  · cases quote

end FrontEnd.Text.Quoted
