import FrontEnd.Literal

/-!
# Integers in decimal

A text of any length may be an integer in decimal (`Denotes`). It is read if the integer is one of sixty-four bits, and
where it is not read, the error is the first thing that is wrong from the left: a character that is no digit, or a
digit with which the integer is out of range. Reading goes up behind a plus sign or none and down behind a minus sign,
for the least integer is farther from zero than the greatest. So as not to tell the two ways apart, `readOnto` counts
how far from zero the integer is.
-/

namespace FrontEnd.Literal

/-- Whether an integer is one of sixty-four bits. -/
def Fits (value : Int) : Prop :=
  minimum ≤ value ∧ value ≤ maximum

/-- Whether there is a minus sign in front of a text. -/
def isNegative (text : List Char) : Bool :=
  text.head? = some '-'

/-- What is behind the sign of a text, or all of it if it has none. -/
def behindSign : List Char → List Char
  | '+' :: digits => digits
  | '-' :: digits => digits
  | digits => digits

/-- The integer on the one or the other side of zero. -/
def signed (negative : Bool) (distance : Nat) : Int :=
  if negative then -distance else distance

/-- The integer that digits make up in decimal, behind the sign of a text. -/
def denoted (text digits : List Char) : Int :=
  signed (isNegative text) (Nat.ofDigitChars 10 digits 0)

/-- Whether a text is an integer in decimal: digits, at least one, behind one sign at most. -/
def Denotes (text : String) (value : Int) : Prop :=
  behindSign text.toList ≠ [] ∧ (behindSign text.toList).all Char.isDigit = true ∧
    denoted text.toList (behindSign text.toList) = value

/-- Whether there is a character in a text that is no digit, behind digits that make up an integer in range. -/
def MeetsOther (text : String) : Prop :=
  ∃ run c rest, behindSign text.toList = run ++ c :: rest ∧ run.all Char.isDigit = true ∧ c.isDigit = false ∧
    Fits (denoted text.toList run)

/-- Whether the first digits of a text, some or all of them, make up an integer out of range. -/
def LeavesRange (text : String) : Prop :=
  ∃ run rest, behindSign text.toList = run ++ rest ∧ run.all Char.isDigit = true ∧ ¬ Fits (denoted text.toList run)

/-- What is read of a text: an integer in range, or else the first thing that is wrong from the left. -/
inductive ReadsAs (text : String) : Except IntegerError Int → Prop
  | value {value : Int} (denotes : Denotes text value) (fits : Fits value) : ReadsAs text (.ok value)
  | empty (none : text = "") : ReadsAs text (.error .empty)
  | loneSign (sign : text = "+" ∨ text = "-") : ReadsAs text (.error .invalidDigit)
  | other (meets : MeetsOther text) : ReadsAs text (.error .invalidDigit)
  | tooLarge (leaves : LeavesRange text) (positive : isNegative text.toList = false) :
      ReadsAs text (.error .tooLarge)
  | tooSmall (leaves : LeavesRange text) (negative : isNegative text.toList = true) :
      ReadsAs text (.error .tooSmall)

/-! ## Distances from zero -/

/-- How far from zero an integer may be. -/
def farthest (negative : Bool) : Nat :=
  if negative then 9223372036854775808 else 9223372036854775807

/-- The error of an integer that is too far from zero. -/
def tooFar (negative : Bool) : IntegerError :=
  if negative then .tooSmall else .tooLarge

/-- What a digit makes of the integer that was read in front of it. -/
def onto (n : Nat) (c : Char) : Nat :=
  10 * n + (c.toNat - '0'.toNat)

/-- Reads digits onto a distance from zero. -/
def readOnto (negative : Bool) (n : Nat) : List Char → Except IntegerError Int
  | [] => .ok (signed negative n)
  | c :: digits =>
    if c.isDigit then
      if onto n c ≤ farthest negative then readOnto negative (onto n c) digits else .error (tooFar negative)
    else .error .invalidDigit

theorem ofDigitChars_cons (c : Char) (digits : List Char) (n : Nat) :
    Nat.ofDigitChars 10 (c :: digits) n = Nat.ofDigitChars 10 digits (onto n c) :=
  Nat.ofDigitChars_cons

/-- With every digit the integer is at least as far from zero. -/
theorem le_ofDigitChars (digits : List Char) (n : Nat) : n ≤ Nat.ofDigitChars 10 digits n := by
  induction digits generalizing n with
  | nil => exact Nat.le_refl n
  | cons c digits inductionHypothesis =>
    have first : n ≤ onto n c := by
      rw [onto]
      omega
    rw [ofDigitChars_cons]
    exact Nat.le_trans first (inductionHypothesis (onto n c))

theorem natCast_le_maximum {n : Nat} : (n : Int) ≤ maximum ↔ n ≤ farthest false := by
  have same : maximum = (farthest false : Nat) := by decide
  rw [same, Int.ofNat_le]

theorem minimum_le_neg_natCast {n : Nat} : minimum ≤ -(n : Int) ↔ n ≤ farthest true := by
  have same : minimum = -(farthest true : Nat) := by decide
  rw [same, Int.neg_le_neg_iff, Int.ofNat_le]

theorem fits_signed {negative : Bool} {distance : Nat} :
    Fits (signed negative distance) ↔ distance ≤ farthest negative := by
  cases negative with
  | false =>
    have positive : minimum ≤ (distance : Int) := by
      rw [minimum]
      omega
    exact (and_iff_right positive).trans natCast_le_maximum
  | true =>
    have below : -(distance : Int) ≤ maximum := by
      rw [maximum]
      omega
    exact (and_iff_left below).trans minimum_le_neg_natCast

theorem readUp_eq (n : Nat) (digits : List Char) : readUp n digits = readOnto false n digits := by
  induction digits generalizing n with
  | nil => rfl
  | cons c digits inductionHypothesis =>
    have next : (n : Int) * 10 + (c.toNat - '0'.toNat : Nat) = onto n c := by
      rw [onto]
      omega
    rw [readUp, readOnto, digit?]
    by_cases isDigit : c.isDigit = true
    · simp only [isDigit, if_true, next, natCast_le_maximum, inductionHypothesis]
      rfl
    · simp [isDigit]

theorem readDown_eq (n : Nat) (digits : List Char) : readDown (-n) digits = readOnto true n digits := by
  induction digits generalizing n with
  | nil => rfl
  | cons c digits inductionHypothesis =>
    have next : -(n : Int) * 10 - (c.toNat - '0'.toNat : Nat) = -(onto n c : Int) := by
      rw [onto]
      omega
    rw [readDown, readOnto, digit?]
    by_cases isDigit : c.isDigit = true
    · simp only [isDigit, if_true, next, minimum_le_neg_natCast, inductionHypothesis]
      rfl
    · simp [isDigit]

/-! ## What is read of digits -/

variable {negative : Bool} {n : Nat} {run rest : List Char}

/-- Digits are read as the integer that they make up, unless it is out of range before their end. -/
theorem readOnto_append (each : run.all Char.isDigit = true) (near : n ≤ farthest negative) (rest : List Char) :
    readOnto negative n (run ++ rest) =
      if Nat.ofDigitChars 10 run n ≤ farthest negative then readOnto negative (Nat.ofDigitChars 10 run n) rest
      else .error (tooFar negative) := by
  induction run generalizing n with
  | nil => exact (if_pos near).symm
  | cons c run inductionHypothesis =>
    rw [List.all_cons, Bool.and_eq_true] at each
    rw [List.cons_append, readOnto, if_pos each.1, ofDigitChars_cons]
    by_cases nearer : onto n c ≤ farthest negative
    · rw [if_pos nearer, inductionHypothesis each.2 nearer]
    -- once out of range, the integer that all digits make up is so too
    · have farther : ¬ Nat.ofDigitChars 10 run (onto n c) ≤ farthest negative :=
        fun within => nearer (Nat.le_trans (le_ofDigitChars run (onto n c)) within)
      rw [if_neg nearer, if_neg farther]

theorem readOnto_invalidDigit {c : Char} (notDigit : c.isDigit = false) :
    readOnto negative n (c :: rest) = .error .invalidDigit := by
  rw [readOnto, notDigit]
  rfl

/-! ## What is read of a text -/

variable {text : String}

/-- What is shown of a text behind a plus sign, behind a minus sign and without a sign is shown of all texts. -/
@[elab_as_elim]
theorem sign_cases {motive : List Char → Prop} (empty : motive []) (plus : ∀ digits, motive ('+' :: digits))
    (minus : ∀ digits, motive ('-' :: digits))
    (unsigned : ∀ c digits, c ≠ '+' → c ≠ '-' → motive (c :: digits)) (chars : List Char) : motive chars := by
  cases chars with
  | nil => exact empty
  | cons c digits =>
    by_cases isPlus : c = '+'
    · exact isPlus ▸ plus digits
    by_cases isMinus : c = '-'
    · exact isMinus ▸ minus digits
    · exact unsigned c digits isPlus isMinus

/-- Behind its sign, a text is read digit by digit. -/
theorem readInteger_of_more (more : behindSign text.toList ≠ []) :
    readInteger text = readOnto (isNegative text.toList) 0 (behindSign text.toList) := by
  have up : ∀ digits, readUp 0 digits = readOnto false 0 digits := readUp_eq 0
  have down : ∀ digits, readDown 0 digits = readOnto true 0 digits := readDown_eq 0
  rw [readInteger]
  generalize text.toList = chars at more ⊢
  cases chars using sign_cases with
  | empty => exact absurd rfl more
  | plus digits =>
    obtain ⟨c, digits, rfl⟩ := List.exists_cons_of_ne_nil more
    exact up (c :: digits)
  | minus digits =>
    obtain ⟨c, digits, rfl⟩ := List.exists_cons_of_ne_nil more
    exact down (c :: digits)
  | unsigned c digits noPlus noMinus =>
    simp [behindSign, isNegative, noPlus, noMinus, up]

theorem readInteger_of_leavesRange (leaves : LeavesRange text) :
    readInteger text = .error (tooFar (isNegative text.toList)) := by
  obtain ⟨run, rest, split, each, unfit⟩ := leaves
  have more : behindSign text.toList ≠ [] := by
    intro none
    obtain ⟨rfl, -⟩ := List.append_eq_nil_iff.mp (split.symm.trans none)
    exact unfit (fits_signed.mpr (Nat.zero_le _))
  rw [readInteger_of_more more, split, readOnto_append each (Nat.zero_le _), if_neg (mt fits_signed.mpr unfit)]

theorem ReadsAs.readInteger_eq {result : Except IntegerError Int} (reads : ReadsAs text result) :
    readInteger text = result := by
  cases reads with
  | value denotes fits =>
    obtain ⟨more, each, rfl⟩ := denotes
    have read := readOnto_append each (Nat.zero_le (farthest (isNegative text.toList))) []
    rw [List.append_nil, if_pos (fits_signed.mp fits)] at read
    exact (readInteger_of_more more).trans read
  | empty none =>
    subst none
    rfl
  | loneSign sign => obtain rfl | rfl := sign <;> rfl
  | other meets =>
    obtain ⟨run, c, rest, split, each, notDigit, fits⟩ := meets
    have more : behindSign text.toList ≠ [] := by simp [split]
    rw [readInteger_of_more more, split, readOnto_append each (Nat.zero_le _), if_pos (fits_signed.mp fits),
      readOnto_invalidDigit notDigit]
  | tooLarge leaves positive =>
    rw [readInteger_of_leavesRange leaves, positive]
    rfl
  | tooSmall leaves negative =>
    rw [readInteger_of_leavesRange leaves, negative]
    rfl

theorem behindSign_eq_nil {chars : List Char} (none : behindSign chars = []) :
    chars = [] ∨ chars = ['+'] ∨ chars = ['-'] := by
  cases chars using sign_cases with
  | empty => exact .inl rfl
  | plus digits => exact .inr (.inl (congrArg ('+' :: ·) none))
  | minus digits => exact .inr (.inr (congrArg ('-' :: ·) none))
  | unsigned c digits noPlus noMinus => simp [behindSign, noPlus, noMinus] at none

/-- Behind the sign there are digits, and behind these the end or something else. So there is nothing else that a text
can be. -/
theorem exists_readsAs (text : String) : ∃ result, ReadsAs text result := by
  by_cases none : behindSign text.toList = []
  · obtain same | same | same := behindSign_eq_nil none
    · exact ⟨_, .empty (String.toList_eq_nil_iff.mp same)⟩
    · exact ⟨_, .loneSign (.inl (String.toList_injective same))⟩
    · exact ⟨_, .loneSign (.inr (String.toList_injective same))⟩
  -- it is enough to look at the longest run of digits, for if a shorter one is out of range, so is that
  have split := (List.takeWhile_append_dropWhile (p := Char.isDigit) (l := behindSign text.toList)).symm
  have each : ((behindSign text.toList).takeWhile Char.isDigit).all Char.isDigit = true := List.all_takeWhile
  by_cases fits : Fits (denoted text.toList ((behindSign text.toList).takeWhile Char.isDigit))
  · have stops := List.head?_dropWhile_not Char.isDigit (behindSign text.toList)
    cases behind : (behindSign text.toList).dropWhile Char.isDigit with
    | nil =>
      rw [behind, List.append_nil] at split
      rw [← split] at each fits
      exact ⟨_, .value ⟨none, each, rfl⟩ fits⟩
    | cons c rest =>
      have notDigit : c.isDigit = false := by simpa [behind] using stops
      exact ⟨_, .other ⟨_, c, rest, behind ▸ split, each, notDigit, fits⟩⟩
  · have leaves : LeavesRange text := ⟨_, _, split, each, fits⟩
    cases negative : isNegative text.toList with
    | false => exact ⟨_, .tooLarge leaves negative⟩
    | true => exact ⟨_, .tooSmall leaves negative⟩

theorem readInteger_eq_iff {result : Except IntegerError Int} : readInteger text = result ↔ ReadsAs text result := by
  refine ⟨fun read => ?_, ReadsAs.readInteger_eq⟩
  obtain ⟨other, reads⟩ := exists_readsAs text
  exact read ▸ reads.readInteger_eq.symm ▸ reads

theorem readInteger_ok_iff {value : Int} : readInteger text = .ok value ↔ Denotes text value ∧ Fits value := by
  rw [readInteger_eq_iff]
  constructor
  · rintro ⟨denotes, fits⟩
    exact ⟨denotes, fits⟩
  · exact fun ⟨denotes, fits⟩ => .value denotes fits

/-! ## Texts of integers -/

theorem behindSign_of_digits {digits : List Char} (each : digits.all Char.isDigit = true) :
    behindSign digits = digits ∧ isNegative digits = false := by
  cases digits with
  | nil => exact ⟨rfl, rfl⟩
  | cons c digits =>
    rw [List.all_cons, Bool.and_eq_true] at each
    have noPlus : c ≠ '+' := fun same => by simp [same] at each
    have noMinus : c ≠ '-' := fun same => by simp [same] at each
    simp [behindSign, isNegative, noPlus, noMinus]

theorem denotes_ofList {digits : List Char} (nonempty : digits ≠ []) (each : digits.all Char.isDigit = true) :
    Denotes (String.ofList digits) (Nat.ofDigitChars 10 digits 0) := by
  obtain ⟨whole, positive⟩ := behindSign_of_digits each
  rw [Denotes, String.toList_ofList, whole, denoted, positive]
  exact ⟨nonempty, each, rfl⟩

theorem denotes_ofList_minus {digits : List Char} (nonempty : digits ≠ []) (each : digits.all Char.isDigit = true) :
    Denotes (String.ofList ('-' :: digits)) (-Nat.ofDigitChars 10 digits 0) := by
  rw [Denotes, String.toList_ofList]
  exact ⟨nonempty, each, rfl⟩

theorem all_isDigit_toDigits (n : Nat) : (Nat.toDigits 10 n).all Char.isDigit = true :=
  List.all_eq_true.mpr fun _ member => Nat.isDigit_of_mem_toDigits (by decide) (by decide) member

/-- The decimal text of an integer denotes it. -/
theorem denotes_toString (value : Int) : Denotes (toString value) value := by
  cases value with
  | ofNat n =>
    have denotes := denotes_ofList Nat.toDigits_ne_nil (all_isDigit_toDigits n)
    rw [Nat.ofDigitChars_toDigits (by decide) (by decide), ← Nat.repr_eq_ofList_toDigits] at denotes
    exact denotes
  | negSucc n =>
    have denotes := denotes_ofList_minus Nat.toDigits_ne_nil (all_isDigit_toDigits (n + 1))
    have text : String.ofList ('-' :: Nat.toDigits 10 (n + 1)) = "-" ++ Nat.repr (n + 1) := by
      rw [Nat.repr_eq_ofList_toDigits, ← String.toList_inj]
      simp
    rw [Nat.ofDigitChars_toDigits (by decide) (by decide), text] at denotes
    exact denotes

end FrontEnd.Literal
