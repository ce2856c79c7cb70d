import FrontEnd.Token.Lexer

/-!
# Classes of characters

The classes that the scanner asks for in turn are disjoint, so that the first character of a token tells
which token it is, and a blank ends every run but that of blanks. Above ASCII this compares tables.
-/

namespace FrontEnd.Lexer

theorem inRanges_of_apart {first second : List (Nat × Nat)}
    (apart : ∀ r ∈ first, ∀ q ∈ second, r.2 < q.1 ∨ q.2 < r.1) {c : Char}
    (inFirst : Text.inRanges first c = true) : Text.inRanges second c = false := by
  cases found : Text.inRanges second c with
  | false => rfl
  | true =>
    obtain ⟨r, memberFirst, lower, upper⟩ := Text.inRanges_iff.mp inFirst
    obtain ⟨q, memberSecond, lowerSecond, upperSecond⟩ := Text.inRanges_iff.mp found
    have apartHere := apart r memberFirst q memberSecond
    omega

theorem toNat_of_between {c : Char} {lower upper : UInt32}
    (between : (decide (lower ≤ c.val) && decide (c.val ≤ upper)) = true) :
    lower.toNat ≤ c.toNat ∧ c.toNat ≤ upper.toNat := by
  simpa only [Bool.and_eq_true, decide_eq_true_eq, UInt32.le_iff_toNat_le, Char.toNat_val]
    using between

theorem toNat_of_isDigit {c : Char} (digit : c.isDigit = true) : 48 ≤ c.toNat ∧ c.toNat ≤ 57 :=
  toNat_of_between digit

theorem toNat_of_isAlpha {c : Char} (alpha : c.isAlpha = true) : 65 ≤ c.toNat := by
  have letter : (c.isUpper || c.isLower) = true := alpha
  rw [Bool.or_eq_true] at letter
  rcases letter with upper | lower
  · have bounds : 65 ≤ c.val ∧ c.val ≤ 90 := of_decide_eq_true upper
    exact UInt32.le_iff_toNat_le.mp bounds.1
  · have bounds : 97 ≤ c.toNat ∧ c.toNat ≤ 122 := toNat_of_between lower
    omega

theorem toNat_of_startsWord {c : Char} (starts : startsWord c = true) : 65 ≤ c.toNat := by
  simp only [startsWord, Text.isAlphabetic, Bool.or_eq_true, beq_iff_eq] at starts
  rcases starts with letter | rfl
  · split at letter
    · exact toNat_of_isAlpha letter
    · omega
  -- the only other character that starts a word is the line `_`
  · decide

theorem toNat_of_continuesWord {c : Char} (continues : continuesWord c = true) : 48 ≤ c.toNat := by
  simp only [continuesWord, Bool.or_eq_true] at continues
  rcases continues with (letter | number) | line
  · have starts : startsWord c = true := by simp [startsWord, letter]
    have bound := toNat_of_startsWord starts
    omega
  · unfold Text.isNumeric at number
    split at number
    · exact (toNat_of_isDigit number).1
    · omega
  · have starts : startsWord c = true := by simp [startsWord, line]
    have bound := toNat_of_startsWord starts
    omega

theorem continuesWord_of_startsWord {c : Char} (starts : startsWord c = true) :
    continuesWord c = true := by
  simp only [startsWord, Bool.or_eq_true] at starts
  rcases starts with letter | line
  · simp [continuesWord, letter]
  · simp [continuesWord, line]

/-! ## Blanks -/

theorem toNat_of_isBlank {c : Char} (blank : Text.isBlank c = true) :
    c.toNat ≤ 32 ∨ 128 ≤ c.toNat := by
  -- the blanks among ASCII are controls and the space
  have bounds : ∀ r ∈ Text.blankRanges, r.2 ≤ 32 ∨ 128 ≤ r.1 := by decide
  obtain ⟨r, member, lower, upper⟩ := Text.inRanges_iff.mp blank
  have bound := bounds r member
  omega

theorem isDigit_of_isBlank {c : Char} (blank : Text.isBlank c = true) : c.isDigit = false := by
  cases digit : c.isDigit with
  | false => rfl
  | true =>
    have bound := toNat_of_isBlank blank
    have bounds := toNat_of_isDigit digit
    omega

theorem continuesWord_of_isBlank {c : Char} (blank : Text.isBlank c = true) :
    continuesWord c = false := by
  cases continues : continuesWord c with
  | false => rfl
  | true =>
    -- a blank that continues a word lies above ASCII, where the tables are apart
    have bound := toNat_of_continuesWord continues
    have high : ¬ c.toNat < 128 := by have := toNat_of_isBlank blank; omega
    have noLetter : Text.inRanges Text.alphabeticRanges c = false :=
      inRanges_of_apart (by decide +kernel) blank
    have noNumber : Text.inRanges Text.numericRanges c = false :=
      inRanges_of_apart (by decide +kernel) blank
    have noLine : c ≠ '_' := by
      rintro rfl
      exact high (by decide)
    simp [continuesWord, Text.isAlphabetic, Text.isNumeric, high, noLetter, noNumber, noLine] at continues

end FrontEnd.Lexer
