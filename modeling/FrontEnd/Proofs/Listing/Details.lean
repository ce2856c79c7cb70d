import FrontEnd.Proofs.Grammar.Recast
import FrontEnd.Proofs.Grammar.Named
import FrontEnd.Proofs.Grammar.Terminal
import FrontEnd.Proofs.Lexing.Classes
import FrontEnd.Proofs.Listing.Quoted
import FrontEnd.Tree.Printer

/-!
# Reading the parts of a line back

A line is a word, what is said behind it, and mostly the place of its node. Names hold none of the characters that
lines are put together with, so that types, parameters and the headers of functions are read back from how they are
written. The place is cut off at the last parenthesis.
-/

namespace FrontEnd

/-! ## Names -/

/-- The characters that lines are put together with. -/
def separators : List Char :=
  [' ', '(', ')', ',', ':', '\n']

theorem continuesWord_separators : ∀ c ∈ separators, Lexer.continuesWord c = false :=
  List.forall_iff_forall_mem.mp (by decide)

variable {c : Char}

theorem IsName.notMem {name : String} (isName : IsName name) (separates : c ∈ separators) : c ∉ name.toList := by
  obtain ⟨-, first, tail, same, starts, continues⟩ := isName
  intro member
  have word : ∀ d ∈ first :: tail, Lexer.continuesWord d = true :=
    List.forall_mem_cons.mpr ⟨Lexer.continuesWord_of_startsWord starts, List.all_eq_true.mp continues⟩
  rw [same] at member
  exact Bool.false_ne_true ((continuesWord_separators c separates).symm.trans (word c member))

theorem IsName.ne_nil {name : String} (isName : IsName name) : name.toList ≠ [] := by
  obtain ⟨-, first, tail, same, -⟩ := isName
  simp [same]

/-! ## Types -/

theorem not_isName_scalar : ∀ word ∈ ["int", "string", "bool"], ¬ IsName word := by
  simp only [List.forall_mem_cons, List.not_mem_nil, false_imp_iff, implies_true, and_true]
  refine ⟨?_, ?_, ?_⟩ <;> exact fun isName => absurd isName.1 (by decide)

/-- The scalar type of a name. -/
def Scalar.ofName (name : String) : Scalar :=
  if name = "int" then int else if name = "string" then string else if name = "bool" then bool else datatype name

namespace TypeName

variable {type other : TypeName}

theorem ofName_scalar (plain : type.Plain IsName) : Scalar.ofName type.scalar.name = type.scalar := by
  obtain ⟨scalar, isList, span⟩ := type
  cases scalar with
  | datatype name =>
    have isName : IsName name := plain name rfl
    have other : ∀ word ∈ ["int", "string", "bool"], name ≠ word := fun word member same =>
      not_isName_scalar word member (same ▸ isName)
    simp only [List.forall_mem_cons, List.not_mem_nil, false_imp_iff, implies_true, and_true] at other
    simp [Scalar.ofName, Scalar.name, other]
  | int | string | bool => rfl

theorem notMem_scalar (plain : type.Plain IsName) (separates : c ∈ separators) :
    c ∉ type.scalar.name.toList := by
  have reserved : ∀ word ∈ ["int", "string", "bool"], ∀ c ∈ separators, c ∉ word.toList := by
    simp [separators]
  obtain ⟨scalar, isList, span⟩ := type
  cases scalar with
  | datatype name => exact (plain name rfl).notMem separates
  | int | string | bool => exact reserved _ (by simp [Scalar.name]) c separates

theorem scalar_ne_nil (plain : type.Plain IsName) : type.scalar.name.toList ≠ [] := by
  obtain ⟨scalar, isList, span⟩ := type
  cases scalar with
  | datatype name => exact (plain name rfl).ne_nil
  | int | string | bool => simp [Scalar.name]

theorem describe_ne_nil (plain : type.Plain IsName) : type.describe.toList ≠ [] := by
  rw [describe]
  split <;> simp [scalar_ne_nil plain]

theorem notMem_describe (plain : type.Plain IsName) (separates : c ∈ separators) (notBlank : c ≠ ' ') :
    c ∉ type.describe.toList := by
  have listOf : ∀ c ∈ separators, c ≠ ' ' → c ∉ "listof ".toList := by simp [separators]
  rw [describe]
  split
  · rw [String.toList_append, List.mem_append, not_or]
    exact ⟨listOf c separates notBlank, notMem_scalar plain separates⟩
  · exact notMem_scalar plain separates

/-- A type is read back from how it is written. -/
theorem bare_of_describe (plain : type.Plain IsName) (plainAgain : other.Plain IsName)
    (same : type.describe = other.describe) : type.bare = other.bare := by
  have isBlank : ' ' ∈ separators := by decide
  have isList : type.isList = other.isList := by
    -- only a list has a blank in it
    have blank : ∀ {t : TypeName}, t.Plain IsName → (' ' ∈ t.describe.toList ↔ t.isList = true) := by
      intro t plain
      have scalar := notMem_scalar plain isBlank
      rw [describe]
      cases t.isList <;> simp [scalar]
    rw [Bool.eq_iff_iff, ← blank plain, ← blank plainAgain, same]
  have name : type.scalar.name = other.scalar.name := by
    rw [describe, describe, isList] at same
    split at same
    · exact (String.append_right_inj _).mp same
    · exact same
  have scalar : type.scalar = other.scalar := by
    rw [← ofName_scalar plain, name, ofName_scalar plainAgain]
  exact congrArg₂ (TypeName.mk · · default) scalar isList

end TypeName

/-! ## Parameters -/

namespace Param

variable {param other : Param}

theorem toList_describe (param : Param) :
    param.describe.toList = param.type.describe.toList ++ ' ' :: param.name.name.toList := by
  simp [describe]

theorem notMem_describe (named : param.Named IsName) (separates : c ∈ separators) (notBlank : c ≠ ' ') :
    c ∉ param.describe.toList := by
  rw [toList_describe, List.mem_append, List.mem_cons]
  rintro (type | blank | name)
  · exact TypeName.notMem_describe named.1 separates notBlank type
  · exact notBlank blank
  · exact named.2.notMem separates name

/-- A parameter is read back from how it is written: its name is behind the last blank. -/
theorem bare_of_describe (named : param.Named IsName) (namedAgain : other.Named IsName)
    (same : param.describe = other.describe) : param.bare = other.bare := by
  have isBlank : ' ' ∈ separators := by decide
  have texts := congrArg String.toList same
  rw [toList_describe, toList_describe] at texts
  obtain ⟨type, name⟩ := cut_last (named.2.notMem isBlank) (namedAgain.2.notMem isBlank) texts
  exact congrArg₂ Param.mk (TypeName.bare_of_describe named.1 namedAgain.1 (String.toList_inj.mp type))
    (Ident.bare_of_name (String.toList_inj.mp name))

end Param

/-! ## Lists in a header -/

/-- Whether something is an item of a list between commas and in front of a parenthesis. -/
structure IsItem (text : String) : Prop where
  nonempty : text.toList ≠ []
  noComma : ',' ∉ text.toList
  noClose : ')' ∉ text.toList

theorem IsItem.apart {text : String} (item : IsItem text) : ∀ c ∈ text.toList, ¬ (c = ',' ∨ c = ')') := by
  rintro c member (rfl | rfl)
  · exact item.noComma member
  · exact item.noClose member

/-- The further items of a list. -/
def further (items : List String) : List Char :=
  items.flatMap fun item => ',' :: ' ' :: item.toList

theorem toList_separated_cons (lead first : String) (others : List String) :
    (separated lead ", " (first :: others)).toList = lead.toList ++ (first.toList ++ further others) := by
  have joined : (String.join (others.map (", " ++ ·))).toList = further others := by
    induction others with
    | nil => rfl
    | cons item others inductionHypothesis => simp [further, String.join_cons, inductionHypothesis]
  simp [separated, joined]

variable {items others : List String} {behind behindAgain : List Char}

/-- Behind an item is a comma or a parenthesis. -/
theorem further_starts (items : List String) (behind : List Char) :
    ∃ c tail, further items ++ ')' :: behind = c :: tail ∧ (c = ',' ∨ c = ')') := by
  cases items with
  | nil => exact ⟨')', behind, rfl, .inr rfl⟩
  | cons item items => exact ⟨',', _, rfl, .inl rfl⟩

theorem cut_further (isItem : ∀ item ∈ items, IsItem item) (isItemAgain : ∀ item ∈ others, IsItem item)
    (same : further items ++ ')' :: behind = further others ++ ')' :: behindAgain) :
    items = others ∧ behind = behindAgain := by
  induction items generalizing others with
  | nil =>
    cases others with
    | nil => exact ⟨rfl, (List.cons.inj same).2⟩
    | cons item others => exact absurd (List.cons.inj same).1 (by decide)
  | cons item items inductionHypothesis =>
    cases others with
    | nil => exact absurd (List.cons.inj same).1 (by decide)
    | cons itemAgain others =>
      rw [List.forall_mem_cons] at isItem isItemAgain
      simp only [further, List.flatMap_cons, List.cons_append, List.cons.injEq, true_and, List.append_assoc] at same
      obtain ⟨first, rest⟩ := cut_where isItem.1.apart isItemAgain.1.apart (further_starts items behind)
        (further_starts others behindAgain) same
      obtain ⟨rfl, rfl⟩ := inductionHypothesis isItem.2 isItemAgain.2 rest
      exact ⟨by rw [String.toList_inj.mp first], rfl⟩

/-- A list is read back from how it is written in front of a parenthesis. -/
theorem cut_separated {lead : String} (noClose : ')' ∉ lead.toList) (isItem : ∀ item ∈ items, IsItem item)
    (isItemAgain : ∀ item ∈ others, IsItem item)
    (same : (separated lead ", " items).toList ++ ')' :: behind =
      (separated lead ", " others).toList ++ ')' :: behindAgain) :
    items = others ∧ behind = behindAgain := by
  -- a list with an item does not start with the parenthesis
  have starts : ∀ {item : String} {rest : List String} {behind behindAgain : List Char}, IsItem item →
      ')' :: behind ≠ (separated lead ", " (item :: rest)).toList ++ ')' :: behindAgain := by
    intro item rest behind behindAgain isItem same
    rw [toList_separated_cons] at same
    cases found : lead.toList ++ item.toList with
    | nil => exact isItem.nonempty (List.append_eq_nil_iff.mp found).2
    | cons c tail =>
      rw [← List.append_assoc, found] at same
      have member : ')' ∈ lead.toList ++ item.toList := by
        rw [found, (List.cons.inj same).1]
        exact List.mem_cons_self
      exact (List.mem_append.mp member).elim noClose isItem.noClose
  cases items with
  | nil =>
    cases others with
    | nil => exact ⟨rfl, (List.cons.inj same).2⟩
    | cons item others => exact absurd same (starts (isItemAgain item List.mem_cons_self))
  | cons item items =>
    cases others with
    | nil => exact absurd same.symm (starts (isItem item List.mem_cons_self))
    | cons itemAgain others =>
      rw [List.forall_mem_cons] at isItem isItemAgain
      simp only [toList_separated_cons, List.append_assoc, List.append_cancel_left_eq] at same
      obtain ⟨first, rest⟩ := cut_where isItem.1.apart isItemAgain.1.apart (further_starts items behind)
        (further_starts others behindAgain) same
      obtain ⟨rfl, rfl⟩ := cut_further isItem.2 isItemAgain.2 rest
      exact ⟨by rw [String.toList_inj.mp first], rfl⟩

/-! ## Numbers and places -/

theorem notMem_toDigits (notDigit : c.isDigit = false) (n : Nat) : c ∉ Nat.toDigits 10 n := fun member =>
  Bool.false_ne_true (notDigit.symm.trans (Nat.isDigit_of_mem_toDigits (by decide) (by decide) member))

theorem noBreak_repr (value : Int) : '\n' ∉ value.repr.toList := by
  have digits := @notMem_toDigits '\n' (by decide)
  rw [Int.repr_eq_if]
  split <;> simp [digits]

/-- A place is in parentheses, and there is no other parenthesis in it that opens. -/
theorem exists_mark (span : Span) :
    ∃ inside, span.mark.toList = ' ' :: '(' :: inside ∧ '(' ∉ inside ∧ '\n' ∉ inside := by
  have opens := @notMem_toDigits '(' (by decide)
  have breaks := @notMem_toDigits '\n' (by decide)
  have colon : (toString ":").toList = [':'] := rfl
  refine ⟨Nat.toDigits 10 span.line ++ ':' :: Nat.toDigits 10 span.column ++ [')'], ?_, ?_, ?_⟩
  · simp [Span.mark, Span.place, colon]
  · simp [opens]
  · simp [breaks]

end FrontEnd
