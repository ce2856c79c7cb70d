import FrontEnd.Proofs.Listing.Details
import FrontEnd.Symbol.Printer

/-!
# The lines of declarations

What is printed of a function, a datatype or a variable is one line, and here is what stands on it: the kind of the
declaration, its name with its types, and in parentheses the place where it starts. Names and types have no line
break in them, so it is a line by itself.
-/

namespace FrontEnd

/-- Whether a text stays on one line. -/
def NoBreak (text : String) : Prop :=
  '\n' ∉ text.toList

instance (text : String) : Decidable (NoBreak text) :=
  inferInstanceAs (Decidable ('\n' ∉ text.toList))

@[simp] theorem noBreak_append (s t : String) : NoBreak (s ++ t) ↔ NoBreak s ∧ NoBreak t := by
  rw [NoBreak, String.toList_append, List.mem_append, not_or, NoBreak, NoBreak]

/-- Whether a text is a line by itself, and says just this. -/
structure IsLineOf (content line : String) : Prop where
  ended : line = content ++ "\n"
  noBreak : NoBreak content

/-- Types one after the other, behind an arrow if there are any. -/
def arrowTo (types : List TypeTag) : String :=
  if types = [] then "" else " -> " ++ ", ".intercalate (types.map TypeTag.text)

/-- Fields one after the other, between braces. -/
def inBraces (fields : List (TypeTag × String)) : String :=
  if fields = [] then "\x7b\x7d"
  else "\x7b " ++ ", ".intercalate (fields.map fun field => field.1.text ++ " " ++ field.2) ++ " \x7d"

/-- What is said of a function. -/
def FunctionSymbol.line (f : FunctionSymbol) : String :=
  "function " ++ f.name ++ "(" ++ ", ".intercalate (f.takes.map TypeTag.text) ++ ")" ++ arrowTo f.returns ++
    " (" ++ f.span.place ++ ")"

/-- What is said of a datatype. -/
def DatatypeSymbol.line (d : DatatypeSymbol) : String :=
  "datatype " ++ d.name ++ " " ++ inBraces d.fields ++ " (" ++ d.span.place ++ ")"

/-- What is said of a variable. -/
def VariableSymbol.line (v : VariableSymbol) : String :=
  "variable " ++ v.type.text ++ " " ++ v.name ++ " (" ++ v.span.place ++ ")"

/-! ## What is printed -/

theorem intercalate_cons (separator first : String) (others : List String) :
    separator.intercalate (first :: others) = first ++ String.join (others.map (separator ++ ·)) := by
  induction others generalizing first with
  | nil => simp
  | cons second others inductionHypothesis =>
    rw [String.intercalate_cons_cons, inductionHypothesis, List.map_cons, String.join_cons, String.append_assoc,
      String.append_assoc]

theorem separated_eq (lead separator : String) (items : List String) :
    separated lead separator items = if items = [] then "" else lead ++ separator.intercalate items := by
  cases items with
  | nil => rfl
  | cons first others => rw [separated, intercalate_cons, if_neg (List.cons_ne_nil _ _), String.append_assoc]

theorem indented_zero (parts : List String) : indented 0 parts = String.join parts ++ "\n" := by
  simp [indented]

theorem FunctionSymbol.print_eq (f : FunctionSymbol) : f.print = f.line ++ "\n" := by
  have takes : separated "" ", " (f.takes.map TypeTag.text) = ", ".intercalate (f.takes.map TypeTag.text) := by
    rw [separated_eq, String.empty_append, ite_eq_right_iff]
    intro none
    rw [none, String.intercalate_nil]
  have returns : separated " -> " ", " (f.returns.map TypeTag.text) = arrowTo f.returns := by
    simp only [separated_eq, arrowTo, List.map_eq_nil_iff]
  rw [print, indented_zero, takes, returns, line, Span.mark]
  simp [String.join_cons, String.append_assoc]

theorem DatatypeSymbol.print_eq (d : DatatypeSymbol) : d.print = d.line ++ "\n" := by
  rw [print, indented_zero, line, inBraces, Span.mark, separated_eq, ← String.toList_inj]
  cases found : d.fields with
  | nil => simp
  | cons field others =>
    have describes : describeField = fun field => field.1.text ++ " " ++ field.2 := rfl
    simp [describes]

theorem VariableSymbol.print_eq (v : VariableSymbol) : v.print = v.line ++ "\n" := by
  rw [print, indented_zero, line, Span.mark]
  simp [String.join_cons, String.append_assoc]

/-! ## No line break -/

theorem noBreak_intercalate {items : List String} (each : ∀ item ∈ items, NoBreak item) :
    NoBreak (", ".intercalate items) := by
  induction items with
  | nil => decide
  | cons first others inductionHypothesis =>
    rw [List.forall_mem_cons] at each
    cases others with
    | nil => simpa using each.1
    | cons second others =>
      rw [String.intercalate_cons_cons, noBreak_append, noBreak_append]
      exact ⟨⟨each.1, by decide⟩, inductionHypothesis each.2⟩

theorem noBreak_place (span : Span) : NoBreak span.place := by
  obtain ⟨inside, same, -, noBreak⟩ := exists_mark span
  have within : span.mark.toList = ' ' :: '(' :: (span.place.toList ++ [')']) := by simp [Span.mark]
  rw [within, List.cons.injEq, List.cons.injEq] at same
  rw [← same.2.2] at noBreak
  exact fun member => noBreak (List.mem_append_left _ member)

variable {types : List TypeTag}

theorem noBreak_types (each : ∀ type ∈ types, NoBreak type.text) :
    NoBreak (", ".intercalate (types.map TypeTag.text)) :=
  noBreak_intercalate (List.forall_mem_map.mpr each)

theorem noBreak_arrowTo (each : ∀ type ∈ types, NoBreak type.text) : NoBreak (arrowTo types) := by
  rw [arrowTo]
  split
  · decide
  · exact (noBreak_append _ _).mpr ⟨by decide, noBreak_types each⟩

theorem noBreak_inBraces {fields : List (TypeTag × String)}
    (each : ∀ field ∈ fields, NoBreak field.1.text ∧ NoBreak field.2) : NoBreak (inBraces fields) := by
  have described : ∀ field ∈ fields, NoBreak (field.1.text ++ " " ++ field.2) := by
    intro field member
    simpa +decide using each field member
  have listed := noBreak_intercalate (List.forall_mem_map.mpr described)
  rw [inBraces]
  split
  · decide
  · simpa +decide using listed

theorem FunctionSymbol.isLineOf {f : FunctionSymbol} (name : NoBreak f.name) (takes : ∀ type ∈ f.takes, NoBreak type.text)
    (returns : ∀ type ∈ f.returns, NoBreak type.text) : IsLineOf f.line f.print where
  ended := f.print_eq
  noBreak := by simp +decide [line, name, noBreak_types takes, noBreak_arrowTo returns, noBreak_place]

theorem DatatypeSymbol.isLineOf {d : DatatypeSymbol} (name : NoBreak d.name)
    (fields : ∀ field ∈ d.fields, NoBreak field.1.text ∧ NoBreak field.2) : IsLineOf d.line d.print where
  ended := d.print_eq
  noBreak := by simp +decide [line, name, noBreak_inBraces fields, noBreak_place]

theorem VariableSymbol.isLineOf {v : VariableSymbol} (name : NoBreak v.name) (type : NoBreak v.type.text) :
    IsLineOf v.line v.print where
  ended := v.print_eq
  noBreak := by simp +decide [line, name, type, noBreak_place]

end FrontEnd
