import FrontEnd.Proofs.Listing.Details
import FrontEnd.Proofs.Parsing.ReadsExpression
import Mathlib

/-!
# Reading expressions back

The lines of an expression are an entry: the word of its form, what is said behind the word, and the place, with the
entries of its parts under it. The word tells the form, but for the two kinds of calls, which a colon tells apart.
So an expression with proper names is read back from its entry, but for the regions (`Expr.bare_of_entry`).
-/

namespace FrontEnd

/-! ## Lines with a place -/

/-- A line that ends with the place of a node, and the lines under it. -/
def Entry.marked (word detail : String) (span : Span) (below : List Entry) : Entry :=
  ⟨word.toList ++ (detail.toList ++ span.mark.toList), below⟩

/-- What is said behind a word: nothing, or something behind a blank. -/
def IsDetail (detail : String) : Prop :=
  detail.toList = [] ∨ ∃ tail, detail.toList = ' ' :: tail

/-- The words that lines with a place start with. -/
def keywords : List String :=
  ["int", "string", "bool", "ident", "datatype", "prefix", "call", "list", "dummy", "fun", "var", "chained",
   "reassign", "if", "loop", "block", "return", "break", "continue"]

theorem keywords_plain : ∀ word ∈ keywords, word.toList ≠ [] ∧ ' ' ∉ word.toList ∧ '\n' ∉ word.toList := by
  decide

namespace Entry

variable {word other detail detailAgain : String} {span spanAgain : Span} {below belowAgain : List Entry}

theorem Lined.marked (keyword : word ∈ keywords) (noBreak : '\n' ∉ detail.toList) (lined : LinedEach below) :
    (Entry.marked word detail span below).Lined := by
  obtain ⟨inside, same, -, noBreakInside⟩ := exists_mark span
  obtain ⟨nonempty, noBlank, noBreakWord⟩ := keywords_plain word keyword
  refine ⟨⟨?starts, ?noBreak⟩, lined⟩
  case starts =>
    cases found : word.toList with
    | nil => exact absurd found nonempty
    | cons c tail => exact ⟨c, _, rfl, fun blank => noBlank (by simp [found, blank])⟩
  case noBreak =>
    simp [same, noBreakWord, noBreak, noBreakInside]

/-- The word, what is said behind it and what is under it are read back from a line with a place. -/
theorem marked_inj (keyword : word ∈ keywords) (keywordAgain : other ∈ keywords) (isDetail : IsDetail detail)
    (isDetailAgain : IsDetail detailAgain)
    (same : Entry.marked word detail span below = Entry.marked other detailAgain spanAgain belowAgain) :
    word = other ∧ detail = detailAgain ∧ below = belowAgain := by
  obtain ⟨inside, mark, noOpen, -⟩ := exists_mark span
  obtain ⟨insideAgain, markAgain, noOpenAgain, -⟩ := exists_mark spanAgain
  obtain ⟨texts, rfl⟩ := Entry.mk.inj same
  -- the place is cut off at the last parenthesis
  have cutMark : ∀ {word detail inside : List Char}, word ++ (detail ++ ' ' :: '(' :: inside) =
      (word ++ (detail ++ [' '])) ++ '(' :: inside := by simp
  rw [mark, markAgain, cutMark, cutMark] at texts
  have lines := (cut_last noOpen noOpenAgain texts).1
  -- and the word at the first blank
  have starts : ∀ {detail : String}, IsDetail detail →
      ∃ c tail, detail.toList ++ [' '] = c :: tail ∧ c = ' ' := by
    rintro detail (empty | ⟨tail, blank⟩)
    · exact ⟨' ', [], by rw [empty]; rfl, rfl⟩
    · exact ⟨' ', tail ++ [' '], by rw [blank]; rfl, rfl⟩
  have apart : ∀ {word : String}, word ∈ keywords → ∀ c ∈ word.toList, ¬ c = ' ' :=
    fun keyword c member blank => (keywords_plain _ keyword).2.1 (blank ▸ member)
  obtain ⟨words, details⟩ :=
    cut_where (apart keyword) (apart keywordAgain) (starts isDetail) (starts isDetailAgain) lines
  exact ⟨String.toList_inj.mp words, String.toList_inj.mp (List.append_cancel_right details), rfl⟩

end Entry

theorem toList_indented (depth : Nat) (parts : List String) :
    (indented depth parts).toList =
      List.replicate (2 * depth) ' ' ++ (String.join parts).toList ++ ['\n'] := by
  simp [indented]

/-! ## Expressions -/

namespace Expr

/-- The word that the line of an expression starts with. -/
def word : Expr → String
  | .int .. => "int"
  | .string .. => "string"
  | .bool .. => "bool"
  | .name .. => "ident"
  | .record .. => "datatype"
  | .operation .. => "prefix"
  | .call .. | .libraryCall .. => "call"
  | .list .. => "list"
  | .missing .. => "dummy"

/-- What the line of an expression says behind the word. -/
def detail : Expr → String
  | .int value _ => " " ++ toString value
  | .string value _ => " " ++ Text.Quoted.encode value
  | .bool value _ => " " ++ if value then "true" else "false"
  | .name ident _ => " " ++ ident.name
  | .record datatype _ _ => " " ++ datatype.name
  | .operation op _ _ => " " ++ op.symbol
  | .call function _ _ => " " ++ function.name
  | .libraryCall space function _ _ => " " ++ space.name ++ "::" ++ function.name
  | .list .. | .missing .. => ""

mutual

/-- The entries under the line of an expression. -/
def under : Expr → List Entry
  | .record _ fields _ => fieldEntries fields
  | .operation _ operands _ => entries operands
  | .call _ args _ => entries args
  | .libraryCall _ _ args _ => entries args
  | .list items _ => entries items
  | .int .. | .string .. | .bool .. | .name .. | .missing .. => []

def entries : List Expr → List Entry
  | [] => []
  | e :: es => .marked e.word e.detail e.span e.under :: entries es

def fieldEntries : List FieldValue → List Entry
  | [] => []
  | ⟨field, value⟩ :: fields =>
    ⟨("field " ++ field.name).toList, [.marked value.word value.detail value.span value.under]⟩ ::
      fieldEntries fields

end

/-- An expression with all that is under it. -/
def entry (e : Expr) : Entry :=
  .marked e.word e.detail e.span e.under

theorem word_mem (e : Expr) : e.word ∈ keywords := by
  cases e <;> simp [word, keywords]

theorem isDetail_detail (e : Expr) : IsDetail e.detail := by
  cases e with
  | list | missing => exact .inl (by simp [detail])
  | _ => exact .inr ⟨_, by simp [detail]; rfl⟩

theorem noBreak_detail {e : Expr} (named : e.Named IsName) : '\n' ∉ e.detail.toList := by
  have separates : '\n' ∈ separators := by decide
  cases e with
  | int value => simp [detail, noBreak_repr]
  | string value => simp [detail, Text.Quoted.noBreak_encode]
  | bool value => cases value <;> simp [detail]
  | name ident => simp [detail, IsName.notMem named separates]
  | record name fields => simp [detail, named.1.notMem separates]
  | operation op operands => cases op <;> simp [detail, Operator.symbol]
  | call function args => simp [detail, named.1.notMem separates]
  | libraryCall space function args => simp [detail, named.1.notMem separates, named.2.1.notMem separates]
  | list | missing => simp [detail]

end Expr

/-! ## What is printed -/

mutual

theorem Expr.toList_print (depth : Nat) : ∀ e : Expr, (e.print depth).toList = e.entry.render depth
  | .record .. | .operation .. | .call .. | .libraryCall .. | .list .. => by
    simp [Expr.print, toList_indented, toList_printExprs, toList_printFields, Expr.entry, Entry.marked,
      Entry.render, Expr.word, Expr.detail, Expr.under, Expr.span]
  | .int .. | .string .. | .bool .. | .name .. | .missing .. => by
    simp [Expr.print, toList_indented, Expr.entry, Entry.marked, Entry.render, Entry.renderEach, Expr.word,
      Expr.detail, Expr.under, Expr.span]

theorem toList_printExprs (depth : Nat) : ∀ es : List Expr,
    (printExprs depth es).toList = Entry.renderEach depth (Expr.entries es)
  | [] => rfl
  | e :: es => by
    rw [printExprs, String.toList_append, Expr.toList_print depth e, toList_printExprs depth es]
    rfl

theorem toList_printFields (depth : Nat) : ∀ fields : List FieldValue,
    (printFields depth fields).toList = Entry.renderEach depth (Expr.fieldEntries fields)
  | [] => rfl
  | ⟨name, value⟩ :: fields => by
    simp [printFields, toList_indented, Expr.toList_print (depth + 1) value, toList_printFields depth fields,
      Expr.fieldEntries, Expr.entry, Entry.render, Entry.renderEach]

end

/-! ## Reading back -/

theorem isLine_field {text : String} (noBreak : '\n' ∉ text.toList) : Entry.IsLine ("field " ++ text).toList :=
  ⟨⟨'f', _, by simp; rfl, by decide⟩, by simp [noBreak]⟩

namespace Expr

mutual

theorem linedEach_under : ∀ {e : Expr}, e.Named IsName → Entry.LinedEach e.under
  | .record .., named => linedEach_fieldEntries named.2
  | .operation .., named => linedEach_entries named
  | .call .., named => linedEach_entries named.2
  | .libraryCall .., named => linedEach_entries named.2.2
  | .list .., named => linedEach_entries named
  | .int .., _ | .string .., _ | .bool .., _ | .name .., _ | .missing .., _ => trivial

theorem linedEach_entries : ∀ {es : List Expr}, Expr.EachNamed IsName es → Entry.LinedEach (entries es)
  | [], _ => trivial
  | e :: _, ⟨named, others⟩ =>
    ⟨.marked e.word_mem (noBreak_detail named) (linedEach_under named), linedEach_entries others⟩

theorem linedEach_fieldEntries : ∀ {fields : List FieldValue}, FieldValue.EachNamed IsName fields →
    Entry.LinedEach (fieldEntries fields)
  | [], _ => trivial
  | ⟨_, value⟩ :: _, ⟨⟨isName, named⟩, others⟩ => by
    have lined : (Entry.marked value.word value.detail value.span value.under).Lined :=
      .marked value.word_mem (noBreak_detail named) (linedEach_under named)
    exact ⟨⟨isLine_field (isName.notMem (by decide)), lined, trivial⟩, linedEach_fieldEntries others⟩

end

theorem lined_entry {e : Expr} (named : e.Named IsName) : e.entry.Lined :=
  .marked e.word_mem (noBreak_detail named) (linedEach_under named)

/-- The parts of an expression are read back from its entry. -/
theorem parts_of_entry {e other : Expr} (same : e.entry = other.entry) :
    e.word = other.word ∧ e.detail = other.detail ∧ e.under = other.under :=
  Entry.marked_inj e.word_mem other.word_mem e.isDetail_detail other.isDetail_detail same

/-- The colon between the names of a call of the library is in no name. -/
theorem detail_call_ne {function space functionAgain : Ident} {args argsAgain : List Expr} {span spanAgain : Span}
    (named : IsName function.name) :
    (Expr.call function args span).detail ≠ (Expr.libraryCall space functionAgain argsAgain spanAgain).detail := by
  intro same
  have colon : ':' ∈ (" " ++ function.name).toList := by
    rw [show " " ++ function.name = " " ++ space.name ++ "::" ++ functionAgain.name from same]
    simp
  have noColon := named.notMem (show ':' ∈ separators by decide)
  simp [noColon] at colon

mutual

/-- An expression with proper names is read back from its entry. -/
theorem bare_of_entry : ∀ {e other : Expr}, e.Named IsName → other.Named IsName → e.entry = other.entry →
    e.bare = other.bare
  | .int value _, other, _, _, same => by
    obtain ⟨word, detail, -⟩ := parts_of_entry same
    cases other with
    | int valueAgain =>
      exact congrArg (Expr.int · default) (Int.repr_injective ((String.append_right_inj _).mp detail))
    | _ => exact absurd word (by simp [Expr.word])
  | .string value _, other, _, _, same => by
    obtain ⟨word, detail, -⟩ := parts_of_entry same
    cases other with
    | string valueAgain =>
      exact congrArg (Expr.string · default) (Text.Quoted.encode_injective ((String.append_right_inj _).mp detail))
    | _ => exact absurd word (by simp [Expr.word])
  | .bool value _, other, _, _, same => by
    obtain ⟨word, detail, -⟩ := parts_of_entry same
    cases other with
    | bool valueAgain =>
      have same := (String.append_right_inj _).mp detail
      cases value <;> cases valueAgain <;> first | rfl | simp at same
    | _ => exact absurd word (by simp [Expr.word])
  | .name ident _, other, _, _, same => by
    obtain ⟨word, detail, -⟩ := parts_of_entry same
    cases other with
    | name identAgain =>
      exact congrArg (Expr.name · default) (Ident.bare_of_name ((String.append_right_inj _).mp detail))
    | _ => exact absurd word (by simp [Expr.word])
  | .record datatype fields _, other, named, namedAgain, same => by
    obtain ⟨word, detail, under⟩ := parts_of_entry same
    cases other with
    | record datatypeAgain fieldsAgain =>
      exact congrArg₂ (Expr.record · · default) (Ident.bare_of_name ((String.append_right_inj _).mp detail))
        (bare_of_fieldEntries named.2 namedAgain.2 under)
    | _ => exact absurd word (by simp [Expr.word])
  | .operation op operands _, other, named, namedAgain, same => by
    obtain ⟨word, detail, under⟩ := parts_of_entry same
    cases other with
    | operation opAgain operandsAgain =>
      have symbols := congrArg Operator.ofSymbol? ((String.append_right_inj _).mp detail)
      rw [Parser.ofSymbol?_symbol, Parser.ofSymbol?_symbol] at symbols
      exact congrArg₂ (Expr.operation · · default) (Option.some.inj symbols) (bare_of_entries named namedAgain under)
    | _ => exact absurd word (by simp [Expr.word])
  | .call function args _, other, named, namedAgain, same => by
    obtain ⟨word, detail, under⟩ := parts_of_entry same
    cases other with
    | call functionAgain argsAgain =>
      exact congrArg₂ (Expr.call · · default) (Ident.bare_of_name ((String.append_right_inj _).mp detail))
        (bare_of_entries named.2 namedAgain.2 under)
    | libraryCall => exact absurd detail (detail_call_ne named.1)
    | _ => exact absurd word (by simp [Expr.word])
  | .libraryCall space function args _, other, named, namedAgain, same => by
    obtain ⟨word, detail, under⟩ := parts_of_entry same
    cases other with
    | libraryCall spaceAgain functionAgain argsAgain =>
      have isColon : ':' ∈ separators := by decide
      have names : space.name.toList ++ ':' :: (':' :: function.name.toList) =
          spaceAgain.name.toList ++ ':' :: (':' :: functionAgain.name.toList) := by
        simpa [Expr.detail] using congrArg String.toList detail
      obtain ⟨spaces, functions⟩ := cut_first (named.1.notMem isColon) (namedAgain.1.notMem isColon) names
      have sameSpace := Ident.bare_of_name (String.toList_inj.mp spaces)
      have sameFunction := Ident.bare_of_name (String.toList_inj.mp (List.cons.inj functions).2)
      have sameCall := congr (congrArg₂ (Expr.libraryCall · · · default) sameSpace sameFunction)
        (bare_of_entries named.2.2 namedAgain.2.2 under)
      exact sameCall
    | call => exact absurd detail.symm (detail_call_ne namedAgain.1)
    | _ => exact absurd word (by simp [Expr.word])
  | .list items _, other, named, namedAgain, same => by
    obtain ⟨word, -, under⟩ := parts_of_entry same
    cases other with
    | list itemsAgain => exact congrArg (Expr.list · default) (bare_of_entries named namedAgain under)
    | _ => exact absurd word (by simp [Expr.word])
  | .missing _, other, _, _, same => by
    obtain ⟨word, -⟩ := parts_of_entry same
    cases other with
    | missing => rfl
    | _ => exact absurd word (by simp [Expr.word])

theorem bare_of_entries : ∀ {es others : List Expr}, Expr.EachNamed IsName es → Expr.EachNamed IsName others →
    entries es = entries others → Expr.recastEach .blank es = Expr.recastEach .blank others
  | [], [], _, _, _ => rfl
  | [], _ :: _, _, _, same | _ :: _, [], _, _, same => by simp [entries] at same
  | e :: es, other :: others, named, namedAgain, same => by
    obtain ⟨first, rest⟩ := List.cons.inj same
    exact congrArg₂ List.cons (bare_of_entry named.1 namedAgain.1 first)
      (bare_of_entries named.2 namedAgain.2 rest)

theorem bare_of_fieldEntries : ∀ {fields others : List FieldValue}, FieldValue.EachNamed IsName fields →
    FieldValue.EachNamed IsName others → fieldEntries fields = fieldEntries others →
      FieldValue.recastEach .blank fields = FieldValue.recastEach .blank others
  | [], [], _, _, _ => rfl
  | [], ⟨_, _⟩ :: _, _, _, same | ⟨_, _⟩ :: _, [], _, _, same => by simp [fieldEntries] at same
  | ⟨field, value⟩ :: fields, ⟨other, valueAgain⟩ :: others, named, namedAgain, same => by
    obtain ⟨first, rest⟩ := List.cons.inj same
    obtain ⟨texts, under⟩ := Entry.mk.inj first
    have names := (String.append_right_inj _).mp (String.toList_inj.mp texts)
    have values := bare_of_entry named.1.2 namedAgain.1.2 (List.cons.inj under).1
    exact congrArg₂ List.cons (congrArg₂ FieldValue.mk (Ident.bare_of_name names) values)
      (bare_of_fieldEntries named.2 namedAgain.2 rest)

end

end Expr

end FrontEnd
