import FrontEnd.Proofs.Reading

/-!
# Loading headers

The headers of a library are read like any other text, so nothing that is taken for granted fails there
either, and what they declare has proper tags (`isLoaded_of_ofHeaders`). The headers of the standard library
are loaded without a fault (`Library.exists_standard`). That is a fact about one text, found by evaluation
from the characters of its signatures.
-/

namespace FrontEnd

/-! ## Any headers -/

/-- How a library is loaded from its headers. -/
structure IsLoaded (headers : List Header) (library : Library) : Prop where
  /-- The headers are read without an error. -/
  read : ∃ tokens program,
    IsRead .markerRun (String.join (headers.map Header.text)) tokens program ∧
      tokens.errors = [] ∧ program.errors = []
  load : Library.ofHeaders headers = .ok library
  proper : library.Proper

namespace Library

variable {headers : List Header} {library : Library}

theorem requireClean_ok {ε α : Type} [Reportable ε] {o : Outcome ε α} {value : α}
    (clean : requireClean headers o = .ok value) : o.errors = [] ∧ o.value = value := by
  rw [requireClean] at clean
  split at clean
  next noErrors => exact ⟨noErrors, Except.ok.inj clean⟩
  next => cases clean

theorem Proper.addDeclared (proper : library.Proper) {s : Statement}
    (named : s.Named TypeTag.IsScalarName) {behind : Library}
    (added : library.addDeclared headers s = .ok behind) : behind.Proper := by
  simp only [Library.addDeclared] at added
  split at added
  · split at added
    · rw [add] at added
      split at added
      · cases added
      · cases added
        intro entry member
        rcases List.mem_append.mp member with before | new
        · exact proper entry before
        · exact List.mem_singleton.mp new ▸ FunctionSymbol.proper_ofDecl _ named
    · cases added
  · cases added

theorem Proper.addDeclaredEach (proper : library.Proper) {p : Program}
    (named : Statement.EachNamed TypeTag.IsScalarName p) {behind : Library}
    (added : p.foldlM (Library.addDeclared headers) library = .ok behind) : behind.Proper := by
  induction p generalizing library with
  | nil =>
    cases added
    exact proper
  | cons s rest inductionHypothesis =>
    rw [List.foldlM_cons] at added
    cases first : Library.addDeclared headers library s with
    | error fault =>
      rw [first] at added
      cases added
    | ok next =>
      rw [first] at added
      exact inductionHypothesis (proper.addDeclared named.1 first) named.2 added

end Library

/-- A library that was loaded has proper tags, and its headers were read as any text is. -/
theorem isLoaded_of_ofHeaders {headers : List Header} {library : Library}
    (nonempty : String.join (headers.map Header.text) ≠ "")
    (small : (String.join (headers.map Header.text)).utf8ByteSize < 2147483648)
    (load : Library.ofHeaders headers = .ok library) : IsLoaded headers library := by
  have short := Nat.lt_trans small (show 2147483648 < UInt32.size by decide)
  obtain ⟨tokens, program, isRead, -, named⟩ :=
    exists_isRead .markerRun nonempty short (Lexer.asserts_of_small _ small)
  have loaded := load
  rw [Library.ofHeaders, isRead.tokenize] at loaded
  cases cleanTokens : Library.requireClean headers tokens with
  | error fault => simp [cleanTokens, Bind.bind, Except.bind] at loaded
  | ok value =>
    obtain ⟨noLexical, rfl⟩ := Library.requireClean_ok cleanTokens
    cases cleanProgram : Library.requireClean headers program with
    | error fault =>
      simp [cleanTokens, isRead.parse, cleanProgram, Bind.bind, Except.bind] at loaded
    | ok value =>
      obtain ⟨noSyntactic, rfl⟩ := Library.requireClean_ok cleanProgram
      simp only [cleanTokens, isRead.parse, cleanProgram, Bind.bind, Except.bind] at loaded
      have empty : Library.empty.Proper := List.forall_mem_nil _
      exact ⟨⟨tokens, program, isRead, noLexical, noSyntactic⟩, load,
        empty.addDeclaredEach named loaded⟩

/-! ## The headers of the standard library -/

/-- The characters of a header. -/
def Header.characters (h : Header) : List Char :=
  "\n         ".toList.intercalate (h.signatures.map fun s => s.toList ++ " \x7b\x7d".toList) ++
    "\n        ".toList

theorem Header.toList_text (h : Header) : h.text.toList = h.characters := by
  have lines : (h.signatures.map (· ++ " \x7b\x7d")).map String.toList =
      h.signatures.map fun s => s.toList ++ " \x7b\x7d".toList := by
    simp only [List.map_map, Function.comp_def, String.toList_append]
  rw [Header.text, String.toList_append, String.toList_intercalate, lines, Header.characters]

theorem Header.toList_join (headers : List Header) :
    (String.join (headers.map Header.text)).toList = headers.flatMap Header.characters := by
  simp only [String.toList_join, List.flatMap_map, Header.toList_text]

theorem Header.characters_ne_nil (h : Header) : h.characters ≠ [] :=
  List.append_ne_nil_of_right_ne_nil _ (by decide)

theorem Header.join_ne_empty {headers : List Header} (some : headers ≠ []) :
    String.join (headers.map Header.text) ≠ "" := by
  obtain ⟨h, others, rfl⟩ := List.exists_cons_of_ne_nil some
  intro empty
  have characters := Header.toList_join (h :: others)
  rw [empty, List.flatMap_cons] at characters
  exact h.characters_ne_nil (List.append_eq_nil_iff.mp characters.symm).1

/-- The library that some headers declare, from the characters of their text. -/
def Library.ofCharacters (headers : List Header) (characters : List Char) : Except Fault Library := do
  let tokens ← requireClean headers
    (Lexer.outcome ((⟨.start, characters⟩ : Lexer.Cursor).steps .markerRun))
  let program ← requireClean headers (← Program.parse tokens)
  program.foldlM (addDeclared headers) empty

theorem Library.ofHeaders_eq {headers : List Header} (some : headers ≠ []) :
    ofHeaders headers = ofCharacters headers (headers.flatMap Header.characters) := by
  rw [ofHeaders, Lexer.tokenize_of_nonempty .markerRun (Header.join_ne_empty some),
    Lexer.Cursor.ofString, Header.toList_join]
  rfl

/-- The standard headers are short, and a library is made of them. -/
theorem Header.standard_characters :
    String.utf8Len (Header.standard.flatMap Header.characters) < 2147483648 ∧
      (Library.ofCharacters Header.standard (Header.standard.flatMap Header.characters)).isOk = true := by
  simp only [Header.standard, Header.characters, List.map_cons, List.map_nil, List.flatMap_cons,
    List.flatMap_nil]
  -- a literal is made of its characters, and none has to be decoded where these are named
  repeat rw [String.toList_ofList]
  decide +kernel

/-- The standard library is loaded. -/
theorem Library.exists_standard :
    ∃ library, Library.standard = .ok library ∧ IsLoaded Header.standard library := by
  obtain ⟨counted, loads⟩ := Header.standard_characters
  have some : Header.standard ≠ [] := List.cons_ne_nil _ _
  have small : (String.join (Header.standard.map Header.text)).utf8ByteSize < 2147483648 := by
    rwa [← Header.toList_join, ← String.utf8ByteSize_ofList, String.ofList_toList] at counted
  rw [← Library.ofHeaders_eq some] at loads
  cases load : Library.ofHeaders Header.standard with
  | error fault =>
    rw [load] at loads
    cases loads
  | ok library => exact ⟨library, load, isLoaded_of_ofHeaders (Header.join_ne_empty some) small load⟩

end FrontEnd
