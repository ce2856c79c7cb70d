import FrontEnd.Proofs.Grammar.Unmoved
import FrontEnd.Proofs.Lexing.Errors
import FrontEnd.Proofs.Placement

/-!
# Diagnostics point into the text

Whatever a stage reports, it reports at a region that starts with a token and ends with one, so that the text
can be cut there. For the lexer and the parser this is the region of a token. What the checker reports is
made of the regions of the tree and moves along with them; so if it was reported anywhere else, it could be
moved while the tree stays.
-/

namespace FrontEnd

open String (utf8Len)

/-- Whether a region is a part of a text, between characters, and has the line and the column of its first
character there, which is the first of a token. -/
structure Span.PointsInto (source : String) (tokens : List Token) (span : Span) : Prop where
  inside : span.hi ≤ source.utf8ByteSize
  placed : ∃ before text behind, source.toList = before ++ (text ++ behind) ∧
    span.lo = utf8Len before ∧ span.len = utf8Len text ∧
      span.line = 1 + before.count '\n' ∧ span.column = Lexer.columnAfter before
  starts : ∃ t ∈ tokens, t.span.lo = span.lo

/-- Two parts of a text from its start: the one with fewer bytes is the start of the other. -/
theorem prefix_of_utf8Len_le {before other text : List Char} (first : before <+: text)
    (second : other <+: text) (le : utf8Len before ≤ utf8Len other) : before <+: other := by
  cases List.prefix_or_prefix_of_prefix first second with
  | inl shorter => exact shorter
  | inr longer =>
    obtain ⟨rest, rfl⟩ := longer
    rw [String.utf8Len_append] at le
    have none : rest = [] := String.utf8Len_eq_zero.mp (by omega)
    simp [none]

/-- The text can be cut at a region that is marked by its tokens. -/
theorem Span.Marked.pointsInto {source : String} {tokens : List Token} {span : Span}
    (marked : span.Marked tokens) (tiles : Lexer.Tiles source tokens) : span.PointsInto source tokens := by
  obtain ⟨⟨t, member, lo, line, column⟩, u, memberLast, hi⟩ := marked
  obtain ⟨before, text, behind, split, -, covers⟩ := tiles.placed t member
  obtain ⟨beforeLast, textLast, behindLast, splitLast, -, coversLast⟩ := tiles.placed u memberLast
  have size : source.utf8ByteSize = utf8Len source.toList := by
    rw [← String.utf8ByteSize_ofList, String.ofList_toList]
  have ends : span.hi = utf8Len (beforeLast ++ textLast) := hi.symm.trans coversLast.hi
  have starts : span.lo = utf8Len before := lo.symm.trans covers.lo
  have upTo : before <+: beforeLast ++ textLast := by
    refine prefix_of_utf8Len_le ⟨text ++ behind, split.symm⟩ ⟨behindLast, ?_⟩ ?_
    · rw [splitLast, List.append_assoc]
    · rw [← starts, ← ends]
      exact Nat.le_add_right _ _
  -- the region is what the text up to its end has more than the text up to its start
  obtain ⟨inner, whole⟩ := upTo
  rw [← whole, String.utf8Len_append] at ends
  refine ⟨?inside, ⟨before, inner, behindLast, ?_, starts, ?_, ?_, ?_⟩, t, member, lo⟩
  case inside =>
    rw [ends, size, splitLast, ← List.append_assoc, ← whole]
    simp only [String.utf8Len_append]
    omega
  · rw [splitLast, ← List.append_assoc, ← whole, List.append_assoc]
  · rw [Span.hi] at ends
    omega
  · rw [← line, covers.line]
  · rw [← column, covers.column]

/-! ## The checker -/

/-- Whatever is found in a program is at a region of its outline. -/
theorem Program.marked_of_found {marked : Span → Prop} (library : Library) {p : Program}
    (nests : ∀ s ∈ p, s.outline.Nests marked) : ∀ e ∈ p.found library, marked e.span := by
  intro e member
  by_contra unmarked
  classical
  -- all regions that are not marked are moved, and there are none of these in the tree
  let place : Span → Span := fun r => if marked r then r else { r with lo := r.lo + 1 }
  have fixed : ∀ r, marked r → place r = r := fun r isMarked => if_pos isMarked
  have same : (p.recast (.placing place)).found library = _ := found_recast Function.injective_id library p
  rw [recast_of_every (Recast.keeps_placing fixed) fun s member => (nests s member).every] at same
  have stays : Typing.recastError (.placing place) e = e :=
    List.map_inj_left.mp (same.symm.trans (List.map_id _).symm) e member
  have moved : place e.span = { e.span with lo := e.span.lo + 1 } := if_neg unmarked
  have regions : place e.span = e.span := congrArg Located.span stays
  rw [moved] at regions
  exact absurd (congrArg Span.lo regions) (Nat.succ_ne_self _)

/-! ## All stages -/

/-- Every diagnostic points into the text, whichever stage it comes from, and those of the lexer come before
those of the parser and these before those of the checker. -/
theorem check_pointsInto (style : Lexer.CommentStyle) {source : String} (nonempty : source ≠ "") :
    ∃ tokens c, Lexer.tokenize style source = .ok tokens ∧ check style source = .ok c ∧
      (∀ d ∈ c.diagnostics, d.span.PointsInto source tokens.value) ∧
      ∃ lexical syntactic semantic, c.diagnostics = lexical ++ syntactic ++ semantic ∧
        (∀ d ∈ lexical, d.stage = .lexer) ∧ (∀ d ∈ syntactic, d.stage = .parser) ∧
        ∀ d ∈ semantic, d.stage = .analyzer := by
  obtain ⟨tokens, program, library, all⟩ := exists_placesAll style nonempty
  have atToken : ∀ {span : Span}, (∃ t ∈ tokens.value, span = t.span) →
      span.PointsInto source tokens.value := by
    rintro _ ⟨t, member, rfl⟩
    exact (Span.marked_token member).pointsInto all.tiles
  refine ⟨tokens, _, all.tokenize, all.result, fun d member => ?points, _, _, _, rfl, ?_, ?_, ?_⟩
  case points =>
    rw [List.mem_append, List.mem_append] at member
    obtain (ofLexer | ofParser) | ofChecker := member
    · obtain ⟨e, found, rfl⟩ := List.mem_map.mp ofLexer
      exact atToken (Lexer.span_of_mem_errors all.tokenize e found)
    · obtain ⟨e, found, rfl⟩ := List.mem_map.mp ofParser
      obtain ⟨t, atParsed, same, -⟩ := all.placed.reports e found
      exact atToken ⟨t, atParsed, same⟩
    · obtain ⟨e, found, rfl⟩ := List.mem_map.mp ofChecker
      exact (Program.marked_of_found library all.placed.nests e found).pointsInto all.tiles
  all_goals
    intro d member
    obtain ⟨e, -, rfl⟩ := List.mem_map.mp member
    rfl

/-- Mistakes for each stage to find, behind characters of two bytes: a string that is not closed and a minus
sign alone, a comma that is missing, and names that are not declared. -/
def mistakenText : String :=
  "int é = +(f(\"ü\") y).\nx = -.\n\"ü"

theorem check_pointsInto_mistaken :
    mistakenText ≠ "" ∧
      ∃ tokens c, Lexer.tokenize .line mistakenText = .ok tokens ∧ check .line mistakenText = .ok c ∧
        (∀ d ∈ c.diagnostics, d.span.PointsInto mistakenText tokens.value) ∧
        ∃ lexical syntactic semantic, c.diagnostics = lexical ++ syntactic ++ semantic ∧
          (∀ d ∈ lexical, d.stage = .lexer) ∧ (∀ d ∈ syntactic, d.stage = .parser) ∧
          ∀ d ∈ semantic, d.stage = .analyzer :=
  ⟨by decide, check_pointsInto .line (by decide)⟩

end FrontEnd
