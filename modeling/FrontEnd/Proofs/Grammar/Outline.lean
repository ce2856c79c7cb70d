import FrontEnd.Token
import FrontEnd.Tree

/-!
# Outlines

The outline of a tree has nothing but its regions: that of a node with the outlines of its parts in it. So
what is to be said of the regions of all trees is said once. An outline nests (`Outline.Nests`) if every
region in it is as required, and the parts of every node are inside of its region, one behind the other.

A row of regions from one byte to another is what a parser makes between two states, and what a node is made
of.
-/

namespace FrontEnd

namespace Span

/-- Whether regions stand one behind the other, each of them with something in it, from one byte to
another. -/
def Row (first last : Nat) : List Span → Prop
  | [] => first ≤ last
  | span :: rest => first ≤ span.lo ∧ span.lo < span.hi ∧ Row span.hi last rest

/-- Whether regions are disjoint and in the order of their starts. -/
def Ordered (spans : List Span) : Prop :=
  spans.Pairwise fun a b => a.lo < b.lo ∧ a.hi ≤ b.lo

/-- Whether a region starts where some token starts, and ends where some token ends. -/
structure Marked (tokens : List Token) (span : Span) : Prop where
  starts : ∃ t ∈ tokens, t.span.lo = span.lo ∧ t.span.line = span.line ∧ t.span.column = span.column
  ends : ∃ t ∈ tokens, t.span.hi = span.hi

/-! ## Rows -/

variable {first middle last : Nat} {spans others : List Span}

theorem Row.le (row : Row first last spans) : first ≤ last := by
  induction spans generalizing first with
  | nil => exact row
  | cons span rest inductionHypothesis =>
    obtain ⟨starts, covers, tail⟩ := row
    have := inductionHypothesis tail
    omega

theorem Row.mono (row : Row first last spans) {start stop : Nat} (starts : start ≤ first)
    (ends : last ≤ stop) : Row start stop spans := by
  induction spans generalizing start first with
  | nil => exact Nat.le_trans starts (Nat.le_trans row ends)
  | cons span rest inductionHypothesis =>
    exact ⟨Nat.le_trans starts row.1, row.2.1, inductionHypothesis row.2.2 (Nat.le_refl _)⟩

theorem Row.append (row : Row first middle spans) (behind : Row middle last others) :
    Row first last (spans ++ others) := by
  induction spans generalizing first with
  | nil => exact behind.mono row (Nat.le_refl _)
  | cons span rest inductionHypothesis => exact ⟨row.1, row.2.1, inductionHypothesis row.2.2⟩

/-- What is behind some regions of a row starts behind where the row starts. -/
theorem Row.behind (row : Row first last (spans ++ others)) :
    ∃ start, first ≤ start ∧ Row start last others := by
  induction spans generalizing first with
  | nil => exact ⟨first, Nat.le_refl _, row⟩
  | cons span rest inductionHypothesis =>
    obtain ⟨starts, covers, tail⟩ := row
    obtain ⟨start, later, behind⟩ := inductionHypothesis tail
    exact ⟨start, by omega, behind⟩

/-- What is before a region of a row ends before it. -/
theorem Row.front {span : Span} (row : Row first last (spans ++ span :: others)) : Row first span.lo spans := by
  induction spans generalizing first with
  | nil => exact row.1
  | cons other rest inductionHypothesis => exact ⟨row.1, row.2.1, inductionHypothesis row.2.2⟩

/-- A region that is left out of a row leaves a gap. -/
theorem Row.without {span : Span} (row : Row first last (spans ++ span :: others)) :
    Row first last (spans ++ others) := by
  induction spans generalizing first with
  | nil => exact row.2.2.mono (Nat.le_trans row.1 (Nat.le_of_lt row.2.1)) (Nat.le_refl _)
  | cons other rest inductionHypothesis => exact ⟨row.1, row.2.1, inductionHypothesis row.2.2⟩

theorem Row.covers (row : Row first last spans) : ∀ span ∈ spans, span.lo < span.hi := by
  induction spans generalizing first with
  | nil => simp
  | cons span rest inductionHypothesis => exact List.forall_mem_cons.mpr ⟨row.2.1, inductionHypothesis row.2.2⟩

theorem Row.split (row : Row first last (spans ++ others)) :
    ∃ middle, Row first middle spans ∧ Row middle last others := by
  induction spans generalizing first with
  | nil => exact ⟨first, Nat.le_refl _, row⟩
  | cons span rest inductionHypothesis =>
    obtain ⟨middle, front, behind⟩ := inductionHypothesis row.2.2
    exact ⟨middle, ⟨row.1, row.2.1, front⟩, behind⟩

theorem Row.cutLast {span : Span} (row : Row first last (spans ++ [span])) :
    Row first span.hi (spans ++ [span]) := by
  induction spans generalizing first with
  | nil => exact ⟨row.1, row.2.1, Nat.le_refl _⟩
  | cons other rest inductionHypothesis => exact ⟨row.1, row.2.1, inductionHypothesis row.2.2⟩

theorem Row.inside (row : Row first last spans) : ∀ span ∈ spans, first ≤ span.lo ∧ span.hi ≤ last := by
  induction spans generalizing first with
  | nil => simp
  | cons span rest inductionHypothesis =>
    have ends := row.2.2.le
    have later := inductionHypothesis row.2.2
    have covers := row.2.1
    rw [List.forall_mem_cons]
    refine ⟨⟨row.1, ends⟩, fun other member => ?_⟩
    have := row.1
    have := later other member
    omega

theorem Row.ordered (row : Row first last spans) : Ordered spans := by
  induction spans generalizing first with
  | nil => exact .nil
  | cons span rest inductionHypothesis =>
    refine List.pairwise_cons.mpr ⟨fun other member => ?_, inductionHypothesis row.2.2⟩
    have := row.2.1
    have := (row.2.2.inside other member).1
    omega

/-! ## Marks -/

theorem marked_token {tokens : List Token} {t : Token} (member : t ∈ tokens) : t.span.Marked tokens :=
  ⟨⟨t, member, rfl, rfl, rfl⟩, t, member, rfl⟩

theorem Marked.upTo {tokens : List Token} {span other : Span} (marked : span.Marked tokens)
    (markedOther : other.Marked tokens) : (span.upTo other).Marked tokens := by
  refine ⟨marked.starts, ?_⟩
  rw [hi_upTo]
  by_cases later : other.hi ≤ span.hi
  · rw [Nat.max_eq_right later]
    exact marked.ends
  · rw [Nat.max_eq_left (by omega)]
    exact markedOther.ends

end Span

/-! ## Outlines -/

/-- The regions of a tree. Beside those of its parts, a node may have some that it shares with a node in front
of it. -/
inductive Outline where
  | node (span : Span) (shared : List Span) (parts : List Outline)

namespace Outline

def leaf (span : Span) : Outline :=
  .node span [] []

def span : Outline → Span
  | .node span _ _ => span

/-- Whether the regions of an outline are marked, and the parts of each node are inside of its region, one
behind the other. -/
inductive Nests (marked : Span → Prop) : Outline → Prop
  | node {span : Span} {shared : List Span} {parts : List Outline} (own : marked span)
      (borrowed : ∀ r ∈ shared, marked r)
      (inside : ∀ part ∈ parts, span.lo ≤ part.span.lo ∧ part.span.hi ≤ span.hi)
      (ordered : Span.Ordered (parts.map Outline.span)) (each : ∀ part ∈ parts, Nests marked part) :
      Nests marked (.node span shared parts)

/-- Whether all regions of an outline are good, those it shares included. -/
inductive Every (good : Span → Prop) : Outline → Prop
  | node {span : Span} {shared : List Span} {parts : List Outline} (own : good span)
      (borrowed : ∀ r ∈ shared, good r) (each : ∀ part ∈ parts, Every good part) :
      Every good (.node span shared parts)

/-- Outlines that nest, one behind the other from one byte to another. -/
structure InRow (marked : Span → Prop) (first last : Nat) (outlines : List Outline) : Prop where
  row : Span.Row first last (outlines.map Outline.span)
  each : ∀ o ∈ outlines, o.Nests marked

variable {marked : Span → Prop} {first middle last : Nat} {parts others : List Outline} {span : Span}

theorem Nests.markedSpan {o : Outline} (nests : o.Nests marked) : marked o.span := by
  cases nests with
  | node own => exact own

section

variable {good : Span → Prop} {shared : List Span} {o : Outline}

/-- A node that shares no region. -/
theorem every_node (own : good span) (each : ∀ part ∈ parts, part.Every good) :
    (Outline.node span [] parts).Every good :=
  .node own (List.forall_mem_nil _) each

theorem every_leaf (own : good span) : (leaf span).Every good :=
  every_node own (List.forall_mem_nil _)

/-- What is known of the regions in an outline. -/
theorem Every.goodParts (every : (Outline.node span shared parts).Every good) :
    good span ∧ (∀ r ∈ shared, good r) ∧ ∀ part ∈ parts, part.Every good := by
  cases every with
  | node own borrowed each => exact ⟨own, borrowed, each⟩

theorem Every.goodSpan (every : o.Every good) : good o.span := by
  cases every with
  | node own => exact own

theorem every_of_forall (all : ∀ r, good r) : ∀ o : Outline, o.Every good
  | .node span _ parts => .node (all span) (fun r _ => all r) fun part _ => every_of_forall all part

theorem Nests.every (nests : o.Nests marked) : o.Every marked := by
  induction nests with
  | node own borrowed _ _ _ inductionHypothesis => exact .node own borrowed inductionHypothesis

theorem Nests.and_every (nests : o.Nests marked) (every : o.Every good) :
    o.Nests fun r => marked r ∧ good r := by
  induction nests with
  | node own borrowed inside ordered _ inductionHypothesis =>
    obtain ⟨ownGood, borrowedGood, eachGood⟩ := every.goodParts
    exact .node ⟨own, ownGood⟩ (fun r member => ⟨borrowed r member, borrowedGood r member⟩) inside ordered
      fun part member => inductionHypothesis part member (eachGood part member)

end

theorem inRow_nil (le : first ≤ last) : InRow marked first last [] :=
  ⟨le, by simp⟩

theorem InRow.append (row : InRow marked first middle parts) (behind : InRow marked middle last others) :
    InRow marked first last (parts ++ others) := by
  refine ⟨?_, ?_⟩
  · rw [List.map_append]
    exact row.row.append behind.row
  · rw [List.forall_mem_append]
    exact ⟨row.each, behind.each⟩

theorem InRow.mono (row : InRow marked first last parts) {start stop : Nat} (starts : start ≤ first)
    (ends : last ≤ stop) : InRow marked start stop parts :=
  ⟨row.row.mono starts ends, row.each⟩

/-- A row ends where its last outline does. -/
theorem InRow.cutLast {o : Outline} (row : InRow marked first last (parts ++ [o])) (span : Span)
    (same : o.span.hi = span.hi) : InRow marked first span.hi (parts ++ [o]) ∧ span.hi ≤ last := by
  have spans := row.row
  rw [List.map_append, List.map_singleton] at spans
  obtain ⟨start, -, -, -, ends⟩ := spans.behind
  rw [← same]
  refine ⟨⟨?_, row.each⟩, ends⟩
  rw [List.map_append, List.map_singleton]
  exact spans.cutLast

theorem InRow.cut {o : Outline} (row : InRow marked first last [o]) (span : Span) (same : o.span = span) :
    InRow marked first span.hi [o] ∧ span.hi ≤ last ∧ marked span := by
  have only : InRow marked first last ([] ++ [o]) := row
  obtain ⟨cut, ends⟩ := only.cutLast span (by rw [same])
  exact ⟨cut, ends, same ▸ (row.each o List.mem_cons_self).markedSpan⟩

/-- Parts in a row make up a node that starts where they start, or before, and ends where they end, or
behind. -/
theorem InRow.node {start stop : Nat} {shared : List Span} (row : InRow marked first last parts)
    (own : marked span) (borrowed : ∀ r ∈ shared, marked r)
    (starts : start ≤ span.lo ∧ span.lo ≤ first) (covers : span.lo < span.hi)
    (ends : last ≤ span.hi ∧ span.hi ≤ stop) :
    InRow marked start stop [.node span shared parts] := by
  refine ⟨⟨starts.1, covers, ends.2⟩, ?_⟩
  rw [List.forall_mem_singleton]
  refine .node own borrowed (fun part member => ?_) row.row.ordered row.each
  have bounds := row.row.inside part.span (List.mem_map_of_mem member)
  omega

/-- A node may have the region of its only part. -/
theorem InRow.wrapped {o : Outline} (row : InRow marked first last [o]) (same : o.span = span) :
    InRow marked first last [.node span [] [o]] := by
  subst same
  obtain ⟨starts, covers, ends⟩ := row.row
  have alone : InRow marked o.span.lo o.span.hi [o] := ⟨⟨Nat.le_refl _, covers, Nat.le_refl _⟩, row.each⟩
  exact alone.node (row.each o List.mem_cons_self).markedSpan (by simp) ⟨starts, Nat.le_refl _⟩ covers
    ⟨Nat.le_refl _, ends⟩

theorem inRow_leaf (own : marked span) (starts : first ≤ span.lo) (covers : span.lo < span.hi)
    (ends : span.hi ≤ last) : InRow marked first last [.leaf span] :=
  (inRow_nil (Nat.le_of_lt covers)).node own (by simp) ⟨starts, Nat.le_refl _⟩ covers ⟨Nat.le_refl _, ends⟩

end Outline

/-! ## The outlines of trees -/

def Ident.outline (ident : Ident) : Outline :=
  .leaf ident.span

def TypeName.outline (type : TypeName) : Outline :=
  .leaf type.span

/-- A typed name is from its type to its name. -/
def Param.outline (param : Param) : Outline :=
  .node (param.type.span.upTo param.name.span) [] [param.type.outline, param.name.outline]

mutual

def Expr.outline : Expr → Outline
  | .int _ span | .string _ span | .bool _ span | .missing span => .leaf span
  | .name ident span => .node span [] [ident.outline]
  | .record name fields span => .node span [] (name.outline :: FieldValue.outlines fields)
  | .operation _ operands span => .node span [] (Expr.outlines operands)
  | .call function args span => .node span [] (function.outline :: Expr.outlines args)
  | .libraryCall space function args span =>
    .node span [] (space.outline :: function.outline :: Expr.outlines args)
  | .list items span => .node span [] (Expr.outlines items)

def Expr.outlines : List Expr → List Outline
  | [] => []
  | e :: es => e.outline :: Expr.outlines es

/-- A field of a record is from its name to its value. -/
def FieldValue.outlines : List FieldValue → List Outline
  | [] => []
  | ⟨name, value⟩ :: fields =>
    .node (name.span.upTo value.span) [] [name.outline, value.outline] :: FieldValue.outlines fields

end

mutual

/-- The type of a chained declaration is shared with the one in front of it. -/
def Statement.outline : Statement → Outline
  | .function ⟨name, params, returns, body⟩ span =>
    .node span []
      (name.outline :: params.map Param.outline ++ returns.map TypeName.outline ++ [body.outline])
  | .datatype decl span => .node span [] (decl.name.outline :: decl.fields.map Param.outline)
  | .declaration false decl span =>
    .node span [] [decl.type.outline, decl.name.outline, decl.value.outline]
  | .declaration true decl span => .node span [decl.type.span] [decl.name.outline, decl.value.outline]
  | .reassignment target value span => .node span [] [target.outline, value.outline]
  | .conditional branches otherwise span =>
    .node span [] (Branch.outlines branches ++ Block.outlines otherwise)
  | .loop condition body span => .node span [] (condition.toList.map Expr.outline ++ [body.outline])
  | .block body span => .node span [] [body.outline]
  | .result values span => .node span [] (Expr.outlines values)
  | .call call span => .node span [] [call.outline]
  | .control _ span => .leaf span

def Statement.outlines : List Statement → List Outline
  | [] => []
  | s :: rest => s.outline :: Statement.outlines rest

def Block.outline : Block → Outline
  | ⟨statements, span⟩ => .node span [] (Statement.outlines statements)

/-- A branch is from its condition to its block. -/
def Branch.outlines : List Branch → List Outline
  | [] => []
  | ⟨condition, body⟩ :: rest =>
    .node (condition.span.upTo body.span) [] [condition.outline, body.outline] :: Branch.outlines rest

def Block.outlines : Option Block → List Outline
  | none => []
  | some body => [body.outline]

end

def FieldValue.outline (field : FieldValue) : Outline :=
  .node (field.name.span.upTo field.value.span) [] [field.name.outline, field.value.outline]

def Branch.outline (branch : Branch) : Outline :=
  .node (branch.condition.span.upTo branch.body.span) [] [branch.condition.outline, branch.body.outline]

@[simp] theorem Expr.span_outline (e : Expr) : e.outline.span = e.span := by
  cases e <;> rfl

@[simp] theorem Block.span_outline (b : Block) : b.outline.span = b.span := by
  cases b
  rfl

@[simp] theorem Statement.span_outline (s : Statement) : s.outline.span = s.span := by
  cases s with
  | function decl span => cases decl; rfl
  | declaration chained decl span => cases chained <;> rfl
  | _ => rfl

theorem Statement.map_span_outline (statements : List Statement) :
    (statements.map Statement.outline).map Outline.span = statements.map Statement.span := by
  rw [List.map_map]
  exact List.map_congr_left fun s _ => s.span_outline

theorem Expr.outlines_eq_map (es : List Expr) : Expr.outlines es = es.map Expr.outline := by
  induction es with
  | nil => rfl
  | cons e es inductionHypothesis => rw [outlines, inductionHypothesis, List.map_cons]

theorem FieldValue.outlines_eq_map (fields : List FieldValue) :
    FieldValue.outlines fields = fields.map FieldValue.outline := by
  induction fields with
  | nil => rfl
  | cons field fields inductionHypothesis =>
    cases field
    rw [outlines, inductionHypothesis, List.map_cons, outline]

theorem Statement.outlines_eq_map (statements : List Statement) :
    Statement.outlines statements = statements.map Statement.outline := by
  induction statements with
  | nil => rfl
  | cons s rest inductionHypothesis => rw [outlines, inductionHypothesis, List.map_cons]

theorem Branch.outlines_eq_map (branches : List Branch) :
    Branch.outlines branches = branches.map Branch.outline := by
  induction branches with
  | nil => rfl
  | cons branch rest inductionHypothesis =>
    cases branch
    rw [outlines, inductionHypothesis, List.map_cons, outline]

end FrontEnd
