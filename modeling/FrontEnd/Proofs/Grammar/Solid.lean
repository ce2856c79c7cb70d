import FrontEnd.Proofs.Grammar.Outline

/-!
# Trees with something in every region

Two regions with nothing in them could be at one place although they are apart. A tree is solid if there is
something in every region of it, and all that is in an expression, but for the names in front of its brackets, is
behind its first byte. Where the regions of a solid tree nest, the parts of each node are a row.
-/

namespace FrontEnd

namespace Span

/-- Whether there is something in a region. -/
def Solid (span : Span) : Prop :=
  span.lo < span.hi

theorem Solid.upTo {span : Span} (solid : span.Solid) (other : Span) : (span.upTo other).Solid := by
  rw [Solid, lo_upTo, hi_upTo]
  exact Nat.lt_of_lt_of_le solid (Nat.le_max_right _ _)

/-- Regions in their order, with something in each, are a row. -/
theorem Ordered.row {spans : List Span} (ordered : Ordered spans) {first last : Nat} (le : first ≤ last)
    (starts : ∀ span ∈ spans, first ≤ span.lo) (solid : ∀ span ∈ spans, span.Solid)
    (ends : ∀ span ∈ spans, span.hi ≤ last) : Row first last spans := by
  induction spans generalizing first with
  | nil => exact le
  | cons span rest inductionHypothesis =>
    rw [Ordered, List.pairwise_cons] at ordered
    rw [List.forall_mem_cons] at starts solid ends
    refine ⟨starts.1, solid.1, inductionHypothesis ordered.2 ends.1 (fun other member => ?_) solid.2 ends.2⟩
    exact (ordered.1 other member).2

end Span

def Param.Solid (p : Param) : Prop :=
  p.type.span.Solid ∧ p.name.span.Solid

mutual

def Expr.Solid : Expr → Prop
  | .int _ span | .string _ span | .bool _ span | .missing span => span.Solid
  | .name ident span => ident.span = span ∧ span.Solid
  | .record name fields span => span.Solid ∧ name.span.Solid ∧ FieldValue.EachSolid fields
  | .operation _ operands span => span.Solid ∧ Expr.EachSolid span.lo operands
  | .call function args span => span.Solid ∧ function.span.Solid ∧ Expr.EachSolid span.lo args
  | .libraryCall space function args span =>
    span.Solid ∧ (space.span.Solid ∧ function.span.Solid) ∧ Expr.EachSolid span.lo args
  | .list items span => span.Solid ∧ Expr.EachSolid span.lo items

/-- Whether some expressions are solid and behind a byte. -/
def Expr.EachSolid (first : Nat) : List Expr → Prop
  | [] => True
  | e :: es => (first < e.span.lo ∧ e.Solid) ∧ Expr.EachSolid first es

def FieldValue.EachSolid : List FieldValue → Prop
  | [] => True
  | ⟨name, value⟩ :: fields => (name.span.Solid ∧ value.Solid) ∧ FieldValue.EachSolid fields

end

def FieldValue.Solid (field : FieldValue) : Prop :=
  field.name.span.Solid ∧ field.value.Solid

mutual

def Statement.Solid : Statement → Prop
  | .function ⟨name, params, returns, body⟩ span =>
    span.Solid ∧ name.span.Solid ∧ (∀ p ∈ params, p.Solid) ∧ (∀ type ∈ returns, type.span.Solid) ∧ body.Solid
  | .datatype decl span => span.Solid ∧ decl.name.span.Solid ∧ ∀ p ∈ decl.fields, p.Solid
  | .declaration _ decl span =>
    span.Solid ∧ decl.type.span.Solid ∧ decl.name.span.Solid ∧ decl.value.Solid
  | .reassignment target value span => span.Solid ∧ target.span.Solid ∧ value.Solid
  | .conditional branches otherwise span =>
    span.Solid ∧ Branch.EachSolid branches ∧ Block.OptionSolid otherwise
  | .loop condition body span => span.Solid ∧ (∀ e ∈ condition, e.Solid) ∧ body.Solid
  | .block body span => span.Solid ∧ body.Solid
  | .result values span => span.Solid ∧ ∀ e ∈ values, e.Solid
  | .call call span => span.Solid ∧ call.Solid
  | .control _ span => span.Solid

def Statement.EachSolid : List Statement → Prop
  | [] => True
  | s :: rest => s.Solid ∧ Statement.EachSolid rest

def Block.Solid : Block → Prop
  | ⟨statements, span⟩ => span.Solid ∧ Statement.EachSolid statements

def Branch.EachSolid : List Branch → Prop
  | [] => True
  | ⟨condition, body⟩ :: rest => (condition.Solid ∧ body.Solid) ∧ Branch.EachSolid rest

def Block.OptionSolid : Option Block → Prop
  | none => True
  | some body => body.Solid

end

def Branch.Solid (branch : Branch) : Prop :=
  branch.condition.Solid ∧ branch.body.Solid

theorem Expr.Solid.solid_span {e : Expr} (solid : e.Solid) : e.span.Solid := by
  cases e with
  | int | string | bool | missing => exact solid
  | name => exact solid.2
  | record | operation | call | libraryCall | list => exact solid.1

theorem Statement.Solid.solid_span {s : Statement} (solid : s.Solid) : s.span.Solid := by
  cases s with
  | control => exact solid
  | function decl span =>
    cases decl
    exact solid.1
  | _ => exact solid.1

theorem Block.Solid.solid_span {b : Block} (solid : b.Solid) : b.span.Solid := by
  cases b
  exact solid.1

theorem Expr.eachSolid_iff {first : Nat} {es : List Expr} :
    Expr.EachSolid first es ↔ ∀ e ∈ es, first < e.span.lo ∧ e.Solid := by
  induction es with
  | nil => simp [Expr.EachSolid]
  | cons e es inductionHypothesis => rw [Expr.EachSolid, inductionHypothesis, List.forall_mem_cons]

theorem Expr.EachSolid.each {first : Nat} {es : List Expr} (solid : Expr.EachSolid first es) : ∀ e ∈ es, e.Solid :=
  fun e member => (Expr.eachSolid_iff.mp solid e member).2

theorem FieldValue.eachSolid_iff {fields : List FieldValue} :
    FieldValue.EachSolid fields ↔ ∀ field ∈ fields, field.Solid := by
  induction fields with
  | nil => simp [FieldValue.EachSolid]
  | cons field fields inductionHypothesis =>
    cases field
    rw [FieldValue.EachSolid, inductionHypothesis, List.forall_mem_cons]
    rfl

theorem Statement.eachSolid_iff {statements : List Statement} :
    Statement.EachSolid statements ↔ ∀ s ∈ statements, s.Solid := by
  induction statements with
  | nil => simp [Statement.EachSolid]
  | cons s rest inductionHypothesis => rw [Statement.EachSolid, inductionHypothesis, List.forall_mem_cons]

theorem Branch.eachSolid_iff {branches : List Branch} :
    Branch.EachSolid branches ↔ ∀ branch ∈ branches, branch.Solid := by
  induction branches with
  | nil => simp [Branch.EachSolid]
  | cons branch rest inductionHypothesis =>
    cases branch
    rw [Branch.EachSolid, inductionHypothesis, List.forall_mem_cons]
    rfl

/-! ## Nodes of solid trees -/

section

variable {marked : Span → Prop} {span : Span} {shared : List Span} {parts : List Outline}

theorem Outline.Nests.each (nests : (Outline.node span shared parts).Nests marked) :
    ∀ part ∈ parts, part.Nests marked := by
  cases nests with
  | node _ _ _ _ each => exact each

theorem Outline.Nests.inside (nests : (Outline.node span shared parts).Nests marked) :
    ∀ part ∈ parts, span.lo ≤ part.span.lo ∧ part.span.hi ≤ span.hi := by
  cases nests with
  | node _ _ inside _ _ => exact inside

/-- The parts of a node are a row from any byte that they are behind. -/
theorem Outline.Nests.row (nests : (Outline.node span shared parts).Nests marked) {first : Nat}
    (starts : ∀ part ∈ parts, first ≤ part.span.lo) (solid : ∀ part ∈ parts, part.span.Solid)
    (le : first ≤ span.hi) : Span.Row first span.hi (parts.map Outline.span) := by
  cases nests with
  | node _ _ inside ordered _ =>
    exact ordered.row le (List.forall_mem_map.mpr starts) (List.forall_mem_map.mpr solid)
      (List.forall_mem_map.mpr fun part member => (inside part member).2)

theorem Outline.Nests.row_self (nests : (Outline.node span shared parts).Nests marked)
    (solid : ∀ part ∈ parts, part.span.Solid) : Span.Row span.lo span.hi (parts.map Outline.span) :=
  nests.row (fun part member => (nests.inside part member).1) solid (Nat.le_add_right _ _)

theorem Expr.map_span_outlines (es : List Expr) : (Expr.outlines es).map Outline.span = es.map Expr.span := by
  rw [Expr.outlines_eq_map, List.map_map]
  exact List.map_congr_left fun e _ => e.span_outline

theorem Expr.solid_outlines {first : Nat} {es : List Expr} (solid : Expr.EachSolid first es) :
    ∀ o ∈ Expr.outlines es, first < o.span.lo ∧ o.span.Solid := by
  rw [Expr.outlines_eq_map, List.forall_mem_map]
  intro e member
  have ofItem := Expr.eachSolid_iff.mp solid e member
  rw [Expr.span_outline]
  exact ⟨ofItem.1, ofItem.2.solid_span⟩

/-- What is in brackets is a row behind the first byte. -/
theorem Expr.row_of_brackets {es : List Expr} (nests : (Outline.node span [] (Expr.outlines es)).Nests marked)
    (own : span.Solid) (solid : Expr.EachSolid span.lo es) :
    Span.Row (span.lo + 1) span.hi (es.map Expr.span) := by
  have each := Expr.solid_outlines solid
  rw [← Expr.map_span_outlines]
  exact nests.row (fun o member => (each o member).1) (fun o member => (each o member).2) own

/-- The name of a function and its arguments. -/
theorem Expr.row_of_call {function : Ident} {args : List Expr} {first : Nat}
    (nests : (Outline.node span [] (function.outline :: Expr.outlines args)).Nests marked)
    (ofName : function.span.Solid) (solid : Expr.EachSolid first args) :
    Span.Row span.lo span.hi (function.span :: args.map Expr.span) := by
  rw [← Expr.map_span_outlines]
  exact nests.row_self (List.forall_mem_cons.mpr ⟨ofName, fun o member => (Expr.solid_outlines solid o member).2⟩)

theorem Expr.row_of_libraryCall {space function : Ident} {args : List Expr} {first : Nat}
    (nests : (Outline.node span [] (space.outline :: function.outline :: Expr.outlines args)).Nests marked)
    (ofNames : space.span.Solid ∧ function.span.Solid) (solid : Expr.EachSolid first args) :
    Span.Row span.lo span.hi (space.span :: function.span :: args.map Expr.span) := by
  have ofArgs : ∀ o ∈ Expr.outlines args, o.span.Solid := fun o member => (Expr.solid_outlines solid o member).2
  rw [← Expr.map_span_outlines]
  exact nests.row_self (List.forall_mem_cons.mpr ⟨ofNames.1, List.forall_mem_cons.mpr ⟨ofNames.2, ofArgs⟩⟩)

/-- A name and the value behind it. -/
theorem Expr.row_of_value {name : Ident} {value : Expr}
    (nests : (Outline.node span shared [name.outline, value.outline]).Nests marked) (ofName : name.span.Solid)
    (ofValue : value.Solid) : Span.Row span.lo span.hi [name.span, value.span] := by
  have row := nests.row_self (by simpa using ⟨ofName, ofValue.solid_span⟩)
  rwa [List.map_cons, List.map_cons, List.map_nil, value.span_outline] at row

/-- The regions of the names and the values of some fields. -/
def FieldValue.regions (fields : List FieldValue) : List Span :=
  fields.flatMap fun field => [field.name.span, field.value.span]

theorem FieldValue.solid_outlines {fields : List FieldValue} (solid : FieldValue.EachSolid fields) :
    ∀ o ∈ FieldValue.outlines fields, o.span.Solid := by
  rw [FieldValue.outlines_eq_map, List.forall_mem_map]
  intro field member
  exact (FieldValue.eachSolid_iff.mp solid field member).1.upTo _

/-- Fields in a row are names and values in a row. -/
theorem FieldValue.row_regions {fields : List FieldValue} {first last : Nat}
    (row : Span.Row first last ((FieldValue.outlines fields).map Outline.span))
    (nests : ∀ o ∈ FieldValue.outlines fields, o.Nests marked) (solid : FieldValue.EachSolid fields) :
    Span.Row first last (FieldValue.regions fields) := by
  induction fields generalizing first with
  | nil => exact row
  | cons field fields inductionHypothesis =>
    obtain ⟨name, value⟩ := field
    obtain ⟨⟨ofName, ofValue⟩, others⟩ := solid
    obtain ⟨ofField, rest⟩ := List.forall_mem_cons.mp nests
    have behind := inductionHypothesis row.2.2 rest others
    exact ((Expr.row_of_value ofField ofName ofValue).mono row.1 (Nat.le_refl _)).append behind

/-- The regions of the types and the names of some parameters or fields. -/
def Param.regions (ps : List Param) : List Span :=
  ps.flatMap fun p => [p.type.span, p.name.span]

theorem Param.solid_outlines {ps : List Param} (solid : ∀ p ∈ ps, p.Solid) :
    ∀ o ∈ ps.map Param.outline, o.span.Solid :=
  List.forall_mem_map.mpr fun p member => (solid p member).1.upTo _

/-- Parameters in a row are types and names in a row. -/
theorem Param.row_regions {ps : List Param} {first last : Nat}
    (row : Span.Row first last (ps.map fun p => p.outline.span)) (nests : ∀ p ∈ ps, p.outline.Nests marked)
    (solid : ∀ p ∈ ps, p.Solid) : Span.Row first last (Param.regions ps) := by
  induction ps generalizing first with
  | nil => exact row
  | cons p ps inductionHypothesis =>
    rw [List.forall_mem_cons] at nests solid
    have parts := nests.1.row_self (List.forall_mem_cons.mpr ⟨solid.1.1, List.forall_mem_singleton.mpr solid.1.2⟩)
    have behind := inductionHypothesis row.2.2 nests.2 solid.2
    exact (parts.mono row.1 (Nat.le_refl _)).append behind

theorem Statement.map_span_outlines (statements : List Statement) :
    (Statement.outlines statements).map Outline.span = statements.map Statement.span := by
  rw [Statement.outlines_eq_map, Statement.map_span_outline]

theorem Statement.solid_outlines {statements : List Statement} (solid : Statement.EachSolid statements) :
    ∀ o ∈ Statement.outlines statements, o.span.Solid := by
  rw [Statement.outlines_eq_map, List.forall_mem_map]
  intro s member
  rw [s.span_outline]
  exact (Statement.eachSolid_iff.mp solid s member).solid_span

theorem Branch.solid_outlines {branches : List Branch} (solid : Branch.EachSolid branches) :
    ∀ o ∈ Branch.outlines branches, o.span.Solid := by
  rw [Branch.outlines_eq_map, List.forall_mem_map]
  intro branch member
  exact (Branch.eachSolid_iff.mp solid branch member).1.solid_span.upTo _

theorem Block.solid_outlines {otherwise : Option Block} (solid : Block.OptionSolid otherwise) :
    ∀ o ∈ Block.outlines otherwise, o.span.Solid := by
  cases otherwise with
  | none => exact List.forall_mem_nil _
  | some body =>
    rw [Block.outlines, List.forall_mem_singleton, body.span_outline]
    exact solid.solid_span

end

end FrontEnd
