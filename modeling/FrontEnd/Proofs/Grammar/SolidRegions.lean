import FrontEnd.Proofs.Grammar.Solid

/-!
# The regions of solid trees

What is solid has something in each region of its outline, down to the names. So of a solid tree whose regions
nest, each region is known to be marked and to have something in it.
-/

namespace FrontEnd

open Outline (every_node every_leaf)

theorem Param.every_solid {p : Param} (solid : p.Solid) : p.outline.Every Span.Solid :=
  every_node (solid.1.upTo _)
    (List.forall_mem_cons.mpr ⟨every_leaf solid.1, List.forall_mem_singleton.mpr (every_leaf solid.2)⟩)

theorem Param.map_every_solid {params : List Param} (solid : ∀ p ∈ params, p.Solid) :
    ∀ o ∈ params.map Param.outline, o.Every Span.Solid :=
  List.forall_mem_map.mpr fun p member => Param.every_solid (solid p member)

mutual

theorem Expr.every_solid (e : Expr) (solid : e.Solid) : e.outline.Every Span.Solid := by
  match e with
  | .int _ span | .string _ span | .bool _ span | .missing span => exact every_leaf solid
  | .name ident span =>
    obtain ⟨same, own⟩ := solid
    exact every_node own (List.forall_mem_singleton.mpr (every_leaf (same ▸ own)))
  | .record name fields span =>
    obtain ⟨own, ofName, ofFields⟩ := solid
    exact every_node own (List.forall_mem_cons.mpr ⟨every_leaf ofName, FieldValue.every_solid fields ofFields⟩)
  | .operation _ operands span => exact every_node solid.1 (Expr.every_solidEach operands solid.2)
  | .call function args span =>
    obtain ⟨own, ofName, ofArgs⟩ := solid
    exact every_node own (List.forall_mem_cons.mpr ⟨every_leaf ofName, Expr.every_solidEach args ofArgs⟩)
  | .libraryCall space function args span =>
    obtain ⟨own, ⟨ofSpace, ofName⟩, ofArgs⟩ := solid
    refine every_node own (List.forall_mem_cons.mpr ⟨every_leaf ofSpace, ?_⟩)
    exact List.forall_mem_cons.mpr ⟨every_leaf ofName, Expr.every_solidEach args ofArgs⟩
  | .list items span => exact every_node solid.1 (Expr.every_solidEach items solid.2)

theorem Expr.every_solidEach {first : Nat} (es : List Expr) (solid : Expr.EachSolid first es) :
    ∀ o ∈ Expr.outlines es, o.Every Span.Solid := by
  match es with
  | [] => exact List.forall_mem_nil _
  | e :: rest =>
    exact List.forall_mem_cons.mpr ⟨Expr.every_solid e solid.1.2, Expr.every_solidEach rest solid.2⟩

theorem FieldValue.every_solid (fields : List FieldValue) (solid : FieldValue.EachSolid fields) :
    ∀ o ∈ FieldValue.outlines fields, o.Every Span.Solid := by
  match fields with
  | [] => exact List.forall_mem_nil _
  | ⟨name, value⟩ :: rest =>
    obtain ⟨⟨ofName, ofValue⟩, others⟩ := solid
    have field : ∀ o ∈ [name.outline, value.outline], o.Every Span.Solid :=
      List.forall_mem_cons.mpr
        ⟨every_leaf ofName, List.forall_mem_singleton.mpr (Expr.every_solid value ofValue)⟩
    exact List.forall_mem_cons.mpr ⟨every_node (ofName.upTo _) field, FieldValue.every_solid rest others⟩

end

mutual

theorem Statement.every_solid (s : Statement) (solid : s.Solid) : s.outline.Every Span.Solid := by
  match s with
  | .function ⟨name, params, returns, body⟩ span =>
    obtain ⟨own, ofName, ofParams, ofReturns, ofBody⟩ := solid
    have types : ∀ o ∈ returns.map TypeName.outline, o.Every Span.Solid :=
      List.forall_mem_map.mpr fun type member => every_leaf (ofReturns type member)
    have head := List.forall_mem_cons.mpr ⟨every_leaf ofName, Param.map_every_solid ofParams⟩
    refine every_node own (List.forall_mem_append.mpr ⟨List.forall_mem_append.mpr ⟨head, types⟩, ?_⟩)
    exact List.forall_mem_singleton.mpr (Block.every_solid body ofBody)
  | .datatype decl span =>
    obtain ⟨own, ofName, ofFields⟩ := solid
    exact every_node own (List.forall_mem_cons.mpr ⟨every_leaf ofName, Param.map_every_solid ofFields⟩)
  | .declaration chained decl span =>
    obtain ⟨own, ofType, ofName, ofValue⟩ := solid
    have parts : ∀ o ∈ [decl.name.outline, decl.value.outline], o.Every Span.Solid :=
      List.forall_mem_cons.mpr
        ⟨every_leaf ofName, List.forall_mem_singleton.mpr (Expr.every_solid decl.value ofValue)⟩
    -- a chained declaration only borrows the region of its type
    cases chained with
    | false => exact every_node own (List.forall_mem_cons.mpr ⟨every_leaf ofType, parts⟩)
    | true => exact .node own (List.forall_mem_singleton.mpr ofType) parts
  | .reassignment target value span =>
    obtain ⟨own, ofTarget, ofValue⟩ := solid
    refine every_node own (List.forall_mem_cons.mpr ⟨every_leaf ofTarget, ?_⟩)
    exact List.forall_mem_singleton.mpr (Expr.every_solid value ofValue)
  | .conditional branches otherwise span =>
    obtain ⟨own, ofBranches, ofOtherwise⟩ := solid
    exact every_node own (List.forall_mem_append.mpr
      ⟨Branch.every_solid branches ofBranches, Block.every_solidOption otherwise ofOtherwise⟩)
  | .loop condition body span =>
    obtain ⟨own, ofCondition, ofBody⟩ := solid
    have ofConditions : ∀ o ∈ condition.toList.map Expr.outline, o.Every Span.Solid :=
      List.forall_mem_map.mpr fun e member => Expr.every_solid e (ofCondition e (by simpa using member))
    refine every_node own (List.forall_mem_append.mpr ⟨ofConditions, ?_⟩)
    exact List.forall_mem_singleton.mpr (Block.every_solid body ofBody)
  | .block body span => exact every_node solid.1 (List.forall_mem_singleton.mpr (Block.every_solid body solid.2))
  | .result values span =>
    refine every_node solid.1 ?_
    rw [Expr.outlines_eq_map, List.forall_mem_map]
    exact fun e member => Expr.every_solid e (solid.2 e member)
  | .call call span => exact every_node solid.1 (List.forall_mem_singleton.mpr (Expr.every_solid call solid.2))
  | .control kind span => exact every_leaf solid

theorem Statement.every_solidEach (statements : List Statement) (solid : Statement.EachSolid statements) :
    ∀ o ∈ Statement.outlines statements, o.Every Span.Solid := by
  match statements with
  | [] => exact List.forall_mem_nil _
  | s :: rest =>
    exact List.forall_mem_cons.mpr ⟨Statement.every_solid s solid.1, Statement.every_solidEach rest solid.2⟩

theorem Block.every_solid (b : Block) (solid : b.Solid) : b.outline.Every Span.Solid := by
  match b with
  | ⟨statements, span⟩ => exact every_node solid.1 (Statement.every_solidEach statements solid.2)

theorem Branch.every_solid (branches : List Branch) (solid : Branch.EachSolid branches) :
    ∀ o ∈ Branch.outlines branches, o.Every Span.Solid := by
  match branches with
  | [] => exact List.forall_mem_nil _
  | ⟨condition, body⟩ :: rest =>
    obtain ⟨⟨ofCondition, ofBody⟩, others⟩ := solid
    have branch : ∀ o ∈ [condition.outline, body.outline], o.Every Span.Solid :=
      List.forall_mem_cons.mpr
        ⟨Expr.every_solid condition ofCondition, List.forall_mem_singleton.mpr (Block.every_solid body ofBody)⟩
    exact List.forall_mem_cons.mpr
      ⟨every_node (ofCondition.solid_span.upTo _) branch, Branch.every_solid rest others⟩

theorem Block.every_solidOption (otherwise : Option Block) (solid : Block.OptionSolid otherwise) :
    ∀ o ∈ Block.outlines otherwise, o.Every Span.Solid := by
  match otherwise with
  | none => exact List.forall_mem_nil _
  | some body => exact List.forall_mem_singleton.mpr (Block.every_solid body solid)

end

end FrontEnd
