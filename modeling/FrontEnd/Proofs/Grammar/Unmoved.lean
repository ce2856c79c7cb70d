import FrontEnd.Proofs.Grammar.Outline
import FrontEnd.Proofs.Grammar.Recast

/-!
# Trees that stay as they are

Where no region of an outline is moved and no name is changed, the tree stays as it is. What is made of a tree and
moves with it is therefore at the regions of its outline.
-/

namespace FrontEnd

theorem map_eq_self {α : Type} {f : α → α} {xs : List α} (same : ∀ x ∈ xs, f x = x) : xs.map f = xs :=
  (List.map_congr_left same).trans (List.map_id' xs)

/-- Whether a recast changes no name and no good region. -/
structure Recast.Keeps (good : Span → Prop) (ρ : Recast) : Prop where
  place : ∀ r, good r → ρ.place r = r
  name : ∀ n, ρ.name n = n

theorem Recast.keeps_placing {good : Span → Prop} {place : Span → Span} (keeps : ∀ r, good r → place r = r) :
    (Recast.placing place).Keeps good :=
  ⟨keeps, fun _ => rfl⟩

variable {good : Span → Prop} {ρ : Recast}

section

variable (keeps : ρ.Keeps good)

include keeps

theorem Ident.relocate_of_every {ident : Ident} (every : ident.outline.Every good) :
    ident.relocate ρ.place = ident := by
  have same := keeps.place ident.span every.goodSpan
  rw [Ident.relocate, same]

theorem Ident.recast_of_every {ident : Ident} (every : ident.outline.Every good) : ident.recast ρ = ident := by
  have same := keeps.place ident.span every.goodSpan
  rw [Ident.recast, same, keeps.name]

theorem TypeName.relocate_of_every {type : TypeName} (every : type.outline.Every good) :
    type.relocate ρ.place = type := by
  have same := keeps.place type.span every.goodSpan
  rw [TypeName.relocate, same]

theorem Param.relocate_of_every {param : Param} (every : param.outline.Every good) :
    param.relocate ρ.place = param := by
  obtain ⟨-, -, each⟩ := every.goodParts
  rw [Param.relocate, TypeName.relocate_of_every keeps (each param.type.outline (by simp)),
    Ident.relocate_of_every keeps (each param.name.outline (by simp))]

theorem Param.recast_of_every {param : Param} (every : param.outline.Every good) : param.recast ρ = param := by
  obtain ⟨-, -, each⟩ := every.goodParts
  rw [Param.recast, TypeName.relocate_of_every keeps (each param.type.outline (by simp)),
    Ident.recast_of_every keeps (each param.name.outline (by simp))]

theorem Param.map_relocate_of_every {params : List Param}
    (each : ∀ o ∈ params.map Param.outline, o.Every good) :
    params.map (Param.relocate ρ.place) = params :=
  map_eq_self fun p member => Param.relocate_of_every keeps (each p.outline (List.mem_map_of_mem member))

theorem Param.map_recast_of_every {params : List Param}
    (each : ∀ o ∈ params.map Param.outline, o.Every good) : params.map (Param.recast ρ) = params :=
  map_eq_self fun p member => Param.recast_of_every keeps (each p.outline (List.mem_map_of_mem member))

theorem TypeName.map_relocate_of_every {types : List TypeName}
    (each : ∀ o ∈ types.map TypeName.outline, o.Every good) :
    types.map (TypeName.relocate ρ.place) = types :=
  map_eq_self fun t member => TypeName.relocate_of_every keeps (each t.outline (List.mem_map_of_mem member))

end

mutual

theorem Expr.recast_of_every (keeps : ρ.Keeps good) (e : Expr)
    (every : e.outline.Every good) : e.recast ρ = e := by
  match e with
  | .int _ span | .string _ span | .bool _ span | .missing span =>
    rw [Expr.recast, keeps.place span every.goodSpan]
  | .name ident span =>
    obtain ⟨own, -, each⟩ := every.goodParts
    rw [Expr.recast, keeps.place span own, Ident.recast_of_every keeps (each ident.outline (by simp))]
  | .record name fields span =>
    obtain ⟨own, -, each⟩ := every.goodParts
    rw [List.forall_mem_cons] at each
    rw [Expr.recast, keeps.place span own, Ident.relocate_of_every keeps each.1,
      FieldValue.recastEach_of_every keeps fields each.2]
  | .operation _ operands span =>
    obtain ⟨own, -, each⟩ := every.goodParts
    rw [Expr.recast, keeps.place span own, Expr.recastEach_of_every keeps operands each]
  | .call function args span =>
    obtain ⟨own, -, each⟩ := every.goodParts
    rw [List.forall_mem_cons] at each
    rw [Expr.recast, keeps.place span own, Ident.relocate_of_every keeps each.1,
      Expr.recastEach_of_every keeps args each.2]
  | .libraryCall space function args span =>
    obtain ⟨own, -, each⟩ := every.goodParts
    rw [List.forall_mem_cons, List.forall_mem_cons] at each
    rw [Expr.recast, keeps.place span own, Ident.relocate_of_every keeps each.1,
      Ident.relocate_of_every keeps each.2.1, Expr.recastEach_of_every keeps args each.2.2]
  | .list items span =>
    obtain ⟨own, -, each⟩ := every.goodParts
    rw [Expr.recast, keeps.place span own, Expr.recastEach_of_every keeps items each]

theorem Expr.recastEach_of_every (keeps : ρ.Keeps good) (es : List Expr)
    (each : ∀ o ∈ Expr.outlines es, o.Every good) : Expr.recastEach ρ es = es := by
  match es with
  | [] => rfl
  | e :: rest =>
    rw [Expr.outlines, List.forall_mem_cons] at each
    rw [Expr.recastEach, Expr.recast_of_every keeps e each.1,
      Expr.recastEach_of_every keeps rest each.2]

theorem FieldValue.recastEach_of_every (keeps : ρ.Keeps good) (fields : List FieldValue)
    (each : ∀ o ∈ FieldValue.outlines fields, o.Every good) :
    FieldValue.recastEach ρ fields = fields := by
  match fields with
  | [] => rfl
  | ⟨name, value⟩ :: rest =>
    rw [FieldValue.outlines, List.forall_mem_cons] at each
    obtain ⟨-, -, parts⟩ := each.1.goodParts
    rw [FieldValue.recastEach, Ident.relocate_of_every keeps (parts name.outline (by simp)),
      Expr.recast_of_every keeps value (parts value.outline (by simp)),
      FieldValue.recastEach_of_every keeps rest each.2]

end

mutual

theorem Statement.recast_of_every (keeps : ρ.Keeps good) (s : Statement)
    (every : s.outline.Every good) : s.recast ρ = s := by
  match s with
  | .function ⟨name, params, returns, body⟩ span =>
    obtain ⟨own, -, each⟩ := every.goodParts
    rw [List.forall_mem_append, List.forall_mem_append, List.forall_mem_cons] at each
    obtain ⟨⟨⟨ofName, ofParams⟩, ofReturns⟩, ofBody⟩ := each
    rw [Statement.recast, keeps.place span own, Ident.relocate_of_every keeps ofName,
      Param.map_recast_of_every keeps ofParams, TypeName.map_relocate_of_every keeps ofReturns,
      Block.recast_of_every keeps body (ofBody body.outline (by simp))]
  | .datatype decl span =>
    obtain ⟨own, -, each⟩ := every.goodParts
    rw [List.forall_mem_cons] at each
    rw [Statement.recast, keeps.place span own, DatatypeDecl.relocate, Ident.relocate_of_every keeps each.1,
      Param.map_relocate_of_every keeps each.2]
  | .declaration chained decl span =>
    have decls : decl.recast ρ = decl ∧ ρ.place span = span := by
      cases chained with
      | false =>
        obtain ⟨own, -, each⟩ := every.goodParts
        rw [VariableDecl.recast, TypeName.relocate_of_every keeps (each decl.type.outline (by simp)),
          Ident.recast_of_every keeps (each decl.name.outline (by simp)),
          Expr.recast_of_every keeps decl.value (each decl.value.outline (by simp))]
        exact ⟨rfl, keeps.place span own⟩
      | true =>
        -- the type is the one written before the first name of the chain, so it is borrowed and no part
        obtain ⟨own, borrowed, each⟩ := every.goodParts
        have sameType : decl.type.relocate ρ.place = decl.type := by
          rw [TypeName.relocate, keeps.place decl.type.span (borrowed _ (by simp))]
        rw [VariableDecl.recast, sameType, Ident.recast_of_every keeps (each decl.name.outline (by simp)),
          Expr.recast_of_every keeps decl.value (each decl.value.outline (by simp))]
        exact ⟨rfl, keeps.place span own⟩
    rw [Statement.recast, decls.1, decls.2]
  | .reassignment target value span =>
    obtain ⟨own, -, each⟩ := every.goodParts
    rw [Statement.recast, keeps.place span own, Ident.recast_of_every keeps (each target.outline (by simp)),
      Expr.recast_of_every keeps value (each value.outline (by simp))]
  | .conditional branches otherwise span =>
    obtain ⟨own, -, each⟩ := every.goodParts
    rw [List.forall_mem_append] at each
    rw [Statement.recast, keeps.place span own, Branch.recastEach_of_every keeps branches each.1,
      Block.recastOption_of_every keeps otherwise each.2]
  | .loop condition body span =>
    obtain ⟨own, -, each⟩ := every.goodParts
    rw [List.forall_mem_append] at each
    have ofCondition : condition.map (Expr.recast ρ) = condition := by
      cases condition with
      | none => rfl
      | some e => exact congrArg some (Expr.recast_of_every keeps e (each.1 e.outline (by simp)))
    rw [Statement.recast, keeps.place span own, ofCondition,
      Block.recast_of_every keeps body (each.2 body.outline (by simp))]
  | .block body span =>
    obtain ⟨own, -, each⟩ := every.goodParts
    rw [Statement.recast, keeps.place span own, Block.recast_of_every keeps body (each body.outline (by simp))]
  | .result values span =>
    obtain ⟨own, -, each⟩ := every.goodParts
    rw [Statement.recast, keeps.place span own, Expr.recastEach_of_every keeps values each]
  | .call call span =>
    obtain ⟨own, -, each⟩ := every.goodParts
    rw [Statement.recast, keeps.place span own, Expr.recast_of_every keeps call (each call.outline (by simp))]
  | .control kind span => rw [Statement.recast, keeps.place span every.goodSpan]

theorem Statement.recastEach_of_every (keeps : ρ.Keeps good)
    (statements : List Statement) (each : ∀ o ∈ Statement.outlines statements, o.Every good) :
    Statement.recastEach ρ statements = statements := by
  match statements with
  | [] => rfl
  | s :: rest =>
    rw [Statement.outlines, List.forall_mem_cons] at each
    rw [Statement.recastEach, Statement.recast_of_every keeps s each.1,
      Statement.recastEach_of_every keeps rest each.2]

theorem Block.recast_of_every (keeps : ρ.Keeps good) (b : Block)
    (every : b.outline.Every good) : b.recast ρ = b := by
  match b with
  | ⟨statements, span⟩ =>
    obtain ⟨own, -, each⟩ := every.goodParts
    rw [Block.recast, keeps.place span own, Statement.recastEach_of_every keeps statements each]

theorem Branch.recastEach_of_every (keeps : ρ.Keeps good) (branches : List Branch)
    (each : ∀ o ∈ Branch.outlines branches, o.Every good) :
    Branch.recastEach ρ branches = branches := by
  match branches with
  | [] => rfl
  | ⟨condition, body⟩ :: rest =>
    rw [Branch.outlines, List.forall_mem_cons] at each
    obtain ⟨-, -, parts⟩ := each.1.goodParts
    rw [Branch.recastEach, Expr.recast_of_every keeps condition (parts condition.outline (by simp)),
      Block.recast_of_every keeps body (parts body.outline (by simp)),
      Branch.recastEach_of_every keeps rest each.2]

theorem Block.recastOption_of_every (keeps : ρ.Keeps good) (otherwise : Option Block)
    (each : ∀ o ∈ Block.outlines otherwise, o.Every good) :
    Block.recastOption ρ otherwise = otherwise := by
  match otherwise with
  | none => rfl
  | some body =>
    have ofBody := each body.outline (by simp [Block.outlines])
    rw [Block.recastOption, Block.recast_of_every keeps body ofBody]

end

theorem Program.recast_of_every (keeps : ρ.Keeps good) {p : Program} (every : ∀ s ∈ p, s.outline.Every good) :
    p.recast ρ = p :=
  map_eq_self fun s member => Statement.recast_of_every keeps s (every s member)

/-- Where nothing is moved, everything stays. -/
theorem Statement.relocate_id (s : Statement) : s.relocate id = s :=
  Statement.recast_of_every (Recast.keeps_placing fun _ _ => rfl) s (Outline.every_of_forall (fun _ => trivial) _)

end FrontEnd
