import FrontEnd.Proofs.Grammar.Grammatical
import FrontEnd.Proofs.Grammar.Spelling

/-!
# What spells a tree can be written

Every terminal of a tree of the surface language is one that there is.
-/

namespace FrontEnd

open Terminal

def AllLexical (terminals : List Terminal) : Prop :=
  ∀ t ∈ terminals, t.Lexical

@[simp] theorem allLexical_nil : AllLexical [] := by
  simp [AllLexical]

@[simp] theorem allLexical_cons {t : Terminal} {terminals : List Terminal} :
    AllLexical (t :: terminals) ↔ t.Lexical ∧ AllLexical terminals := by
  simp [AllLexical]

@[simp] theorem allLexical_append {first second : List Terminal} :
    AllLexical (first ++ second) ↔ AllLexical first ∧ AllLexical second := by
  simp [AllLexical, or_imp, forall_and]

theorem lexical_sign {kind : TokenKind} (isSign : kind.spelling?.isSome) : (sign kind).Lexical := by
  cases kind <;> first | rfl | simp [TokenKind.spelling?] at isSign

theorem lexical_ofOperator (op : Operator) : (ofOperator op).Lexical :=
  ⟨op, rfl⟩

theorem Separated.allLexical {parts : List (List Terminal)} {terminals : List Terminal}
    (listed : Separated parts terminals) (each : ∀ part ∈ parts, AllLexical part) :
    AllLexical terminals := by
  induction listed with
  | nil => exact allLexical_nil
  | last part => exact each part List.mem_cons_self
  | cons part tail inductionHypothesis =>
    simp only [List.mem_cons, forall_eq_or_imp] at each
    -- a comma can be written too
    simpa using ⟨each.1, lexical_sign rfl, inductionHypothesis each.2⟩

theorem allLexical_commaList {parts : List (List Terminal)}
    (each : ∀ part ∈ parts, AllLexical part) : AllLexical (commaList parts) := by
  induction parts with
  | nil => exact allLexical_nil
  | cons part parts inductionHypothesis =>
    simp only [List.mem_cons, forall_eq_or_imp] at each
    cases parts with
    | nil => simpa using each.1
    | cons second parts =>
      rw [commaList_cons_cons]
      simpa using ⟨each.1, lexical_sign rfl, inductionHypothesis each.2⟩

/-! ## Types -/

theorem TypeName.Grammatical.allLexical {type : TypeName} (grammatical : type.Grammatical) :
    AllLexical type.terminals := by
  obtain ⟨scalar, isList, span⟩ := type
  have lexical : scalar.terminal.Lexical := by
    cases scalar with
    | datatype name => exact grammatical name rfl
    | _ => exact lexical_sign rfl
  cases isList with
  | true => simpa [TypeName.terminals] using ⟨lexical_sign rfl, lexical⟩
  | false => simpa [TypeName.terminals] using lexical

theorem Param.Grammatical.allLexical {param : Param} (grammatical : param.Grammatical) :
    AllLexical param.terminals := by
  simpa [Param.terminals] using ⟨grammatical.1.allLexical, grammatical.2⟩

theorem allLexical_params {params : List Param} (grammatical : ∀ p ∈ params, p.Grammatical) :
    ∀ part ∈ params.map Param.terminals, AllLexical part := by
  intro part member
  obtain ⟨param, found, rfl⟩ := List.mem_map.mp member
  exact (grammatical param found).allLexical

theorem allLexical_returnTerminals {returns : List TypeName}
    (grammatical : ∀ type ∈ returns, type.Grammatical) : AllLexical (returnTerminals returns) := by
  cases returns with
  | nil => exact allLexical_nil
  | cons type types =>
    refine allLexical_cons.mpr ⟨lexical_sign rfl, allLexical_commaList ?_⟩
    intro part member
    obtain ⟨type, found, rfl⟩ := List.mem_map.mp member
    exact (grammatical type found).allLexical

/-! ## Expressions -/

mutual

theorem Expr.Spelled.allLexical {e : Expr} {ts : List Terminal} (spelled : Expr.Spelled e ts)
    (grammatical : e.Grammatical) : AllLexical ts := by
  cases spelled with
  | int numeral _ => exact allLexical_cons.mpr ⟨numeral, allLexical_nil⟩
  | string => exact allLexical_cons.mpr ⟨grammatical, allLexical_nil⟩
  | @bool value => exact allLexical_cons.mpr ⟨⟨value, rfl⟩, allLexical_nil⟩
  | name => exact allLexical_cons.mpr ⟨grammatical, allLexical_nil⟩
  | record each listed =>
    have inside := listed.allLexical (each.allLexical grammatical.2)
    simpa using ⟨grammatical.1, lexical_sign rfl, inside, lexical_sign rfl⟩
  | @operation op _ _ _ _ each listed =>
    have inside := listed.allLexical (each.allLexical grammatical)
    simpa using ⟨lexical_ofOperator op, lexical_sign rfl, inside, lexical_sign rfl⟩
  | call each listed =>
    have inside := listed.allLexical (each.allLexical grammatical.2)
    simpa using ⟨grammatical.1, lexical_sign rfl, inside, lexical_sign rfl⟩
  | libraryCall each listed =>
    have inside := listed.allLexical (each.allLexical grammatical.2.2)
    simpa using ⟨grammatical.1, lexical_sign rfl, grammatical.2.1, lexical_sign rfl, inside,
      lexical_sign rfl⟩
  | list each listed =>
    have inside := listed.allLexical (each.allLexical grammatical)
    simpa using ⟨lexical_sign rfl, inside, lexical_sign rfl⟩

theorem Expr.EachSpelled.allLexical {es : List Expr} {parts : List (List Terminal)}
    (each : Expr.EachSpelled es parts) (grammatical : Expr.EachGrammatical es) :
    ∀ part ∈ parts, AllLexical part := by
  cases each with
  | nil => simp
  | cons head tail =>
    simpa using ⟨head.allLexical grammatical.1, tail.allLexical grammatical.2⟩

theorem FieldValue.EachSpelled.allLexical {fields : List FieldValue} {parts : List (List Terminal)}
    (each : FieldValue.EachSpelled fields parts) (grammatical : FieldValue.EachGrammatical fields) :
    ∀ part ∈ parts, AllLexical part := by
  cases each with
  | nil => simp
  | cons head tail =>
    obtain ⟨isName, value, others⟩ := grammatical
    simpa using ⟨⟨isName, lexical_sign rfl, head.allLexical value⟩, tail.allLexical others⟩

end

/-! ## Statements -/

theorem Statement.ChainSpelled.allLexical {others : List Statement} {ts : List Terminal}
    (chained : Statement.ChainSpelled others ts) {top : Bool} {type : Option TypeName}
    (grammatical : Statement.EachGrammatical top type others) : AllLexical ts := by
  induction chained generalizing type with
  | nil => exact allLexical_nil
  | cons value tail inductionHypothesis =>
    obtain ⟨-, ⟨-, isName, valueGrammatical⟩, others⟩ := grammatical
    simpa using ⟨lexical_sign rfl, isName, lexical_ofOperator .eq, value.allLexical valueGrammatical,
      inductionHypothesis others⟩

theorem Expr.OptionSpelled.allLexical {condition : Option Expr} {ts : List Terminal}
    (spelled : Expr.OptionSpelled condition ts) (isCondition : ∀ e ∈ condition, e.IsCondition) :
    AllLexical ts := by
  cases spelled with
  | none => exact allLexical_nil
  | some spelled => exact spelled.allLexical (isCondition _ rfl).1

mutual

theorem Statement.Spelled.allLexical {made : List Statement} {ts : List Terminal}
    (spelled : Statement.Spelled made ts) {top : Bool} {type : Option TypeName}
    (grammatical : Statement.EachGrammatical top type made) : AllLexical ts := by
  match spelled with
  | .function listed inside =>
    obtain ⟨-, ⟨-, isName, params, returns, body⟩, -⟩ := grammatical
    simpa using ⟨lexical_sign rfl, isName, lexical_sign rfl, listed.allLexical (allLexical_params params),
      lexical_sign rfl, allLexical_returnTerminals returns, inside.allLexical body⟩
  | .datatype listed =>
    obtain ⟨-, ⟨-, isName, fields⟩, -⟩ := grammatical
    simpa using ⟨lexical_sign rfl, isName, lexical_sign rfl, listed.allLexical (allLexical_params fields),
      lexical_sign rfl⟩
  | .declarations value chained =>
    obtain ⟨-, ⟨declaredType, isName, valueGrammatical⟩, others⟩ := grammatical
    simpa using ⟨declaredType.allLexical, isName, lexical_ofOperator .eq,
      value.allLexical valueGrammatical, chained.allLexical others, lexical_sign rfl⟩
  | .reassignment spelled =>
    obtain ⟨-, ⟨isName, value⟩, -⟩ := grammatical
    simpa using ⟨isName, lexical_ofOperator .eq, spelled.allLexical value, lexical_sign rfl⟩
  | .conditional spelled inside others last =>
    obtain ⟨-, ⟨-, ⟨condition, body, branches⟩, otherwise⟩, -⟩ := grammatical
    simpa using ⟨lexical_sign rfl, spelled.allLexical condition.1, inside.allLexical body,
      others.allLexical branches, last.allLexical otherwise⟩
  | .loop spelled inside =>
    obtain ⟨-, ⟨condition, body⟩, -⟩ := grammatical
    simpa using ⟨lexical_sign rfl, spelled.allLexical condition, inside.allLexical body⟩
  | .block inside =>
    obtain ⟨-, body, -⟩ := grammatical
    exact inside.allLexical body
  | .result each =>
    obtain ⟨-, values, -⟩ := grammatical
    simpa using ⟨lexical_sign rfl, allLexical_commaList (each.allLexical values), lexical_sign rfl⟩
  | .call spelled =>
    obtain ⟨-, ⟨call, -⟩, -⟩ := grammatical
    simpa using ⟨spelled.allLexical call, lexical_sign rfl⟩
  | @Statement.Spelled.control kind _ =>
    cases kind <;> simpa using ⟨lexical_sign rfl, lexical_sign rfl⟩

theorem Statement.EachSpelled.allLexical {statements : List Statement} {ts : List Terminal}
    (each : Statement.EachSpelled statements ts) {top : Bool} {type : Option TypeName}
    (grammatical : Statement.EachGrammatical top type statements) : AllLexical ts := by
  match each with
  | .nil => exact allLexical_nil
  | .cons head tail =>
    obtain ⟨inside, before, behind⟩ := Statement.eachGrammatical_append grammatical
    exact allLexical_append.mpr ⟨head.allLexical inside, tail.allLexical behind⟩

theorem Block.Spelled.allLexical {body : Block} {ts : List Terminal} (spelled : Block.Spelled body ts)
    (grammatical : body.Grammatical) : AllLexical ts := by
  match spelled with
  | .braces inside => simpa using ⟨lexical_sign rfl, inside.allLexical grammatical, lexical_sign rfl⟩
  | .words inside => simpa using ⟨lexical_sign rfl, inside.allLexical grammatical, lexical_sign rfl⟩

theorem Branch.EachSpelled.allLexical {branches : List Branch} {ts : List Terminal}
    (each : Branch.EachSpelled branches ts) (grammatical : Branch.EachGrammatical branches) :
    AllLexical ts := by
  match each with
  | .nil => exact allLexical_nil
  | .cons spelled inside tail =>
    obtain ⟨condition, body, others⟩ := grammatical
    simpa using ⟨lexical_sign rfl, spelled.allLexical condition.1, inside.allLexical body,
      tail.allLexical others⟩

theorem Block.OptionSpelled.allLexical {otherwise : Option Block} {ts : List Terminal}
    (spelled : Block.OptionSpelled otherwise ts) (grammatical : Block.OptionGrammatical otherwise) :
    AllLexical ts := by
  match spelled with
  | .none => exact allLexical_nil
  | .some inside => exact allLexical_cons.mpr ⟨lexical_sign rfl, inside.allLexical grammatical⟩

end

end FrontEnd
