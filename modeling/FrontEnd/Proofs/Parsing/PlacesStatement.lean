import FrontEnd.Proofs.Parsing.PlacesExpression
import FrontEnd.Tree.Parser.Statement

/-!
# Where statements are put

All that is left of an attempt at a statement is in a row, and solid, whether or not the attempt was complete. The
type of a chained declaration is that of the first of the chain. A chain of declarations is the one place where a
region may end behind the state: a declaration ends with the separator that was found in the place of its value, and
the chain goes on by taking this.
-/

namespace FrontEnd.Parser

open Outline (InRow inRow_nil inRow_leaf)

variable {tokens : List Token} {s : State}

/-! ## Attempts -/

/-- Whether all that an attempt makes is in a row from where it starts to where it ends, and solid. -/
def PlacesAttempts (tokens : List Token) (p : Parser Attempt) : Prop :=
  ∀ s, Places tokens p s fun tried t => Placed tokens Statement.outline Statement.Solid s.lo t.lo tried.made

theorem places_single_of {p : Parser Statement} (places : Places tokens p s fun made t =>
      Placed tokens Statement.outline Statement.Solid s.lo t.lo [made]) :
    Places tokens (single p) s fun tried t =>
      Placed tokens Statement.outline Statement.Solid s.lo t.lo tried.made := by
  refine places.attempt_bind ?made ?failed
  case made => exact fun _ t _ _ placed => places_pure placed
  case failed => exact fun t _ later => places_pure (.nil later)

theorem places_single {p : Parser Statement} (places : PlacesEach tokens Statement.outline Statement.Solid p) :
    PlacesAttempts tokens (single p) :=
  fun s => places_single_of (places s)

/-! ## Declarations of variables, reassignments and other single statements -/

/-- A name, and a value that may end with the separator behind it. -/
theorem places_assignment :
    Places tokens assignment s fun (name, value) t => ∃ middle stop,
      InRow (Span.Marked tokens) s.lo middle [name.outline] ∧
        Placed tokens Expr.outline Expr.Solid middle stop [value] ∧ t.Clears stop := by
  refine places_ident.bind fun name t _ ofName => places_consumeAssign.bind fun _ u later _ => ?_
  refine places_value.bind ?_
  rintro value v - ⟨stop, ofValue, clears⟩
  exact places_pure ⟨u.lo, stop, ofName.mono (Nat.le_refl _) later, ofValue, clears⟩

theorem places_firstDeclaration :
    Places tokens firstDeclaration s fun (type, made) t =>
      (type.span.Marked tokens ∧ type.span.Solid) ∧ ∃ stop,
        Placed tokens Statement.outline Statement.Solid s.lo stop [made] ∧ t.Clears stop := by
  refine (places_typeName s).bind fun type t _ ofType => places_assignment.bind ?_
  rintro ⟨name, value⟩ u - ⟨middle, stop, ofName, ofValue, clears⟩
  have markedType := (ofType.inRow.each type.outline (by simp)).markedSpan
  obtain ⟨row, ends, marked⟩ := ofValue.inRow.cut value.span value.span_outline
  exact places_joined_bind (places_pure ⟨⟨markedType, ofType.own⟩, stop, .single
    (ofType.inRow.headed rfl (ofName.append row) (by simp) marked (Nat.le_refl _) ends)
    ⟨ofType.own.upTo _, ofType.own, ofName.solid, ofValue.own⟩, clears⟩)

section

variable {type : TypeName} (ofType : type.span.Marked tokens ∧ type.span.Solid)

include ofType

theorem places_chainedDeclaration :
    Places tokens (chainedDeclaration type) s fun made t => ∃ stop,
      Placed tokens Statement.outline Statement.Solid s.lo stop [made] ∧ t.Clears stop := by
  refine places_assignment.bind ?_
  rintro ⟨name, value⟩ t - ⟨middle, stop, ofName, ofValue, clears⟩
  have solid : name.span.Solid := ofName.solid
  obtain ⟨row, ends, markedValue⟩ := ofValue.inRow.cut value.span value.span_outline
  exact places_joined_bind (places_pure ⟨stop, .single
    (ofName.headed rfl row (by simpa using ofType.1) markedValue (Nat.le_refl _) ends)
    ⟨solid.upTo _, ofType.2, solid, ofValue.own⟩, clears⟩)

/-- The declarations behind one that ends with the current token, or before it. There have to be rounds
enough to take the separator it may end with. -/
theorem places_chainUpTo {n : Nat} {s : State} (enough : s.ahead.length < n) {stop : Nat} (clears : s.Clears stop) :
    Places tokens (chainUpTo type n) s fun tried t =>
      Placed tokens Statement.outline Statement.Solid stop t.lo tried.made := by
  induction n generalizing s stop with
  | zero => omega
  | succ n inductionHypothesis =>
    refine places_take_bind (by simp) (fun t shorter taken => ?_) fun notComma => ?_
    · have behind := Nat.le_trans (clears.le_hi taken) taken.hi
      refine (places_chainedDeclaration ofType).attempt_bind ?made ?failed
      case made =>
        rintro made u reaches - ⟨next, placed, clearsNext⟩
        have left := reaches.length_le
        refine (inductionHypothesis (by omega) clearsNext).bind fun others v _ rest => places_pure ?_
        exact (placed.mono behind (Nat.le_refl _)).append rest
      case failed => exact fun u _ later => places_pure (.nil (Nat.le_trans behind later))
    · refine (places_attempt_consume (by simp)).bind ?_
      intro answer t _ found
      cases answer with
      | some token => exact places_pure (.nil (Nat.le_trans (clears.le_hi found) found.hi))
      | none =>
        obtain ⟨same, notDot⟩ := found
        exact places_pure (.nil (same ▸ clears.le_lo notDot notComma))

end

theorem places_variableDecls : PlacesAttempts tokens variableDecls := by
  intro s
  refine places_firstDeclaration.attempt_bind ?made ?failed
  case made =>
    rintro ⟨type, made⟩ t - - ⟨ofType, stop, placed, clears⟩
    refine places_left_bind ((places_chainUpTo ofType (Nat.lt_succ_self _) clears).bind
      fun others u _ rest => ?_)
    exact places_pure (placed.append rest)
  case failed => exact fun t _ later => places_pure (.nil later)

theorem places_reassignment : PlacesEach tokens Statement.outline Statement.Solid reassignment := by
  intro s
  refine places_assignment.bind ?_
  rintro ⟨target, value⟩ t - ⟨middle, stop, ofTarget, ofValue, clears⟩
  have solid : target.span.Solid := ofTarget.solid
  refine (places_consume (by simp)).bind ?_
  rintro _ u - ⟨rfl, closes⟩
  exact places_joined_bind (places_pure (.single
    (ofTarget.headed rfl ofValue.inRow (by simp) closes.marked (clears.le_hi closes) closes.hi)
    ⟨solid.upTo _, solid, ofValue.own⟩))

theorem places_datatypeDecl : PlacesEach tokens Statement.outline Statement.Solid datatypeDecl := by
  intro s
  refine (places_consume (by simp)).bind ?_
  rintro start t - ⟨-, opens⟩
  refine places_ident.bind fun name u _ ofName => (places_consume (by simp)).bind fun _ v later _ => ?_
  refine (places_delimited places_param).bind fun fields w _ ofFields => ?_
  refine (places_consume (by simp)).bind ?_
  rintro last x - ⟨-, closes⟩
  have parts := (ofName.mono (Nat.le_refl _) later).append ofFields.row
  exact places_joined_bind (places_pure (.single (opens.node parts closes.marked closes.le_hi closes.hi)
    ⟨opens.solid.upTo _, ofName.solid, ofFields.solid⟩))

theorem places_results :
    Places tokens results s fun values t => ∃ stop,
      Placed tokens Expr.outline Expr.Solid s.lo stop values ∧ t.Clears stop := by
  refine places_peek_bind fun _ => ?_
  split
  · exact places_pure ⟨s.lo, .nil (Nat.le_refl _), State.clears_of_le (Nat.le_refl _)⟩
  · exact places_separated (fun _ _ clears => clears) fun _ => places_value

theorem places_result : PlacesEach tokens Statement.outline Statement.Solid result := by
  intro s
  refine (places_consume (by simp)).bind ?_
  rintro start t - ⟨-, opens⟩
  refine places_results.bind ?_
  rintro values u - ⟨stop, placed, clears⟩
  refine (places_consume (by simp)).bind ?_
  rintro _ v - ⟨rfl, closes⟩
  exact places_joined_bind (places_pure (.single
    (opens.node placed.outlines closes.marked (clears.le_hi closes) closes.hi)
    ⟨opens.solid.upTo _, placed.solid⟩))

theorem places_control : PlacesEach tokens Statement.outline Statement.Solid control := by
  intro s
  refine (places_consumeAny (by decide)).bind ?_
  rintro keyword t - ⟨-, opens⟩
  refine (places_consume (by simp)).bind ?_
  rintro last u - ⟨-, closes⟩
  exact places_joined_bind (places_pure (.single
    (opens.node (inRow_nil (Nat.le_refl _)) closes.marked closes.le_hi closes.hi) (opens.solid.upTo _)))

theorem places_callStatement : PlacesEach tokens Statement.outline Statement.Solid callStatement := by
  intro s
  refine (places_expression true s).bind fun call t _ ofCall => ?_
  refine places_ensure_bind ((places_consume (by simp)).bind ?_)
  rintro last u - ⟨-, closes⟩
  exact places_joined_bind (places_pure (.single
    (ofCall.inRow.headed call.span_outline (inRow_nil (Nat.le_refl _)) (by simp) closes.marked closes.le_hi closes.hi)
    ⟨ofCall.own.solid_span.upTo _, ofCall.own⟩))

/-! ## Statements with blocks -/

theorem Branch.hi_outline {marked : Span → Prop} {b : Branch} (nests : b.outline.Nests marked) :
    b.outline.span.hi = b.body.span.hi ∧ marked b.body.span := by
  have hi := b.condition.span.hi_upTo b.body.span
  cases nests with
  | node _ _ _ ordered each =>
    simp only [Span.Ordered, List.map_cons, List.map_nil, List.pairwise_cons, List.mem_singleton, forall_eq,
      Expr.span_outline, Block.span_outline] at ordered
    have body := (each b.body.outline (by simp)).markedSpan
    rw [Block.span_outline] at body
    have : b.body.span.lo ≤ b.body.span.hi := Nat.le_add_right _ _
    refine ⟨?_, body⟩
    show (b.condition.span.upTo b.body.span).hi = _
    omega

/-- A conditional ends with the last of its blocks. -/
theorem inRow_lastRegion {marked : Span → Prop} {first : Branch} {others : List Branch}
    {otherwise : Option Block} {start stop : Nat}
    (row : InRow marked start stop ((first :: others).map Branch.outline ++ Block.outlines otherwise)) :
    InRow marked start (lastRegion first others otherwise).hi
        ((first :: others).map Branch.outline ++ Block.outlines otherwise) ∧
      (lastRegion first others otherwise).hi ≤ stop ∧ marked (lastRegion first others otherwise) := by
  cases otherwise with
  | some body =>
    have last := (row.each body.outline (by simp [Block.outlines])).markedSpan
    rw [Block.span_outline] at last
    obtain ⟨cut, ends⟩ := row.cutLast body.span (by rw [Block.span_outline])
    exact ⟨cut, ends, last⟩
  | none =>
    obtain ⟨init, split⟩ : ∃ init, first :: others = init ++ [others.getLastD first] :=
      List.getLast?_eq_some_iff.mp (by rw [List.getLast?_cons, List.getLastD_eq_getLast?])
    simp only [Block.outlines, List.append_nil, lastRegion] at row ⊢
    rw [split, List.map_append, List.map_singleton] at row ⊢
    obtain ⟨hi, marked⟩ := Branch.hi_outline (row.each (others.getLastD first).outline (by simp))
    obtain ⟨cut, ends⟩ := row.cutLast _ hi
    exact ⟨cut, ends, marked⟩

section

variable {body : Parser Block}

theorem places_returnTypes :
    Places tokens returnTypes s fun types t =>
      Placed tokens TypeName.outline (fun type => type.span.Solid) s.lo t.lo types := by
  refine places_take_bind (by simp) (fun t _ taken => ?_) fun _ => places_pure (.nil (Nat.le_refl _))
  have each : ∀ u, Places tokens typeName u fun type v => ∃ stop,
      Placed tokens TypeName.outline (fun type => type.span.Solid) u.lo stop [type] ∧ stop = v.lo :=
    fun u => (places_typeName u).imp fun type v _ placed => ⟨v.lo, placed, rfl⟩
  refine (places_separated ?_ each).imp ?_
  · rintro _ v rfl
    exact State.clears_of_le (Nat.le_refl _)
  · rintro types v - ⟨_, placed, rfl⟩
    exact placed.mono taken.le (Nat.le_refl _)

/-- Whether a production puts blocks in a row, and makes them solid. -/
abbrev PlacesBlocks (tokens : List Token) (body : Parser Block) : Prop :=
  PlacesEach tokens Block.outline Block.Solid body

theorem places_functionDecl (blocks : PlacesBlocks tokens body) :
    PlacesEach tokens Statement.outline Statement.Solid (functionDecl body) := by
  intro s
  refine (places_consume (by simp)).bind ?_
  rintro start t - ⟨-, opens⟩
  refine places_ident.bind fun name u _ ofName => (places_consume (by simp)).bind fun _ v afterName _ => ?_
  refine (places_delimited places_param).bind fun params w _ ofParams => ?_
  refine (places_consume (by simp)).bind fun _ x afterParams _ => ?_
  refine places_returnTypes.bind fun returns y _ ofReturns => (blocks y).bind fun body z _ ofBody => ?_
  obtain ⟨row, ends, marked⟩ := ofBody.inRow.cut body.span body.span_outline
  have header :=
    (ofName.mono (Nat.le_refl _) afterName).append (ofParams.row.mono (Nat.le_refl _) afterParams)
  have parts := (header.append ofReturns.row).append row
  exact places_joined_bind (places_pure (.single (opens.node parts marked (Nat.le_refl _) ends)
    ⟨opens.solid.upTo _, ofName.solid, ofParams.solid, ofReturns.solid, ofBody.own⟩))

theorem places_branch (blocks : PlacesBlocks tokens body) :
    PlacesEach tokens Branch.outline Branch.Solid (branch body) := by
  intro s
  refine (places_condition s).bind fun condition t _ ofCondition => (blocks t).bind fun body u _ ofBody => ?_
  obtain ⟨row, ends, marked⟩ := ofBody.inRow.cut body.span body.span_outline
  exact places_pure (.single
    (ofCondition.inRow.headed condition.span_outline row (by simp) marked (Nat.le_refl _) ends)
    ⟨ofCondition.own, ofBody.own⟩)

theorem places_branchesUpTo (blocks : PlacesBlocks tokens body) (n : Nat) {s : State} :
    Places tokens (branchesUpTo body n) s fun branches t =>
      Placed tokens Branch.outline Branch.Solid s.lo t.lo branches := by
  induction n generalizing s with
  | zero => exact places_ensure_bind (places_pure (.nil (Nat.le_refl _)))
  | succ n inductionHypothesis =>
    refine places_take_bind (by simp) (fun t _ taken => ?_) fun _ => places_pure (.nil (Nat.le_refl _))
    refine (places_branch blocks t).bind fun first u _ placed => ?_
    refine inductionHypothesis.bind fun others v _ rest => places_pure ?_
    exact (placed.mono taken.le (Nat.le_refl _)).append rest

theorem places_alternative (blocks : PlacesBlocks tokens body) :
    Places tokens (alternative body) s fun otherwise t =>
      InRow (Span.Marked tokens) s.lo t.lo (Block.outlines otherwise) ∧ Block.OptionSolid otherwise := by
  refine places_take_bind (by simp) (fun t _ taken => ?_) fun _ =>
    places_pure ⟨inRow_nil (Nat.le_refl _), trivial⟩
  exact (blocks t).bind fun body u _ placed =>
    places_pure ⟨placed.inRow.mono taken.le (Nat.le_refl _), placed.own⟩

theorem places_conditional (blocks : PlacesBlocks tokens body) :
    PlacesEach tokens Statement.outline Statement.Solid (conditional body) := by
  intro s
  refine (places_consume (by simp)).bind ?_
  rintro start t - ⟨-, opens⟩
  refine (places_branch blocks t).bind fun first u _ ofFirst => places_left_bind ?_
  refine (places_branchesUpTo blocks _).bind fun others v _ ofOthers => ?_
  refine (places_alternative blocks).bind ?_
  rintro otherwise w - ⟨rowOtherwise, ofOtherwise⟩
  have ofBranches := ofFirst.append ofOthers
  obtain ⟨parts, ends, marked⟩ := inRow_lastRegion (ofBranches.row.append rowOtherwise)
  rw [← Branch.outlines_eq_map] at parts
  exact places_joined_bind (places_pure (.single (opens.node parts marked (Nat.le_refl _) ends)
    ⟨opens.solid.upTo _, Branch.eachSolid_iff.mpr ofBranches.solid, ofOtherwise⟩))

theorem places_loopCondition :
    Places tokens loopCondition s fun condition t =>
      Placed tokens Expr.outline Expr.Solid s.lo t.lo condition.toList := by
  refine places_peek_bind fun _ => ?_
  split
  · exact places_pure (.nil (Nat.le_refl _))
  · exact (places_condition s).bind fun condition t _ placed => places_pure placed

theorem places_loop (blocks : PlacesBlocks tokens body) :
    PlacesEach tokens Statement.outline Statement.Solid (loop body) := by
  intro s
  refine (places_consume (by simp)).bind ?_
  rintro start t - ⟨-, opens⟩
  refine places_loopCondition.bind fun condition u _ ofCondition => (blocks u).bind fun body v _ ofBody => ?_
  obtain ⟨row, ends, marked⟩ := ofBody.inRow.cut body.span body.span_outline
  have solid : ∀ e ∈ condition, e.Solid := fun e member => ofCondition.solid e (by simpa using member)
  exact places_joined_bind (places_pure (.single
    (opens.node (ofCondition.row.append row) marked (Nat.le_refl _) ends)
    ⟨opens.solid.upTo _, solid, ofBody.own⟩))

theorem places_blockStatement (blocks : PlacesBlocks tokens body) :
    PlacesEach tokens Statement.outline Statement.Solid (blockStatement body) := by
  intro s
  exact (blocks s).bind fun body t _ placed =>
    places_pure (.single (placed.inRow.wrapped body.span_outline) ⟨placed.own.solid_span, placed.own⟩)

/-! ## All statements -/

/-- What is declared in the wrong place is reported at its first token, and dropped. -/
theorem places_nested {p : Parser Statement} (places : PlacesEach tokens Statement.outline Statement.Solid p) :
    PlacesAttempts tokens (nested p) := by
  intro s
  refine places_peek_bind fun _ => (places s).attempt_bind ?made ?failed
  case made => exact fun _ t _ later _ => places_report_bind (places_pure (.nil later))
  case failed => exact fun t _ later => places_pure (.nil later)

theorem places_declaration (top : Bool) {p : Parser Statement}
    (places : PlacesEach tokens Statement.outline Statement.Solid p) : PlacesAttempts tokens (declaration top p) := by
  cases top with
  | true => exact places_single places
  | false => exact places_nested places

theorem places_namedStatement : PlacesAttempts tokens namedStatement := by
  intro s
  refine places_peekSecond_bind ?_
  split
  · exact places_variableDecls s
  · exact places_single places_callStatement s
  · exact places_single places_callStatement s
  · split
    · exact places_single places_reassignment s
    · exact places_single_of places_reject

theorem places_statementBody (blocks : PlacesBlocks tokens body) (top : Bool) :
    PlacesAttempts tokens (statementBody body top) := by
  intro s
  refine places_peek_bind fun _ => ?_
  split
  next => exact places_declaration top (places_functionDecl blocks) s
  next => exact places_declaration top places_datatypeDecl s
  next => exact places_single (places_conditional blocks) s
  next => exact places_single (places_loop blocks) s
  next => exact places_single (places_blockStatement blocks) s
  next => exact places_single (places_blockStatement blocks) s
  next => exact places_single places_result s
  next => exact places_single places_control s
  next => exact places_single places_control s
  next => exact places_variableDecls s
  next => exact places_variableDecls s
  next => exact places_variableDecls s
  next => exact places_variableDecls s
  next => exact places_namedStatement s
  next => exact places_single_of places_reject

end

section

variable {ends stops : List TokenKind} {statement : Parser Attempt}

theorem places_sequenceUpTo (attempts : PlacesAttempts tokens statement) (n : Nat) {s : State} :
    Places tokens (sequenceUpTo ends stops statement n) s fun made t =>
      Placed tokens Statement.outline Statement.Solid s.lo t.lo made := by
  induction n generalizing s with
  | zero => exact places_ensure_bind (places_pure (.nil (Nat.le_refl _)))
  | succ n inductionHypothesis =>
    apply places_atEnd_bind
    split
    next => exact places_pure (.nil (Nat.le_refl _))
    next =>
      refine (attempts s).bind fun tried t _ placed => ?_
      have others : ∀ u : State, t.lo ≤ u.lo → Places tokens (do
          return tried.made ++ (← sequenceUpTo ends stops statement n)) u fun made v =>
            Placed tokens Statement.outline Statement.Solid s.lo v.lo made := by
        intro u between
        refine inductionHypothesis.bind fun rest v _ behind => places_pure ?_
        exact (placed.mono (Nat.le_refl _) between).append behind
      dsimp only
      split
      · exact (places_any (pure true)).bind fun _ u later _ => others u later
      · exact places_resync_bind fun _ u later => others u later

theorem places_sequence (attempts : PlacesAttempts tokens statement) :
    Places tokens (sequence ends stops statement) s fun made t =>
      Placed tokens Statement.outline Statement.Solid s.lo t.lo made :=
  places_left_bind (places_sequenceUpTo attempts _)

/-- A block that is not closed goes up to the end mark. -/
theorem places_block (attempts : PlacesAttempts tokens statement) :
    PlacesBlocks tokens (block statement) := by
  intro s
  refine (places_consumeAny (by decide)).bind ?_
  rintro opening t - ⟨-, opens⟩
  refine (places_sequence attempts).bind fun statements u _ placed => .assuming fun inOrder => ?_
  have row := placed.row
  rw [← Statement.outlines_eq_map] at row
  have solid : ∀ closing : Span, (⟨statements, opening.span.upTo closing⟩ : Block).Solid :=
    fun closing => ⟨opens.solid.upTo _, Statement.eachSolid_iff.mpr placed.solid⟩
  refine places_peek_bind fun member => ?_
  split
  next eof =>
    have ends := inOrder.hi_of_eof eof
    exact places_report_bind (places_joined_bind (places_pure (.single
      (opens.node row (Span.marked_token member) (Nat.le_of_eq ends.symm) (Nat.le_of_eq ends)) (solid _))))
  next =>
    refine (places_consume (closing_ne_eof _)).bind ?_
    rintro last v - ⟨-, closes⟩
    exact places_joined_bind (places_pure (.single
      (opens.node row closes.marked closes.le_hi closes.hi) (solid _)))

end

theorem places_statementUpTo (n : Nat) (top : Bool) : PlacesAttempts tokens (statementUpTo n top) := by
  induction n generalizing top with
  | zero => exact fun _ => places_ensure_bind (places_pure (.nil (Nat.le_refl _)))
  | succ n inductionHypothesis => exact places_statementBody (places_block (inductionHypothesis false)) top

theorem places_statement : PlacesAttempts tokens statement :=
  fun s => places_left_bind (places_statementUpTo (s.ahead.length + 1) true s)

theorem places_program :
    Places tokens program s fun p t => Placed tokens Statement.outline Statement.Solid s.lo t.lo p :=
  places_sequence places_statement

end FrontEnd.Parser
