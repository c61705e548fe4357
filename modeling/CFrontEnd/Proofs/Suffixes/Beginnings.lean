import CFrontEnd.Proofs.Expression.Reading
import CFrontEnd.Proofs.Schema.Rules
import CFrontEnd.Proofs.Tree.Shapes

/-!
What the tree of an expression begins with. Whatever is read behind the first operand, it becomes a
later part of the tree, so that the leaf on the far left comes from the first token that is no
parenthesis.
-/

namespace CFrontEnd

open Parse Productions

/-- The tree is of the kind, or its first child begins with one that is. -/
inductive Node.BeginsWith (kind : NodeKind) : Node → Prop
  | here {spot : SourceLocation} {payload : Payload} {children : List Node} :
      BeginsWith kind ⟨kind, spot, payload, children⟩
  | first {outer : NodeKind} {spot : SourceLocation} {payload : Payload} {child : Node}
      {rest : List Node} (begins : BeginsWith kind child) :
      BeginsWith kind ⟨outer, spot, payload, child :: rest⟩

theorem Node.BeginsWith.of_sameShape {kind : NodeKind} {node tree : Node} (begins : node.BeginsWith kind)
    (same : node.sameShape tree = true) : tree.BeginsWith kind := by
  induction begins generalizing tree with
  | here =>
    obtain ⟨other, spot, payload, children⟩ := tree
    simp only [sameShape, Bool.and_eq_true] at same
    obtain rfl := eq_of_beq same.1.1
    exact .here
  | first _ ih =>
    obtain ⟨other, spot, payload, children⟩ := tree
    simp only [sameShape, Bool.and_eq_true] at same
    cases children with
    | nil => simp [sameShapes] at same
    | cons child rest =>
      simp only [sameShapes, Bool.and_eq_true] at same
      exact .first (ih same.2.1)

/-! ## Results from one state -/

section

variable {α β : Type} {context : ParseContext} {state : ParseState} {production : Parse α}
  {continuation : α → Parse β} {good : α → Prop} {last : β → Prop}

/-- What the production has for a result from the state is good. -/
def YieldsFrom (context : ParseContext) (state : ParseState) (production : Parse α)
    (good : α → Prop) : Prop :=
  ∀ value next, production context state = .ok value next → good value

theorem YieldsFrom.bind (first : YieldsFrom context state production good)
    (rest : ∀ value, good value → Yields context (continuation value) last) :
    YieldsFrom context state (production >>= continuation) last := by
  intro result next run
  rw [bind_apply] at run
  split at run
  · rename_i value middle read
    exact rest value (first value middle read) middle result next run
  · cases run

theorem yieldsFrom_tooDeep : YieldsFrom context state (tooDeep : Parse α) good :=
  yields_then (fun _ => yields_giveUp) state

end

/-! ## Behind the first operand -/

section

variable {context : ParseContext} {state : ParseState} {kind : NodeKind} {deeper : Productions}

/-- The step goes on with a tree that begins as before. -/
theorem yields_further {outer : NodeKind} {place : SourceLocation} {payload : Payload} {base : Node}
    {rest : List Node} (begins : base.BeginsWith kind) :
    Yields context (pure (ForInStep.yield (⟨outer, place, payload, base :: rest⟩ : Node)))
      (Stepped (Node.BeginsWith kind) (Node.BeginsWith kind)) :=
  yields_pure ⟨.first begins, .first begins⟩

theorem yieldsFrom_suffixed (first : YieldsFrom context state (primary deeper) (Node.BeginsWith kind)) :
    YieldsFrom context state (suffixed deeper) (Node.BeginsWith kind) := by
  refine first.bind fun base begins => yields_iterateKeeping begins fun base begins => ?_
  refine yields_then fun token => ?_
  dsimp only
  split
  · exact yields_then fun _ => yields_then fun _ => yields_then fun _ => yields_further begins
  · exact yields_then fun _ => yields_then fun _ => yields_then fun _ => yields_further begins
  · exact yields_then fun _ => yields_then fun _ => yields_further begins
  · exact yields_then fun _ => yields_then fun _ => yields_further begins
  · exact yields_then fun _ => yields_further begins
  · exact yields_then fun _ => yields_further begins
  · exact yields_pure begins

theorem yieldsFrom_binaryWithin {steps least : Nat}
    (first : YieldsFrom context state deeper.cast (Node.BeginsWith kind)) :
    YieldsFrom context state (binaryWithin deeper steps least) (Node.BeginsWith kind) := by
  cases steps with
  | zero => exact first
  | succ steps =>
    rw [binaryWithin]
    refine first.bind fun left begins => yields_iterateKeeping begins fun left begins => ?_
    refine yields_then fun found => ?_
    split
    · exact yields_pure begins
    · exact yields_then fun _ => yields_then fun _ => yields_then fun _ => yields_further begins

theorem yieldsFrom_conditionalRule
    (first : YieldsFrom context state deeper.cast (Node.BeginsWith kind)) :
    YieldsFrom context state (conditionalRule deeper) (Node.BeginsWith kind) := by
  have condition : YieldsFrom context state (binary deeper) (Node.BeginsWith kind) :=
    fun node next run => yieldsFrom_binaryWithin first node next run
  refine condition.bind fun condition begins => yields_then fun _ => yields_then fun _ => ?_
  refine yields_ite (fun _ => yields_pure begins) fun _ => yields_then fun _ => ?_
  refine yields_ite (fun _ => ?_) fun _ => ?_
  · exact yields_then fun _ => yields_pure (.first begins)
  · exact yields_then fun _ => yields_then fun _ => yields_then fun _ => yields_pure (.first begins)

theorem yieldsFrom_assignmentRule
    (first : YieldsFrom context state deeper.conditional (Node.BeginsWith kind)) :
    YieldsFrom context state (assignmentRule deeper) (Node.BeginsWith kind) := by
  refine first.bind fun target begins => yields_then fun found => ?_
  split
  · exact yields_pure begins
  · exact yields_then fun _ => yields_then fun _ => yields_then fun _ => yields_pure (.first begins)

theorem yieldsFrom_commas
    (first : YieldsFrom context state deeper.assignment (Node.BeginsWith kind)) :
    YieldsFrom context state deeper.expression (Node.BeginsWith kind) := by
  refine first.bind fun left begins => yields_iterateKeeping begins fun left begins => ?_
  refine yields_then fun _ => yields_then fun _ => yields_ite (fun _ => ?_) fun _ => yields_pure begins
  exact yields_then fun _ => yields_further begins

/-- The rules around an operand keep what it begins with. -/
theorem yieldsFrom_expression
    (notPrefix : (context.tokens.get state.position).kind.precedesOperand = false)
    (noType : atParenthesizedType context state = .ok false state)
    (first : ∀ levels, YieldsFrom context state (primary (ofLevels levels)) (Node.BeginsWith kind))
    (levels : Nat) :
    YieldsFrom context state (ofLevels levels).expression (Node.BeginsWith kind) := by
  have unary : ∀ levels, YieldsFrom context state (ofLevels levels).unary (Node.BeginsWith kind) := by
    rintro (_ | levels)
    · exact yieldsFrom_tooDeep
    · intro node next run
      exact yieldsFrom_suffixed (first levels) node next ((unaryRule_suffixed notPrefix).symm.trans run)
  have cast : ∀ levels, YieldsFrom context state (ofLevels levels).cast (Node.BeginsWith kind) := by
    rintro (_ | levels)
    · exact yieldsFrom_tooDeep
    · intro node next run
      exact unary levels node next ((castRule_of_noType noType).symm.trans run)
  have conditional : ∀ levels,
      YieldsFrom context state (ofLevels levels).conditional (Node.BeginsWith kind) := by
    rintro (_ | levels)
    · exact yieldsFrom_tooDeep
    · exact yieldsFrom_conditionalRule (cast levels)
  cases levels with
  | zero => exact yieldsFrom_commas yieldsFrom_tooDeep
  | succ levels => exact yieldsFrom_commas (yieldsFrom_assignmentRule (conditional levels))

/-- A literal with parentheses in front of it is what the whole tree begins with. -/
theorem yieldsFrom_literal {literal : LiteralKind} (notString : literal ≠ .string) (count : Nat)
    (opens : ∀ index < count,
      (context.tokens.get (state.position + index)).kind = .punctuator .openParen)
    (isLiteral : (context.tokens.get (state.position + count)).kind = .literal literal)
    (levels : Nat) :
    YieldsFrom context state (ofLevels levels).expression
      (Node.BeginsWith (literalKind literal)) := by
  induction count generalizing state levels with
  | zero =>
    have isLiteral : (context.tokens.get state.position).kind = .literal literal := isLiteral
    refine yieldsFrom_expression (by rw [isLiteral]; rfl)
      (by simp [atParenthesizedType_apply, isLiteral]) (fun levels node next run => ?_) levels
    have read : primary (ofLevels levels) context state = Productions.literal literal context state := by
      cases literal <;> simp_all [primary]
    exact yields_then (fun _ => yields_pure .here) state node next (read.symm.trans run)
  | succ count ih =>
    have isOpening : (context.tokens.get state.position).kind = .punctuator .openParen :=
      opens 0 (Nat.succ_pos count)
    have later (index : Nat) : state.position + 1 + index = state.position + (index + 1) := by omega
    have inside (levels : Nat) : YieldsFrom context (state.movedTo (state.position + 1))
        (ofLevels levels).expression (Node.BeginsWith (literalKind literal)) := by
      refine ih (fun index less => ?_) ?_ levels
      · rw [ParseState.position_movedTo, later]
        exact opens (index + 1) (by omega)
      · rw [ParseState.position_movedTo, later]
        exact isLiteral
    have next : (context.tokens.get (state.position + 1)).kind = .punctuator .openParen ∨
        (context.tokens.get (state.position + 1)).kind = .literal literal := by
      cases count with
      | zero => exact .inr isLiteral
      | succ count => exact .inl (opens 1 (by omega))
    have noBlock : (context.tokens.get (state.position + 1)).kind ≠ .punctuator .openBrace := by
      rcases next with same | same <;> simp [same]
    have noType : beginsTypeName context state (context.tokens.get (state.position + 1)) = false := by
      rcases next with same | same <;> simp [beginsTypeName, same]
    refine yieldsFrom_expression (by rw [isOpening]; rfl)
      (by simp [atParenthesizedType_apply, noType]) (fun levels node after run => ?_) levels
    have read : primary (ofLevels levels) context state =
        ((ofLevels levels).expression >>= fun inner => expectClosingParen >>= fun _ => pure inner)
          context (state.movedTo (state.position + 1)) := by
      simp [primary, parenthesized, isOpening, noBlock]
    exact (inside levels).bind (fun inner begins => yields_then fun _ => yields_pure begins) node after
      (read.symm.trans run)

end

end CFrontEnd
