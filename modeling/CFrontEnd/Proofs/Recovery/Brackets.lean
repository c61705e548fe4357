import CFrontEnd.Proofs.Recovery.Rules

/-!
What is in brackets: attributes, which are passed over, and what stands in braces. Inside of braces the
closing brace is a fence of its own, and behind it parsing is in front of the outer fence again.
-/

namespace CFrontEnd

open Parse TokenStream

namespace Fence

variable {α β : Type} {context : ParseContext} {fence : Fence context} {known : List TokenKind}
  {production : Parse α} {continuation : α → Parse β} {state next : ParseState}
  {Last : β → ParseState → Prop}

/-! ## Attributes -/

theorem skipBalanced_apply {opener closer : Punctuator} {depth stop : Nat}
    (closed : context.tokens.afterBalanced opener closer depth state.position = (stop, true)) :
    skipBalanced opener closer depth context state = .ok () (state.movedTo stop) := by
  refine (bind_apply _ _).trans ?_
  simp only [closed]
  rfl

/-- Where a bracket opens in front of the fence, everything up to the one that closes it is
passed over. -/
theorem closes_of_opens (bracket : Bracket) {position : Nat} (low : fence.first ≤ position)
    (high : position ≤ fence.stop)
    (opens : (context.tokens.get position).kind = .punctuator bracket.opening) :
    ∃ close, position < close ∧ close < fence.stop ∧
      context.tokens.NestedFrom (position + 1) close ∧
      (context.tokens.get close).kind = .punctuator bracket.closing := by
  refine fence.closed position low (Nat.lt_of_le_of_ne high ?_) bracket opens
  rintro rfl
  have isMark := fence.isMark
  rw [opens] at isMark
  rcases fence.ends with same | same <;> rw [same] at isMark <;> cases bracket <;>
    simp [Bracket.opening] at isMark

theorem leads_skipParens {continuation : Unit → Parse β} {what : String}
    (rest : fence.Leads [] (continuation ()) Last) :
    fence.Leads known (discard (expectPunctuator .openParen what) >>= fun _ =>
      skipBalanced .openParen .closeParen 1 >>= continuation) Last := by
  intro state holds _
  rw [discard_bind]
  refine confines_expect holds (by simp) fun opens => ?_
  obtain ⟨close, low, high, nested, closes⟩ := closes_of_opens .paren holds.low holds.high opens
  obtain ⟨_, reach⟩ := holds.advance (by simp [opens])
  have skipped : skipBalanced .openParen .closeParen 1 context
      (state.movedTo (state.position + 1)) = .ok () (state.movedTo (close + 1)) := by
    refine skipBalanced_apply ?_
    exact (nested.afterBalanced .paren 0).trans (afterBalanced_last closes)
  have limit : fence.stop ≤ fence.limit := stop_le_limit
  refine ⟨reach, .step skipped (.quiet rfl (by simp; omega) (by simp; omega)) ?_⟩
  exact rest _ (holds.movedTo (by omega) high) trivial

/-- Two brackets that open side by side close at places of their own. -/
theorem leads_skipBrackets {continuation : Unit → Parse β}
    (rest : fence.Leads [] (continuation ()) Last) :
    fence.Leads [.punctuator .openBracket, .punctuator .openBracket]
      (discard advance >>= fun _ => discard advance >>= fun _ =>
        skipBalanced .openBracket .closeBracket 2 >>= continuation) Last := by
  intro state holds ⟨first, second, _⟩
  obtain ⟨close, low, high, nested, closes⟩ :=
    closes_of_opens .square holds.low holds.high first
  obtain ⟨inner, lowInner, highInner, nestedInner, closesInner, between⟩ :=
    nested.opened .square second closes
  have limit : fence.stop ≤ fence.limit := stop_le_limit
  have opened : (discard advance >>= fun _ => discard advance : Parse Unit) context state =
      .ok () (state.movedTo (state.position + 1 + 1)) := by
    simp [first, second]
  have skipped : skipBalanced .openBracket .closeBracket 2 context
      (state.movedTo (state.position + 1 + 1)) = .ok () (state.movedTo (close + 1)) := by
    refine skipBalanced_apply ?_
    exact (nestedInner.afterBalanced .square 1).trans <|
      (afterBalanced_closing closesInner).trans <|
      (between.afterBalanced .square 0).trans (afterBalanced_last closes)
  rw [← bind_assoc]
  refine .step opened (.quiet rfl (by simp; omega) (by simp; omega))
    (.step skipped (.quiet rfl (by simp; omega) (by simp; omega)) ?_)
  exact rest _ (holds.movedTo (by omega) high) trivial

theorem leads_atBrackets {continuation : Bool → Parse β}
    (succeeds : fence.Leads [.punctuator .openBracket, .punctuator .openBracket]
      (continuation true) Last)
    (fails : fence.Leads known (continuation false) Last) :
    fence.Leads known (atBrackets >>= continuation) Last :=
  leads_test sees_atBrackets succeeds fails

theorem confined_skipAttributes : fence.Confined known skipAttributes := by
  refine confined_iterate fun _ => ?_
  refine leads_consume (by simp) (leads_skipParens confined_pure) ?_
  exact leads_atBrackets (leads_skipBrackets confined_pure) confined_pure

theorem confined_skipExtensions : fence.Confined known skipExtensions :=
  confined_iterate fun _ => leads_consume (by simp) confined_pure confined_pure

/-! ## Braces -/

/-- What a nearer fence confines is confined by the one behind it. -/
theorem Confines.outward {inner : Fence context} {Post : α → ParseState → Prop}
    (confines : inner.Confines production state Post) (nearer : inner.stop ≤ fence.stop)
    (isBrace : inner.mark = .closeBrace) : fence.Confines production state Post := by
  have limit : fence.stop ≤ fence.limit := stop_le_limit
  have outward : ∀ next, inner.Reach state next → fence.Reach state next := by
    intro next reach
    have bounded := reach.bounded
    rw [limit_eq_stop isBrace] at bounded
    obtain ⟨new, same, covered⟩ := reach.problems
    refine ⟨reach.forward, by omega, new, same, ?_⟩
    intro diagnostic member
    obtain ⟨position, high, place⟩ := covered diagnostic member
    exact ⟨position, Nat.le_trans high nearer, place⟩
  constructor
  · intro value next same
    obtain ⟨reach, post⟩ := confines.ok value next same
    exact ⟨outward next reach, post⟩
  · intro reason next same
    obtain ⟨reach, high⟩ := confines.error reason next same
    exact ⟨outward next reach, Nat.le_trans high nearer⟩

/-- Behind an opening brace the brace that closes it is the fence. -/
theorem confines_braced {what : String} (holds : fence.Holds state)
    (opens : (context.tokens.get state.position).kind = .punctuator .openBrace)
    (inside : ∀ inner : Fence context, inner.mark = .closeBrace → inner.Confined [] production)
    (rest : ∀ value, fence.Leads [] (continuation value) Last) :
    fence.Confines (production >>= fun value =>
        discard (expectPunctuator .closeBrace what) >>= fun _ => continuation value)
      (state.movedTo (state.position + 1)) Last := by
  obtain ⟨close, low, high, nested, closes⟩ :=
    closes_of_opens .brace holds.low holds.high opens
  let inner : Fence context :=
    ⟨state.position + 1, close, .closeBrace, closes, .inl rfl, nested.closesWithin⟩
  have begins : inner.Holds (state.movedTo (state.position + 1)) :=
    ⟨Nat.le_refl _, low, holds.calm⟩
  have within := inside inner rfl _ begins trivial
  refine (within.outward (Nat.le_of_lt high) rfl).bind ?_
  intro value next _ ⟨lowNext, highNext, calm⟩
  have limit : fence.stop ≤ fence.limit := stop_le_limit
  have outer := holds.low
  have highClose : next.position ≤ close := highNext
  have lowOpen : state.position + 1 ≤ next.position := lowNext
  have holdsNext : fence.Holds next := ⟨by omega, by omega, calm⟩
  rw [discard_bind]
  refine confines_expect holdsNext (by simp) fun _ => ⟨.quiet rfl (Nat.le_succ _) ?_, ?_⟩
  · simp only [ParseState.position_movedTo]
    omega
  · exact rest value _ (holdsNext.movedTo (Nat.le_succ _) (by omega)) trivial

theorem leads_braced {what : String}
    (inside : ∀ inner : Fence context, inner.mark = .closeBrace → inner.Confined [] production)
    (rest : ∀ value, fence.Leads [] (continuation value) Last) :
    fence.Leads [.punctuator .openBrace] (discard advance >>= fun _ => production >>= fun value =>
      discard (expectPunctuator .closeBrace what) >>= fun _ => continuation value) Last := by
  intro state holds ⟨opens, _⟩
  have opened : discard Parse.advance context state =
      .ok () (state.movedTo (state.position + 1)) := by
    simp [opens]
  exact .step opened (holds.advance (by simp [opens])).2 (confines_braced holds opens inside rest)

theorem leads_expectBraced {opening closing : String} {continuation : Token → α → Parse β}
    (inside : ∀ inner : Fence context, inner.mark = .closeBrace → inner.Confined [] production)
    (rest : ∀ token value, fence.Leads [] (continuation token value) Last) :
    fence.Leads known (expectPunctuator .openBrace opening >>= fun token =>
      production >>= fun value =>
        discard (expectPunctuator .closeBrace closing) >>= fun _ => continuation token value)
      Last := by
  intro state holds _
  refine confines_expect holds (by simp) fun opens => ?_
  exact ⟨(holds.advance (by simp [opens])).2, confines_braced holds opens inside (rest _)⟩

end Fence

end CFrontEnd
