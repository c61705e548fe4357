import CFrontEnd.Proofs.Grammar.Questions

/-!
How a production leaves the state. Whether it has a result or gives up, it goes forward over tokens of
the text, keeps the scopes around the innermost one and only adds to the problems. Outside of a panic a
result leaves no panic behind, and giving up leaves one together with the problem that it was for.
-/

namespace CFrontEnd

open Parse

/-- From the first place to the second there are tokens of the text only. -/
def TokenStream.Inside (stream : TokenStream) (first stop : Nat) : Prop :=
  ∀ position, first ≤ position → position < stop → (stream.get position).kind ≠ .endOfFile

namespace TokenStream.Inside

variable {stream : TokenStream} {first stop middle : Nat}

theorem nil : stream.Inside first first := fun _ low high => absurd high (Nat.not_lt.mpr low)

theorem cons (notEnd : (stream.get first).kind ≠ .endOfFile) (rest : stream.Inside (first + 1) stop) :
    stream.Inside first stop := by
  intro position low high
  by_cases here : position = first
  · rwa [here]
  · exact rest position (by omega) high

theorem append (before : stream.Inside first middle) (behind : stream.Inside middle stop) :
    stream.Inside first stop := by
  intro position low high
  by_cases earlier : position < middle
  · exact before position low earlier
  · exact behind position (by omega) high

end TokenStream.Inside

/-- Between the two states parsing has gone over tokens of the text, kept the scopes around the
innermost one, added problems behind those that were there, and ended no repetition from outside. -/
structure Passed (context : ParseContext) (before after : ParseState) : Prop where
  forward : before.position ≤ after.position
  inside : context.tokens.Inside before.position after.position
  outer : after.scopes.outer = before.scopes.outer
  recorded : before.diagnostics.toList <+: after.diagnostics.toList
  unstalled : after.stalled = before.stalled

/-- What a result leaves: no panic, unless there was one. -/
structure Reached (context : ParseContext) (before after : ParseState) : Prop where
  passed : Passed context before after
  calm : before.panicking = false → after.panicking = false ∧ after.dropped = before.dropped

/-- The problems of the later state begin with those of the earlier one, and one of the others is a
problem with the grammar. -/
def ParseState.Complains (before after : ParseState) : Prop :=
  ∃ new, after.diagnostics.toList = before.diagnostics.toList ++ new ∧
    ∃ diagnostic ∈ new, diagnostic.kind = .grammatical

/-- What giving up leaves: a panic, and the problem that it is for. -/
structure GaveUp (context : ParseContext) (before after : ParseState) : Prop where
  passed : Passed context before after
  alarmed : before.panicking = false →
    after.panicking = true ∧ after.dropped = before.dropped ∧ before.Complains after

variable {α β : Type} {context : ParseContext} {before middle after state next : ParseState}

namespace Passed

theorem refl (context : ParseContext) (state : ParseState) : Passed context state state :=
  ⟨Nat.le_refl _, .nil, rfl, List.prefix_refl _, rfl⟩

theorem trans (first : Passed context before middle) (second : Passed context middle after) :
    Passed context before after where
  forward := Nat.le_trans first.forward second.forward
  inside := first.inside.append second.inside
  outer := second.outer.trans first.outer
  recorded := first.recorded.trans second.recorded
  unstalled := second.unstalled.trans first.unstalled

theorem movedTo {position : Nat} (forward : state.position ≤ position)
    (inside : context.tokens.Inside state.position position) :
    Passed context state (state.movedTo position) :=
  ⟨forward, inside, rfl, List.prefix_refl _, rfl⟩

theorem advance (notEnd : (context.tokens.get state.position).kind ≠ .endOfFile) :
    Passed context state (state.movedTo (state.position + 1)) :=
  movedTo (Nat.le_succ _) (.cons notEnd .nil)

theorem rescoped {scopes : ScopeStack} (outer : scopes.outer = state.scopes.outer) :
    Passed context state (state.rescoped scopes) :=
  ⟨Nat.le_refl _, .nil, outer, List.prefix_refl _, rfl⟩

theorem remaining_lt (passed : Passed context before after)
    (further : before.position < after.position) :
    after.remaining context < before.remaining context := by
  have notEnd := passed.inside before.position (Nat.le_refl _) further
  exact ParseState.remaining_movedTo_lt notEnd further

end Passed

namespace Reached

theorem refl (context : ParseContext) (state : ParseState) : Reached context state state :=
  ⟨.refl context state, fun calm => ⟨calm, rfl⟩⟩

theorem trans (first : Reached context before middle) (second : Reached context middle after) :
    Reached context before after := by
  refine ⟨first.passed.trans second.passed, fun calm => ?_⟩
  obtain ⟨calmMiddle, sameMiddle⟩ := first.calm calm
  obtain ⟨calmAfter, sameAfter⟩ := second.calm calmMiddle
  exact ⟨calmAfter, sameAfter.trans sameMiddle⟩

theorem of_passed (passed : Passed context before after)
    (panicking : after.panicking = before.panicking) (dropped : after.dropped = before.dropped) :
    Reached context before after :=
  ⟨passed, fun calm => ⟨panicking.trans calm, dropped⟩⟩

theorem movedTo {position : Nat} (forward : state.position ≤ position)
    (inside : context.tokens.Inside state.position position) :
    Reached context state (state.movedTo position) :=
  of_passed (.movedTo forward inside) rfl rfl

theorem advance (notEnd : (context.tokens.get state.position).kind ≠ .endOfFile) :
    Reached context state (state.movedTo (state.position + 1)) :=
  of_passed (.advance notEnd) rfl rfl

theorem rescoped {scopes : ScopeStack} (outer : scopes.outer = state.scopes.outer) :
    Reached context state (state.rescoped scopes) :=
  of_passed (.rescoped outer) rfl rfl

end Reached

namespace GaveUp

theorem behind (first : Reached context before middle) (second : GaveUp context middle after) :
    GaveUp context before after := by
  refine ⟨first.passed.trans second.passed, fun calm => ?_⟩
  obtain ⟨calmMiddle, sameMiddle⟩ := first.calm calm
  obtain ⟨alarmed, sameAfter, new, same, complains⟩ := second.alarmed calmMiddle
  obtain ⟨earlier, recorded⟩ := first.passed.recorded
  refine ⟨alarmed, sameAfter.trans sameMiddle, earlier ++ new, ?_, ?_⟩
  · rw [same, ← recorded, List.append_assoc]
  · obtain ⟨diagnostic, member, kind⟩ := complains
    exact ⟨diagnostic, List.mem_append_right _ member, kind⟩

/-- Names declared after giving up leave all else as it is. -/
theorem rescoped (gaveUp : GaveUp context before after) {scopes : ScopeStack}
    (outer : scopes.outer = after.scopes.outer) :
    GaveUp context before (after.rescoped scopes) :=
  ⟨gaveUp.passed.trans (.rescoped outer), gaveUp.alarmed⟩

end GaveUp

/-! ## What a result is worth -/

/-- How many tokens have been used up, at the least, when there is this result; nothing where it only
stands for a problem that has been met. -/
abbrev Use (α : Type) := α → Option Nat

namespace Use

def atLeast (count : Nat) : Use α := fun _ => some count

/-- What is still to be used up when so many tokens have been. -/
def less (use : Use α) (count : Nat) : Use α := fun value => (use value).map (· - count)

/-- A step of a repetition: one that wants another one has used up a token. -/
def step (use : Use α) : Use (ForInStep α)
  | .done result => use result
  | .yield _ => some 1

end Use

/-- How the state is left by a result that is worth so much. -/
def Ended (context : ParseContext) (used : Option Nat) (before after : ParseState) : Prop :=
  match used with
  | some count => Reached context before after ∧ before.position + count ≤ after.position
  | none => GaveUp context before after

theorem Ended.behind {used : Option Nat} {count : Nat} (first : Reached context before middle)
    (further : before.position + count ≤ middle.position)
    (second : Ended context (used.map (· - count)) middle after) : Ended context used before after := by
  cases used with
  | none => exact GaveUp.behind first second
  | some least =>
    obtain ⟨reached, last⟩ := second
    have rest : middle.position + (least - count) ≤ after.position := last
    exact ⟨first.trans reached, by omega⟩

theorem Ended.passed {used : Option Nat} (ended : Ended context used before after) :
    Passed context before after := by
  cases used with
  | none => exact GaveUp.passed ended
  | some least => exact ended.1.passed

theorem Ended.rescoped {used : Option Nat} (ended : Ended context used before after)
    {scopes : ScopeStack} (outer : scopes.outer = after.scopes.outer) :
    Ended context used before (after.rescoped scopes) := by
  cases used with
  | none => exact GaveUp.rescoped ended outer
  | some least => exact ⟨ended.1.trans (.rescoped outer), ended.2⟩

/-! ## Runs from one state -/

/-- Started in `state`, the production leaves it as its results are worth or gives up, all that counted
from `before`. -/
structure Runs (context : ParseContext) (before : ParseState) (production : Parse α)
    (state : ParseState) (use : Use α) : Prop where
  ok : ∀ value next, production context state = .ok value next →
    Ended context (use value) before next
  error : ∀ reason next, production context state = .error reason next → GaveUp context before next

namespace Runs

variable {production other : Parse α} {continuation : α → Parse β} {value : α} {reason : GivenUp}
  {use : Use α} {last : Use β} {count : Nat}

theorem of_ok (run : production context state = .ok value next)
    (ended : Ended context (use value) before next) : Runs context before production state use := by
  constructor
  · intro other after same
    rw [run] at same
    cases same
    exact ended
  · intro reason after same
    rw [run] at same
    cases same

theorem of_error (run : production context state = .error reason next)
    (gaveUp : GaveUp context before next) : Runs context before production state use := by
  constructor
  · intro other after same
    rw [run] at same
    cases same
  · intro other after same
    rw [run] at same
    cases same
    exact gaveUp

theorem pure (same : use value = some 0) : Runs context state (pure value) state use := by
  refine .of_ok rfl ?_
  rw [same]
  exact ⟨.refl context state, Nat.le_refl _⟩

/-- What is counted from a state can be counted from one before it. -/
theorem since (first : Reached context before state)
    (further : before.position + count ≤ state.position)
    (rest : Runs context state production state (use.less count)) :
    Runs context before production state use :=
  ⟨fun value next run => (rest.ok value next run).behind first further,
    fun reason next run => (rest.error reason next run).behind first⟩

theorem of_eq {start : ParseState} (same : production context state = other context start)
    (runs : Runs context before other start use) : Runs context before production state use :=
  ⟨fun value next run => runs.ok value next (same ▸ run),
    fun reason next run => runs.error reason next (same ▸ run)⟩

theorem bind (first : Runs context before production state use)
    (rest : ∀ value next, Ended context (use value) before next →
      Runs context before (continuation value) next last) :
    Runs context before (production >>= continuation) state last := by
  constructor
  · intro value next same
    rw [bind_apply] at same
    split at same
    · rename_i middle after read
      exact (rest middle after (first.ok _ _ read)).ok _ _ same
    · cases same
  · intro reason next same
    rw [bind_apply] at same
    split at same
    · rename_i middle after read
      exact (rest middle after (first.ok _ _ read)).error _ _ same
    · rename_i after read
      cases same
      exact first.error _ _ read

theorem step (run : production context state = .ok value next)
    (rest : Runs context before (continuation value) next last) :
    Runs context before (production >>= continuation) state last :=
  of_eq (by rw [bind_apply, run]) rest

theorem mono {weaker : Use α} (runs : Runs context before production state use)
    (weaken : ∀ value next, Ended context (use value) before next →
      Ended context (weaker value) before next) : Runs context before production state weaker :=
  ⟨fun value next run => weaken value next (runs.ok value next run), runs.error⟩

/-! ## Repetition -/

variable {repeated : α → Parse (ForInStep α)}

/-- A step that wants another one has gone forward, so that no repetition is ended from outside. What a
value already stands for need not be used up again. -/
theorem repeatFrom_carrying {worth : α → Nat} (small : ∀ value, worth value ≤ 1)
    (stepped : ∀ value state,
      Runs context state (repeated value) state (use.less (worth value)).step) :
    Runs context state (Parse.repeatFrom repeated value) state (use.less (worth value)) := by
  induction value, state using Parse.repeatFrom.induct repeated context with
  | case1 value state result next ran =>
    exact .of_ok (repeatFrom_done ran) ((stepped value state).ok _ _ ran)
  | case2 value state result next ran progress ih =>
    obtain ⟨reached, further⟩ := (stepped value state).ok _ _ ran
    refine of_eq (repeatFrom_yield ran progress) (since reached further ?_)
    refine ih.mono fun final last ended => ?_
    -- What `result` is worth has been used up by this step already.
    cases used : use final with
    | none => simpa [Use.less, used] using ended
    | some least =>
      have enough := small result
      simp only [Use.less, used, Option.map_some] at ended ⊢
      exact ⟨ended.1, by have far := ended.2; omega⟩
  | case3 value state result next ran stalls =>
    obtain ⟨reached, further⟩ := (stepped value state).ok _ _ ran
    exact absurd (reached.passed.remaining_lt further) stalls
  | case4 value state reason next ran =>
    exact .of_error (repeatFrom_error ran) ((stepped value state).error _ _ ran)

theorem repeatFrom (stepped : ∀ value state, Runs context state (repeated value) state use.step) :
    Runs context state (Parse.repeatFrom repeated value) state use := by
  have none : use.less 0 = use := by
    funext value
    cases worth : use value <;> simp [Use.less, worth]
  rw [← none] at stepped ⊢
  exact repeatFrom_carrying (fun _ => Nat.zero_le 1) stepped

/-- A repetition that begins with a step that uses up a token has used up one. -/
theorem repeatFrom_further (begins : Runs context state (repeated value) state (.atLeast 1))
    (stepped : ∀ value state, Runs context state (repeated value) state (Use.atLeast 0).step) :
    Runs context state (Parse.repeatFrom repeated value) state (.atLeast 1) := by
  cases ran : repeated value context state with
  | error reason next => exact .of_error (repeatFrom_error ran) (begins.error _ _ ran)
  | ok outcome next =>
    have ended := begins.ok _ _ ran
    cases outcome with
    | done result => exact .of_ok (repeatFrom_done ran) ended
    | yield result =>
      obtain ⟨reached, further⟩ := ended
      have progress := reached.passed.remaining_lt further
      exact of_eq (repeatFrom_yield ran progress) (since reached further (repeatFrom stepped))

end Runs

end CFrontEnd
