import CFrontEnd.Proofs.Recovery.Nesting
import CFrontEnd.Proofs.Grammar.Questions
import CFrontEnd.Proofs.Grammar.Statements

/-!
Productions that stay in front of a token. A fence is a closing brace or a semicolon such that what
opens in front of it closes there too. A production is confined by it if it never moves past it and
records no problem behind it, whether it has a result or gives up.
-/

namespace CFrontEnd

open Parse

/-- The token at `stop` ends what is around: brackets that open from `first` on close in front of
it. -/
structure Fence (context : ParseContext) where
  first : Nat
  stop : Nat
  mark : Punctuator
  isMark : (context.tokens.get stop).kind = .punctuator mark
  ends : mark = .closeBrace ∨ mark = .semicolon
  closed : context.tokens.ClosesWithin first stop

namespace Fence

variable {context : ParseContext} (fence : Fence context)

/-- The furthest place: behind a semicolon, but in front of a brace. -/
def limit : Nat := context.tokens.behind fence.stop

/-- A token up to the fence has this place. -/
def Covers (place : SourceLocation) : Prop :=
  ∃ position, position ≤ fence.stop ∧ (context.tokens.get position).location = place

/-- A token of this kind is moved past without passing the fence. -/
structure Admits (kind : TokenKind) : Prop where
  noMark : kind ≠ .punctuator fence.mark
  notEnd : kind ≠ .endOfFile

/-- The later state is further on but not past the limit, and new problems are at places up to the
fence. -/
structure Reach (before after : ParseState) : Prop where
  forward : before.position ≤ after.position
  bounded : after.position ≤ fence.limit
  problems : ∃ new : Diagnostics, after.diagnostics = before.diagnostics.append new ∧
    ∀ diagnostic ∈ new.toList, fence.Covers diagnostic.location

/-- The state is in front of the fence, and no problem has been met. -/
structure Holds (state : ParseState) : Prop where
  low : fence.first ≤ state.position
  high : state.position ≤ fence.stop
  calm : state.panicking = false

/-- No problem has been met, and something has been used up. -/
structure Past (state : ParseState) : Prop where
  further : fence.first < state.position
  calm : state.panicking = false

/-- The state is in front of the fence, and something has been used up. -/
structure Onward (state : ParseState) : Prop where
  holds : fence.Holds state
  further : fence.first < state.position

/-- Started in the state, the production gives up in front of the fence or has a result of which
`Post` is true. -/
structure Confines {α : Type} (production : Parse α) (state : ParseState)
    (Post : α → ParseState → Prop) : Prop where
  ok : ∀ value next, production context state = .ok value next →
    fence.Reach state next ∧ Post value next
  error : ∀ reason next, production context state = .error reason next →
    fence.Reach state next ∧ next.position ≤ fence.stop

/-- The same wherever it starts in front of the fence with tokens of the known kinds. -/
def Leads {α : Type} (known : List TokenKind) (production : Parse α)
    (Post : α → ParseState → Prop) : Prop :=
  ∀ state, fence.Holds state → context.tokens.Shows state.position known →
    fence.Confines production state Post

/-- The production does not pass the fence. -/
def Confined {α : Type} (known : List TokenKind) (production : Parse α) : Prop :=
  fence.Leads known production fun _ next => fence.Holds next

variable {fence} {α β : Type} {production : Parse α} {continuation : α → Parse β}
  {state next : ParseState} {place : SourceLocation}

theorem stop_le_limit : fence.stop ≤ fence.limit := context.tokens.le_behind fence.stop

theorem limit_eq_stop (isBrace : fence.mark = .closeBrace) : fence.limit = fence.stop := by
  rw [limit, TokenStream.behind, if_neg]
  simp [fence.isMark, isBrace]

theorem Holds.covers (holds : fence.Holds state) :
    fence.Covers (context.tokens.get state.position).location :=
  ⟨state.position, holds.high, rfl⟩

theorem Holds.lt_stop (holds : fence.Holds state)
    (noMark : (context.tokens.get state.position).kind ≠ .punctuator fence.mark) :
    state.position < fence.stop := by
  refine Nat.lt_of_le_of_ne holds.high ?_
  intro same
  exact noMark (same ▸ fence.isMark)

theorem Holds.stall (holds : fence.Holds state) : fence.Holds state.stall :=
  ⟨holds.low, holds.high, holds.calm⟩

theorem Holds.movedTo (holds : fence.Holds state) {position : Nat} (low : state.position ≤ position)
    (high : position ≤ fence.stop) : fence.Holds (state.movedTo position) :=
  ⟨Nat.le_trans holds.low low, high, holds.calm⟩

/-! ## Reaching a state -/

namespace Reach

theorem quiet (same : next.diagnostics = state.diagnostics)
    (forward : state.position ≤ next.position) (bounded : next.position ≤ fence.limit) :
    fence.Reach state next :=
  ⟨forward, bounded, .empty, by simp [same, Diagnostics.append, Diagnostics.empty],
    by simp [Diagnostics.empty, Diagnostics.toList]⟩

theorem refl (holds : fence.Holds state) : fence.Reach state state :=
  quiet rfl (Nat.le_refl _) (Nat.le_trans holds.high stop_le_limit)

theorem trans {middle : ParseState} (first : fence.Reach state middle)
    (second : fence.Reach middle next) : fence.Reach state next := by
  obtain ⟨new, same, covered⟩ := first.problems
  obtain ⟨newer, sameNewer, coveredNewer⟩ := second.problems
  refine ⟨Nat.le_trans first.forward second.forward, second.bounded, new.append newer, ?_, ?_⟩
  · rw [sameNewer, same]
    simp [Diagnostics.append, Array.append_assoc]
  · intro diagnostic member
    rw [Diagnostics.toList_append, List.mem_append] at member
    exact member.elim (covered diagnostic) (coveredNewer diagnostic)

theorem holds (reach : fence.Reach state next) (before : fence.Holds state)
    (high : next.position ≤ fence.stop) (calm : next.panicking = false) : fence.Holds next :=
  ⟨Nat.le_trans before.low reach.forward, high, calm⟩

theorem rescoped (reach : fence.Reach state next) (scopes : ScopeStack) :
    fence.Reach state (next.rescoped scopes) :=
  ⟨reach.forward, reach.bounded, reach.problems⟩

theorem report (holds : fence.Holds state) (covered : fence.Covers place) (problem : GrammarProblem)
    (panicking : Bool) :
    fence.Reach state { state.reported place problem with panicking := panicking } := by
  refine ⟨Nat.le_refl _, Nat.le_trans holds.high stop_le_limit,
    .report .empty .grammatical place problem.message, ?_, ?_⟩
  · simp only [ParseState.reported, Diagnostics.append, Diagnostics.empty, Diagnostics.report,
      Array.append_push, Array.append_empty]
  · intro diagnostic member
    rw [Diagnostics.toList_report] at member
    have same : diagnostic = ⟨.grammatical, place, problem.message⟩ := by
      simpa [Diagnostics.empty, Diagnostics.toList] using member
    rwa [same]

end Reach

/-! ## Runs from one state -/

/-- A step of a repetition that wants another one may still be the last, so that it leads to the end
as well. -/
structure Stepped (Invariant Post : α → ParseState → Prop) (outcome : ForInStep α)
    (next : ParseState) : Prop where
  done : ∀ result, outcome = .done result → Post result next
  yield : ∀ result, outcome = .yield result → Invariant result next ∧ Post result next.stall

theorem Stepped.of_done {Invariant Post : α → ParseState → Prop} {result : α}
    (post : Post result next) : Stepped Invariant Post (.done result) next := by
  constructor
  · rintro _ ⟨⟩
    exact post
  · intro other same
    cases same

theorem Stepped.of_yield {Invariant Post : α → ParseState → Prop} {result : α}
    (kept : Invariant result next) (post : Post result next.stall) :
    Stepped Invariant Post (.yield result) next := by
  constructor
  · intro other same
    cases same
  · rintro _ ⟨⟩
    exact ⟨kept, post⟩

namespace Confines

variable {value : α} {reason : GivenUp} {Post : α → ParseState → Prop} {Last : β → ParseState → Prop}

theorem of_ok (run : production context state = .ok value next) (reach : fence.Reach state next)
    (post : Post value next) : fence.Confines production state Post := by
  constructor
  · intro other after same
    rw [run] at same
    cases same
    exact ⟨reach, post⟩
  · intro reason after same
    rw [run] at same
    cases same

theorem of_error (run : production context state = .error reason next)
    (reach : fence.Reach state next) (high : next.position ≤ fence.stop) :
    fence.Confines production state Post := by
  constructor
  · intro other after same
    rw [run] at same
    cases same
  · intro other after same
    rw [run] at same
    cases same
    exact ⟨reach, high⟩

theorem bind (first : fence.Confines production state Post)
    (rest : ∀ value next, fence.Reach state next → Post value next →
      fence.Confines (continuation value) next Last) :
    fence.Confines (production >>= continuation) state Last := by
  constructor
  · intro value next same
    rw [bind_apply] at same
    split at same
    · rename_i middle after read
      obtain ⟨reach, post⟩ := first.ok _ _ read
      obtain ⟨later, last⟩ := (rest middle after reach post).ok _ _ same
      exact ⟨reach.trans later, last⟩
    · cases same
  · intro reason next same
    rw [bind_apply] at same
    split at same
    · rename_i middle after read
      obtain ⟨reach, post⟩ := first.ok _ _ read
      obtain ⟨later, high⟩ := (rest middle after reach post).error _ _ same
      exact ⟨reach.trans later, high⟩
    · rename_i after read
      cases same
      exact first.error _ _ read

theorem step (run : production context state = .ok value next) (reach : fence.Reach state next)
    (rest : fence.Confines (continuation value) next Last) :
    fence.Confines (production >>= continuation) state Last := by
  have first : fence.Confines production state fun found after => found = value ∧ after = next :=
    .of_ok run reach ⟨rfl, rfl⟩
  refine first.bind ?_
  rintro _ _ _ ⟨rfl, rfl⟩
  exact rest

theorem mono {Weaker : α → ParseState → Prop} (confines : fence.Confines production state Post)
    (weaken : ∀ value next, fence.Reach state next → Post value next → Weaker value next) :
    fence.Confines production state Weaker := by
  constructor
  · intro value next same
    obtain ⟨reach, post⟩ := confines.ok value next same
    exact ⟨reach, weaken value next reach post⟩
  · exact confines.error

/-- A repetition keeps what every step keeps. -/
theorem repeatFrom {Invariant Post : α → ParseState → Prop} {step : α → Parse (ForInStep α)}
    (stepped : ∀ value state, Invariant value state →
      fence.Confines (step value) state (Stepped Invariant Post))
    (start : Invariant value state) :
    fence.Confines (fun context state => repeatFrom step value context state) state Post := by
  induction value, state using Parse.repeatFrom.induct step context with
  | case1 value state result next ran =>
    obtain ⟨reach, done, _⟩ := (stepped value state start).ok _ _ ran
    exact .of_ok (repeatFrom_done ran) reach (done result rfl)
  | case2 value state result next ran progress ih =>
    obtain ⟨reach, _, yielded⟩ := (stepped value state start).ok _ _ ran
    have rest := ih (yielded result rfl).1
    have same := repeatFrom_yield ran progress
    constructor
    · intro value after finished
      obtain ⟨later, last⟩ := rest.ok value after (same ▸ finished)
      exact ⟨reach.trans later, last⟩
    · intro reason after failed
      obtain ⟨later, high⟩ := rest.error reason after (same ▸ failed)
      exact ⟨reach.trans later, high⟩
  | case3 value state result next ran stalls =>
    -- A step that stalls ends the repetition with its own result.
    obtain ⟨reach, _, yielded⟩ := (stepped value state start).ok _ _ ran
    have finished : Parse.repeatFrom step value context state = .ok result next.stall := by
      rw [Parse.repeatFrom, ran]
      exact if_neg stalls
    exact .of_ok finished ⟨reach.forward, reach.bounded, reach.problems⟩ (yielded result rfl).2
  | case4 value state reason next ran =>
    have gaveUp := (stepped value state start).error _ _ ran
    exact .of_error (repeatFrom_error ran) gaveUp.1 gaveUp.2

end Confines

end Fence

end CFrontEnd
