import CFrontEnd.Proofs.Grammar.Operands
import CFrontEnd.Proofs.Grammar.Words

/-!
Results that account for the tokens passed: a value that stands for all of them, or one problem.
-/

namespace CFrontEnd

variable {α β : Type}

/-- The result has no value, and one problem more has been recorded. -/
def Refuses (diagnostics : Diagnostics) (result : EStateM.Result GivenUp ParseState α) : Prop :=
  ∃ place, ∃ problem : GrammarProblem, ∃ next, result = .error .givenUp next ∧
    next.diagnostics = diagnostics.report .grammatical place problem.message

/-- The result is a value that holds of the tokens passed, if it is not a problem. -/
def Accounts (context : ParseContext) (state : ParseState) (Holds : List Token → α → Prop)
    (result : EStateM.Result GivenUp ParseState α) : Prop :=
  (∃ tokens value, result = .ok value (state.movedTo (state.position + tokens.length)) ∧
    context.tokens.HasAt state.position tokens ∧ Holds tokens value) ∨
  Refuses state.diagnostics result

variable {context : ParseContext} {state : ParseState}

theorem Refuses.passOn {diagnostics : Diagnostics} {inner : EStateM.Result GivenUp ParseState α}
    {result : EStateM.Result GivenUp ParseState β} (refuses : Refuses diagnostics inner)
    (givesUp : ∀ next, inner = .error .givenUp next → result = .error .givenUp next) :
    Refuses diagnostics result := by
  obtain ⟨place, problem, next, same, reported⟩ := refuses
  exact ⟨place, problem, next, givesUp next same, reported⟩

theorem refuses_giveUp (calm : state.panicking = false) (place : SourceLocation)
    (problem : GrammarProblem) :
    Refuses state.diagnostics ((Parse.giveUp place problem : Parse α) context state) :=
  ⟨place, problem, _, Parse.giveUp_apply calm place problem, rfl⟩

theorem refuses_tooDeep (calm : state.panicking = false) :
    Refuses state.diagnostics ((Productions.tooDeep : Parse α) context state) := by
  rw [Productions.tooDeep_eq_giveUp]
  exact refuses_giveUp calm _ _

namespace TokenStream

variable {stream : TokenStream} {position : Nat}

theorem HasAt.single (notEnd : (stream.get position).kind ≠ .endOfFile) :
    stream.HasAt position [stream.get position] :=
  ⟨lt_size_of_kind notEnd, rfl, trivial⟩

theorem HasAt.lt_size {tokens : List Token} (has : stream.HasAt position tokens)
    (notEmpty : tokens ≠ []) : position < stream.body.size := by
  cases tokens with
  | nil => exact absurd rfl notEmpty
  | cons token rest => exact has.1

theorem HasAt.before {rest : List Token} (notEnd : (stream.get position).kind ≠ .endOfFile)
    (hasRest : stream.HasAt (position + 1) rest) :
    stream.HasAt position (stream.get position :: rest) :=
  ⟨lt_size_of_kind notEnd, rfl, hasRest⟩

end TokenStream

namespace Accounts

variable {Holds Inner : List Token → α → Prop} {Outer : List Token → β → Prop}

theorem ok {tokens : List Token} {value : α} {stop : Nat}
    (has : context.tokens.HasAt state.position tokens)
    (stops : stop = state.position + tokens.length)
    (holds : Holds tokens value) : Accounts context state Holds (.ok value (state.movedTo stop)) := by
  subst stops
  exact .inl ⟨tokens, value, rfl, has, holds⟩

theorem nothing {value : α} (holds : Holds [] value) :
    Accounts context state Holds (.ok value state) :=
  .inl ⟨[], value, rfl, trivial, holds⟩

theorem refused {place : SourceLocation} {problem : GrammarProblem} {next : ParseState}
    (reported : next.diagnostics =
      state.diagnostics.report .grammatical place problem.message) :
    Accounts context state Holds (.error .givenUp next) :=
  .inr ⟨place, problem, next, rfl, reported⟩

theorem imp {Weaker : List Token → α → Prop} {result : EStateM.Result GivenUp ParseState α}
    (accounts : Accounts context state Holds result)
    (weaken : ∀ tokens value, context.tokens.HasAt state.position tokens → Holds tokens value →
      Weaker tokens value) : Accounts context state Weaker result := by
  rcases accounts with ⟨tokens, value, same, has, holds⟩ | refuses
  · exact .inl ⟨tokens, value, same, has, weaken _ _ has holds⟩
  · exact .inr refuses

/-- A production goes on after an inner one that has a value, and gives up with it. -/
theorem chain {inner : EStateM.Result GivenUp ParseState α}
    {result : EStateM.Result GivenUp ParseState β} {middle : ParseState}
    (accounts : Accounts context middle Inner inner)
    (sameProblems : middle.diagnostics = state.diagnostics)
    (goesOn : ∀ tokens value, context.tokens.HasAt middle.position tokens → Inner tokens value →
      inner = .ok value (middle.movedTo (middle.position + tokens.length)) →
      Accounts context state Outer result)
    (givesUp : ∀ next, inner = .error .givenUp next → result = .error .givenUp next) :
    Accounts context state Outer result := by
  rcases accounts with ⟨tokens, value, same, has, holds⟩ | refuses
  · exact goesOn tokens value has holds same
  · rw [sameProblems] at refuses
    exact .inr (refuses.passOn givesUp)

/-- What one step of a loop may do that has passed `tokens`. -/
def Step (Keeps Holds : List Token → α → Prop) (tokens more : List Token) : ForInStep α → Prop
  | .done result => Holds (tokens ++ more) result
  | .yield result => more ≠ [] ∧ Keeps (tokens ++ more) result

/-- What every step keeps, and the last one turns into what is wanted, a loop accounts for. -/
theorem repeatFrom {step : α → Parse (ForInStep α)} (Keeps : List Token → α → Prop)
    (stepped : ∀ tokens value, context.tokens.HasAt state.position tokens → Keeps tokens value →
      Accounts context (state.movedTo (state.position + tokens.length))
        (Step Keeps Holds tokens)
        (step value context (state.movedTo (state.position + tokens.length))))
    (tokens : List Token) (value : α) (has : context.tokens.HasAt state.position tokens)
    (keeps : Keeps tokens value) :
    Accounts context state Holds
      (Parse.repeatFrom step value context
        (state.movedTo (state.position + tokens.length))) := by
  -- On the tokens that are left: a step that asks for another one has taken at least one token.
  induction left : (state.movedTo (state.position + tokens.length)).remaining context
    using Nat.strongRecOn generalizing tokens value with
  | ind left ih =>
    subst left
    rcases stepped tokens value has keeps with
      ⟨more, outcome, same, hasMore, holds⟩ | refuses
    · have hasBoth := (TokenStream.hasAt_append _ _ _).mpr ⟨has, hasMore⟩
      simp only [ParseState.position_movedTo, ParseState.movedTo_movedTo, Nat.add_assoc,
        ← List.length_append] at same hasMore
      cases outcome with
      | done result =>
        rw [Parse.repeatFrom_done same]
        exact ok hasBoth rfl holds
      | yield result =>
        obtain ⟨notEmpty, keepsBoth⟩ := holds
        have inside := hasMore.lt_size notEmpty
        have progress : (state.movedTo (state.position + (tokens ++ more).length)).remaining
            context < (state.movedTo (state.position + tokens.length)).remaining context := by
          have positive := List.length_pos_iff.mpr notEmpty
          simp only [ParseState.remaining, TokenStream.remaining, TokenStream.length,
            ParseState.position_movedTo, List.length_append]
          omega
        rw [Parse.repeatFrom_yield same progress]
        exact ih _ progress _ _ hasBoth keepsBoth rfl
    · exact .inr (refuses.passOn fun _ same => Parse.repeatFrom_error same)

end Accounts

end CFrontEnd
