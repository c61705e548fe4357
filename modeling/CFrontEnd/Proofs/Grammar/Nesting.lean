import CFrontEnd.Grammar.Productions
import CFrontEnd.Grammar.Start
import CFrontEnd.Proofs.Grammar.Evaluation

/-!
Results that are as expected, or that say that the text nests too deeply. Where levels may run out,
every production on the way to a result can only fail in that one manner. With as many levels as it takes,
or more, it does what is said of it.
-/

namespace CFrontEnd

theorem Productions.tooDeep_eq_giveUp {α : Type} {context : ParseContext} {state : ParseState} :
    (Productions.tooDeep : Parse α) context state =
      Parse.giveUp (context.tokens.get state.position).location .nestedTooDeeply context state := by
  simp [Productions.tooDeep]

/-! ## Results where levels may run out -/

section

variable {α β : Type}

/-- The only problem of the result is that there were too few levels. -/
def TooDeep (diagnostics : Diagnostics) (result : EStateM.Result GivenUp ParseState α) : Prop :=
  ∃ place next, result = .error .givenUp next ∧
    next.diagnostics =
      diagnostics.report .grammatical place GrammarProblem.nestedTooDeeply.message

/-- The result is the expected one or, if levels are `limited`, says that there were too few. -/
def Agrees (limited : Prop) (diagnostics : Diagnostics)
    (result expected : EStateM.Result GivenUp ParseState α) : Prop :=
  result = expected ∨ limited ∧ TooDeep diagnostics result

namespace Agrees

variable {limited : Prop} {diagnostics : Diagnostics} {context : ParseContext}
  {state next : ParseState}

theorem refl (result : EStateM.Result GivenUp ParseState α) :
    Agrees limited diagnostics result result :=
  .inl rfl

theorem trans {first second third : EStateM.Result GivenUp ParseState α}
    (left : Agrees limited diagnostics first second)
    (right : Agrees limited diagnostics second third) :
    Agrees limited diagnostics first third := by
  rcases left with rfl | deep
  · exact right
  · exact .inr deep

theorem eq {result expected : EStateM.Result GivenUp ParseState α}
    (agrees : Agrees False diagnostics result expected) : result = expected := by
  rcases agrees with same | ⟨impossible, _⟩
  · exact same
  · exact impossible.elim

theorem tooDeep (isLimited : limited) (calm : state.panicking = false)
    (expected : EStateM.Result GivenUp ParseState α) :
    Agrees limited state.diagnostics (Productions.tooDeep context state) expected := by
  have gaveUp : (Productions.tooDeep : Parse α) context state = _ := Productions.tooDeep_eq_giveUp
  rw [Parse.giveUp_apply calm] at gaveUp
  exact .inr ⟨isLimited, _, _, gaveUp, rfl⟩

/-- A production goes on after an inner one that has a value, and gives up with it. -/
theorem chain {inner : EStateM.Result GivenUp ParseState α} {value : α}
    {result expected : EStateM.Result GivenUp ParseState β}
    (agrees : Agrees limited diagnostics inner (.ok value next))
    (goesOn : inner = .ok value next → Agrees limited diagnostics result expected)
    (givesUp : ∀ after, inner = .error .givenUp after → result = .error .givenUp after) :
    Agrees limited diagnostics result expected := by
  rcases agrees with same | ⟨isLimited, place, after, same, reported⟩
  · exact goesOn same
  · exact .inr ⟨isLimited, place, after, givesUp after same, reported⟩

theorem carry {inner : EStateM.Result GivenUp ParseState α} {value : α}
    {result expected : EStateM.Result GivenUp ParseState β}
    (agrees : Agrees limited diagnostics inner (.ok value next))
    (goesOn : inner = .ok value next → result = expected)
    (givesUp : ∀ after, inner = .error .givenUp after → result = .error .givenUp after) :
    Agrees limited diagnostics result expected :=
  agrees.chain (fun same => .inl (goesOn same)) givesUp

theorem bind {production : Parse α} {value : α} {continuation : α → Parse β}
    (agrees : Agrees limited diagnostics (production context state) (.ok value next)) :
    Agrees limited diagnostics ((production >>= continuation) context state)
      (continuation value context next) :=
  agrees.carry (fun same => by simp [same]) (fun after same => by simp [same])

theorem repeat_yield {step : α → Parse (ForInStep α)} {value result : α}
    (agrees : Agrees limited diagnostics (step value context state) (.ok (.yield result) next))
    (progress : next.remaining context < state.remaining context) :
    Agrees limited diagnostics (Parse.repeatFrom step value context state)
      (Parse.repeatFrom step result context next) :=
  agrees.carry (fun same => Parse.repeatFrom_yield same progress)
    (fun _ same => Parse.repeatFrom_error same)

end Agrees

end

/-! ## How many levels a production takes -/

section

variable {α β : Type} {diagnostics : Diagnostics}

/-- What gives up wherever a part gives up runs out of levels with it. -/
theorem TooDeep.carry {inner : EStateM.Result GivenUp ParseState α}
    {result : EStateM.Result GivenUp ParseState β} (deep : TooDeep diagnostics inner)
    (givesUp : ∀ after, inner = .error .givenUp after → ∃ later,
      result = .error .givenUp later ∧ later.diagnostics = after.diagnostics) :
    TooDeep diagnostics result := by
  obtain ⟨place, after, same, reported⟩ := deep
  obtain ⟨later, gaveUp, unchanged⟩ := givesUp after same
  exact ⟨place, later, gaveUp, unchanged.trans reported⟩

theorem TooDeep.bind {production : Parse α} {continuation : α → Parse β} {context : ParseContext}
    {state : ParseState} (deep : TooDeep diagnostics (production context state)) :
    TooDeep diagnostics ((production >>= continuation) context state) :=
  deep.carry fun after same => ⟨after, by simp [same], rfl⟩

theorem TooDeep.exhausted {context : ParseContext} {state : ParseState}
    (calm : state.panicking = false) :
    TooDeep state.diagnostics ((Productions.tooDeep : Parse α) context state) := by
  have gaveUp : (Productions.tooDeep : Parse α) context state = _ := Productions.tooDeep_eq_giveUp
  rw [Parse.giveUp_apply calm] at gaveUp
  exact ⟨_, _, gaveUp, rfl⟩

/-- The result is good with `need` levels, and with fewer it says that there are too few. -/
structure Demands (need levels : Nat) (diagnostics : Diagnostics)
    (result : EStateM.Result GivenUp ParseState α) (good : Prop) : Prop where
  enough : need ≤ levels → good
  tooFew : levels < need → TooDeep diagnostics result

namespace Demands

variable {need more levels : Nat} {inner : EStateM.Result GivenUp ParseState α}
  {result : EStateM.Result GivenUp ParseState β} {good better : Prop}

theorem of_good (holds : good) : Demands 0 levels diagnostics result good :=
  ⟨fun _ => holds, fun none => absurd none (Nat.not_lt_zero levels)⟩

theorem imp (demands : Demands need levels diagnostics inner good) (implies : good → better) :
    Demands need levels diagnostics inner better :=
  ⟨fun enough => implies (demands.enough enough), demands.tooFew⟩

/-- A production takes what its first part takes, and what it takes from there on. -/
theorem chain (first : Demands need levels diagnostics inner good)
    (goesOn : good → Demands more levels diagnostics result better)
    (givesUp : ∀ after, inner = .error .givenUp after → ∃ later,
      result = .error .givenUp later ∧ later.diagnostics = after.diagnostics) :
    Demands (max need more) levels diagnostics result better := by
  -- Whether the second part takes levels matters only where the first part had enough.
  by_cases enough : need ≤ levels
  · have second := goesOn (first.enough enough)
    constructor
    · intro all
      exact second.enough (by omega)
    · intro few
      exact second.tooFew (by omega)
  · constructor
    · intro all
      omega
    · intro few
      exact (first.tooFew (by omega)).carry givesUp

theorem carry (first : Demands need levels diagnostics inner good) (goesOn : good → better)
    (givesUp : ∀ after, inner = .error .givenUp after → ∃ later,
      result = .error .givenUp later ∧ later.diagnostics = after.diagnostics) :
    Demands need levels diagnostics result better :=
  ⟨fun enough => goesOn (first.enough enough), fun few => (first.tooFew few).carry givesUp⟩

end Demands

end

end CFrontEnd
