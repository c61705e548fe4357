import CFrontEnd.Grammar.Recovery

/-!
How productions run on a given state. Each primitive has one equation, and a run of a production is
the chain of the equations of its parts.
-/

namespace CFrontEnd

@[simp] theorem Token.isEndOfFile_eq (token : Token) :
    token.isEndOfFile = decide (token.kind = .endOfFile) :=
  rfl

@[simp] theorem Token.isKeyword_eq (token : Token) (word : Keyword) :
    token.isKeyword word = decide (token.kind = .keyword word) :=
  rfl

@[simp] theorem Token.isOperator_eq (token : Token) (operator : Operator) :
    token.isOperator operator = decide (token.kind = .operator operator) :=
  rfl

@[simp] theorem Token.isPunctuator_eq (token : Token) (punctuator : Punctuator) :
    token.isPunctuator punctuator = decide (token.kind = .punctuator punctuator) :=
  rfl

@[simp] theorem Token.isIdentifier_eq (token : Token) :
    token.isIdentifier = decide (token.kind = .identifier) :=
  rfl

namespace ParseState

/-- The state with another token as the current one, and all else as it is. -/
def movedTo (state : ParseState) (position : Nat) : ParseState := { state with position := position }

variable (state : ParseState) (position : Nat)

@[simp] theorem position_movedTo : (state.movedTo position).position = position := rfl

@[simp] theorem scopes_movedTo : (state.movedTo position).scopes = state.scopes := rfl

@[simp] theorem diagnostics_movedTo :
    (state.movedTo position).diagnostics = state.diagnostics := rfl

@[simp] theorem panicking_movedTo : (state.movedTo position).panicking = state.panicking := rfl

@[simp] theorem dropped_movedTo : (state.movedTo position).dropped = state.dropped := rfl

@[simp] theorem stalled_movedTo : (state.movedTo position).stalled = state.stalled := rfl

@[simp] theorem movedTo_movedTo (later : Nat) :
    (state.movedTo position).movedTo later = state.movedTo later := rfl

@[simp] theorem movedTo_position : state.movedTo state.position = state := rfl

/-- The state with other scopes, and all else as it is. -/
def rescoped (state : ParseState) (scopes : ScopeStack) : ParseState :=
  { state with scopes := scopes }

variable (scopes : ScopeStack)

@[simp] theorem position_rescoped : (state.rescoped scopes).position = state.position := rfl

@[simp] theorem scopes_rescoped : (state.rescoped scopes).scopes = scopes := rfl

@[simp] theorem diagnostics_rescoped :
    (state.rescoped scopes).diagnostics = state.diagnostics := rfl

@[simp] theorem panicking_rescoped : (state.rescoped scopes).panicking = state.panicking := rfl

@[simp] theorem rescoped_rescoped (later : ScopeStack) :
    (state.rescoped scopes).rescoped later = state.rescoped later := rfl

@[simp] theorem rescoped_scopes : state.rescoped state.scopes = state := rfl

/-- Scopes and place change apart from each other; the place is written last. -/
@[simp] theorem rescoped_movedTo :
    (state.movedTo position).rescoped scopes = (state.rescoped scopes).movedTo position := rfl

/-- The state with a problem recorded, and all else as it is. -/
def reported (state : ParseState) (place : SourceLocation) (problem : GrammarProblem) :
    ParseState :=
  { state with diagnostics := state.diagnostics.report .grammatical place problem.message }

variable (place : SourceLocation) (problem : GrammarProblem)

@[simp] theorem position_reported : (state.reported place problem).position = state.position := rfl

@[simp] theorem scopes_reported : (state.reported place problem).scopes = state.scopes := rfl

@[simp] theorem diagnostics_reported : (state.reported place problem).diagnostics =
    state.diagnostics.report .grammatical place problem.message := rfl

@[simp] theorem panicking_reported :
    (state.reported place problem).panicking = state.panicking := rfl

@[simp] theorem dropped_reported :
    (state.reported place problem).dropped = state.dropped := rfl

@[simp] theorem stalled_reported :
    (state.reported place problem).stalled = state.stalled := rfl

end ParseState

namespace Parse

variable {α β : Type} {context : ParseContext} {state : ParseState}

@[simp] theorem bind_apply (first : Parse α) (next : α → Parse β) :
    (first >>= next) context state =
      match first context state with
      | .ok value after => next value context after
      | .error reason after => .error reason after := by
  change EStateM.bind (first context) (fun value => next value context) state = _
  unfold EStateM.bind
  cases first context state <;> rfl

@[simp] theorem map_apply (change : α → β) (production : Parse α) :
    (change <$> production) context state =
      match production context state with
      | .ok value after => .ok (change value) after
      | .error reason after => .error reason after := by
  change EStateM.map change (production context) state = _
  unfold EStateM.map
  cases production context state <;> rfl

@[simp] theorem discard_apply (production : Parse α) :
    discard production context state =
      match production context state with
      | .ok _ after => .ok () after
      | .error reason after => .error reason after :=
  map_apply (Function.const α ()) production

@[simp] theorem pure_apply (value : α) :
    (pure value : Parse α) context state = .ok value state := rfl

@[simp] theorem peek_apply :
    peek context state = .ok (context.tokens.get state.position) state := rfl

@[simp] theorem peekAhead_apply (distance : Nat) :
    peekAhead distance context state =
      .ok (context.tokens.get (state.position + distance)) state := rfl

@[simp] theorem advance_apply :
    advance context state =
      .ok (context.tokens.get state.position)
        (if (context.tokens.get state.position).kind = .endOfFile then state
          else state.movedTo (state.position + 1)) := by
  by_cases ends : (context.tokens.get state.position).kind = .endOfFile <;>
    simp [advance, ends, ParseState.movedTo]

@[simp] theorem location_apply :
    location context state = .ok (context.tokens.get state.position).location state := rfl

@[simp] theorem atPunctuator_apply (punctuator : Punctuator) :
    atPunctuator punctuator context state =
      .ok (decide ((context.tokens.get state.position).kind = .punctuator punctuator)) state := by
  simp [atPunctuator]

@[simp] theorem atOperator_apply (operator : Operator) :
    atOperator operator context state =
      .ok (decide ((context.tokens.get state.position).kind = .operator operator)) state := by
  simp [atOperator]

@[simp] theorem atKeyword_apply (word : Keyword) :
    atKeyword word context state =
      .ok (decide ((context.tokens.get state.position).kind = .keyword word)) state := by
  simp [atKeyword]

@[simp] theorem atEnd_apply :
    atEnd context state =
      .ok (decide ((context.tokens.get state.position).kind = .endOfFile)) state := by
  simp [atEnd]

@[simp] theorem isGnu_apply : isGnu context state = .ok context.dialect.gnu state := rfl

@[simp] theorem isTypeName_apply (name : String) :
    isTypeName name context state =
      .ok (context.language.isTypeName state.scopes.isTypedefName name) state := rfl

theorem consume_apply {kind : TokenKind} (notEnd : kind ≠ .endOfFile) :
    consume kind context state =
      if (context.tokens.get state.position).kind = kind then
        .ok true (state.movedTo (state.position + 1))
      else .ok false state := by
  by_cases found : (context.tokens.get state.position).kind = kind
  · simp [consume, found, notEnd]
  · simp [consume, found]

@[simp] theorem consumePunctuator_apply (punctuator : Punctuator) :
    consumePunctuator punctuator context state =
      if (context.tokens.get state.position).kind = .punctuator punctuator then
        .ok true (state.movedTo (state.position + 1))
      else .ok false state :=
  consume_apply (by simp)

@[simp] theorem consume_operator_apply (operator : Operator) :
    consume (.operator operator) context state =
      if (context.tokens.get state.position).kind = .operator operator then
        .ok true (state.movedTo (state.position + 1))
      else .ok false state :=
  consume_apply (by simp)

@[simp] theorem consume_keyword_apply (word : Keyword) :
    consume (.keyword word) context state =
      if (context.tokens.get state.position).kind = .keyword word then
        .ok true (state.movedTo (state.position + 1))
      else .ok false state :=
  consume_apply (by simp)

theorem consumeInGnu_other {kind : TokenKind} (notEnd : kind ≠ .endOfFile)
    (other : (context.tokens.get state.position).kind ≠ kind) :
    consumeInGnu kind context state = .ok false state := by
  by_cases gnu : context.dialect.gnu <;> simp [consumeInGnu, gnu, consume_apply notEnd, other]

theorem expect_apply {kind : TokenKind} (what : String) (notEnd : kind ≠ .endOfFile) :
    expect kind what context state =
      if (context.tokens.get state.position).kind = kind then
        .ok (context.tokens.get state.position) (state.movedTo (state.position + 1))
      else unexpected what context state := by
  by_cases found : (context.tokens.get state.position).kind = kind
  · simp [expect, found, notEnd]
  · simp [expect, found]

@[simp] theorem expectPunctuator_apply (punctuator : Punctuator) (what : String) :
    expectPunctuator punctuator what context state =
      if (context.tokens.get state.position).kind = .punctuator punctuator then
        .ok (context.tokens.get state.position) (state.movedTo (state.position + 1))
      else unexpected what context state :=
  expect_apply what (by simp)

@[simp] theorem expectIdentifier_apply :
    expectIdentifier context state =
      if (context.tokens.get state.position).kind = .identifier then
        .ok (context.tokens.get state.position) (state.movedTo (state.position + 1))
      else unexpected "identifier" context state :=
  expect_apply _ (by simp)

@[simp] theorem modifyScopes_apply (change : ScopeStack → ScopeStack) :
    modifyScopes change context state = .ok () (state.rescoped (change state.scopes)) := rfl

@[simp] theorem addOrdinary_apply (name : String) :
    addOrdinary name context state = .ok () (state.rescoped (state.scopes.addOrdinary name)) := rfl

theorem inNewScope_apply (production : Parse α) :
    inNewScope production context state =
      match production context (state.rescoped state.scopes.enter) with
      | .ok value after => .ok value (after.rescoped after.scopes.exit)
      | .error reason after => .error reason (after.rescoped after.scopes.exit) := rfl

/-- Outside of panic, giving up records exactly the one problem. -/
theorem giveUp_apply (calm : state.panicking = false) (place : SourceLocation)
    (problem : GrammarProblem) :
    (giveUp place problem : Parse α) context state =
      .error .givenUp
        { state with
          diagnostics := state.diagnostics.report .grammatical place problem.message
          panicking := true } := by
  simp [giveUp, calm]

@[simp] theorem unexpected_apply (what : String) :
    (unexpected what : Parse α) context state =
      giveUp (context.tokens.get state.position).location
        (.expected what (context.tokens.get state.position)) context state := by
  simp [unexpected]

/-! ## Repetition -/

theorem repeatFrom_done {step : α → Parse (ForInStep α)} {value result : α} {next : ParseState}
    (stepped : step value context state = .ok (.done result) next) :
    repeatFrom step value context state = .ok result next := by
  rw [repeatFrom, stepped]

theorem repeatFrom_yield {step : α → Parse (ForInStep α)} {value result : α} {next : ParseState}
    (stepped : step value context state = .ok (.yield result) next)
    (progress : next.remaining context < state.remaining context) :
    repeatFrom step value context state = repeatFrom step result context next := by
  rw [repeatFrom, stepped]
  simp only [progress, if_true]

theorem repeatFrom_error {step : α → Parse (ForInStep α)} {value : α} {reason : GivenUp}
    {next : ParseState} (stepped : step value context state = .error reason next) :
    repeatFrom step value context state = .error reason next := by
  rw [repeatFrom, stepped]

@[simp] theorem iterate_apply (start : α) (step : α → Parse (ForInStep α)) :
    iterate start step context state = repeatFrom step start context state := rfl

end Parse

end CFrontEnd
