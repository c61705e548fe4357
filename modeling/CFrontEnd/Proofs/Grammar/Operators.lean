import CFrontEnd.Proofs.Grammar.Operands
import CFrontEnd.Proofs.Language.Tables

/-!
The operators between operands. Each lemma says how a production runs if the productions inside it
run as expected.
-/

namespace CFrontEnd

namespace Productions

open Parse

variable {deeper : Productions} {limited : Prop} {diagnostics : Diagnostics}
  {context : ParseContext} {state next : ParseState} {left right : Node} {stop : Nat}
  {dialect : Dialect}

/-! ## Operators of C at the current token -/

theorem atBinary?_some (isC : context.language = cLanguage dialect) {operator : Operator}
    {binary : BinaryOperator} {least level : Nat}
    (symbol : (context.tokens.get state.position).kind = .operator operator)
    (isBinary : BinaryOperator.ofOperator? operator = some binary)
    (hasLevel : (cLanguage dialect).precedence? operator = some level) (le : least ≤ level) :
    atBinary? least context state = .ok (some (binary, level + 1)) state := by
  obtain ⟨entry, found, low, high, left⟩ := binary_operatorEntry dialect isBinary
  have levelEq : entry.precedence = level := by
    simpa [Language.precedence?, found] using hasLevel
  subst levelEq
  simp [atBinary?, symbol, isC, found, isBinary, le, low, high, left, Precedence.level,
    OperatorEntry.rightLevel]

theorem atBinary?_none (isC : context.language = cLanguage dialect) {least : Nat}
    (below : (cLanguage dialect).BinaryBelow least (context.tokens.get state.position).kind) :
    atBinary? least context state = .ok none state := by
  cases kind : (context.tokens.get state.position).kind with
  | operator operator =>
    cases isBinary : BinaryOperator.ofOperator? operator with
    | none =>
      cases entry : Language.operatorEntry? (cLanguage dialect) operator <;>
        simp [atBinary?, kind, isC, entry, isBinary]
    | some binary =>
      obtain ⟨entry, found, _⟩ := binary_operatorEntry dialect isBinary
      have lower : entry.precedence < least :=
        below operator binary _ kind isBinary (by simp [Language.precedence?, found])
      have tooLoose : ¬ least ≤ entry.precedence := by omega
      simp [atBinary?, kind, isC, found, tooLoose]
  | _ => simp [atBinary?, kind]

theorem atAssignment?_some (isC : context.language = cLanguage dialect) {operator : Operator}
    {assignment : AssignmentOperator}
    (symbol : (context.tokens.get state.position).kind = .operator operator)
    (isAssignment : AssignmentOperator.ofOperator? operator = some assignment) :
    atAssignment? context state = .ok (some assignment) state := by
  simp [atAssignment?, symbol, isC, assignment_precedence dialect isAssignment, isAssignment,
    Precedence.level]

theorem atAssignment?_none
    (noAssignment : ∀ operator, (context.tokens.get state.position).kind = .operator operator →
      AssignmentOperator.ofOperator? operator = none) :
    atAssignment? context state = .ok none state := by
  cases kind : (context.tokens.get state.position).kind with
  | operator operator => simp [atAssignment?, kind, noAssignment operator kind]
  | _ => simp [atAssignment?, kind]

/-! ## Binary operators -/

/-- What `binaryWithin` repeats: an operator of at least the level `least` and its right operand. -/
def binaryStep (deeper : Productions) (steps least : Nat) (left : Node) :
    Parse (ForInStep Node) := do
  match ← atBinary? least with
  | none => return .done left
  | some (operator, rightLevel) =>
    let place ← location
    discard advance
    let right ← binaryWithin deeper steps rightLevel
    return .yield (.ofChildren (.binary operator) place [left, right])

theorem binaryWithin_succ (deeper : Productions) (steps least : Nat) :
    binaryWithin deeper (steps + 1) least =
      deeper.cast >>= fun first => iterate first (binaryStep deeper steps least) :=
  rfl

theorem binaryWithin_of_cast {steps least : Nat} (enough : 0 < steps)
    (inside : Agrees limited diagnostics (deeper.cast context state) (.ok left next)) :
    Agrees limited diagnostics (binaryWithin deeper steps least context state)
      (repeatFrom (binaryStep deeper (steps - 1) least) left context next) := by
  obtain ⟨steps, rfl⟩ : ∃ fewer, steps = fewer + 1 := ⟨steps - 1, by omega⟩
  rw [binaryWithin_succ]
  exact inside.bind

theorem binaryStep_none {steps least : Nat}
    (none : atBinary? least context state = .ok none state) :
    repeatFrom (binaryStep deeper steps least) left context state = .ok left state :=
  repeatFrom_done (by simp [binaryStep, none])

theorem binaryStep_some {steps least rightLevel : Nat} {operator : BinaryOperator}
    (notEnd : (context.tokens.get state.position).kind ≠ .endOfFile)
    (found : atBinary? least context state = .ok (some (operator, rightLevel)) state)
    (inside : Agrees limited diagnostics
      (binaryWithin deeper steps rightLevel context (state.movedTo (state.position + 1)))
      (.ok right (state.movedTo stop)))
    (forward : state.position < stop) :
    Agrees limited diagnostics (repeatFrom (binaryStep deeper steps least) left context state)
      (repeatFrom (binaryStep deeper steps least)
        (.ofChildren (.binary operator) (context.tokens.get state.position).location [left, right])
        context (state.movedTo stop)) := by
  refine Agrees.repeat_yield (inside.carry ?_ ?_) (ParseState.remaining_movedTo_lt notEnd forward)
  · intro same
    simp [binaryStep, found, notEnd, same]
  · intro after same
    simp [binaryStep, found, notEnd, same]

/-! ## Conditions -/

theorem conditionalRule_plain
    (inside : Agrees limited diagnostics (binary deeper context state) (.ok left next))
    (noQuestion : (context.tokens.get next.position).kind ≠ .operator .question) :
    Agrees limited diagnostics (conditionalRule deeper context state) (.ok left next) := by
  refine inside.carry ?_ ?_
  · intro same
    simp [conditionalRule, same, noQuestion]
  · intro after same
    simp [conditionalRule, same]

theorem conditionalRule_full {condition value otherwise : Node} {question colon : Nat}
    (first : Agrees limited diagnostics (binary deeper context state)
      (.ok condition (state.movedTo question)))
    (asks : (context.tokens.get question).kind = .operator .question)
    (notShort : (context.tokens.get (question + 1)).kind ≠ .punctuator .colon)
    (second : Agrees limited diagnostics
      (deeper.expression context (state.movedTo (question + 1)))
      (.ok value (state.movedTo colon)))
    (divides : (context.tokens.get colon).kind = .punctuator .colon)
    (third : Agrees limited diagnostics
      (deeper.conditional context (state.movedTo (colon + 1)))
      (.ok otherwise (state.movedTo stop))) :
    Agrees limited diagnostics (conditionalRule deeper context state)
      (.ok (.ofChildren .conditional (context.tokens.get question).location
        [condition, value, otherwise]) (state.movedTo stop)) := by
  have notGnuShort : consumeInGnu (.punctuator .colon) context (state.movedTo (question + 1)) =
      .ok false (state.movedTo (question + 1)) := consumeInGnu_other (by simp) notShort
  refine first.chain (fun firstSame => second.chain (fun secondSame => third.carry ?_ ?_) ?_) ?_
  · intro same
    simp [conditionalRule, firstSame, asks, notGnuShort, secondSame, divides, same]
  · intro after same
    simp [conditionalRule, firstSame, asks, notGnuShort, secondSame, divides, same]
  · intro after same
    simp [conditionalRule, firstSame, asks, notGnuShort, same]
  · intro after same
    simp [conditionalRule, same]

theorem conditionalRule_short {condition otherwise : Node} {question : Nat}
    (gnu : context.dialect.gnu = true)
    (first : Agrees limited diagnostics (binary deeper context state)
      (.ok condition (state.movedTo question)))
    (asks : (context.tokens.get question).kind = .operator .question)
    (divides : (context.tokens.get (question + 1)).kind = .punctuator .colon)
    (second : Agrees limited diagnostics
      (deeper.conditional context (state.movedTo (question + 2)))
      (.ok otherwise (state.movedTo stop))) :
    Agrees limited diagnostics (conditionalRule deeper context state)
      (.ok (.ofChildren .binaryConditional (context.tokens.get question).location
        [condition, otherwise]) (state.movedTo stop)) := by
  refine first.chain (fun firstSame => second.carry ?_ ?_) ?_
  · intro same
    simp [conditionalRule, firstSame, asks, consumeInGnu, gnu, consume_apply, divides, same]
  · intro after same
    simp [conditionalRule, firstSame, asks, consumeInGnu, gnu, consume_apply, divides, same]
  · intro after same
    simp [conditionalRule, same]

/-! ## Assignments and commas -/

theorem assignmentRule_plain
    (inside : Agrees limited diagnostics (deeper.conditional context state) (.ok left next))
    (none : atAssignment? context next = .ok none next) :
    Agrees limited diagnostics (assignmentRule deeper context state) (.ok left next) := by
  refine inside.carry ?_ ?_
  · intro same
    simp [assignmentRule, same, none]
  · intro after same
    simp [assignmentRule, same]

theorem assignmentRule_assign {operator : AssignmentOperator} {place : Nat}
    (first : Agrees limited diagnostics (deeper.conditional context state)
      (.ok left (state.movedTo place)))
    (notEnd : (context.tokens.get place).kind ≠ .endOfFile)
    (found : atAssignment? context (state.movedTo place) =
      .ok (some operator) (state.movedTo place))
    (second : Agrees limited diagnostics
      (deeper.assignment context (state.movedTo (place + 1)))
      (.ok right (state.movedTo stop))) :
    Agrees limited diagnostics (assignmentRule deeper context state)
      (.ok (.ofChildren (.assignment operator) (context.tokens.get place).location [left, right])
        (state.movedTo stop)) := by
  refine first.chain (fun firstSame => second.carry ?_ ?_) ?_
  · intro same
    simp [assignmentRule, firstSame, found, notEnd, same]
  · intro after same
    simp [assignmentRule, firstSame, found, notEnd, same]
  · intro after same
    simp [assignmentRule, same]

/-- What `expression` repeats: a comma and the expression behind it. -/
def commaStep (deeper : Productions) (left : Node) : Parse (ForInStep Node) := do
  let place ← location
  if ← consumePunctuator .comma then
    let right ← deeper.assignment
    return .yield (.ofChildren .comma place [left, right])
  else return .done left

theorem expression_eq (deeper : Productions) :
    deeper.expression = deeper.assignment >>= fun first => iterate first (commaStep deeper) :=
  rfl

theorem expression_of_assignment
    (inside : Agrees limited diagnostics (deeper.assignment context state) (.ok left next)) :
    Agrees limited diagnostics (deeper.expression context state)
      (repeatFrom (commaStep deeper) left context next) :=
  inside.bind

theorem commaStep_none
    (noComma : (context.tokens.get state.position).kind ≠ .punctuator .comma) :
    repeatFrom (commaStep deeper) left context state = .ok left state :=
  repeatFrom_done (by simp [commaStep, noComma])

theorem commaStep_some
    (comma : (context.tokens.get state.position).kind = .punctuator .comma)
    (inside : Agrees limited diagnostics
      (deeper.assignment context (state.movedTo (state.position + 1)))
      (.ok right (state.movedTo stop)))
    (forward : state.position < stop) :
    Agrees limited diagnostics (repeatFrom (commaStep deeper) left context state)
      (repeatFrom (commaStep deeper)
        (.ofChildren .comma (context.tokens.get state.position).location [left, right])
        context (state.movedTo stop)) := by
  refine Agrees.repeat_yield (inside.carry ?_ ?_)
    (ParseState.remaining_movedTo_lt (by simp [comma]) forward)
  · intro same
    simp [commaStep, comma, same]
  · intro after same
    simp [commaStep, comma, same]

end Productions

end CFrontEnd
