import CFrontEnd.Proofs.Grammar.Questions
import CFrontEnd.Proofs.Grammar.Operators
import CFrontEnd.Grammar.Start

/-!
Blocks and the items in them: an item that is completed, one that is given up and passed over, and
the statements that are blocks and expressions.
-/

namespace CFrontEnd

/-- The kinds of tokens that parsing never resumes at or behind. -/
def TokenKind.isPassedOver : TokenKind → Bool
  | .endOfFile | .keyword _ | .punctuator .semicolon | .punctuator .openBrace
  | .punctuator .closeBrace => false
  | _ => true

namespace TokenStream

variable {stream : TokenStream} {start position : Nat}

theorem resumption_semicolon (ends : (stream.get position).kind = .punctuator .semicolon) :
    stream.resumption start 0 position = position + 1 := by
  have inside : position < stream.body.size := lt_size_of_kind (by simp [ends])
  have here : stream.get position = stream.body[position] := by simp [get, inside]
  rw [here] at ends
  rw [resumption]
  simp [inside, ends]

theorem resumption_passed (passed : (stream.get position).kind.isPassedOver = true) :
    stream.resumption start 0 position = stream.resumption start 0 (position + 1) := by
  have notEnd : (stream.get position).kind ≠ .endOfFile := by
    intro ends
    rw [ends] at passed
    cases passed
  have inside : position < stream.body.size := lt_size_of_kind notEnd
  have here : stream.get position = stream.body[position] := by simp [get, inside]
  rw [here] at passed
  rw [resumption, dif_pos inside]
  cases kind : stream.body[position].kind with
  | punctuator punctuator => cases punctuator <;> simp_all [TokenKind.isPassedOver]
  | _ => simp_all [TokenKind.isPassedOver]

/-- Parsing resumes behind the semicolon at the end of a stretch in which nothing else stops it. -/
theorem resumption_through {stop : Nat} (ends : (stream.get stop).kind = .punctuator .semicolon)
    (before : position ≤ stop)
    (passed : ∀ place, position ≤ place → place < stop →
      (stream.get place).kind.isPassedOver = true) :
    stream.resumption start 0 position = stop + 1 := by
  obtain ⟨steps, rfl⟩ := Nat.exists_eq_add_of_le before
  induction steps generalizing position with
  | zero => exact resumption_semicolon ends
  | succ steps ih =>
    have rest := @ih (position + 1) (by rwa [Nat.add_assoc, Nat.add_comm 1]) (Nat.le_add_right _ _)
      fun place low high => passed place (by omega) (by omega)
    rw [resumption_passed (passed position (Nat.le_refl _) (by omega)), rest]
    omega

end TokenStream

namespace Parse

variable {context : ParseContext} {state next : ParseState} {stops : Token → Bool}
  {item : Parse Items} {nodes : Array Node}

/-! ## Items with recovery -/

/-- What `recoveringItems` repeats. -/
def recoveringStep (stops : Token → Bool) (item : Parse Items) (nodes : Array Node) :
    Parse (ForInStep (Array Node)) := do
  let token ← peek
  if token.isEndOfFile || stops token then return .done nodes
  else
    let start ← position
    let items := (← attempt item).getD { completed := false }
    if !items.completed then recoverFrom start
    return .yield (nodes ++ items.nodes)

theorem recoveringItems_eq (stops : Token → Bool) (item : Parse Items) :
    recoveringItems stops item = iterate #[] (recoveringStep stops item) :=
  rfl

theorem recoveringStep_stop
    (stopped : (context.tokens.get state.position).kind = .endOfFile ∨
      stops (context.tokens.get state.position) = true) :
    repeatFrom (recoveringStep stops item) nodes context state = .ok nodes state := by
  apply repeatFrom_done
  rcases stopped with ends | stopped
  · simp [recoveringStep, ends]
  · simp [recoveringStep, stopped]

theorem recoveringStep_item {more : Array Node}
    (notEnd : (context.tokens.get state.position).kind ≠ .endOfFile)
    (goesOn : stops (context.tokens.get state.position) = false)
    (read : item context state = .ok { nodes := more } next)
    (forward : state.position < next.position) :
    repeatFrom (recoveringStep stops item) nodes context state =
      repeatFrom (recoveringStep stops item) (nodes ++ more) context next := by
  refine repeatFrom_yield ?_ (ParseState.remaining_movedTo_lt notEnd forward)
  simp [recoveringStep, notEnd, goesOn, position, attempt, read]

/-- Behind an item that is not completed, what follows is read from where parsing resumes. -/
theorem recoveringStep_resumed {answer : Option Items} {more : Array Node}
    (notEnd : (context.tokens.get state.position).kind ≠ .endOfFile)
    (goesOn : stops (context.tokens.get state.position) = false)
    (tried : attempt item context state = .ok answer next)
    (incomplete : answer.getD { completed := false } = { nodes := more, completed := false })
    (forward : state.position < context.tokens.resumption next.position 0 next.position) :
    repeatFrom (recoveringStep stops item) nodes context state =
      repeatFrom (recoveringStep stops item) (nodes ++ more) context
        { next with
          position := context.tokens.resumption next.position 0 next.position
          panicking := false } := by
  have elsewhere : context.tokens.resumption next.position 0 next.position ≠ state.position := by
    omega
  refine repeatFrom_yield ?_ (ParseState.remaining_movedTo_lt notEnd forward)
  simp [recoveringStep, notEnd, goesOn, position, tried, incomplete, recoverFrom, synchronize,
    elsewhere]

theorem recoveringStep_dropped
    (notEnd : (context.tokens.get state.position).kind ≠ .endOfFile)
    (goesOn : stops (context.tokens.get state.position) = false)
    (gaveUp : item context state = .error .givenUp next)
    (forward : state.position < context.tokens.resumption next.position 0 next.position) :
    repeatFrom (recoveringStep stops item) nodes context state =
      repeatFrom (recoveringStep stops item) nodes context
        { next with
          position := context.tokens.resumption next.position 0 next.position
          panicking := false } := by
  have tried : attempt item context state = .ok none next := by simp [attempt, gaveUp]
  simpa using @recoveringStep_resumed _ _ _ stops item nodes _ _ notEnd goesOn tried rfl forward

theorem recoverFrom_total (start : Nat) (state : ParseState) :
    ∃ next, recoverFrom start context state = .ok () next := by
  have moves : synchronize context state = .ok ()
      { state with
        position := context.tokens.resumption state.position 0 state.position
        panicking := false } := rfl
  simp only [recoverFrom, bind_apply, moves, position]
  split
  · exact ⟨_, discard_apply _⟩
  · exact ⟨_, rfl⟩

/-- An item that is not completed is passed over: the loop goes on at every token that does not end it. -/
theorem recoveringStep_yields
    (notEnd : (context.tokens.get state.position).kind ≠ .endOfFile)
    (goesOn : stops (context.tokens.get state.position) = false) :
    ∃ more next, recoveringStep stops item nodes context state = .ok (.yield more) next := by
  have recovered : ∀ next : ParseState, ∃ last,
      recoverFrom state.position context next = .ok () last := recoverFrom_total _
  cases ran : item context state with
  | ok items next =>
    obtain ⟨last, recovered⟩ := recovered next
    cases completed : items.completed <;>
      simp [recoveringStep, notEnd, goesOn, position, attempt, ran, completed, recovered]
  | error reason next =>
    obtain ⟨last, recovered⟩ := recovered next
    simp [recoveringStep, notEnd, goesOn, position, attempt, ran, recovered]

end Parse

namespace Productions

open Parse

variable {deeper inner : Productions} {context : ParseContext} {state next : ParseState}
  {dialect : Dialect} {node : Node}

/-! ## Blocks -/

def endsBlock (token : Token) : Bool := token.isPunctuator .closeBrace

theorem blockIn_eq (inScope : Parse (Array Node) → Parse (Array Node)) (deeper : Productions) :
    blockIn inScope deeper = do
      let opening ← expectPunctuator .openBrace "'\x7b'"
      let items ← inScope (iterate #[] (recoveringStep endsBlock (blockItem deeper)))
      expectClosingBrace
      return .ofChildren .compound opening.location items.toList :=
  rfl

theorem block_of_items {nodes : Array Node}
    (opens : (context.tokens.get state.position).kind = .punctuator .openBrace)
    (read : repeatFrom (recoveringStep endsBlock (blockItem deeper)) #[] context
        ((state.rescoped state.scopes.enter).movedTo (state.position + 1)) = .ok nodes next)
    (closes : (context.tokens.get next.position).kind = .punctuator .closeBrace) :
    block deeper context state =
      .ok (.ofChildren .compound (context.tokens.get state.position).location nodes.toList)
        ((next.rescoped next.scopes.exit).movedTo (next.position + 1)) := by
  simp [block, blockIn_eq, opens, inNewScope_apply, read, expectClosingBrace, closes]

theorem functionBody_of_items {nodes : Array Node}
    (opens : (context.tokens.get state.position).kind = .punctuator .openBrace)
    (read : repeatFrom (recoveringStep endsBlock (blockItem deeper)) #[] context
        (state.movedTo (state.position + 1)) = .ok nodes next)
    (closes : (context.tokens.get next.position).kind = .punctuator .closeBrace) :
    functionBody deeper context state =
      .ok (.ofChildren .compound (context.tokens.get state.position).location nodes.toList)
        (next.movedTo (next.position + 1)) := by
  simp [functionBody, blockIn_eq, opens, read, expectClosingBrace, closes]

/-! ## Statements -/

theorem statementRule_block
    (opens : (context.tokens.get state.position).kind = .punctuator .openBrace) :
    statementRule deeper context state = block deeper context state := by
  have noAttributes : skipAttributes context state = .ok () state :=
    skipAttributes_none (by simp [opens, TokenKind.mayBeginAttribute])
  simp [statementRule, noAttributes, opens]

theorem statementRule_empty
    (isSemicolon : (context.tokens.get state.position).kind = .punctuator .semicolon) :
    statementRule deeper context state =
      .ok (.leaf .empty (context.tokens.get state.position).location .none)
        (state.movedTo (state.position + 1)) := by
  have noAttributes : skipAttributes context state = .ok () state :=
    skipAttributes_none (by simp [isSemicolon, TokenKind.mayBeginAttribute])
  simp [statementRule, noAttributes, emptyStatement, isSemicolon]

theorem statementRule_name
    (isName : (context.tokens.get state.position).kind = .identifier)
    (noLabel : (context.tokens.get (state.position + 1)).kind ≠ .punctuator .colon) :
    statementRule deeper context state = expressionStatement deeper context state := by
  have noAttributes : skipAttributes context state = .ok () state :=
    skipAttributes_none (by simp [isName, TokenKind.mayBeginAttribute])
  simp [statementRule, noAttributes, isName, atLabel, noLabel]

theorem expressionStatement_of_expression {stop : Nat}
    (read : deeper.expression context state = .ok node (state.movedTo stop))
    (ends : (context.tokens.get stop).kind = .punctuator .semicolon) :
    expressionStatement deeper context state =
      .ok (.ofChildren .expressionStatement (context.tokens.get state.position).location [node])
        (state.movedTo (stop + 1)) := by
  simp [expressionStatement, read, expectSemicolon, ends]

theorem expressionStatement_gaveUp (gaveUp : deeper.expression context state = .error .givenUp next) :
    expressionStatement deeper context state = .error .givenUp next := by
  simp [expressionStatement, gaveUp]

/-! ## Expressions without conditions, assignments and commas -/

theorem expression_of_binary (read : binary deeper context state = .ok node next)
    (ends : (context.tokens.get next.position).kind = .punctuator .semicolon) :
    (rules (rules deeper)).expression context state = .ok node next := by
  have assignment : Agrees False state.diagnostics
      ((rules (rules deeper)).assignment context state) (.ok node next) := by
    apply assignmentRule_plain
    · exact conditionalRule_plain (.inl read) (by simp [ends])
    · exact atAssignment?_none (by simp [ends])
  rw [(expression_of_assignment assignment).eq]
  exact commaStep_none (by simp [ends])

theorem expression_gaveUp (gaveUp : binary deeper context state = .error .givenUp next) :
    (rules (rules deeper)).expression context state = .error .givenUp next := by
  have conditional : conditionalRule deeper context state = .error .givenUp next := by
    simp [conditionalRule, gaveUp]
  have assignment : assignmentRule (rules deeper) context state = .error .givenUp next := by
    simp [assignmentRule, rules, conditional]
  have same : (rules (rules deeper)).assignment = assignmentRule (rules deeper) := rfl
  simp [expression_eq, same, assignment]

/-! ## A name as an operand -/

theorem castRule_of_name
    (isName : (context.tokens.get state.position).kind = .identifier) :
    castRule (rules deeper) context state = suffixed deeper context state := by
  rw [castRule_of_noType (by simp [atParenthesizedType_apply, isName])]
  exact unaryRule_suffixed (by simp [isName, TokenKind.precedesOperand])

theorem castRule_name
    (isName : (context.tokens.get state.position).kind = .identifier)
    (noType : context.language.isTypeName state.scopes.isTypedefName
      (context.tokens.get state.position).lexeme = false)
    (ends : (context.tokens.get (state.position + 1)).kind.extendsOperand = false) :
    castRule (rules deeper) context state =
      .ok (.named .identifier (context.tokens.get state.position).location
        (context.tokens.get state.position).lexeme) (state.movedTo (state.position + 1)) := by
  rw [castRule_of_name isName]
  simp only [suffixed, bind_apply, primary_identifier isName noType, withSuffixes, iterate_apply]
  exact addSuffix_none ends

theorem castRule_typeName (calm : state.panicking = false)
    (isName : (context.tokens.get state.position).kind = .identifier)
    (isType : context.language.isTypeName state.scopes.isTypedefName
      (context.tokens.get state.position).lexeme = true) :
    castRule (rules deeper) context state =
      .error .givenUp
        { state.reported (context.tokens.get state.position).location
            (.unexpectedTypeName (context.tokens.get state.position).lexeme) with
          panicking := true } := by
  rw [castRule_of_name isName]
  simp only [suffixed, bind_apply, primary, peek_apply, isName, name, isTypeName_apply, isType,
    if_true, giveUp_apply calm]
  rfl

end Productions

end CFrontEnd
