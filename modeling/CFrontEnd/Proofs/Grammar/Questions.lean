import CFrontEnd.Grammar.Start
import CFrontEnd.Proofs.Grammar.Operands

/-!
What is decided by the tokens ahead: whether attributes stand there, and whether a block item is a
declaration. Productions that only look have an answer and leave the state as it is, and some of their
answers tell of which kinds the tokens ahead are.
-/

namespace CFrontEnd

/-! ## What the tokens ahead decide -/

/-- The kinds of tokens that may begin an attribute. -/
def TokenKind.mayBeginAttribute : TokenKind → Bool
  | .keyword .attributeWord | .punctuator .openBracket => true
  | _ => false

theorem TokenKind.mayBeginAttribute_keyword {word : Keyword} (other : word ≠ .attributeWord) :
    (TokenKind.keyword word).mayBeginAttribute = false := by
  cases word <;> first | rfl | contradiction

theorem TokenKind.mayBeginAttribute_punctuator {punctuator : Punctuator}
    (other : punctuator ≠ .openBracket) :
    (TokenKind.punctuator punctuator).mayBeginAttribute = false := by
  cases punctuator <;> first | rfl | contradiction

namespace TokenStream

variable {stream : TokenStream} {position : Nat}

theorem startsBrackets_false
    (other : (stream.get position).kind ≠ .punctuator .openBracket) :
    stream.startsBrackets position = false := by
  simp [startsBrackets, other]

theorem afterAttributes_same
    (other : (stream.get position).kind.mayBeginAttribute = false) :
    stream.afterAttributes position = position := by
  have noWord : (stream.get position).kind ≠ .keyword .attributeWord := by
    intro same
    simp [same, TokenKind.mayBeginAttribute] at other
  have noBracket : (stream.get position).kind ≠ .punctuator .openBracket := by
    intro same
    simp [same, TokenKind.mayBeginAttribute] at other
  rw [afterAttributes]
  simp [noWord, startsBrackets_false noBracket]

theorem afterExtensions_same
    (other : (stream.get position).kind ≠ .keyword .extensionWord) :
    stream.afterExtensions position = position := by
  rw [afterExtensions]
  by_cases inside : position < stream.body.size
  · have here : stream.get position = stream.body[position] := by simp [get, inside]
    rw [here] at other
    simp [inside, other]
  · simp [inside]

/-- Where nothing is passed over, the first token decides. -/
theorem afterAttributes_afterExtensions
    (noExtension : (stream.get position).kind ≠ .keyword .extensionWord)
    (noAttribute : (stream.get position).kind.mayBeginAttribute = false) :
    stream.afterAttributes (stream.afterExtensions position) = position := by
  rw [afterExtensions_same noExtension, afterAttributes_same noAttribute]

end TokenStream

namespace Parse

variable {context : ParseContext} {state : ParseState}

@[simp] theorem atBrackets_apply :
    atBrackets context state = .ok (context.tokens.startsBrackets state.position) state := rfl

theorem skipAttributes_none
    (other : (context.tokens.get state.position).kind.mayBeginAttribute = false) :
    skipAttributes context state = .ok () state := by
  have noWord : (context.tokens.get state.position).kind ≠ .keyword .attributeWord := by
    intro same
    simp [same, TokenKind.mayBeginAttribute] at other
  have noBracket : (context.tokens.get state.position).kind ≠ .punctuator .openBracket := by
    intro same
    simp [same, TokenKind.mayBeginAttribute] at other
  exact repeatFrom_done (by simp [noWord, TokenStream.startsBrackets_false noBracket])

theorem skipExtensions_none
    (other : (context.tokens.get state.position).kind ≠ .keyword .extensionWord) :
    skipExtensions context state = .ok () state :=
  repeatFrom_done (by simp [other])

/-- A word decides on its own whether a block item is a declaration. -/
theorem startsDeclaration_keyword {word : Keyword}
    (isWord : (context.tokens.get state.position).kind = .keyword word)
    (noExtension : word ≠ .extensionWord) (noAttribute : word ≠ .attributeWord) :
    startsDeclaration context state = .ok word.beginsDeclaration state := by
  have place := @TokenStream.afterAttributes_afterExtensions context.tokens state.position
    (by simpa [isWord] using noExtension)
    (by rw [isWord, TokenKind.mayBeginAttribute_keyword noAttribute])
  simp [startsDeclaration, place, isWord]

/-- A name begins a declaration if it names a type and is no label. -/
theorem startsDeclaration_name
    (isName : (context.tokens.get state.position).kind = .identifier)
    (noLabel : (context.tokens.get (state.position + 1)).kind ≠ .punctuator .colon) :
    startsDeclaration context state =
      .ok (context.language.isTypeName state.scopes.isTypedefName
        (context.tokens.get state.position).lexeme) state := by
  have place := @TokenStream.afterAttributes_afterExtensions context.tokens state.position
    (by simp [isName]) (by simp [isName, TokenKind.mayBeginAttribute])
  simp [startsDeclaration, place, isName, noLabel]

/-- A name with a colon behind it is a label. -/
theorem startsDeclaration_label
    (isName : (context.tokens.get state.position).kind = .identifier)
    (colon : (context.tokens.get (state.position + 1)).kind = .punctuator .colon) :
    startsDeclaration context state = .ok false state := by
  have place := @TokenStream.afterAttributes_afterExtensions context.tokens state.position
    (by simp [isName]) (by simp [isName, TokenKind.mayBeginAttribute])
  simp [startsDeclaration, place, isName, colon]

theorem startsDeclaration_literal {kind : LiteralKind}
    (isLiteral : (context.tokens.get state.position).kind = .literal kind) :
    startsDeclaration context state = .ok false state := by
  have place := @TokenStream.afterAttributes_afterExtensions context.tokens state.position
    (by simp [isLiteral]) (by simp [isLiteral, TokenKind.mayBeginAttribute])
  simp [startsDeclaration, place, isLiteral]

theorem startsDeclaration_punctuator {punctuator : Punctuator}
    (isPunctuator : (context.tokens.get state.position).kind = .punctuator punctuator)
    (noBracket : punctuator ≠ .openBracket) :
    startsDeclaration context state = .ok false state := by
  have place := @TokenStream.afterAttributes_afterExtensions context.tokens state.position
    (by simp [isPunctuator])
    (by rw [isPunctuator, TokenKind.mayBeginAttribute_punctuator noBracket])
  simp [startsDeclaration, place, isPunctuator]

end Parse

/-- The kinds are those of the tokens from `position` on. -/
def TokenStream.Shows (stream : TokenStream) : Nat → List TokenKind → Prop
  | _, [] => True
  | position, kind :: kinds => (stream.get position).kind = kind ∧ stream.Shows (position + 1) kinds

namespace Parse

open Productions

variable {α β : Type} {production : Parse α} {continuation : α → Parse β}

theorem discard_bind (production : Parse α) (continuation : Unit → Parse β) :
    (discard production >>= continuation) = production >>= fun _ => continuation () := by
  change (Function.const α () <$> production) >>= continuation = _
  rw [bind_map_left]

/-! ## Questions -/

/-- The production has a result and leaves the state as it is. -/
def Asks (production : Parse α) : Prop :=
  ∀ context state, ∃ value, production context state = .ok value state

theorem asks_pure {value : α} : Asks (pure value : Parse α) := fun _ _ => ⟨value, rfl⟩

theorem Asks.bind (asks : Asks production) (rest : ∀ value, Asks (continuation value)) :
    Asks (production >>= continuation) := by
  intro context state
  obtain ⟨value, run⟩ := asks context state
  obtain ⟨answer, answered⟩ := rest value context state
  exact ⟨answer, by rw [bind_apply, run]; exact answered⟩

theorem asks_ite {condition : Prop} [Decidable condition] {other : Parse α}
    (holds : Asks production) (fails : Asks other) :
    Asks (if condition then production else other) := by
  split
  · exact holds
  · exact fails

theorem asks_peek : Asks peek := fun _ _ => ⟨_, rfl⟩

theorem asks_peekAhead {distance : Nat} : Asks (peekAhead distance) := fun _ _ => ⟨_, rfl⟩

theorem asks_location : Asks location := fun _ _ => ⟨_, rfl⟩

theorem asks_scopes : Asks scopes := fun _ _ => ⟨_, rfl⟩

theorem asks_isGnu : Asks isGnu := fun _ _ => ⟨_, rfl⟩

theorem asks_afterC89 : Asks afterC89 := fun _ _ => ⟨_, rfl⟩

theorem asks_isTypeName {name : String} : Asks (isTypeName name) := fun _ _ => ⟨_, rfl⟩

theorem asks_startsDeclaration : Asks startsDeclaration := fun _ _ => ⟨_, rfl⟩

theorem asks_isTypeStart {token : Token} : Asks (isTypeStart token) :=
  fun _ _ => ⟨_, isTypeStart_apply token⟩

theorem asks_atPunctuator {punctuator : Punctuator} : Asks (atPunctuator punctuator) :=
  asks_peek.bind fun _ => asks_pure

theorem asks_atBrackets : Asks atBrackets := fun _ _ => ⟨_, rfl⟩

theorem asks_atOldStyleParameters : Asks atOldStyleParameters :=
  asks_peek.bind fun _ => asks_peekAhead.bind fun _ =>
    asks_ite (asks_isTypeName.bind fun _ => asks_pure) asks_pure

theorem asks_enclosesDeclarator {form : DeclaratorForm} {token : Token} :
    Asks (enclosesDeclarator form token) := by
  refine asks_ite asks_pure ?_
  split
  · exact asks_pure
  · exact asks_pure
  · exact asks_pure
  · exact asks_pure
  · exact asks_ite (asks_isTypeName.bind fun _ => asks_pure) asks_pure
  · exact asks_pure

/-! ## Tests of the tokens ahead -/

/-- Where the answer is yes, the tokens ahead are of these kinds. -/
def Sees (kinds : List TokenKind) (test : Parse Bool) : Prop :=
  ∀ context state, ∃ answer, test context state = .ok answer state ∧
    (answer = true → context.tokens.Shows state.position kinds)

/-- An answer is found only at an operator. -/
def Finds (ask : Parse (Option α)) : Prop :=
  ∀ context state, ∃ answer, ask context state = .ok answer state ∧
    (answer.isSome → ∃ operator, (context.tokens.get state.position).kind = .operator operator)

theorem sees_of_kind {kind : TokenKind} {test : Parse Bool}
    (run : ∀ context state, test context state =
      .ok (decide ((context.tokens.get state.position).kind = kind)) state) : Sees [kind] test :=
  fun context state => ⟨_, run context state, fun same => ⟨of_decide_eq_true same, trivial⟩⟩

theorem sees_atPunctuator {punctuator : Punctuator} :
    Sees [.punctuator punctuator] (atPunctuator punctuator) :=
  sees_of_kind fun _ _ => atPunctuator_apply punctuator

theorem sees_atKeyword {word : Keyword} : Sees [.keyword word] (atKeyword word) :=
  sees_of_kind fun _ _ => atKeyword_apply word

theorem sees_atBrackets :
    Sees [.punctuator .openBracket, .punctuator .openBracket] atBrackets := by
  intro context state
  refine ⟨_, atBrackets_apply, fun starts => ?_⟩
  simpa [TokenStream.startsBrackets, TokenStream.Shows] using starts

/-- The star and the bracket behind it are seen before the star is used up. -/
theorem sees_atOpenLength : Sees [.operator .star] atOpenLength := by
  intro context state
  by_cases star : (context.tokens.get state.position).kind = .operator .star
  · exact ⟨decide ((context.tokens.get (state.position + 1)).kind = .punctuator .closeBracket),
      by simp [atOpenLength, star], fun _ => ⟨star, trivial⟩⟩
  · exact ⟨false, by simp [atOpenLength, star], by simp⟩

theorem sees_atEnclosedDeclarator {form : DeclaratorForm} :
    Sees [.punctuator .openParen] (atEnclosedDeclarator form) := by
  intro context state
  by_cases opens : (context.tokens.get state.position).kind = .punctuator .openParen
  · obtain ⟨answer, run⟩ : ∃ answer, enclosesDeclarator form
        (context.tokens.get (state.position + 1)) context state = .ok answer state :=
      asks_enclosesDeclarator context state
    exact ⟨answer, by simp [atEnclosedDeclarator, opens, run], fun _ => ⟨opens, trivial⟩⟩
  · exact ⟨false, by simp [atEnclosedDeclarator, opens], by simp⟩

theorem sees_atParenthesizedType : Sees [.punctuator .openParen] atParenthesizedType := by
  intro context state
  refine ⟨_, atParenthesizedType_apply, fun answer => ?_⟩
  rw [Bool.and_eq_true, decide_eq_true_eq] at answer
  exact ⟨answer.1, trivial⟩

theorem sees_atLabelAddress : Sees [.operator .logicalAnd, .identifier] atLabelAddress := by
  intro context state
  by_cases symbol : (context.tokens.get state.position).kind = .operator .logicalAnd
  · refine ⟨context.dialect.gnu &&
      decide ((context.tokens.get (state.position + 1)).kind = .identifier), ?_, fun answer => ?_⟩
    · cases gnu : context.dialect.gnu <;> simp [atLabelAddress, symbol, gnu]
    · rw [Bool.and_eq_true, decide_eq_true_eq] at answer
      exact ⟨symbol, answer.2, trivial⟩
  · exact ⟨false, by simp [atLabelAddress, symbol], by simp⟩

theorem sees_atColonDesignator : Sees [.identifier, .punctuator .colon] atColonDesignator := by
  intro context state
  by_cases isName : (context.tokens.get state.position).kind = .identifier
  · refine ⟨context.dialect.gnu &&
      decide ((context.tokens.get (state.position + 1)).kind = .punctuator .colon), ?_,
      fun answer => ?_⟩
    · cases gnu : context.dialect.gnu <;> simp [atColonDesignator, isName, gnu]
    · rw [Bool.and_eq_true, decide_eq_true_eq] at answer
      exact ⟨isName, answer.2, trivial⟩
  · exact ⟨false, by simp [atColonDesignator, isName], by simp⟩

theorem sees_atLabel : Sees [.identifier, .punctuator .colon] atLabel := by
  intro context state
  by_cases isName : (context.tokens.get state.position).kind = .identifier
  · exact ⟨decide ((context.tokens.get (state.position + 1)).kind = .punctuator .colon),
      by simp [atLabel, isName], fun colon => ⟨isName, of_decide_eq_true colon, trivial⟩⟩
  · exact ⟨false, by simp [atLabel, isName], by simp⟩

theorem finds_atAssignment? : Finds atAssignment? := by
  intro context state
  refine ⟨_, rfl, fun isSome => ?_⟩
  split at isSome
  · rename_i operator kind
    exact ⟨operator, kind⟩
  · cases isSome

theorem finds_atBinary? {least : Nat} : Finds (atBinary? least) := by
  intro context state
  refine ⟨_, rfl, fun isSome => ?_⟩
  split at isSome
  · rename_i operator kind
    exact ⟨operator, kind⟩
  · cases isSome

end Parse

end CFrontEnd
