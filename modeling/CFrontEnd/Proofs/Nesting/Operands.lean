import CFrontEnd.Proofs.Expression.Forms
import CFrontEnd.Proofs.Grammar.Words

/-!
Operands in parentheses and behind minus signs, and how many levels it takes to read them: a pair of
parentheses takes one for each kind of expression between the cast that it is and the one inside it, a
minus sign takes one for itself and one for what it stands in front of. With fewer levels the operand is
given up somewhere inside of it.
-/

namespace CFrontEnd

/-! ## Words and trees -/

/-- What may stand in front of an operand and leaves it one. -/
inductive Opening
  | parenthesis
  | minus
  deriving DecidableEq, Repr

namespace Opening

def word : Opening → Word
  | .parenthesis => .openParen
  | .minus => .operator .minus "-"

/-- `1` behind the openings, with all parentheses closed. -/
def operandWords (openings : List Opening) : List Word :=
  openings.map word ++
    Word.integer 1 {} :: List.replicate (openings.count .parenthesis) Word.closeParen

theorem operandWords_parenthesis (openings : List Opening) :
    operandWords (.parenthesis :: openings) =
      Word.openParen :: (operandWords openings ++ [Word.closeParen]) := by
  simp [operandWords, word, List.replicate_succ']

theorem operandWords_minus (openings : List Opening) :
    operandWords (.minus :: openings) = Word.operator .minus "-" :: operandWords openings := by
  simp [operandWords, word]

/-- An operand begins no type and no block. -/
theorem operandWords_begins (openings : List Opening) :
    ∃ word rest, operandWords openings = word :: rest ∧
      (word.kind = .punctuator .openParen ∨ word.kind = .operator .minus ∨
        word.kind = .literal .integer) := by
  cases openings with
  | nil => exact ⟨_, _, rfl, .inr (.inr rfl)⟩
  | cons opening rest =>
    cases opening with
    | parenthesis => exact ⟨_, _, operandWords_parenthesis rest, .inl rfl⟩
    | minus => exact ⟨_, _, operandWords_minus rest, .inr (.inl rfl)⟩

/-- How many levels it takes to read the operand as a cast. -/
def castLevels (openings : List Opening) : Nat :=
  2 + 4 * openings.count .parenthesis + 2 * openings.count .minus

end Opening

/-- `1` behind so many minus signs. -/
def Node.negatedOne (place : SourceLocation) : Nat → Node
  | 0 => .leaf .integerLiteral place (.literal (.integer 1 {}))
  | signs + 1 => .ofChildren (.unary .minus) place [negatedOne place signs]

/-! ## Too few levels -/

/-- The state of a production that gives up here because no further level is left. -/
def ParseState.outOfLevels (context : ParseContext) (state : ParseState) : ParseState :=
  { state with
    diagnostics := state.diagnostics.report .grammatical
      (context.tokens.get state.position).location GrammarProblem.nestedTooDeeply.message
    panicking := true }

@[simp] theorem ParseState.position_outOfLevels (context : ParseContext) (state : ParseState) :
    (state.outOfLevels context).position = state.position :=
  rfl

open Productions Parse

section

variable {context : ParseContext} {state : ParseState} {need stop start : Nat} {tree : Node}
  {dialect : Dialect} {outer inner : Productions → Parse Node}

theorem Productions.tooDeep_apply {α : Type} (calm : state.panicking = false) :
    (tooDeep : Parse α) context state = .error .givenUp (state.outOfLevels context) := by
  rw [tooDeep_eq_giveUp, giveUp_apply calm]
  rfl

/-- With fewer than `need` levels the production gives up in front of `stop`, and nests too deeply. -/
def GivesUpBelow (production : Productions → Parse Node) (context : ParseContext) (state : ParseState)
    (need stop : Nat) : Prop :=
  ∀ levels < need, ∃ place, state.position ≤ place ∧ place < stop ∧
    production (ofLevels levels) context state =
      .error .givenUp ((state.movedTo place).outOfLevels context)

/-- It takes exactly `need` levels to read the tree up to `stop`. -/
structure Takes (production : Productions → Parse Node) (context : ParseContext) (state : ParseState)
    (need stop : Nat) (tree : Node) : Prop where
  reads : ReadsAs production context state need stop tree
  givesUp : GivesUpBelow production context state need stop

/-- What gives up wherever a part behind its beginning does takes one level more than the part. -/
theorem GivesUpBelow.outward (calm : state.panicking = false)
    (exhausted : outer (ofLevels 0) = tooDeep) (forward : state.position ≤ start)
    (inside : start < stop)
    (relays : ∀ levels after,
      inner (ofLevels levels) context (state.movedTo start) = .error .givenUp after →
      outer (ofLevels (levels + 1)) context state = .error .givenUp after)
    (givesUp : GivesUpBelow inner context (state.movedTo start) need stop) :
    GivesUpBelow outer context state (need + 1) stop := by
  intro levels few
  cases levels with
  | zero => exact ⟨state.position, Nat.le_refl _, by omega, by rw [exhausted, tooDeep_apply calm]; rfl⟩
  | succ levels =>
    obtain ⟨place, low, high, gaveUp⟩ := givesUp levels (by omega)
    exact ⟨place, Nat.le_trans forward low, high, relays levels _ gaveUp⟩

theorem GivesUpBelow.later {further : Nat} (givesUp : GivesUpBelow outer context state need stop)
    (behind : stop ≤ further) : GivesUpBelow outer context state need further := by
  intro levels few
  obtain ⟨place, low, high, gaveUp⟩ := givesUp levels few
  exact ⟨place, low, Nat.lt_of_lt_of_le high behind, gaveUp⟩

namespace Takes

/-! ## From one kind of expression to the next -/

theorem cast (takes : Takes Productions.unary context state need stop tree)
    (noType : atParenthesizedType context state = .ok false state) (calm : state.panicking = false)
    (inside : state.position < stop) :
    Takes Productions.cast context state (need + 1) stop tree := by
  refine ⟨takes.reads.cast noType, takes.givesUp.outward calm rfl (Nat.le_refl _) inside ?_⟩
  intro levels after gaveUp
  exact (castRule_of_noType noType).trans gaveUp

theorem conditional (takes : Takes Productions.cast context state need stop tree)
    (isC : context.language = cLanguage dialect) (calm : state.panicking = false)
    (inside : state.position < stop)
    (ends : (context.tokens.get stop).kind.endsExpression = true) :
    Takes Productions.conditional context state (need + 1) stop tree := by
  refine ⟨takes.reads.conditional isC (TokenKind.binaryBelow_of_endsExpression ends 3)
      (TokenKind.notOperator_of_endsExpression ends .question),
    takes.givesUp.outward calm rfl (Nat.le_refl _) inside ?_⟩
  intro levels after gaveUp
  have operands : ∀ steps, binaryWithin (ofLevels levels) steps Precedence.logicalOr.level context
      state = .error .givenUp after := by
    intro steps
    cases steps with
    | zero => exact gaveUp
    | succ steps =>
      have gaveUpHere : (ofLevels levels).cast context state = .error .givenUp after := gaveUp
      simp [binaryWithin, gaveUpHere]
  change conditionalRule (ofLevels levels) context state = _
  simp [conditionalRule, binary, operands]

theorem assignment (takes : Takes Productions.conditional context state need stop tree)
    (calm : state.panicking = false) (inside : state.position < stop)
    (ends : (context.tokens.get stop).kind.endsExpression = true) :
    Takes Productions.assignment context state (need + 1) stop tree := by
  refine ⟨takes.reads.assignment ends, takes.givesUp.outward calm rfl (Nat.le_refl _) inside ?_⟩
  intro levels after gaveUp
  have gaveUpHere : (ofLevels levels).conditional context state = .error .givenUp after := gaveUp
  change assignmentRule (ofLevels levels) context state = _
  simp [assignmentRule, gaveUpHere]

theorem expression (takes : Takes Productions.assignment context state need stop tree)
    (noComma : (context.tokens.get stop).kind ≠ .punctuator .comma) :
    Takes Productions.expression context state need stop tree := by
  refine ⟨takes.reads.expression noComma, fun levels few => ?_⟩
  obtain ⟨place, low, high, gaveUp⟩ := takes.givesUp levels few
  refine ⟨place, low, high, ?_⟩
  simp [Productions.expression, gaveUp]

/-! ## Forms of operands -/

theorem one (isOne : (context.tokens.get state.position).word = Word.integer 1 {})
    (calm : state.panicking = false)
    (ends : (context.tokens.get (state.position + 1)).kind.extendsOperand = false)
    (noType : atParenthesizedType context state = .ok false state) (spot : SourceLocation) :
    Takes Productions.unary context state 1 (state.position + 1) (.negatedOne spot 0) := by
  have isInteger : (context.tokens.get state.position).kind = .literal .integer :=
    congrArg Word.kind isOne
  have isValue : (context.tokens.get state.position).value = some (.integer 1 {}) :=
    congrArg Word.value isOne
  have starts : StartsOperand context state :=
    ⟨.inr (.inl isInteger), by simp [beginsTypeName, isInteger], noType⟩
  constructor
  · exact (ReadsOperand.integer isInteger isValue).unary starts ends
  · intro levels few
    obtain rfl : levels = 0 := by omega
    exact ⟨state.position, Nat.le_refl _, Nat.lt_succ_self _, tooDeep_apply calm⟩

theorem minus {signs : Nat}
    (symbol : (context.tokens.get state.position).kind = .operator .minus)
    (calm : state.panicking = false) (inside : state.position + 1 < stop) (spot : SourceLocation)
    (takes : Takes Productions.cast context (state.movedTo (state.position + 1)) need stop
      (.negatedOne spot signs)) :
    Takes Productions.unary context state (need + 1) stop (.negatedOne spot (signs + 1)) := by
  have notEnd : (context.tokens.get state.position).kind ≠ .endOfFile := by simp [symbol]
  have isApplied (levels : Nat) : (ofLevels (levels + 1)).unary context state =
      applied .minus (ofLevels levels).cast context state :=
    unaryRule_castOperator symbol rfl
  constructor
  · intro levels enough
    obtain ⟨levels, rfl⟩ : ∃ fewer, levels = fewer + 1 := ⟨levels - 1, by omega⟩
    obtain ⟨node, same, read⟩ := takes.reads levels (by omega)
    have whole : Agrees False .empty (applied .minus (ofLevels levels).cast context state) _ :=
      applied_agrees notEnd (.inl read)
    refine ⟨_, ?_, (isApplied levels).trans whole.eq⟩
    simp [Node.negatedOne, Node.ofChildren, Node.sameShape, Node.sameShapes, same]
  · refine takes.givesUp.outward calm rfl (Nat.le_succ _) inside ?_
    intro levels after gaveUp
    rw [isApplied]
    simp [applied, notEnd, gaveUp]

theorem parenthesized
    (opens : (context.tokens.get state.position).kind = .punctuator .openParen)
    (noBlock : (context.tokens.get (state.position + 1)).kind ≠ .punctuator .openBrace)
    (noTypeName : beginsTypeName context state (context.tokens.get state.position) = false)
    (noType : atParenthesizedType context state = .ok false state)
    (closes : (context.tokens.get stop).kind = .punctuator .closeParen)
    (ends : (context.tokens.get (stop + 1)).kind.extendsOperand = false)
    (calm : state.panicking = false) (inside : state.position + 1 < stop)
    (takes : Takes Productions.expression context (state.movedTo (state.position + 1)) need stop
      tree) :
    Takes Productions.unary context state (need + 1) (stop + 1) tree := by
  have starts : StartsOperand context state := ⟨.inr (.inr opens), noTypeName, noType⟩
  refine ⟨(ReadsOperand.parenthesized opens noBlock takes.reads closes).unary starts ends,
    (takes.givesUp.later (Nat.le_succ stop)).outward calm rfl (Nat.le_succ _) (by omega) ?_⟩
  intro levels after gaveUp
  have isSuffixed : (ofLevels (levels + 1)).unary context state =
      suffixed (ofLevels levels) context state := unaryRule_suffixed starts.notPrefix
  rw [isSuffixed]
  simp [suffixed, primary, Productions.parenthesized, opens, noBlock, gaveUp]

end Takes

/-! ## Openings of any kind -/

/-- Where the words of an operand stand, and what may follow them there. -/
structure AtOperand (context : ParseContext) (state : ParseState) (openings : List Opening) :
    Prop where
  words : context.tokens.HasWordsAt state.position (Opening.operandWords openings)
  calm : state.panicking = false
  ends : (context.tokens.get
    (state.position + (Opening.operandWords openings).length)).kind.endsExpression = true

namespace AtOperand

variable {openings : List Opening}

theorem kind (operand : AtOperand context state openings) :
    (context.tokens.get state.position).kind = .punctuator .openParen ∨
      (context.tokens.get state.position).kind = .operator .minus ∨
      (context.tokens.get state.position).kind = .literal .integer := by
  obtain ⟨word, rest, begins, kind⟩ := Opening.operandWords_begins openings
  have words := operand.words
  rw [begins] at words
  have same : (context.tokens.get state.position).kind = word.kind := congrArg Word.kind words.1
  rwa [same]

theorem noTypeName (operand : AtOperand context state openings) (other : ParseState) :
    beginsTypeName context other (context.tokens.get state.position) = false := by
  rcases operand.kind with kind | kind | kind <;> simp [beginsTypeName, kind]

theorem inside (openings : List Opening) (position : Nat) :
    position < position + (Opening.operandWords openings).length := by
  obtain ⟨word, rest, begins, _⟩ := Opening.operandWords_begins openings
  rw [begins, List.length_cons]
  omega

theorem parenthesis (operand : AtOperand context state (.parenthesis :: openings)) :
    (context.tokens.get state.position).kind = .punctuator .openParen ∧
      AtOperand context (state.movedTo (state.position + 1)) openings ∧
      (context.tokens.get
        (state.position + 1 + (Opening.operandWords openings).length)).kind =
          .punctuator .closeParen := by
  have words := operand.words
  rw [Opening.operandWords_parenthesis, TokenStream.hasWordsAt_cons, TokenStream.hasWordsAt_append,
    TokenStream.hasWordsAt_cons] at words
  obtain ⟨opens, inner, closes, _⟩ := words
  have isClosing : (context.tokens.get
      (state.position + 1 + (Opening.operandWords openings).length)).kind =
        .punctuator .closeParen := congrArg Word.kind closes
  refine ⟨congrArg Word.kind opens, ⟨inner, operand.calm, ?_⟩, isClosing⟩
  rw [ParseState.position_movedTo, isClosing]
  rfl

theorem minus (operand : AtOperand context state (.minus :: openings)) :
    (context.tokens.get state.position).kind = .operator .minus ∧
      AtOperand context (state.movedTo (state.position + 1)) openings := by
  have words := operand.words
  have ends := operand.ends
  rw [Opening.operandWords_minus] at words ends
  refine ⟨congrArg Word.kind words.1, words.2, operand.calm, ?_⟩
  rwa [ParseState.position_movedTo, Nat.add_assoc, Nat.add_comm 1]

theorem noType (operand : AtOperand context state openings) :
    atParenthesizedType context state = .ok false state := by
  rw [atParenthesizedType_apply]
  cases openings with
  | nil =>
    have isOne : (context.tokens.get state.position).kind = .literal .integer :=
      congrArg Word.kind operand.words.1
    simp [isOne]
  | cons opening rest =>
    cases opening with
    | parenthesis =>
      have noTypeName := operand.parenthesis.2.1.noTypeName state
      rw [ParseState.position_movedTo] at noTypeName
      simp [noTypeName]
    | minus => simp [operand.minus.1]

end AtOperand

/-- An operand takes as many levels as its openings add up to. -/
theorem AtOperand.takes (isC : context.language = cLanguage dialect) (spot : SourceLocation)
    {openings : List Opening} (operand : AtOperand context state openings) :
    Takes Productions.cast context state (Opening.castLevels openings)
      (state.position + (Opening.operandWords openings).length)
      (.negatedOne spot (openings.count .minus)) := by
  induction openings generalizing state with
  | nil =>
    have ends := TokenKind.extendsOperand_of_endsExpression operand.ends
    exact (Takes.one operand.words.1 operand.calm ends operand.noType spot).cast operand.noType
      operand.calm (Nat.lt_succ_self _)
  | cons opening rest ih =>
    have front := AtOperand.inside rest (state.position + 1)
    cases opening with
    | minus =>
      obtain ⟨symbol, inner⟩ := operand.minus
      have length : state.position + (Opening.operandWords (.minus :: rest)).length =
          state.position + 1 + (Opening.operandWords rest).length := by
        rw [Opening.operandWords_minus, List.length_cons]
        omega
      have levels : Opening.castLevels (.minus :: rest) = Opening.castLevels rest + 1 + 1 := by
        simp [Opening.castLevels]
        omega
      rw [length, levels, List.count_cons_self]
      exact (Takes.minus symbol operand.calm front spot (ih inner)).cast operand.noType operand.calm
        (by omega)
    | parenthesis =>
      obtain ⟨opens, inner, closes⟩ := operand.parenthesis
      have length : state.position + (Opening.operandWords (.parenthesis :: rest)).length =
          state.position + 1 + (Opening.operandWords rest).length + 1 := by
        rw [Opening.operandWords_parenthesis, length_enclosed]
      have levels : Opening.castLevels (.parenthesis :: rest) =
          Opening.castLevels rest + 1 + 1 + 1 + 1 := by
        simp [Opening.castLevels]
        omega
      have signs : (Opening.parenthesis :: rest).count .minus = rest.count .minus :=
        List.count_cons_of_ne (by decide)
      have ends := TokenKind.extendsOperand_of_endsExpression operand.ends
      rw [length] at ends
      have noBlock : (context.tokens.get (state.position + 1)).kind ≠ .punctuator .openBrace := by
        rcases inner.kind with kind | kind | kind <;>
          rw [ParseState.position_movedTo] at kind <;> simp [kind]
      -- Inside of the parentheses an expression is read, which may be any.
      have whole := ((ih inner).conditional isC inner.calm front inner.ends).assignment inner.calm
        front inner.ends
      rw [length, levels, signs]
      exact ((whole.expression (by simp [closes])).parenthesized opens noBlock
        (operand.noTypeName state) operand.noType closes ends operand.calm front).cast operand.noType
          operand.calm (by omega)

/-- The same operand as an initial value takes two levels more. -/
theorem AtOperand.assignment (isC : context.language = cLanguage dialect) (spot : SourceLocation)
    {openings : List Opening} (operand : AtOperand context state openings) :
    Takes Productions.assignment context state (Opening.castLevels openings + 2)
      (state.position + (Opening.operandWords openings).length)
      (.negatedOne spot (openings.count .minus)) :=
  ((operand.takes isC spot).conditional isC operand.calm (inside _ _) operand.ends).assignment
    operand.calm (inside _ _) operand.ends

end

end CFrontEnd
