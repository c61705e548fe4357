import CFrontEnd.Proofs.Grammar.Declarations
import CFrontEnd.Proofs.Tree.Shapes
import CFrontEnd.Proofs.Grammar.Nesting

/-!
Declarators read part by part, from the name outward. Each part is one step from the type of the whole
to the type in front, and each pair of parentheses around a declarator takes one level.
-/

namespace CFrontEnd

/-! ## Steps of types -/

/-- The derivations make of each type the type that `around` makes of it, but for places. -/
def DerivesType (derivations : List TypeDerivation) (around : Node → Node) : Prop :=
  ∀ base tree : Node, base.sameShape tree = true →
    (derivations.foldr TypeDerivation.apply base).sameShape (around tree) = true

namespace DerivesType

variable {first second : List TypeDerivation} {around inside : Node → Node}
  {spot inner place : SourceLocation}

theorem nil : DerivesType [] id :=
  fun _ _ same => same

theorem append (outer : DerivesType first around) (rest : DerivesType second inside) :
    DerivesType (first ++ second) (fun tree => around (inside tree)) := by
  intro base tree same
  rw [List.foldr_append]
  exact outer _ _ (rest base tree same)

theorem pointer :
    DerivesType [.pointer place {}] (fun tree => ⟨.pointerType, spot, .none, [tree]⟩) := by
  intro base tree same
  simp [TypeDerivation.apply, Qualifiers.apply, Qualifiers.isEmpty, Qualifiers.words,
    Node.ofChildren, Node.sameShape, Node.sameShapes, same]

theorem qualifiedPointer {qualifiers : Qualifiers} (someQualifiers : qualifiers.isEmpty = false) :
    DerivesType [.pointer place qualifiers] (fun tree =>
      ⟨.qualifiedType, spot, .qualifiers qualifiers, [⟨.pointerType, inner, .none, [tree]⟩]⟩) := by
  intro base tree same
  simp [TypeDerivation.apply, Qualifiers.apply, someQualifiers, Node.ofChildren, Node.sameShape,
    Node.sameShapes, same]

theorem array {length size : Option Node}
    (sameLength : Node.sameShapes length.toList size.toList = true) :
    DerivesType [.array place {} false false length]
      (fun tree => ⟨.arrayType, spot, .array {} false false, tree :: size.toList⟩) := by
  intro base tree same
  simp [TypeDerivation.apply, Node.sameShape, Node.sameShapes, same, sameLength]

theorem function {nodes trees : List Node} {isVariadic isPrototyped : Bool}
    (sameParameters : Node.sameShapes nodes trees = true) :
    DerivesType [.function place nodes isVariadic isPrototyped]
      (fun tree => ⟨.functionType, spot, .functionType isVariadic isPrototyped, tree :: trees⟩) := by
  intro base tree same
  simp [TypeDerivation.apply, Node.sameShape, Node.sameShapes, same, sameParameters]

end DerivesType

/-! ## What stands behind -/

def TokenKind.endsDeclarator : TokenKind → Bool
  | .punctuator .closeParen | .punctuator .comma | .punctuator .semicolon | .endOfFile => true
  | _ => false

/-- The kinds of tokens that begin a list of parameters and no declarator in parentheses. -/
def TokenKind.beginsParameters : TokenKind → Bool
  | .punctuator .closeParen | .punctuator .ellipsis => true
  | .keyword word => word != .attributeWord
  | _ => false

/-- What may stand behind a declarator, or behind the part of one that an array or a function is made
of. -/
inductive TokenStream.FollowsDeclarator (stream : TokenStream) (place : Nat) : Prop
  | ends (isEnd : (stream.get place).kind.endsDeclarator = true)
  | array (opens : (stream.get place).kind = .punctuator .openBracket)
      (single : (stream.get (place + 1)).kind ≠ .punctuator .openBracket)
  | function (opens : (stream.get place).kind = .punctuator .openParen)
      (begins : (stream.get (place + 1)).kind.beginsParameters = true)

namespace TokenStream.FollowsDeclarator

variable {stream : TokenStream} {place : Nat}

theorem noStar (follows : stream.FollowsDeclarator place) :
    (stream.get place).kind ≠ .operator .star := by
  intro star
  cases follows with
  | ends isEnd => simp [star, TokenKind.endsDeclarator] at isEnd
  | array opens _ => simp [star] at opens
  | function opens _ => simp [star] at opens

theorem noName (follows : stream.FollowsDeclarator place) :
    (stream.get place).kind ≠ .identifier := by
  intro isName
  cases follows with
  | ends isEnd => simp [isName, TokenKind.endsDeclarator] at isEnd
  | array opens _ => simp [isName] at opens
  | function opens _ => simp [isName] at opens

end TokenStream.FollowsDeclarator

open Productions Parse

variable {context : ParseContext} {state : ParseState} {form : DeclaratorForm}

theorem Productions.atEnclosedDeclarator_false (abstract : form ≠ .named)
    (follows : context.tokens.FollowsDeclarator state.position) :
    atEnclosedDeclarator form context state = .ok false state := by
  cases follows with
  | ends isEnd =>
    by_cases opens : (context.tokens.get state.position).kind = .punctuator .openParen
    · simp [opens, TokenKind.endsDeclarator] at isEnd
    · simp [atEnclosedDeclarator, opens]
  | array opens _ => simp [atEnclosedDeclarator, opens]
  | function opens begins =>
    cases kind : (context.tokens.get (state.position + 1)).kind with
    | keyword word =>
      have noAttribute : word ≠ .attributeWord := by
        simpa [kind, TokenKind.beginsParameters] using begins
      simp [atEnclosedDeclarator, opens, enclosesDeclarator, kind, noAttribute, abstract]
    | punctuator punctuator =>
      have noDeclarator : punctuator ≠ .openParen ∧ punctuator ≠ .openBracket := by
        constructor
        · rintro rfl
          simp [kind, TokenKind.beginsParameters] at begins
        · rintro rfl
          simp [kind, TokenKind.beginsParameters] at begins
      simp [atEnclosedDeclarator, opens, enclosesDeclarator, kind, noDeclarator, abstract]
    | _ => simp [kind, TokenKind.beginsParameters] at begins

theorem Productions.atEnclosedDeclarator_star
    (opens : (context.tokens.get state.position).kind = .punctuator .openParen)
    (star : (context.tokens.get (state.position + 1)).kind = .operator .star) :
    atEnclosedDeclarator form context state = .ok true state := by
  cases form <;> simp [atEnclosedDeclarator, opens, enclosesDeclarator, star]

/-! ## Parts of declarators -/

/-- The part of a declarator up to `stop` is read, and steps behind it may follow there. With the type
in front of the stars the name has the type that `around` makes of it. -/
def ReadsDeclarator (form : DeclaratorForm) (context : ParseContext) (state : ParseState)
    (isPointer : Bool) (need stop : Nat) (name : Option String) (around : Node → Node) : Prop :=
  ∃ (stars : List TypeDerivation) (place : Nat),
    (isPointer = false → stars = [] ∧ place = state.position) ∧
    (isPointer = true → (context.tokens.get state.position).kind = .operator .star) ∧
    (∀ nearest, repeatFrom addPointer nearest context state =
      .ok (stars ++ nearest) (state.movedTo place)) ∧
    ∀ levels, Demands need levels state.diagnostics
      (directDeclarator (ofLevels levels) form context (state.movedTo place))
      (∃ declarator, declarator.name = name ∧ DerivesType (declarator.derivations ++ stars) around ∧
        directDeclarator (ofLevels levels) form context (state.movedTo place) =
          repeatFrom (addDerivation (ofLevels levels)) declarator context (state.movedTo stop))

/-- A step behind a declarator is read up to `stop`. -/
def ReadsDerivation (context : ParseContext) (state : ParseState) (need stop : Nat)
    (step : Node → Node) : Prop :=
  ∀ levels declarator, Demands need levels state.diagnostics
    (addDerivation (ofLevels levels) declarator context state)
    (∃ derivation, DerivesType [derivation] step ∧
      addDerivation (ofLevels levels) declarator context state =
        .ok (.yield (declarator.append [derivation])) (state.movedTo stop))

/-- A whole declarator is read up to `stop`. -/
def ReadsWhole (form : DeclaratorForm) (context : ParseContext) (state : ParseState)
    (need stop : Nat) (name : Option String) (around : Node → Node) : Prop :=
  ∀ levels, Demands need levels state.diagnostics
    (declaratorRule (ofLevels levels) form context state)
    (∃ declarator, declarator.name = name ∧ DerivesType declarator.derivations around ∧
      declaratorRule (ofLevels levels) form context state =
        .ok declarator (state.movedTo stop))

namespace ReadsDeclarator

variable {isPointer : Bool} {need more stop later : Nat} {name : Option String}
  {around step : Node → Node}

/-- Without a name and without steps nothing is read. -/
theorem empty (abstract : form ≠ .named)
    (follows : context.tokens.FollowsDeclarator state.position) :
    ReadsDeclarator form context state false 0 state.position none id := by
  refine ⟨[], state.position, fun _ => ⟨rfl, rfl⟩, by simp, fun nearest => ?_, fun levels => ?_⟩
  · exact addPointer_done follows.noStar
  · refine .of_good ⟨⟨none, (context.tokens.get state.position).location, []⟩, rfl, .nil, ?_⟩
    refine directDeclarator_of_core ?_
    simp [declaratorCore, atEnclosedDeclarator_false abstract follows, follows.noName, abstract]

theorem ofName (named : form ≠ .abstract)
    (isName : (context.tokens.get state.position).kind = .identifier) :
    ReadsDeclarator form context state false 0 (state.position + 1)
      (some (context.tokens.get state.position).lexeme) id := by
  refine ⟨[], state.position, fun _ => ⟨rfl, rfl⟩, by simp, fun nearest => ?_, fun levels => ?_⟩
  · exact addPointer_done (by simp [isName])
  · have core : declaratorCore (ofLevels levels) form context state = _ :=
      declaratorCore_name isName named
    refine .of_good ⟨_, rfl, ?_, directDeclarator_of_core core⟩
    exact .nil

theorem star {qualifiers : Qualifiers} {place : Nat}
    (star : (context.tokens.get state.position).kind = .operator .star)
    (qualified : repeatFrom addPointerQualifier {} context (state.movedTo (state.position + 1)) =
      .ok qualifiers (state.movedTo place))
    (forward : state.position < place)
    (derives : ∀ spot, DerivesType [.pointer spot qualifiers] step)
    (reads : ReadsDeclarator form context (state.movedTo place) isPointer need stop name around) :
    ReadsDeclarator form context state true need stop name (fun tree => around (step tree)) := by
  obtain ⟨stars, direct, _, _, front, behind⟩ := reads
  refine ⟨stars ++ [.pointer (context.tokens.get state.position).location qualifiers], direct,
    by simp, fun _ => star, fun nearest => ?_, fun levels => (behind levels).imp ?_⟩
  · rw [addPointer_star star qualified forward, front]
    simp
  · rintro ⟨declarator, isName, derived, read⟩
    refine ⟨declarator, isName, ?_, read⟩
    rw [← List.append_assoc]
    exact derived.append (derives _)

/-- What the name has behind it is the step nearest to it. -/
theorem derivation (reads : ReadsDeclarator form context state false need stop name around)
    (behind : ReadsDerivation context (state.movedTo stop) more later step)
    (notEnd : (context.tokens.get stop).kind ≠ .endOfFile) (forward : stop < later) :
    ReadsDeclarator form context state false (max need more) later name
      (fun tree => around (step tree)) := by
  obtain ⟨stars, place, direct, noStar, front, core⟩ := reads
  obtain ⟨rfl, rfl⟩ := direct rfl
  refine ⟨[], state.position, direct, noStar, front, fun levels => ?_⟩
  refine (core levels).chain ?_ ?_
  · rintro ⟨declarator, isName, derived, read⟩
    rw [read]
    refine (behind levels declarator).carry ?_ ?_
    · rintro ⟨derivation, derives, added⟩
      refine ⟨declarator.append [derivation], isName, ?_, ?_⟩
      · rw [List.append_nil] at derived ⊢
        exact derived.append derives
      · have progress : ((state.movedTo stop).movedTo later).remaining context <
            (state.movedTo stop).remaining context :=
          ParseState.remaining_movedTo_lt notEnd forward
        exact repeatFrom_yield added progress
    · intro after same
      exact ⟨after, repeatFrom_error same, rfl⟩
  · intro after same
    exact ⟨after, same, rfl⟩

/-- In front of the end of a declarator nothing is added. -/
theorem whole (reads : ReadsDeclarator form context state isPointer need stop name around)
    (ends : (context.tokens.get stop).kind.endsDeclarator = true) :
    ReadsWhole form context state need stop name around := by
  have noStep : (context.tokens.get stop).kind.extendsDeclarator = false := by
    revert ends
    cases (context.tokens.get stop).kind with
    | punctuator punctuator => cases punctuator <;> decide
    | _ => simp [TokenKind.endsDeclarator, TokenKind.extendsDeclarator]
  obtain ⟨stars, place, _, _, front, core⟩ := reads
  have front := front []
  rw [List.append_nil] at front
  intro levels
  refine (core levels).carry ?_ ?_
  · rintro ⟨declarator, isName, derived, read⟩
    refine ⟨declarator.append stars, isName, derived, declaratorRule_of_parts front ?_⟩
    rw [read]
    exact addDerivation_done noStep
  · intro after same
    exact ⟨after, by simp [declaratorRule, pointers, front, same], rfl⟩

end ReadsDeclarator

/-- The production of a level takes one level more than its rule. -/
theorem ReadsWhole.declarator {need stop : Nat} {name : Option String} {around : Node → Node}
    (reads : ReadsWhole form context state need stop name around)
    (calm : state.panicking = false) (levels : Nat) :
    Demands (need + 1) levels state.diagnostics
      ((ofLevels levels).declarator form context state)
      (∃ declarator, declarator.name = name ∧ DerivesType declarator.derivations around ∧
        (ofLevels levels).declarator form context state = .ok declarator (state.movedTo stop)) := by
  cases levels with
  | zero => exact ⟨fun enough => absurd enough (by omega), fun _ => .exhausted calm⟩
  | succ levels =>
    obtain ⟨enough, tooFew⟩ := reads levels
    exact ⟨fun all => enough (by omega), fun few => tooFew (by omega)⟩

namespace ReadsDeclarator

/-- A declarator in parentheses is read one level further in. -/
theorem closed {need stop : Nat} {name : Option String} {around : Node → Node}
    (calm : state.panicking = false)
    (opens : (context.tokens.get state.position).kind = .punctuator .openParen)
    (reads : ReadsDeclarator form context (state.movedTo (state.position + 1)) true need stop name
      around)
    (closes : (context.tokens.get stop).kind = .punctuator .closeParen) :
    ReadsDeclarator form context state false (need + 1) (stop + 1) name around := by
  have star : (context.tokens.get (state.position + 1)).kind = .operator .star := by
    obtain ⟨_, _, _, star, _⟩ := reads
    exact star rfl
  have enclosed : atEnclosedDeclarator form context state = .ok true state :=
    atEnclosedDeclarator_star opens star
  have noAttributes : skipAttributes context (state.movedTo (state.position + 1)) =
      .ok () (state.movedTo (state.position + 1)) :=
    skipAttributes_none (by simp [star, TokenKind.mayBeginAttribute])
  have inside := (reads.whole (by rw [closes]; rfl)).declarator calm
  refine ⟨[], state.position, fun _ => ⟨rfl, rfl⟩, by simp, fun nearest => ?_, fun levels => ?_⟩
  · exact addPointer_done (by simp [opens])
  · refine (inside levels).carry ?_ ?_
    · rintro ⟨declarator, isName, derived, read⟩
      refine ⟨declarator, isName, by rwa [List.append_nil], directDeclarator_of_core ?_⟩
      simp [declaratorCore, enclosed, opens, noAttributes, read, expectClosingParen, closes]
    · intro after same
      refine ⟨after, ?_, rfl⟩
      simp [directDeclarator, declaratorCore, enclosed, opens, noAttributes, same]

end ReadsDeclarator

end CFrontEnd
