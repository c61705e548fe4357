import CFrontEnd.Proofs.Types.Functions

/-!
The way from the outside of a type to its base. Each step of it makes the part of the declarator
larger that the base is written in front of.
-/

namespace CFrontEnd

/-- The type around a part of a declarator is written as its base around a larger part, from which the
steps of the type are read back. -/
def Node.ReachesBase (tree : Node) (form : DeclaratorForm) (inner : String) (isPointer : Bool)
    (need : Nat) (name : Option String) (around : Node → Node) : Prop :=
  ∃ base whole wholeWords startsWithStar aroundBase, IsBaseType base ∧
    tree.declaratorText inner = base.declaratorText whole ∧
    ReadsPart form whole wholeWords startsWithStar (tree.depthAround isPointer need) name
      aroundBase ∧
    aroundBase base = around tree ∧ (whole = "" → tree = base ∧ inner = "")

def Node.IsWrittenAround (tree : Node) : Prop :=
  ∀ {form : DeclaratorForm} {inner : String} {words : List Word} {isPointer : Bool} {need : Nat}
    {name : Option String} {around : Node → Node},
    ReadsPart form inner words isPointer need name around →
    tree.ReachesBase form inner isPointer need name around

namespace Node.IsWrittenAround

variable {target : Node} {spot inside : SourceLocation}

/-- A type is written around a part as the type inside of it around a larger part. -/
theorem of_step {tree : Node} {part larger : String} {isPointer startsWithStar : Bool}
    {need more : Nat} {form : DeclaratorForm} {words : List Word} {name : Option String}
    {around : Node → Node} {step : Node → Node} (written : target.IsWrittenAround)
    (reads : ReadsPart form larger words startsWithStar more name (fun tree => around (step tree)))
    (notEmpty : larger ≠ "") (isStep : step target = tree)
    (text : tree.declaratorText part = target.declaratorText larger)
    (depth : tree.depthAround isPointer need = target.depthAround startsWithStar more) :
    tree.ReachesBase form part isPointer need name around := by
  obtain ⟨base, whole, wholeWords, startsWithStar, aroundBase, isBase, isText, isRead, same, bare⟩ :=
    written reads
  refine ⟨base, whole, wholeWords, startsWithStar, aroundBase, isBase, text.trans isText, ?_, ?_, ?_⟩
  · rwa [depth]
  · rw [same]
    exact congrArg around isStep
  · intro isEmpty
    exact absurd (bare isEmpty).2 notEmpty

theorem base {tree : Node} (isBase : IsBaseType tree) : tree.IsWrittenAround := by
  intro form inner words isPointer need name around part
  refine ⟨tree, inner, words, isPointer, around, isBase, rfl, ?_, rfl, fun isEmpty =>
    ⟨rfl, isEmpty⟩⟩
  have depth : tree.depthAround isPointer need = need := by
    cases isBase with
    | builtin => simp [depthAround]
    | qualified => simp [depthAround]
  rwa [depth]

theorem pointer (written : target.IsWrittenAround) :
    IsWrittenAround ⟨.pointerType, spot, .none, [target]⟩ := by
  intro form inner words isPointer need name around part
  refine of_step written part.pointer (by simp) rfl rfl ?_
  simp [depthAround]

theorem qualifiedPointer {qualifiers : Qualifiers} (someQualifiers : qualifiers.isEmpty = false)
    (written : target.IsWrittenAround) :
    IsWrittenAround
      ⟨.qualifiedType, spot, .qualifiers qualifiers, [⟨.pointerType, inside, .none, [target]⟩]⟩ := by
  intro form inner words isPointer need name around part
  refine of_step written (part.qualifiedPointer someQualifiers) (by simp) rfl rfl ?_
  simp [depthAround]

theorem array {length : Option Node} (isLength : ∀ node ∈ length, IsArrayLength node)
    (written : target.IsWrittenAround) :
    IsWrittenAround ⟨.arrayType, spot, .array {} false false, target :: length.toList⟩ := by
  intro form inner words isPointer need name around part
  obtain ⟨closedWords, closed⟩ := part.closed
  cases length with
  | none =>
    refine of_step written (closed.step .openArray) (by simp) rfl ?_ ?_
    · change target.declaratorText (Spelling.closed inner ++ "[" ++ "" ++ "]") = _
      rw [String.append_empty, String.append_assoc]
      rfl
    · simp [depthAround]
  | some node =>
    obtain ⟨stepWords, step⟩ := ReadsStep.sizedArray (isLength node rfl)
    refine of_step written (closed.step step) (by simp) rfl ?_ ?_
    · change target.declaratorText (Spelling.closed inner ++ "[" ++ node.expressionText ++ "]") = _
      simp only [String.append_assoc]
    · simp [depthAround]

theorem function {returned : Node} {parameters : List Parameter} {isVariadic isPrototyped : Bool}
    (isList : IsParameterList parameters isVariadic isPrototyped) (isTree : IsTypeTree returned)
    (written : returned.IsWrittenAround)
    (areRead : ∀ parameter ∈ parameters, parameter.IsRead) :
    IsWrittenAround ⟨.functionType, spot, .functionType isVariadic isPrototyped,
      returned :: parameters.map Parameter.node⟩ := by
  intro form inner words isPointer need name around part
  obtain ⟨closedWords, closed⟩ := part.closed
  obtain ⟨listWords, list⟩ := readsParameterList isList areRead
  refine of_step written (closed.step list.step) ?_ rfl (declaratorText_function isTree inner) ?_
  · simp [Spelling.parenthesized]
  · simp [depthAround]

end Node.IsWrittenAround

theorem Node.IsWrittenAround.readsType {tree : Node} (written : tree.IsWrittenAround)
    {form : DeclaratorForm} {inner : String} {words : List Word} {name : Option String}
    (part : ReadsPart form inner words false 0 name id) (named : name ≠ none → inner ≠ "") :
    ∃ words, ReadsType form (tree.declaratorText inner) words tree.nesting name tree := by
  obtain ⟨base, whole, wholeWords, startsWithStar, aroundBase, isBase, isText, isRead, same, bare⟩ :=
    written part
  obtain ⟨qualifiers, typeWords, canonical, baseText, baseShape, isVoid⟩ := isBase.spelled
  have spelled : SpelledType form tree whole qualifiers typeWords wholeWords startsWithStar
      tree.nesting name aroundBase := by
    refine ⟨canonical, isRead, ?_, ?_⟩
    · intro noWords
      obtain ⟨rfl, isEmpty⟩ := bare (isRead.empty.mpr noWords)
      refine ⟨?_, isVoid⟩
      cases name with
      | none => rfl
      | some name => exact absurd isEmpty (named (by simp))
    · intro place declarator derived
      have shape := derived _ _ (baseShape place)
      rwa [same] at shape
  rw [isText, baseText]
  exact ⟨_, spelled.readsType⟩

theorem IsTypeTree.isWrittenAround {tree : Node} (isTree : IsTypeTree tree) :
    tree.IsWrittenAround := by
  -- From the outside: each constructor goes into the part around which the type inside of it is
  -- written. Only parameters start anew, with a part that is their name or nothing.
  induction isTree with
  | base isBase => exact Node.IsWrittenAround.base isBase
  | pointer _ written => exact Node.IsWrittenAround.pointer written
  | qualifiedPointer someQualifiers _ written =>
    exact Node.IsWrittenAround.qualifiedPointer someQualifiers written
  | array isLength _ written => exact Node.IsWrittenAround.array isLength written
  | @function _ _ parameters _ _ isList isReturned _ written areWritten =>
    refine Node.IsWrittenAround.function isList isReturned written fun parameter isParameter => ?_
    have written : parameter.type.IsWrittenAround := areWritten parameter isParameter
    unfold Parameter.IsRead Parameter.text
    cases given : parameter.name with
    | none => exact written.readsType (.unnamed (by decide)) (by simp)
    | some object =>
      have isObject := isList.names parameter isParameter object given
      refine written.readsType (.ofName (by decide) isObject) fun _ isEmpty => ?_
      obtain rfl := isEmpty
      exact absurd isObject.1.1 (by decide)

end CFrontEnd
