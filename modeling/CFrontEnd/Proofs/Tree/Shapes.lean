import CFrontEnd.Tree.Node

/-!
Comparing trees but for their places. Payloads compare equal to themselves; floating-point values need
not, so each other form of payload has a lemma of its own.
-/

namespace CFrontEnd

namespace Payload

@[simp] theorem beq_none : (Payload.none == Payload.none) = true := rfl

@[simp] theorem beq_name (name : String) : (Payload.name name == .name name) = true := by
  change decide (name = name) = true
  simp

@[simp] theorem beq_integer (value : Nat) (suffix : IntegerSuffix) :
    (Payload.literal (.integer value suffix) == .literal (.integer value suffix)) = true := by
  change (decide (value = value) && decide (suffix = suffix)) = true
  simp

@[simp] theorem beq_flag (value : Bool) : (Payload.flag value == .flag value) = true := by
  change decide (value = value) = true
  simp

@[simp] theorem beq_tag (name : Option String) (hasBody : Bool) :
    (Payload.tag name hasBody == .tag name hasBody) = true := by
  change ((name == name) && decide (hasBody = hasBody)) = true
  simp

@[simp] theorem beq_declaration (info : DeclarationInfo) :
    (Payload.declaration info == .declaration info) = true := by
  change decide (info = info) = true
  simp

@[simp] theorem beq_function (info : FunctionInfo) :
    (Payload.function info == .function info) = true := by
  change decide (info = info) = true
  simp

@[simp] theorem beq_qualifiers (qualifiers : Qualifiers) :
    (Payload.qualifiers qualifiers == .qualifiers qualifiers) = true := by
  change decide (qualifiers = qualifiers) = true
  simp

@[simp] theorem beq_array (qualifiers : Qualifiers) (isStatic isStar : Bool) :
    (Payload.array qualifiers isStatic isStar == .array qualifiers isStatic isStar) = true := by
  change (decide (qualifiers = qualifiers) &&
    (decide (isStatic = isStatic) && decide (isStar = isStar))) = true
  simp

@[simp] theorem beq_functionType (isVariadic isPrototyped : Bool) :
    (Payload.functionType isVariadic isPrototyped ==
      .functionType isVariadic isPrototyped) = true := by
  change (decide (isVariadic = isVariadic) && decide (isPrototyped = isPrototyped)) = true
  simp

end Payload

theorem Node.sameShapes_append {nodes trees : List Node} {moreNodes moreTrees : List Node}
    (first : sameShapes nodes trees = true) (second : sameShapes moreNodes moreTrees = true) :
    sameShapes (nodes ++ moreNodes) (trees ++ moreTrees) = true := by
  induction nodes generalizing trees with
  | nil =>
    cases trees with
    | nil => exact second
    | cons tree rest => simp [sameShapes] at first
  | cons node rest ih =>
    cases trees with
    | nil => simp [sameShapes] at first
    | cons tree others =>
      simp only [sameShapes, Bool.and_eq_true] at first
      simp [sameShapes, first.1, ih first.2]

end CFrontEnd
