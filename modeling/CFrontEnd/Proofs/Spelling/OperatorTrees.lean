import CFrontEnd.Proofs.Scan.Lexemes
import CFrontEnd.Spelling.Tree

/-!
The trees of operator expressions, and how they are written: every operator between operands or in
front of one stands in parentheses with them, and suffixes stand behind what they belong to.
-/

namespace CFrontEnd

/-- A word that can be a name in the dialect. -/
def IsName (dialect : Dialect) (name : String) : Prop :=
  isIdentifierText name = true ∧ (cLanguage dialect).keyword? name = none

instance (dialect : Dialect) (name : String) : Decidable (IsName dialect name) :=
  inferInstanceAs (Decidable (_ ∧ _))

/-- An integer of 64 bits with one of the suffixes there are. -/
def IsIntegerLiteral (value : Nat) (suffix : IntegerSuffix) : Prop :=
  value ≤ 0xFFFFFFFFFFFFFFFF ∧ suffix.longs ≤ 2

namespace Node

mutual

/-- The number of steps from the root to the leaf that is farthest from it. -/
def height : Node → Nat
  | ⟨_, _, _, children⟩ => heights children

def heights : List Node → Nat
  | [] => 0
  | node :: rest => max (height node + 1) (heights rest)

end

theorem heights_mem {child : Node} {children : List Node} (isChild : child ∈ children) :
    child.height + 1 ≤ heights children := by
  induction children with
  | nil => cases isChild
  | cons node rest ih =>
      simp only [heights]
      rcases List.mem_cons.mp isChild with rfl | inRest
      · omega
      · have bound := ih inRest
        omega

theorem height_mk (kind : NodeKind) (spot : SourceLocation) (payload : Payload)
    (children : List Node) : height ⟨kind, spot, payload, children⟩ = heights children := by
  rw [height]

theorem height_child {kind : NodeKind} {spot : SourceLocation} {payload : Payload} {child : Node}
    {children : List Node} (isChild : child ∈ children) :
    child.height + 1 ≤ height ⟨kind, spot, payload, children⟩ := by
  rw [height_mk]
  exact heights_mem isChild

/-- Whether the tree is an integer that is written with digits alone. -/
def isBareInteger (node : Node) : Bool :=
  match node.kind, node.payload with
  | .integerLiteral, .literal (.integer _ suffix) => suffix == {}
  | _, _ => false

/-! ### Texts -/

section

open Spelling

variable {spot : SourceLocation} {left right condition value otherwise operand base index : Node}

theorem expressionText_infix (operator : BinaryOperator) :
    expressionText ⟨.binary operator, spot, .none, [left, right]⟩ = parenthesized
      (left.expressionText ++ " " ++ operator.spelling ++ " " ++ right.expressionText) :=
  rfl

theorem expressionText_assignment (operator : AssignmentOperator) :
    expressionText ⟨.assignment operator, spot, .none, [left, right]⟩ = parenthesized
      (left.expressionText ++ " " ++ operator.spelling ++ " " ++ right.expressionText) :=
  rfl

theorem expressionText_before {operator : UnaryOperator} (isBefore : operator.isWrittenAfter = false) :
    expressionText ⟨.unary operator, spot, .none, [operand]⟩ =
      parenthesized (operator.spelling ++ operand.expressionText) := by
  change unaryText operator [operand.spelling] = _
  rw [unaryText, isBefore]
  rfl

theorem expressionText_after {operator : UnaryOperator} (isAfter : operator.isWrittenAfter = true) :
    expressionText ⟨.unary operator, spot, .none, [operand]⟩ =
      parenthesized (operand.expressionText ++ operator.spelling) := by
  change unaryText operator [operand.spelling] = _
  rw [unaryText, isAfter]
  rfl

theorem expressionText_conditional :
    expressionText ⟨.conditional, spot, .none, [condition, value, otherwise]⟩ = parenthesized
      (condition.expressionText ++ " ? " ++ value.expressionText ++ " : " ++
        otherwise.expressionText) :=
  rfl

theorem expressionText_binaryConditional :
    expressionText ⟨.binaryConditional, spot, .none, [condition, otherwise]⟩ =
      parenthesized (condition.expressionText ++ " ?: " ++ otherwise.expressionText) :=
  rfl

theorem expressionText_comma :
    expressionText ⟨.comma, spot, .none, [left, right]⟩ =
      parenthesized (left.expressionText ++ ", " ++ right.expressionText) :=
  rfl

theorem expressionText_sizeof :
    expressionText ⟨.sizeofExpression, spot, .none, [operand]⟩ =
      parenthesized ("sizeof " ++ operand.expressionText) :=
  rfl

theorem expressionText_alignof :
    expressionText ⟨.alignofExpression, spot, .none, [operand]⟩ =
      parenthesized ("_Alignof " ++ operand.expressionText) :=
  rfl

theorem expressionText_labelAddress (name : String) :
    expressionText ⟨.labelAddress, spot, .name name, []⟩ = parenthesized ("&&" ++ name) :=
  rfl

theorem expressionText_subscript :
    expressionText ⟨.subscript, spot, .none, [base, index]⟩ =
      base.expressionText ++ "[" ++ index.expressionText ++ "]" :=
  rfl

theorem expressionText_call (arguments : List Node) :
    expressionText ⟨.call, spot, .none, base :: arguments⟩ = base.expressionText ++
      parenthesized (", ".intercalate (arguments.map expressionText)) := by
  have texts : (spellings arguments).map Spelling.expression = arguments.map expressionText := by
    rw [spellings_eq_map, List.map_map]
    rfl
  rw [← texts]
  rfl

end

end Node

/-- The trees of expressions with operators over names, labels and integers. -/
inductive IsOperatorTree : Node → Prop
  | identifier {spot : SourceLocation} {name : String} (isName : IsName gnuC17 name)
      (notBuiltin : name ≠ "__builtin_va_list") :
      IsOperatorTree ⟨.identifier, spot, .name name, []⟩
  | integer {spot : SourceLocation} {value : Nat} {suffix : IntegerSuffix}
      (isInteger : IsIntegerLiteral value suffix) :
      IsOperatorTree ⟨.integerLiteral, spot, .literal (.integer value suffix), []⟩
  | labelAddress {spot : SourceLocation} {name : String} (isName : IsName gnuC17 name) :
      IsOperatorTree ⟨.labelAddress, spot, .name name, []⟩
  | binary (operator : BinaryOperator) {spot : SourceLocation} {left right : Node} :
      IsOperatorTree left → IsOperatorTree right →
      IsOperatorTree ⟨.binary operator, spot, .none, [left, right]⟩
  | unary (operator : UnaryOperator) {spot : SourceLocation} {operand : Node} :
      IsOperatorTree operand → IsOperatorTree ⟨.unary operator, spot, .none, [operand]⟩
  | assignment (operator : AssignmentOperator) {spot : SourceLocation} {target value : Node} :
      IsOperatorTree target → IsOperatorTree value →
      IsOperatorTree ⟨.assignment operator, spot, .none, [target, value]⟩
  | conditional {spot : SourceLocation} {condition value otherwise : Node} :
      IsOperatorTree condition → IsOperatorTree value → IsOperatorTree otherwise →
      IsOperatorTree ⟨.conditional, spot, .none, [condition, value, otherwise]⟩
  | binaryConditional {spot : SourceLocation} {condition otherwise : Node} :
      IsOperatorTree condition → IsOperatorTree otherwise →
      IsOperatorTree ⟨.binaryConditional, spot, .none, [condition, otherwise]⟩
  | comma {spot : SourceLocation} {left right : Node} :
      IsOperatorTree left → IsOperatorTree right →
      IsOperatorTree ⟨.comma, spot, .none, [left, right]⟩
  | call {spot : SourceLocation} {callee : Node} {arguments : List Node} :
      IsOperatorTree callee → (∀ argument ∈ arguments, IsOperatorTree argument) →
      IsOperatorTree ⟨.call, spot, .none, callee :: arguments⟩
  | subscript {spot : SourceLocation} {base index : Node} :
      IsOperatorTree base → IsOperatorTree index →
      IsOperatorTree ⟨.subscript, spot, .none, [base, index]⟩
  | arrow {spot : SourceLocation} {base : Node} {name : String} (isName : IsName gnuC17 name) :
      IsOperatorTree base → IsOperatorTree ⟨.arrow, spot, .name name, [base]⟩
  | member {spot : SourceLocation} {base : Node} {name : String} (isName : IsName gnuC17 name)
      (notBare : base.isBareInteger = false) :
      IsOperatorTree base → IsOperatorTree ⟨.member, spot, .name name, [base]⟩
  | sizeofExpression {spot : SourceLocation} {operand : Node} :
      IsOperatorTree operand → IsOperatorTree ⟨.sizeofExpression, spot, .none, [operand]⟩
  | alignofExpression {spot : SourceLocation} {operand : Node} :
      IsOperatorTree operand → IsOperatorTree ⟨.alignofExpression, spot, .none, [operand]⟩

end CFrontEnd
