import CFrontEnd.Token.Operator

/-!
The operators of expressions. One symbol may be several of them: a star multiplies or dereferences.
-/

namespace CFrontEnd

inductive BinaryOperator
  | multiply
  | divide
  | remainder
  | add
  | subtract
  | shiftLeft
  | shiftRight
  | less
  | greater
  | lessEqual
  | greaterEqual
  | equal
  | notEqual
  | bitAnd
  | bitXor
  | bitOr
  | logicalAnd
  | logicalOr
  deriving DecidableEq, Repr

namespace BinaryOperator

def ofOperator? : Operator → Option BinaryOperator
  | .star => some .multiply
  | .slash => some .divide
  | .percent => some .remainder
  | .plus => some .add
  | .minus => some .subtract
  | .shiftLeft => some .shiftLeft
  | .shiftRight => some .shiftRight
  | .less => some .less
  | .greater => some .greater
  | .lessEqual => some .lessEqual
  | .greaterEqual => some .greaterEqual
  | .equal => some .equal
  | .notEqual => some .notEqual
  | .ampersand => some .bitAnd
  | .caret => some .bitXor
  | .pipe => some .bitOr
  | .logicalAnd => some .logicalAnd
  | .logicalOr => some .logicalOr
  | _ => none

def spelling : BinaryOperator → String
  | .multiply => "*"
  | .divide => "/"
  | .remainder => "%"
  | .add => "+"
  | .subtract => "-"
  | .shiftLeft => "<<"
  | .shiftRight => ">>"
  | .less => "<"
  | .greater => ">"
  | .lessEqual => "<="
  | .greaterEqual => ">="
  | .equal => "=="
  | .notEqual => "!="
  | .bitAnd => "&"
  | .bitXor => "^"
  | .bitOr => "|"
  | .logicalAnd => "&&"
  | .logicalOr => "||"

end BinaryOperator

/-- `stepUp` and `stepDown` change their operand before its value is taken, the `later` ones after. -/
inductive UnaryOperator
  | stepUp
  | stepDown
  | laterStepUp
  | laterStepDown
  | plus
  | minus
  | logicalNot
  | bitNot
  | dereference
  | addressOf
  deriving DecidableEq, Repr

namespace UnaryOperator

def spelling : UnaryOperator → String
  | .stepUp | .laterStepUp => "++"
  | .stepDown | .laterStepDown => "--"
  | .plus => "+"
  | .minus => "-"
  | .logicalNot => "!"
  | .bitNot => "~"
  | .dereference => "*"
  | .addressOf => "&"

/-- Whether the operator is written after its operand. -/
def isWrittenAfter : UnaryOperator → Bool
  | .laterStepUp | .laterStepDown => true
  | _ => false

end UnaryOperator

inductive AssignmentOperator
  | assign
  | multiply
  | divide
  | remainder
  | add
  | subtract
  | shiftLeft
  | shiftRight
  | bitAnd
  | bitXor
  | bitOr
  deriving DecidableEq, Repr

namespace AssignmentOperator

def ofOperator? : Operator → Option AssignmentOperator
  | .assign => some .assign
  | .starAssign => some .multiply
  | .slashAssign => some .divide
  | .percentAssign => some .remainder
  | .plusAssign => some .add
  | .minusAssign => some .subtract
  | .shiftLeftAssign => some .shiftLeft
  | .shiftRightAssign => some .shiftRight
  | .andAssign => some .bitAnd
  | .xorAssign => some .bitXor
  | .orAssign => some .bitOr
  | _ => none

def spelling : AssignmentOperator → String
  | .assign => "="
  | .multiply => "*="
  | .divide => "/="
  | .remainder => "%="
  | .add => "+="
  | .subtract => "-="
  | .shiftLeft => "<<="
  | .shiftRight => ">>="
  | .bitAnd => "&="
  | .bitXor => "^="
  | .bitOr => "|="

end AssignmentOperator

end CFrontEnd
