/-!
Operators and punctuators. A language gives its operators symbols and precedences in tables; the
comma is a punctuator.
-/

namespace CFrontEnd

inductive Operator
  | plus
  | minus
  | star
  | slash
  | percent
  | shiftLeft
  | shiftRight
  | less
  | greater
  | lessEqual
  | greaterEqual
  | equal
  | notEqual
  | ampersand
  | caret
  | pipe
  | logicalAnd
  | logicalOr
  | assign
  | plusAssign
  | minusAssign
  | starAssign
  | slashAssign
  | percentAssign
  | shiftLeftAssign
  | shiftRightAssign
  | andAssign
  | xorAssign
  | orAssign
  | question
  | bang
  | tilde
  | increment
  | decrement
  | dot
  | arrow
  deriving DecidableEq, Repr

namespace Operator

/-- The operator's name in token listings. -/
def label : Operator → String
  | .plus => "Plus"
  | .minus => "Minus"
  | .star => "Star"
  | .slash => "Slash"
  | .percent => "Percent"
  | .shiftLeft => "Shl"
  | .shiftRight => "Shr"
  | .less => "Lt"
  | .greater => "Gt"
  | .lessEqual => "Le"
  | .greaterEqual => "Ge"
  | .equal => "EqEq"
  | .notEqual => "Ne"
  | .ampersand => "Amp"
  | .caret => "Caret"
  | .pipe => "Pipe"
  | .logicalAnd => "AndAnd"
  | .logicalOr => "OrOr"
  | .assign => "Assign"
  | .plusAssign => "PlusAssign"
  | .minusAssign => "MinusAssign"
  | .starAssign => "StarAssign"
  | .slashAssign => "SlashAssign"
  | .percentAssign => "PercentAssign"
  | .shiftLeftAssign => "ShlAssign"
  | .shiftRightAssign => "ShrAssign"
  | .andAssign => "AndAssign"
  | .xorAssign => "XorAssign"
  | .orAssign => "OrAssign"
  | .question => "Question"
  | .bang => "Bang"
  | .tilde => "Tilde"
  | .increment => "Inc"
  | .decrement => "Dec"
  | .dot => "Dot"
  | .arrow => "Arrow"

def isAssignment : Operator → Bool
  | .assign | .plusAssign | .minusAssign | .starAssign | .slashAssign
  | .percentAssign | .shiftLeftAssign | .shiftRightAssign | .andAssign
  | .xorAssign | .orAssign => true
  | _ => false

end Operator

inductive Punctuator
  | openParen
  | closeParen
  | openBrace
  | closeBrace
  | openBracket
  | closeBracket
  | semicolon
  | comma
  | colon
  | ellipsis
  deriving DecidableEq, Repr

/-- The punctuator's name in token listings. -/
def Punctuator.label : Punctuator → String
  | .openParen => "LParen"
  | .closeParen => "RParen"
  | .openBrace => "LBrace"
  | .closeBrace => "RBrace"
  | .openBracket => "LBracket"
  | .closeBracket => "RBracket"
  | .semicolon => "Semicolon"
  | .comma => "Comma"
  | .colon => "Colon"
  | .ellipsis => "Ellipsis"

end CFrontEnd
