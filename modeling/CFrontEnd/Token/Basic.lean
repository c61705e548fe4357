import CFrontEnd.Source.Location
import CFrontEnd.Token.Keyword
import CFrontEnd.Token.Operator
import CFrontEnd.Token.Literal

/-!
Tokens: what the text is cut into. A token keeps its text as it was written.
-/

namespace CFrontEnd

inductive LiteralKind
  | integer
  | floating
  | character
  | string
  deriving DecidableEq, Repr

def LiteralKind.label : LiteralKind → String
  | .integer => "Int"
  | .floating => "Float"
  | .character => "Char"
  | .string => "String"

def LiteralKind.defaultValue : LiteralKind → Literal
  | .integer => .integer 0 {}
  | .floating => .floating 0 .none
  | .character => .character 0 .plain
  | .string => .string [] .plain

/-- The kind of constant that has such a value. -/
def Literal.kind : Literal → LiteralKind
  | .integer _ _ => .integer
  | .floating _ _ => .floating
  | .character _ _ => .character
  | .string _ _ => .string

inductive TokenKind
  | keyword (word : Keyword)
  | operator (operator : Operator)
  | punctuator (punctuator : Punctuator)
  | literal (kind : LiteralKind)
  | identifier
  | endOfFile
  deriving DecidableEq, Repr

namespace TokenKind

/-- The kind's name in token listings. -/
def label : TokenKind → String
  | .keyword word => "Keyword(" ++ word.label ++ ")"
  | .operator symbol => "Operator(" ++ symbol.label ++ ")"
  | .punctuator symbol => "Punct(" ++ symbol.label ++ ")"
  | .literal constant => "Literal(" ++ constant.label ++ ")"
  | .identifier => "Identifier"
  | .endOfFile => "Eof"

def isEndOfFile (kind : TokenKind) : Bool := kind == .endOfFile

end TokenKind

structure Token where
  kind : TokenKind
  lexeme : String
  location : SourceLocation
  value : Option Literal := none
  deriving BEq, Repr

namespace Token

/-- The token that stands after the last one of a text. -/
def endOfFile (location : SourceLocation) : Token :=
  { kind := .endOfFile, lexeme := "", location := location }

def isEndOfFile (token : Token) : Bool := token.kind.isEndOfFile

def isKeyword (token : Token) (word : Keyword) : Bool := token.kind == .keyword word

def isOperator (token : Token) (operator : Operator) : Bool := token.kind == .operator operator

def isPunctuator (token : Token) (punctuator : Punctuator) : Bool :=
  token.kind == .punctuator punctuator

def isIdentifier (token : Token) : Bool := token.kind == .identifier

/-- The value as that of a literal of the kind. A token of the scanner that is such a literal has one
of the kind; without it there is the default. -/
def literalOf (token : Token) (kind : LiteralKind) : Literal :=
  (token.value.filter fun value => value.kind = kind).getD kind.defaultValue

theorem literalOf_eq {token : Token} {kind : LiteralKind} {value : Literal}
    (isValue : token.value = some value) (isKind : value.kind = kind) :
    token.literalOf kind = value := by
  simp [literalOf, isValue, isKind, Option.filter]

/-- The token as problems mention it. -/
def text (token : Token) : String :=
  if token.isEndOfFile then "end of file" else "'" ++ token.lexeme ++ "'"

end Token

end CFrontEnd
