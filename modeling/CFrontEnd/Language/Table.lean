import CFrontEnd.Token.Keyword
import CFrontEnd.Token.Operator
import CFrontEnd.Source.Buffer
import CFrontEnd.Text.Character

/-!
A language of the C family as data: its words and symbols, its character classes and the rules its
grammar knows. The scanner and the parser read these tables and know no more about the language.
-/

namespace CFrontEnd

/-- The precedence levels of C, loosest first. -/
inductive Precedence
  | assignment
  | conditional
  | logicalOr
  | logicalAnd
  | bitOr
  | bitXor
  | bitAnd
  | equality
  | relational
  | shift
  | additive
  | multiplicative
  | unary
  | postfixLevel
  deriving DecidableEq, Repr

def Precedence.level : Precedence → Nat
  | .assignment => 1
  | .conditional => 2
  | .logicalOr => 3
  | .logicalAnd => 4
  | .bitOr => 5
  | .bitXor => 6
  | .bitAnd => 7
  | .equality => 8
  | .relational => 9
  | .shift => 10
  | .additive => 11
  | .multiplicative => 12
  | .unary => 13
  | .postfixLevel => 14

inductive Associativity
  | left
  | right
  | none
  deriving DecidableEq, Repr

def Associativity.label : Associativity → String
  | .left => "Left"
  | .right => "Right"
  | .none => "None"

structure OperatorEntry where
  symbol : String
  operator : Operator
  precedence : Nat
  associativity : Associativity
  deriving DecidableEq, Repr

structure PunctuatorEntry where
  symbol : String
  punctuator : Punctuator
  deriving DecidableEq, Repr

structure CommentStyle where
  line : Option String := none
  block : Option (String × String) := none
  deriving DecidableEq, Repr

structure CharacterClasses where
  startsIdentifier : Char → Bool := fun character => character == '_' || character.isAlpha
  continuesIdentifier : Char → Bool := fun character => character == '_' || character.isAlphanum
  isDigit : Char → Bool := Char.isDigit
  isBlank : Char → Bool := fun character =>
    character == ' ' || (9 ≤ character.toNat && character.toNat ≤ 13)

structure LiteralMarks where
  stringQuote : Char := '"'
  characterQuote : Char := '\''
  escape : Char := '\\'
  deriving DecidableEq, Repr

/-- Which forms of numbers the language has. -/
structure NumberForms where
  hexadecimal : Bool := false
  octal : Bool := false
  binary : Bool := false
  fraction : Bool := false
  exponent : Bool := false
  deriving DecidableEq, Repr

/-- `requiresSemicolons` is a fact for readers of the table; C always demands them. -/
structure LanguageFeatures where
  caseSensitive : Bool := true
  requiresSemicolons : Bool := true
  directives : Bool := false
  deriving DecidableEq, Repr

/-- Both symbol tables have longer symbols in front of shorter ones. `isTypeName` decides from the
typedef names in scope whether a name stands for a type. -/
structure Language where
  name : String
  version : String
  keywords : List (String × Keyword) := []
  operators : List OperatorEntry := []
  punctuators : List PunctuatorEntry := []
  rules : List String := []
  startRule : String := ""
  isTypeName : (String → Bool) → String → Bool := fun isTypedefName name => isTypedefName name
  comments : CommentStyle := {}
  classes : CharacterClasses := {}
  marks : LiteralMarks := {}
  numbers : NumberForms := {}
  features : LanguageFeatures := {}

/-- Sorted by falling length in bytes; entries of one length stay in their order. -/
def longestFirst {Entry : Type} (symbol : Entry → String) (entries : List Entry) : List Entry :=
  entries.mergeSort fun first second =>
    decide ((symbol second).utf8ByteSize ≤ (symbol first).utf8ByteSize)

/-- Whether `input` begins with `symbol`. The empty symbol is found nowhere. -/
def beginsWith (symbol : String) (input : List Char) : Bool :=
  !symbol.isEmpty && symbol.toList.isPrefixOf input

namespace Language

/-- A language as it is declared: symbols in any order, and words in the spelling in which a language
without case distinction would not find them. The first rule is where parsing starts unless
`startRule` names another, which then counts as a rule. -/
structure Declaration where
  name : String
  version : String
  keywords : List (String × Keyword) := []
  operators : List OperatorEntry := []
  punctuators : List PunctuatorEntry := []
  rules : List String := []
  startRule : Option String := none
  isTypeName : (String → Bool) → String → Bool := fun isTypedefName name => isTypedefName name
  comments : CommentStyle := {}
  classes : CharacterClasses := {}
  marks : LiteralMarks := {}
  numbers : NumberForms := {}
  features : LanguageFeatures := {}

def Declaration.build (declaration : Declaration) : Language :=
  let rules := match declaration.startRule with
    | some rule =>
      if declaration.rules.contains rule then declaration.rules else declaration.rules ++ [rule]
    | none => declaration.rules
  { name := declaration.name
    version := declaration.version
    keywords := declaration.keywords.map fun entry =>
      (if declaration.features.caseSensitive then entry.1 else lowercaseAscii entry.1, entry.2)
    operators := longestFirst OperatorEntry.symbol declaration.operators
    punctuators := longestFirst PunctuatorEntry.symbol declaration.punctuators
    rules := rules
    startRule := declaration.startRule.getD (rules.head?.getD "")
    isTypeName := declaration.isTypeName
    comments := declaration.comments
    classes := declaration.classes
    marks := declaration.marks
    numbers := declaration.numbers
    features := declaration.features }

/-- The word that `lexeme` spells; of two entries with one spelling the later counts. -/
def keyword? (language : Language) (lexeme : String) : Option Keyword :=
  let spelling := if language.features.caseSensitive then lexeme else lowercaseAscii lexeme
  (language.keywords.reverse.find? fun entry => entry.1 == spelling).map Prod.snd

/-- The number of different spellings. -/
def keywordCount (language : Language) : Nat :=
  (language.keywords.map Prod.fst).eraseDups.length

def operatorEntry? (language : Language) (operator : Operator) : Option OperatorEntry :=
  language.operators.find? fun entry => entry.operator == operator

def precedence? (language : Language) (operator : Operator) : Option Nat :=
  (language.operatorEntry? operator).map OperatorEntry.precedence

/-- The longest operator symbol that `input` begins with. -/
def matchOperator? (language : Language) (input : List Char) : Option OperatorEntry :=
  language.operators.find? fun entry => beginsWith entry.symbol input

/-- The longest punctuator symbol that `input` begins with. -/
def matchPunctuator? (language : Language) (input : List Char) : Option PunctuatorEntry :=
  language.punctuators.find? fun entry => beginsWith entry.symbol input

def hasRule (language : Language) (name : String) : Bool := language.rules.contains name

end Language

end CFrontEnd
