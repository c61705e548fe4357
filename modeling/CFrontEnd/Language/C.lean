import CFrontEnd.Language.ReservedWords
import CFrontEnd.Language.Table

/-!
The tables of C in each of its dialects.
-/

namespace CFrontEnd

def OperatorEntry.atLevel (symbol : String) (operator : Operator) (precedence : Precedence)
    (associativity : Associativity) : OperatorEntry :=
  ⟨symbol, operator, precedence.level, associativity⟩

def cOperators : List OperatorEntry :=
  [ .atLevel "<<=" .shiftLeftAssign .assignment .right,
    .atLevel ">>=" .shiftRightAssign .assignment .right,
    .atLevel "+=" .plusAssign .assignment .right,
    .atLevel "-=" .minusAssign .assignment .right,
    .atLevel "*=" .starAssign .assignment .right,
    .atLevel "/=" .slashAssign .assignment .right,
    .atLevel "%=" .percentAssign .assignment .right,
    .atLevel "&=" .andAssign .assignment .right,
    .atLevel "^=" .xorAssign .assignment .right,
    .atLevel "|=" .orAssign .assignment .right,
    .atLevel "->" .arrow .postfixLevel .left,
    .atLevel "++" .increment .postfixLevel .left,
    .atLevel "--" .decrement .postfixLevel .left,
    .atLevel "<<" .shiftLeft .shift .left,
    .atLevel ">>" .shiftRight .shift .left,
    .atLevel "<=" .lessEqual .relational .left,
    .atLevel ">=" .greaterEqual .relational .left,
    .atLevel "==" .equal .equality .left,
    .atLevel "!=" .notEqual .equality .left,
    .atLevel "&&" .logicalAnd .logicalAnd .left,
    .atLevel "||" .logicalOr .logicalOr .left,
    .atLevel "=" .assign .assignment .right,
    .atLevel "?" .question .conditional .right,
    .atLevel "|" .pipe .bitOr .left,
    .atLevel "^" .caret .bitXor .left,
    .atLevel "&" .ampersand .bitAnd .left,
    .atLevel "<" .less .relational .left,
    .atLevel ">" .greater .relational .left,
    .atLevel "+" .plus .additive .left,
    .atLevel "-" .minus .additive .left,
    .atLevel "*" .star .multiplicative .left,
    .atLevel "/" .slash .multiplicative .left,
    .atLevel "%" .percent .multiplicative .left,
    .atLevel "!" .bang .unary .right,
    .atLevel "~" .tilde .unary .right,
    .atLevel "." .dot .postfixLevel .left ]

def cPunctuators : List PunctuatorEntry :=
  [ ⟨"...", .ellipsis⟩,
    ⟨"(", .openParen⟩,
    ⟨")", .closeParen⟩,
    ⟨"\x7b", .openBrace⟩,
    ⟨"\x7d", .closeBrace⟩,
    ⟨"[", .openBracket⟩,
    ⟨"]", .closeBracket⟩,
    ⟨";", .semicolon⟩,
    ⟨",", .comma⟩,
    ⟨":", .colon⟩ ]

def cGrammarRules : List String :=
  [ "translation_unit",
    "external_declaration",
    "declaration",
    "statement",
    "compound_statement",
    "expression",
    "assignment_expression",
    "type_name",
    "initializer" ]

/-- The type of variable argument lists needs no declaration. -/
def isCTypeName (isTypedefName : String → Bool) (name : String) : Bool :=
  name == "__builtin_va_list" || isTypedefName name

def cLanguage (dialect : Dialect) : Language :=
  Language.Declaration.build
    { name := "C"
      version := dialect.versionTag
      keywords := reservedIn dialect
      operators := cOperators
      punctuators := cPunctuators
      rules := cGrammarRules
      startRule := some "translation_unit"
      isTypeName := isCTypeName
      comments :=
        { line := if dialect.gnu || Standard.c99 ≤ dialect.standard then some "//" else none
          block := some ("/*", "*/") }
      numbers :=
        { hexadecimal := true
          octal := true
          binary := dialect.gnu || Standard.c23 ≤ dialect.standard
          fraction := true
          exponent := true }
      features := { directives := true } }

end CFrontEnd
