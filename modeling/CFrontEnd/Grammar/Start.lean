import CFrontEnd.Failure
import CFrontEnd.Grammar.Rules.Declarators
import CFrontEnd.Grammar.Rules.Statements
import CFrontEnd.Language.C
import CFrontEnd.Scan.Scanner

/-!
The grammar as a whole, and parsing from one of its rules. Problems do not keep a text from being
parsed: the tree holds what was read before them and between them.
-/

namespace CFrontEnd

namespace Productions

/-- The productions of a level, made of those one level further in. -/
def rules (deeper : Productions) : Productions where
  assignment := assignmentRule deeper
  conditional := conditionalRule deeper
  cast := castRule deeper
  unary := unaryRule deeper
  initializerList := initializerListRule deeper
  statement := statementRule deeper
  specifiers := specifiersRule deeper
  declarator := declaratorRule deeper

/-- The productions with so many levels left. -/
def ofLevels : Nat → Productions
  | 0 => exhausted
  | levels + 1 => rules (ofLevels levels)

end Productions

/-- How deep a text may nest. -/
def maxNesting : Nat := 1024

/-- The rules from which a text can be parsed. -/
inductive StartRule
  | program
  | externalDeclaration
  | declaration
  | statement
  | compoundStatement
  | expression
  | assignmentExpression
  | typeName
  | initializer
  deriving DecidableEq, Repr

namespace StartRule

def all : List StartRule :=
  [.program, .externalDeclaration, .declaration, .statement, .compoundStatement,
    .expression, .assignmentExpression, .typeName, .initializer]

def name : StartRule → String
  | .program => "translation_unit"
  | .externalDeclaration => "external_declaration"
  | .declaration => "declaration"
  | .statement => "statement"
  | .compoundStatement => "compound_statement"
  | .expression => "expression"
  | .assignmentExpression => "assignment_expression"
  | .typeName => "type_name"
  | .initializer => "initializer"

def ofName? (name : String) : Option StartRule := all.find? fun rule => rule.name == name

open Parse

/-- A whole text: declarations up to its end. -/
def wholeText (productions : Productions) : Parse Node := do
  let start ← location
  let nodes ← recoveringItems (fun _ => false) (Productions.externalDeclaration productions)
  return .ofChildren .program start nodes.toList

def production (rule : StartRule) (productions : Productions) : Parse Node :=
  match rule with
  | .program => wholeText productions
  | .externalDeclaration => do
    let start ← location
    return groupDeclarations start (← completed (Productions.externalDeclaration productions))
  | .declaration => Productions.groupedDeclaration productions
  | .statement => productions.statement
  | .compoundStatement => Productions.block productions
  | .expression => productions.expression
  | .assignmentExpression => productions.assignment
  | .typeName => productions.typeName
  | .initializer => productions.initializer

end StartRule

/-- Parses from the named rule. A rule that the language does not know is a problem of its own. -/
def Parse.fromRule (name : String) : Parse Node := fun context state =>
  let rule := if context.language.hasRule name then StartRule.ofName? name else none
  match rule with
  | some rule => rule.production (.ofLevels maxNesting) context state
  | none =>
    let place := (context.tokens.get state.position).location
    let message := "grammar rule '" ++ name ++ "' is not bound for " ++ context.language.name
    .error .givenUp { state with diagnostics := state.diagnostics.report .internal place message }

/-- The named rule has to use up all tokens. -/
def Parse.wholeRule (name : String) : Parse Node := do
  let node ← fromRule name
  if !(← atEnd) then
    let token ← peek
    complain token.location (.unfinishedRule token name)
  return node

namespace Language

/-- The dialect that the version of the language names. -/
def dialect (language : Language) : Dialect :=
  (Dialect.parse? language.version).getD .standardDefault

def run {α : Type} (language : Language) (production : Parse α) (tokens : TokenStream)
    (diagnostics : Diagnostics) : EStateM.Result GivenUp ParseState α :=
  production { tokens := tokens, language := language, dialect := language.dialect }
    { position := 0, scopes := .initial, diagnostics := diagnostics, panicking := false }

/-- The tree of the tokens by the named rule, and the problems found until then. -/
def parseRule (language : Language) (name : String) (tokens : TokenStream)
    (diagnostics : Diagnostics) : Option Node × Diagnostics :=
  match language.run (Parse.wholeRule name) tokens diagnostics with
  | .ok node state => (some node, state.diagnostics)
  | .error _ state => (none, state.diagnostics)

/-- The tree of the tokens by the rule that the language starts from. Without a tree there is an
empty one where parsing ended. -/
def parse (language : Language) (tokens : TokenStream) (diagnostics : Diagnostics) :
    Node × Diagnostics :=
  match language.run (Parse.fromRule language.startRule) tokens diagnostics with
  | .ok node state => (node, state.diagnostics)
  | .error _ state =>
    (.leaf .program (tokens.get state.position).location .none, state.diagnostics)

def parseSource (language : Language) (buffer : SourceBuffer) : Node × Diagnostics :=
  let (tokens, diagnostics) := tokenize language buffer .empty
  language.parse tokens diagnostics

end Language

/-- The tree of a text without problems, or the failure that lists them. -/
def parseProgram (dialect : Dialect) (text : String) : Except Failure Node :=
  let (node, diagnostics) := (cLanguage dialect).parseSource ⟨"<input>", text⟩
  match diagnostics.rejection? with
  | none => .ok node
  | some failure => .error failure

end CFrontEnd
