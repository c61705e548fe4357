import CFrontEnd.Grammar.Start
import CFrontEnd.Language.Table
import CFrontEnd.Proofs.Grammar.Operands
import CFrontEnd.Token.Basic
import CFrontEnd.Tree.Node

/-!
The grammar of operator expressions over identifiers and integers, with the tree that each phrase
stands for. An operator gives its place to its node, and parentheses leave no trace. No token of such an
expression begins a type or a block.
-/

namespace CFrontEnd

/-! ## Phrases -/

/-- The sorts of phrases, loosest first. Binary operators have one sort for each level. -/
inductive Phrase
  | expression
  | assignment
  | conditional
  | binary (level : Nat)
  | unary
  | suffixed
  | primary
  deriving DecidableEq, Repr

namespace Phrase

def prefixOperators : List (Operator × UnaryOperator) :=
  [(.increment, .stepUp), (.decrement, .stepDown), (.plus, .plus), (.minus, .minus),
    (.bang, .logicalNot), (.tilde, .bitNot), (.star, .dereference), (.ampersand, .addressOf)]

def suffixOperators : List (Operator × UnaryOperator) :=
  [(.increment, .laterStepUp), (.decrement, .laterStepDown)]

def memberOperators : List (Operator × NodeKind) := [(.dot, .member), (.arrow, .arrow)]

end Phrase

/-- An argument of a call with the comma in front of it. -/
structure LaterArgument where
  comma : Token
  tokens : List Token
  tree : Node

def LaterArgument.stretch (argument : LaterArgument) : List Token :=
  argument.comma :: argument.tokens

/-- The tokens are a phrase of the given sort, and it stands for the tree. -/
inductive Derives (language : Language) : Phrase → List Token → Node → Prop
  | single {tokens tree} :
      Derives language .assignment tokens tree → Derives language .expression tokens tree
  | comma {left right : List Token} {token first second} :
      Derives language .expression left first → token.kind = .punctuator .comma →
      Derives language .assignment right second →
      Derives language .expression (left ++ token :: right)
        (.ofChildren .comma token.location [first, second])
  | value {tokens tree} :
      Derives language .conditional tokens tree → Derives language .assignment tokens tree
  | assign {left right : List Token} {token operator assignment target value} :
      Derives language .conditional left target → token.kind = .operator operator →
      AssignmentOperator.ofOperator? operator = some assignment →
      Derives language .assignment right value →
      Derives language .assignment (left ++ token :: right)
        (.ofChildren (.assignment assignment) token.location [target, value])
  | plain {tokens tree} :
      Derives language (.binary 3) tokens tree → Derives language .conditional tokens tree
  | choice {test taken rest : List Token} {question colon condition value otherwise} :
      Derives language (.binary 3) test condition → question.kind = .operator .question →
      Derives language .expression taken value → colon.kind = .punctuator .colon →
      Derives language .conditional rest otherwise →
      Derives language .conditional (test ++ question :: (taken ++ colon :: rest))
        (.ofChildren .conditional question.location [condition, value, otherwise])
  | tighter {level tokens tree} : 3 ≤ level → level ≤ 12 →
      Derives language (.binary (level + 1)) tokens tree →
      Derives language (.binary level) tokens tree
  | operated {level operator binary first second} {left right : List Token} {token} :
      3 ≤ level → level ≤ 12 →
      Derives language (.binary level) left first → token.kind = .operator operator →
      language.precedence? operator = some level →
      BinaryOperator.ofOperator? operator = some binary →
      Derives language (.binary (level + 1)) right second →
      Derives language (.binary level) (left ++ token :: right)
        (.ofChildren (.binary binary) token.location [first, second])
  | operand {tokens tree} :
      Derives language .unary tokens tree → Derives language (.binary 13) tokens tree
  | unprefixed {tokens tree} :
      Derives language .suffixed tokens tree → Derives language .unary tokens tree
  | prefixed {operator unary} {token : Token} {tokens tree} :
      token.kind = .operator operator → (operator, unary) ∈ Phrase.prefixOperators →
      Derives language .unary tokens tree →
      Derives language .unary (token :: tokens)
        (.ofChildren (.unary unary) token.location [tree])
  | unsuffixed {tokens tree} :
      Derives language .primary tokens tree → Derives language .suffixed tokens tree
  | subscript {base inner : List Token} {opening closing array index} :
      Derives language .suffixed base array → opening.kind = .punctuator .openBracket →
      Derives language .expression inner index → closing.kind = .punctuator .closeBracket →
      Derives language .suffixed (base ++ opening :: (inner ++ [closing]))
        (.ofChildren .subscript opening.location [array, index])
  | callEmpty {base : List Token} {opening closing callee} :
      Derives language .suffixed base callee → opening.kind = .punctuator .openParen →
      closing.kind = .punctuator .closeParen →
      Derives language .suffixed (base ++ [opening, closing])
        (.ofChildren .call opening.location [callee])
  | call {base inner : List Token} {opening closing callee first}
      {later : List LaterArgument} :
      Derives language .suffixed base callee → opening.kind = .punctuator .openParen →
      Derives language .assignment inner first →
      (∀ argument ∈ later, argument.comma.kind = .punctuator .comma) →
      (∀ argument ∈ later, Derives language .assignment argument.tokens argument.tree) →
      closing.kind = .punctuator .closeParen →
      Derives language .suffixed
        (base ++ opening :: (inner ++ later.flatMap LaterArgument.stretch ++ [closing]))
        (.ofChildren .call opening.location (callee :: first :: later.map LaterArgument.tree))
  | member {operator kind} {base : List Token} {symbol name object} :
      Derives language .suffixed base object → symbol.kind = .operator operator →
      (operator, kind) ∈ Phrase.memberOperators → name.kind = .identifier →
      Derives language .suffixed (base ++ [symbol, name])
        ⟨kind, symbol.location, .name name.lexeme, [object]⟩
  | stepped {operator unary} {base : List Token} {symbol tree} :
      Derives language .suffixed base tree → symbol.kind = .operator operator →
      (operator, unary) ∈ Phrase.suffixOperators →
      Derives language .suffixed (base ++ [symbol])
        (.ofChildren (.unary unary) symbol.location [tree])
  | name {token} : token.kind = .identifier →
      Derives language .primary [token] (.named .identifier token.location token.lexeme)
  | integer {token} : token.kind = .literal .integer →
      Derives language .primary [token]
        (.leaf .integerLiteral token.location (.literal (token.literalOf .integer)))
  | parenthesized {inner : List Token} {opening closing tree} :
      opening.kind = .punctuator .openParen → Derives language .expression inner tree →
      closing.kind = .punctuator .closeParen →
      Derives language .primary (opening :: (inner ++ [closing])) tree

/-- A phrase has a first token. The only punctuator that begins a phrase is the opening parenthesis,
and an operator in front belongs to a unary expression. -/
theorem Derives.begins {language : Language} {phrase : Phrase} {tokens : List Token} {tree : Node}
    (derives : Derives language phrase tokens tree) :
    ∃ token rest, tokens = token :: rest ∧
      (∀ punctuator, token.kind = .punctuator punctuator → punctuator = .openParen) ∧
      (phrase = .suffixed ∨ phrase = .primary →
        ∀ operator, token.kind ≠ .operator operator ∧ ∀ word, token.kind ≠ .keyword word) := by
  induction derives with
  | single _ ih | value _ ih | plain _ ih | tighter _ _ _ ih | operand _ ih | unprefixed _ ih =>
      obtain ⟨token, rest, same, opens, _⟩ := ih
      exact ⟨token, rest, same, opens, by simp⟩
  | comma _ _ _ ih | assign _ _ _ _ ih | choice _ _ _ _ _ ih | operated _ _ _ _ _ _ _ ih =>
      obtain ⟨token, rest, rfl, opens, _⟩ := ih
      exact ⟨token, _, rfl, opens, by simp⟩
  | prefixed symbol => exact ⟨_, _, rfl, by simp [symbol], by simp⟩
  | unsuffixed _ ih =>
      obtain ⟨token, rest, same, opens, noOperator⟩ := ih
      exact ⟨token, rest, same, opens, fun _ => noOperator (.inr rfl)⟩
  | subscript _ _ _ _ ih | callEmpty _ _ _ ih | call _ _ _ _ _ _ ih | member _ _ _ _ ih
  | stepped _ _ _ ih =>
      obtain ⟨token, rest, rfl, opens, noOperator⟩ := ih
      exact ⟨token, _, rfl, opens, fun _ => noOperator (.inl rfl)⟩
  | name isName => exact ⟨_, _, rfl, by simp [isName], by simp [isName]⟩
  | integer isInteger => exact ⟨_, _, rfl, by simp [isInteger], by simp [isInteger]⟩
  | parenthesized opens => exact ⟨_, _, rfl, by simp [opens], by simp [opens]⟩

/-! ## Tokens -/

/-- The tokens of operator expressions. The name of the built-in type is no identifier. -/
def Token.IsOperatorToken (token : Token) : Prop :=
  match token.kind with
  | .identifier => token.lexeme ≠ "__builtin_va_list"
  | .literal .integer | .operator _ => True
  | .punctuator .openParen | .punctuator .closeParen | .punctuator .openBracket
  | .punctuator .closeBracket | .punctuator .comma | .punctuator .colon => True
  | _ => False

/-- Standard C17 over operator tokens. -/
structure OperatorContext (context : ParseContext) : Prop where
  language : context.language = cLanguage ⟨.c17, false⟩
  notGnu : context.dialect.gnu = false
  tokens : ∀ token ∈ context.tokens.body.toList, token.IsOperatorToken

theorem ScopeStack.isTypedefName_enter (scopes : ScopeStack) (name : String) :
    scopes.enter.isTypedefName name = scopes.isTypedefName name := by
  simp [isTypedefName, lookupName?, enter, toList, List.findSome?_cons]

/-- A state in which problems are recorded and no name stands for a type. -/
structure ParseState.IsPlain (state : ParseState) : Prop where
  calm : state.panicking = false
  noTypes : ∀ name, state.scopes.isTypedefName name = false

theorem ParseState.IsPlain.movedTo {state : ParseState} (plain : state.IsPlain) (position : Nat) :
    (state.movedTo position).IsPlain :=
  ⟨plain.calm, plain.noTypes⟩

theorem ParseState.IsPlain.enter {state : ParseState} (plain : state.IsPlain) :
    (state.rescoped state.scopes.enter).IsPlain := by
  refine ⟨plain.calm, fun name => ?_⟩
  rw [scopes_rescoped, ScopeStack.isTypedefName_enter, plain.noTypes]

namespace OperatorContext

variable {context : ParseContext} (operators : OperatorContext context) {state : ParseState}
include operators

theorem token_or_end (position : Nat) :
    (context.tokens.get position).IsOperatorToken ∨
      (context.tokens.get position).kind = .endOfFile := by
  by_cases inside : position < context.tokens.body.size
  · left
    simp only [TokenStream.get, inside, dite_true]
    exact operators.tokens _ (by simp)
  · right
    simp [TokenStream.get, inside, TokenStream.final, Token.endOfFile]

theorem noTypeName (plain : state.IsPlain) {position : Nat}
    (isName : (context.tokens.get position).kind = .identifier) :
    context.language.isTypeName state.scopes.isTypedefName
      (context.tokens.get position).lexeme = false := by
  have allowed := operators.token_or_end position
  simp only [Token.IsOperatorToken, isName, reduceCtorEq, or_false] at allowed
  rw [operators.language]
  simpa [cLanguage, Language.Declaration.build, isCTypeName, plain.noTypes] using allowed

theorem noType (plain : state.IsPlain) :
    Parse.atParenthesizedType context state = .ok false state := by
  have allowed := operators.token_or_end (state.position + 1)
  rw [Productions.atParenthesizedType_apply]
  cases kind : (context.tokens.get (state.position + 1)).kind with
  | identifier => simp [Productions.beginsTypeName, kind, operators.noTypeName plain kind]
  | keyword word => simp [Token.IsOperatorToken, kind] at allowed
  | _ => simp [Productions.beginsTypeName, kind]

theorem noBrace (position : Nat) :
    (context.tokens.get position).kind ≠ .punctuator .openBrace := by
  intro brace
  simpa [Token.IsOperatorToken, brace] using operators.token_or_end position

end OperatorContext

end CFrontEnd
