import CFrontEnd.Proofs.Spelling.OperatorTrees

/-!
The trees of statements over names and integers, and how they are written: no braces are added, and so
a branch in front of an `else` must not end in an `if` that could take the `else` for its own.
-/

namespace CFrontEnd

namespace Node

mutual

/-- Whether an `else` behind the statement would belong to an `if` at its end. -/
def endsOpen : Node → Bool
  | ⟨.ifStatement, _, _, children⟩ => children.length == 2 || lastEndsOpen children
  | ⟨.whileLoop, _, _, children⟩ | ⟨.forLoop, _, _, children⟩
  | ⟨.switchStatement, _, _, children⟩ | ⟨.caseLabel, _, _, children⟩
  | ⟨.defaultLabel, _, _, children⟩ | ⟨.labeled, _, _, children⟩ => lastEndsOpen children
  | _ => false

def lastEndsOpen : List Node → Bool
  | [] => false
  | [node] => endsOpen node
  | _ :: rest => lastEndsOpen rest

end

/-! ## Texts -/

/-- A part between the parentheses of a loop, which may be left out. -/
def clauseText (node : Node) : String :=
  if node.kind = .empty then "" else node.expressionText

/-- A statement from its children and from the texts of those that are statements. -/
def statementLayout (kind : NodeKind) (payload : Payload) (children : List Node)
    (texts : List String) : String :=
  match kind, children, texts with
  | .expressionStatement, [value], _ => value.expressionText ++ ";"
  | .compound, _, items => "\x7b " ++ String.join (items.map fun item => item ++ " ") ++ "\x7d"
  | .ifStatement, [condition, _], [_, taken] => "if (" ++ condition.expressionText ++ ") " ++ taken
  | .ifStatement, [condition, _, _], [_, taken, otherwise] =>
    "if (" ++ condition.expressionText ++ ") " ++ taken ++ " else " ++ otherwise
  | .whileLoop, [condition, _], [_, body] => "while (" ++ condition.expressionText ++ ") " ++ body
  | .doWhileLoop, [_, condition], [body, _] =>
    "do " ++ body ++ " while (" ++ condition.expressionText ++ ");"
  | .forLoop, [beginning, condition, step, _], [_, _, _, body] =>
    "for (" ++ beginning.clauseText ++ "; " ++ condition.clauseText ++ "; " ++ step.clauseText ++
      ") " ++ body
  | .switchStatement, [value, _], [_, body] => "switch (" ++ value.expressionText ++ ") " ++ body
  | .caseLabel, [value, _], [_, body] => "case " ++ value.expressionText ++ ": " ++ body
  | .defaultLabel, _, [body] => "default: " ++ body
  | .labeled, _, [body] => payload.name?.getD "" ++ ": " ++ body
  | .returnStatement, [], _ => "return;"
  | .returnStatement, [value], _ => "return " ++ value.expressionText ++ ";"
  | .breakStatement, _, _ => "break;"
  | .continueStatement, _, _ => "continue;"
  | .gotoStatement, _, _ => "goto " ++ payload.name?.getD "" ++ ";"
  | _, _, _ => ";"

mutual

/-- The node as a statement. -/
def statementText : Node → String
  | ⟨kind, _, payload, children⟩ => statementLayout kind payload children (statementTexts children)

def statementTexts : List Node → List String
  | [] => []
  | node :: rest => statementText node :: statementTexts rest

end

theorem statementTexts_eq_map (nodes : List Node) :
    statementTexts nodes = nodes.map statementText := by
  induction nodes with
  | nil => simp [statementTexts]
  | cons node rest ih => simp [statementTexts, ih]

section

variable {spot : SourceLocation} {value condition taken otherwise body : Node}

theorem statementText_empty : statementText ⟨.empty, spot, .none, []⟩ = ";" :=
  rfl

theorem statementText_expression :
    statementText ⟨.expressionStatement, spot, .none, [value]⟩ = value.expressionText ++ ";" :=
  rfl

theorem statementText_compound (items : List Node) :
    statementText ⟨.compound, spot, .none, items⟩ =
      "\x7b " ++ String.join (items.map fun item => item.statementText ++ " ") ++ "\x7d" := by
  change "\x7b " ++ String.join ((statementTexts items).map fun item => item ++ " ") ++ "\x7d" = _
  rw [statementTexts_eq_map, List.map_map]
  rfl

theorem statementText_ifThen :
    statementText ⟨.ifStatement, spot, .none, [condition, taken]⟩ =
      "if (" ++ condition.expressionText ++ ") " ++ taken.statementText :=
  rfl

theorem statementText_ifElse :
    statementText ⟨.ifStatement, spot, .none, [condition, taken, otherwise]⟩ =
      "if (" ++ condition.expressionText ++ ") " ++ taken.statementText ++ " else " ++
        otherwise.statementText :=
  rfl

theorem statementText_whileLoop :
    statementText ⟨.whileLoop, spot, .none, [condition, body]⟩ =
      "while (" ++ condition.expressionText ++ ") " ++ body.statementText :=
  rfl

theorem statementText_doWhileLoop :
    statementText ⟨.doWhileLoop, spot, .none, [body, condition]⟩ =
      "do " ++ body.statementText ++ " while (" ++ condition.expressionText ++ ");" :=
  rfl

theorem statementText_forLoop {beginning step : Node} :
    statementText ⟨.forLoop, spot, .none, [beginning, condition, step, body]⟩ =
      "for (" ++ beginning.clauseText ++ "; " ++ condition.clauseText ++ "; " ++ step.clauseText ++
        ") " ++ body.statementText :=
  rfl

theorem statementText_switchStatement :
    statementText ⟨.switchStatement, spot, .none, [value, body]⟩ =
      "switch (" ++ value.expressionText ++ ") " ++ body.statementText :=
  rfl

theorem statementText_caseLabel :
    statementText ⟨.caseLabel, spot, .none, [value, body]⟩ =
      "case " ++ value.expressionText ++ ": " ++ body.statementText :=
  rfl

theorem statementText_defaultLabel :
    statementText ⟨.defaultLabel, spot, .none, [body]⟩ = "default: " ++ body.statementText :=
  rfl

theorem statementText_labeled (name : String) :
    statementText ⟨.labeled, spot, .name name, [body]⟩ = name ++ ": " ++ body.statementText :=
  rfl

theorem statementText_returnNothing :
    statementText ⟨.returnStatement, spot, .none, []⟩ = "return;" :=
  rfl

theorem statementText_returnValue :
    statementText ⟨.returnStatement, spot, .none, [value]⟩ =
      "return " ++ value.expressionText ++ ";" :=
  rfl

theorem statementText_breakStatement :
    statementText ⟨.breakStatement, spot, .none, []⟩ = "break;" :=
  rfl

theorem statementText_continueStatement :
    statementText ⟨.continueStatement, spot, .none, []⟩ = "continue;" :=
  rfl

theorem statementText_gotoStatement (name : String) :
    statementText ⟨.gotoStatement, spot, .name name, []⟩ = "goto " ++ name ++ ";" :=
  rfl

end

end Node

/-! ## Trees -/

/-- A name that is neither a word nor a type, or an integer. -/
inductive IsOperand (dialect : Dialect) : Node → Prop
  | identifier {spot : SourceLocation} {name : String} (isName : IsName dialect name)
      (notBuiltin : name ≠ "__builtin_va_list") :
      IsOperand dialect ⟨.identifier, spot, .name name, []⟩
  | integer {spot : SourceLocation} {value : Nat} {suffix : IntegerSuffix}
      (isInteger : IsIntegerLiteral value suffix) :
      IsOperand dialect ⟨.integerLiteral, spot, .literal (.integer value suffix), []⟩

inductive IsClause (dialect : Dialect) : Node → Prop
  | empty {spot : SourceLocation} : IsClause dialect ⟨.empty, spot, .none, []⟩
  | operand {value : Node} (isOperand : IsOperand dialect value) : IsClause dialect value

inductive IsStatementTree (dialect : Dialect) : Node → Prop
  | empty {spot : SourceLocation} : IsStatementTree dialect ⟨.empty, spot, .none, []⟩
  | expression {spot : SourceLocation} {value : Node} (isOperand : IsOperand dialect value) :
      IsStatementTree dialect ⟨.expressionStatement, spot, .none, [value]⟩
  | compound {spot : SourceLocation} {items : List Node} :
      (∀ item ∈ items, IsStatementTree dialect item) →
      IsStatementTree dialect ⟨.compound, spot, .none, items⟩
  | ifThen {spot : SourceLocation} {condition taken : Node}
      (isOperand : IsOperand dialect condition) : IsStatementTree dialect taken →
      IsStatementTree dialect ⟨.ifStatement, spot, .none, [condition, taken]⟩
  | ifElse {spot : SourceLocation} {condition taken otherwise : Node}
      (isOperand : IsOperand dialect condition) (closed : taken.endsOpen = false) :
      IsStatementTree dialect taken → IsStatementTree dialect otherwise →
      IsStatementTree dialect ⟨.ifStatement, spot, .none, [condition, taken, otherwise]⟩
  | whileLoop {spot : SourceLocation} {condition body : Node}
      (isOperand : IsOperand dialect condition) : IsStatementTree dialect body →
      IsStatementTree dialect ⟨.whileLoop, spot, .none, [condition, body]⟩
  | doWhileLoop {spot : SourceLocation} {body condition : Node}
      (isOperand : IsOperand dialect condition) : IsStatementTree dialect body →
      IsStatementTree dialect ⟨.doWhileLoop, spot, .none, [body, condition]⟩
  | forLoop {spot : SourceLocation} {beginning condition step body : Node}
      (isBeginning : IsClause dialect beginning) (isCondition : IsClause dialect condition)
      (isStep : IsClause dialect step) : IsStatementTree dialect body →
      IsStatementTree dialect ⟨.forLoop, spot, .none, [beginning, condition, step, body]⟩
  | switchStatement {spot : SourceLocation} {value body : Node}
      (isOperand : IsOperand dialect value) : IsStatementTree dialect body →
      IsStatementTree dialect ⟨.switchStatement, spot, .none, [value, body]⟩
  | caseLabel {spot : SourceLocation} {value body : Node} (isOperand : IsOperand dialect value) :
      IsStatementTree dialect body →
      IsStatementTree dialect ⟨.caseLabel, spot, .none, [value, body]⟩
  | defaultLabel {spot : SourceLocation} {body : Node} : IsStatementTree dialect body →
      IsStatementTree dialect ⟨.defaultLabel, spot, .none, [body]⟩
  | labeled {spot : SourceLocation} {name : String} {body : Node} (isName : IsName dialect name) :
      IsStatementTree dialect body →
      IsStatementTree dialect ⟨.labeled, spot, .name name, [body]⟩
  | returnNothing {spot : SourceLocation} :
      IsStatementTree dialect ⟨.returnStatement, spot, .none, []⟩
  | returnValue {spot : SourceLocation} {value : Node} (isOperand : IsOperand dialect value) :
      IsStatementTree dialect ⟨.returnStatement, spot, .none, [value]⟩
  | breakStatement {spot : SourceLocation} :
      IsStatementTree dialect ⟨.breakStatement, spot, .none, []⟩
  | continueStatement {spot : SourceLocation} :
      IsStatementTree dialect ⟨.continueStatement, spot, .none, []⟩
  | gotoStatement {spot : SourceLocation} {name : String} (isName : IsName dialect name) :
      IsStatementTree dialect ⟨.gotoStatement, spot, .name name, []⟩

end CFrontEnd
