import CFrontEnd.Grammar.TypeWords
import CFrontEnd.Token.Stream
import CFrontEnd.Tree.Walk

/-!
What the nodes of a tree look like: for each kind, the sorts of its children in their order and the form
of its payload. A tree is well formed over a text if all of its nodes look like that and stand where
tokens of the text stand.
-/

namespace CFrontEnd

/-! ## Sorts of nodes -/

namespace NodeKind

def isExpression : NodeKind → Bool
  | .binary _ | .unary _ | .assignment _ | .conditional | .binaryConditional | .comma | .call
  | .member | .arrow | .subscript | .cast | .sizeofExpression | .sizeofType | .alignofExpression
  | .alignofType | .compoundLiteral | .genericSelection | .identifier | .integerLiteral
  | .floatLiteral | .characterLiteral | .stringLiteral | .booleanLiteral | .nullptrLiteral
  | .statementExpression | .labelAddress | .builtinVaArg | .builtinOffsetof
  | .builtinTypesCompatible => true
  | _ => false

def isStatement : NodeKind → Bool
  | .compound | .ifStatement | .whileLoop | .doWhileLoop | .forLoop | .switchStatement | .caseLabel
  | .defaultLabel | .returnStatement | .breakStatement | .continueStatement | .gotoStatement
  | .indirectGoto | .labeled | .expressionStatement | .empty | .assembly => true
  | _ => false

/-- What a declaration leads to, in a block as well as at the top of a text. -/
def isDeclared : NodeKind → Bool
  | .functionDeclaration | .variableDeclaration | .typedefDeclaration | .structDeclaration
  | .unionDeclaration | .enumDeclaration | .staticAssertion => true
  | _ => false

def isBlockDeclaration (kind : NodeKind) : Bool := kind.isDeclared || kind == .labelDeclaration

def isExternal (kind : NodeKind) : Bool := kind.isDeclared || kind == .assembly

def isBlockItem (kind : NodeKind) : Bool := kind.isBlockDeclaration || kind.isStatement

def isGroupedDeclaration (kind : NodeKind) : Bool :=
  kind.isBlockDeclaration || kind == .declarationGroup

/-- What a label stands in front of. -/
def isLabelBody (kind : NodeKind) : Bool := kind.isStatement || kind.isGroupedDeclaration

def isMember : NodeKind → Bool
  | .fieldDeclaration | .staticAssertion => true
  | _ => false

def isTypeOrExpression (kind : NodeKind) : Bool := kind.isType || kind.isExpression

/-- An expression, or what stands for one that is left out. -/
def isClause (kind : NodeKind) : Bool := kind.isExpression || kind == .empty

def isLoopBeginning (kind : NodeKind) : Bool := kind.isClause || kind.isGroupedDeclaration

def isAssociation : NodeKind → Bool
  | .genericAssociation | .genericDefault => true
  | _ => false

def isInitializer (kind : NodeKind) : Bool := kind.isExpression || kind == .initializerList

def isInitializerItem (kind : NodeKind) : Bool := kind.isInitializer || kind == .designation

/-- A step on the way to a member. -/
def isMemberStep : NodeKind → Bool
  | .fieldDesignator | .indexDesignator => true
  | _ => false

def isDesignator (kind : NodeKind) : Bool := kind.isMemberStep || kind == .rangeDesignator

end NodeKind

/-! ## Children -/

/-- A place among the children of a node, with the sort of what may stand there. -/
inductive Slot
  | one (sort : NodeKind → Bool)
  | optional (sort : NodeKind → Bool)
  | many (sort : NodeKind → Bool)

namespace Slot

/-- Whether nodes of these kinds can stand in the place, one behind the other. -/
def admits : Slot → List NodeKind → Bool
  | .one sort, [kind] => sort kind
  | .optional _, [] => true
  | .optional sort, [kind] => sort kind
  | .many sort, kinds => kinds.all sort
  | _, _ => false

/-- Whether the kinds can be cut into parts of which each can stand in its place. -/
def fit : List Slot → List NodeKind → Bool
  | [], kinds => kinds.isEmpty
  | slot :: slots, kinds =>
    (List.range (kinds.length + 1)).any fun count =>
      slot.admits (kinds.take count) && fit slots (kinds.drop count)

theorem fit_append {slot : Slot} {slots : List Slot} {part rest : List NodeKind}
    (first : slot.admits part = true) (others : fit slots rest = true) :
    fit (slot :: slots) (part ++ rest) = true := by
  have bound : part.length < (part ++ rest).length + 1 := by
    rw [List.length_append]
    omega
  rw [fit, List.any_eq_true]
  refine ⟨part.length, List.mem_range.mpr bound, ?_⟩
  rw [List.take_left, List.drop_left, first, others]
  rfl

end Slot

/-- Whether the members of a type are listed. -/
def Payload.hasBody : Payload → Bool
  | .tag _ hasBody => hasBody
  | _ => false

/-- The children of a node, one behind the other. -/
def NodeKind.layout (payload : Payload) : NodeKind → List Slot
  | .program => [.many isExternal]
  | .functionDeclaration =>
    [.one isType, .many (· == .parameterDeclaration), .optional (· == .compound)]
  | .variableDeclaration => [.one isType, .many (· == .alignment), .optional isInitializer]
  | .parameterDeclaration => [.one isType]
  | .fieldDeclaration => [.one isType, .many (· == .alignment), .optional isExpression]
  | .structDeclaration | .unionDeclaration | .structType | .unionType =>
    if payload.hasBody then [.many isMember] else []
  | .enumDeclaration | .enumType =>
    .optional isType :: if payload.hasBody then [.many (· == .enumConstant)] else []
  | .enumConstant => [.optional isExpression]
  | .typedefDeclaration => [.one isType]
  | .staticAssertion => [.one isExpression, .optional (· == .stringLiteral)]
  | .declarationGroup => [.many isBlockDeclaration]
  | .alignment => [.one isTypeOrExpression]
  | .labelDeclaration => []
  | .compound => [.many isBlockItem]
  | .ifStatement => [.one isExpression, .one isStatement, .optional isStatement]
  | .whileLoop => [.one isExpression, .one isStatement]
  | .doWhileLoop => [.one isStatement, .one isExpression]
  | .forLoop => [.one isLoopBeginning, .one isClause, .one isClause, .one isStatement]
  | .switchStatement => [.one isExpression, .one isStatement]
  | .caseLabel => [.one isExpression, .optional isExpression, .one isLabelBody]
  | .defaultLabel | .labeled => [.one isLabelBody]
  | .returnStatement => [.optional isExpression]
  | .breakStatement | .continueStatement | .gotoStatement | .empty => []
  | .indirectGoto | .expressionStatement => [.one isExpression]
  | .assembly => [.many isExpression]
  | .binary _ | .assignment _ | .comma | .subscript | .binaryConditional =>
    [.one isExpression, .one isExpression]
  | .unary _ | .member | .arrow | .sizeofExpression | .alignofExpression | .genericDefault
  | .indexDesignator | .bitIntType => [.one isExpression]
  | .conditional => [.one isExpression, .one isExpression, .one isExpression]
  | .call => [.one isExpression, .many isExpression]
  | .cast | .genericAssociation => [.one isType, .one isExpression]
  | .sizeofType | .alignofType | .pointerType | .qualifiedType | .atomicType => [.one isType]
  | .compoundLiteral => [.one isType, .one (· == .initializerList)]
  | .genericSelection => [.one isExpression, .one isAssociation, .many isAssociation]
  | .identifier | .integerLiteral | .floatLiteral | .characterLiteral | .stringLiteral
  | .booleanLiteral | .nullptrLiteral | .labelAddress | .fieldDesignator | .builtinType
  | .typedefName => []
  | .statementExpression => [.one (· == .compound)]
  | .builtinVaArg => [.one isExpression, .one isType]
  | .builtinOffsetof => [.one isType, .one (· == .fieldDesignator), .many isMemberStep]
  | .builtinTypesCompatible => [.one isType, .one isType]
  | .initializerList => [.many isInitializerItem]
  | .designation => [.one isDesignator, .many isDesignator, .one isInitializer]
  | .rangeDesignator => [.one isExpression, .one isExpression]
  | .arrayType => [.one isType, .optional isExpression]
  | .functionType => [.one isType, .many (· == .parameterDeclaration)]
  | .typeofType => [.one isTypeOrExpression]

/-! ## Payloads -/

/-- What a payload is a payload of. -/
inductive PayloadForm
  | none
  | name
  | literal (kind : LiteralKind)
  | flag
  | declaration
  | function
  | tag
  | qualifiers
  | array
  | functionType
  deriving DecidableEq

def Payload.form : Payload → PayloadForm
  | .none => .none
  | .name _ => .name
  | .literal value => .literal value.kind
  | .flag _ => .flag
  | .declaration _ => .declaration
  | .function _ => .function
  | .tag _ _ => .tag
  | .qualifiers _ => .qualifiers
  | .array _ _ _ => .array
  | .functionType _ _ => .functionType

def NodeKind.payloadForm : NodeKind → PayloadForm
  | .functionDeclaration => .function
  | .variableDeclaration | .parameterDeclaration | .fieldDeclaration | .typedefDeclaration =>
    .declaration
  | .structDeclaration | .unionDeclaration | .enumDeclaration | .structType | .unionType
  | .enumType => .tag
  | .enumConstant | .labelDeclaration | .gotoStatement | .labeled | .assembly | .member | .arrow
  | .identifier | .labelAddress | .fieldDesignator | .builtinType | .typedefName => .name
  | .integerLiteral => .literal .integer
  | .floatLiteral => .literal .floating
  | .characterLiteral => .literal .character
  | .stringLiteral => .literal .string
  | .booleanLiteral | .typeofType | .bitIntType => .flag
  | .qualifiedType => .qualifiers
  | .arrayType => .array
  | .functionType => .functionType
  | _ => .none

/-! ## Trees -/

/-- The node has the children and the payload that belong to its kind. One declaration is never held in
a group. -/
structure Node.Conforms (node : Node) : Prop where
  filled : Slot.fit (node.kind.layout node.payload) (node.children.map Node.kind) = true
  payload : node.payload.form = node.kind.payloadForm
  grouped : node.kind = .declarationGroup → node.children.length ≠ 1

/-- One of the tokens stands at the place. -/
def TokenStream.HasPlace (tokens : TokenStream) (place : SourceLocation) : Prop :=
  ∃ token ∈ tokens.toList, token.location = place

/-- A token is written so, or a built-in type has the name. -/
def TokenStream.HasName (tokens : TokenStream) (name : String) : Prop :=
  (∃ token ∈ tokens.toList, token.lexeme = name) ∨ ∃ words, builtinTypeName? words = some name

namespace TokenStream

variable {tokens : TokenStream} {token : Token}

theorem hasPlace_of_mem (inText : token ∈ tokens.toList) : tokens.HasPlace token.location :=
  ⟨token, inText, rfl⟩

theorem hasName_of_mem (inText : token ∈ tokens.toList) : tokens.HasName token.lexeme :=
  .inl ⟨token, inText, rfl⟩

/-- The end of the text is written with nothing. -/
theorem hasName_empty : tokens.HasName "" :=
  .inl ⟨tokens.final, List.mem_append_right _ List.mem_cons_self, rfl⟩

end TokenStream

/-- What the node is called is a name of the text. The template of an assembly statement is none. -/
def Node.NamedIn (tokens : TokenStream) (node : Node) : Prop :=
  node.kind ≠ .assembly → ∀ name ∈ node.name?, tokens.HasName name

/-- The node and all nodes below it conform, stand where tokens stand and are called what the text calls
them. -/
inductive Node.WellFormed (tokens : TokenStream) : Node → Prop
  | intro {node : Node} (conforms : node.Conforms) (placed : tokens.HasPlace node.location)
    (named : node.NamedIn tokens)
    (below : ∀ child ∈ node.children, Node.WellFormed tokens child) : Node.WellFormed tokens node

namespace Node

variable {tokens : TokenStream}

theorem WellFormed.conforms {node : Node} : node.WellFormed tokens → node.Conforms
  | .intro conforms _ _ _ => conforms

theorem WellFormed.placed {node : Node} : node.WellFormed tokens → tokens.HasPlace node.location
  | .intro _ placed _ _ => placed

theorem WellFormed.named {node : Node} : node.WellFormed tokens → node.NamedIn tokens
  | .intro _ _ named _ => named

theorem WellFormed.child {node : Node} :
    node.WellFormed tokens → ∀ child ∈ node.children, child.WellFormed tokens
  | .intro _ _ _ below => below

theorem wellFormed_of_mem_preorder {pending : List Node}
    (wellFormed : ∀ node ∈ pending, node.WellFormed tokens) :
    ∀ node ∈ preorder pending, node.WellFormed tokens := by
  -- The first node gives way to its children, and these are well formed as it is.
  induction pending using preorder.induct with
  | case1 => simp [preorder]
  | case2 first pending ih =>
    intro node member
    rw [preorder, List.mem_cons] at member
    have whole := wellFormed first List.mem_cons_self
    rcases member with rfl | later
    · exact whole
    · refine ih (fun other others => ?_) node later
      rcases List.mem_append.mp others with child | behind
      · exact whole.child other child
      · exact wellFormed other (List.mem_cons_of_mem _ behind)

theorem WellFormed.of_mem_descendants {root node : Node} (wellFormed : root.WellFormed tokens)
    (member : node ∈ root.descendants) : node.WellFormed tokens :=
  wellFormed_of_mem_preorder (by simpa using wellFormed) node member

/-! ## Nodes of a sort -/

/-- A well-formed node of a sort. -/
structure Is (tokens : TokenStream) (sort : NodeKind → Bool) (node : Node) : Prop where
  wellFormed : node.WellFormed tokens
  sorted : sort node.kind = true

variable {sort wider : NodeKind → Bool} {slots : List Slot} {nodes : List Node}

theorem Is.mono {node : Node} (is : node.Is tokens sort)
    (weaken : ∀ kind, sort kind = true → wider kind = true) :
    node.Is tokens wider :=
  ⟨is.wellFormed, weaken _ is.sorted⟩

/-- Well-formed nodes that fill the places. -/
structure Fill (tokens : TokenStream) (slots : List Slot) (nodes : List Node) : Prop where
  wellFormed : ∀ node ∈ nodes, node.WellFormed tokens
  filled : Slot.fit slots (nodes.map Node.kind) = true

namespace Fill

theorem nil : Fill tokens [] [] := ⟨by simp, rfl⟩

theorem part {slot : Slot} {found : List Node} (wellFormed : ∀ node ∈ found, node.WellFormed tokens)
    (admitted : slot.admits (found.map kind) = true) (rest : Fill tokens slots nodes) :
    Fill tokens (slot :: slots) (found ++ nodes) := by
  refine ⟨fun node member => ?_, ?_⟩
  · exact (List.mem_append.mp member).elim (wellFormed node) (rest.wellFormed node)
  · rw [List.map_append]
    exact Slot.fit_append admitted rest.filled

theorem one {node : Node} (first : node.Is tokens sort) (rest : Fill tokens slots nodes) :
    Fill tokens (.one sort :: slots) (node :: nodes) :=
  have alone : ∀ other ∈ [node], other.WellFormed tokens := by simpa using first.wellFormed
  part alone first.sorted rest

theorem optional {found : Option Node} (first : ∀ node ∈ found, node.Is tokens sort)
    (rest : Fill tokens slots nodes) :
    Fill tokens (.optional sort :: slots) (found.toList ++ nodes) := by
  cases found with
  | none => exact part (by simp) rfl rest
  | some node =>
    have is := first node rfl
    exact part (by simpa using is.wellFormed) is.sorted rest

theorem many {found : List Node} (first : ∀ node ∈ found, node.Is tokens sort)
    (rest : Fill tokens slots nodes) : Fill tokens (.many sort :: slots) (found ++ nodes) := by
  refine part (fun node member => (first node member).wellFormed) ?_ rest
  rw [Slot.admits, List.all_map, List.all_eq_true]
  exact fun node member => (first node member).sorted

/-- There is a first one. -/
theorem oneOrMore {found : List Node} (first : ∀ node ∈ found, node.Is tokens sort)
    (some : found ≠ []) (rest : Fill tokens slots nodes) :
    Fill tokens (.one sort :: .many sort :: slots) (found ++ nodes) := by
  cases found with
  | nil => exact absurd rfl some
  | cons node found =>
    obtain ⟨is, others⟩ := List.forall_mem_cons.mp first
    exact one is (many others rest)

theorem lastOptional {found : Option Node} (all : ∀ node ∈ found, node.Is tokens sort) :
    Fill tokens [.optional sort] found.toList := by
  simpa using optional all nil

theorem lastMany {found : List Node} (all : ∀ node ∈ found, node.Is tokens sort) :
    Fill tokens [.many sort] found := by
  simpa using many all nil

end Fill

/-- A node of another kind than the groups is well formed if its children fill its places. -/
theorem Fill.namedNode {kind : NodeKind} {place : SourceLocation} {payload : Payload}
    {children : List Node} (fill : Fill tokens (kind.layout payload) children)
    (placed : tokens.HasPlace place) (form : payload.form = kind.payloadForm)
    (ungrouped : kind ≠ .declarationGroup) (sorted : sort kind = true)
    (named : kind ≠ .assembly → ∀ name ∈ payload.name?, tokens.HasName name) :
    (Node.mk kind place payload children).Is tokens sort :=
  ⟨.intro ⟨fill.filled, form, fun group => absurd group ungrouped⟩ placed named fill.wellFormed,
    sorted⟩

theorem Fill.node {kind : NodeKind} {place : SourceLocation} {payload : Payload}
    {children : List Node} (fill : Fill tokens (kind.layout payload) children)
    (placed : tokens.HasPlace place) (form : payload.form = kind.payloadForm)
    (ungrouped : kind ≠ .declarationGroup) (sorted : sort kind = true)
    (nameless : payload.name? = none) : (Node.mk kind place payload children).Is tokens sort :=
  fill.namedNode placed form ungrouped sorted fun _ name isName => by simp [nameless] at isName

/-- A node that is called what a token says. -/
theorem Fill.written {kind : NodeKind} {place : SourceLocation} {token : Token} {children : List Node}
    (fill : Fill tokens (kind.layout (.name token.lexeme)) children) (inText : token ∈ tokens.toList)
    (placed : tokens.HasPlace place) (form : PayloadForm.name = kind.payloadForm)
    (ungrouped : kind ≠ .declarationGroup) (sorted : sort kind = true) :
    (Node.mk kind place (.name token.lexeme) children).Is tokens sort := by
  refine fill.namedNode placed form ungrouped sorted fun _ name isName => ?_
  obtain rfl := Option.some.inj isName
  exact TokenStream.hasName_of_mem inText

/-- A well-formed node stays so under another kind and payload with the same places for children. -/
theorem WellFormed.relabeled {node : Node} (wellFormed : node.WellFormed tokens) {kind : NodeKind}
    {payload : Payload} (same : kind.layout payload = node.kind.layout node.payload)
    (form : payload.form = kind.payloadForm) (ungrouped : kind ≠ .declarationGroup)
    (sorted : sort kind = true)
    (named : kind ≠ .assembly → ∀ name ∈ payload.name?, tokens.HasName name) :
    (Node.mk kind node.location payload node.children).Is tokens sort := by
  have fill : Fill tokens (kind.layout payload) node.children :=
    ⟨wellFormed.child, by rw [same]; exact wellFormed.conforms.filled⟩
  exact fill.namedNode wellFormed.placed form ungrouped sorted named

end Node

end CFrontEnd
