import CFrontEnd.Proofs.Blocks.Items
import CFrontEnd.Proofs.Grammar.Start

/-!
Which names are types is decided by the block structure. The text of a function body is elaborated
under an environment with one level for each open block, and reading the text gives the same nodes
and records a problem for each item that the elaboration drops.
-/

namespace CFrontEnd

/-! ## Environments -/

/-- What names mean in each open block, the innermost first. -/
abbrev Environment := List (String → Option NameKind)

namespace Environment

/-- A later binding in a block replaces an earlier one. -/
def bind (environment : Environment) (name : String) (kind : NameKind) : Environment :=
  match environment with
  | [] => []
  | innermost :: outer =>
    (fun other => if other = name then some kind else innermost other) :: outer

/-- The innermost binding of a name. -/
def lookup (environment : Environment) (name : String) : Option NameKind :=
  environment.findSome? fun block => block name

def enter (environment : Environment) : Environment := (fun _ => none) :: environment

end Environment

/-! ## Items of a block -/

/-- The items of a block, each with those behind it. -/
inductive BlockItems
  | done
  | typedefInt (name : String) (rest : BlockItems)
  | object (name : String) (rest : BlockItems)
  | product (left right : String) (rest : BlockItems)
  | block (inner rest : BlockItems)

/-- What a list of items comes to. -/
structure Elaboration where
  nodes : List Node
  dropped : List String
  environment : Environment

namespace BlockItems

def words : BlockItems → List Word
  | done => []
  | typedefInt name rest =>
    [.keyword .typedefWord "typedef", .int, .identifier name, .semicolon] ++ rest.words
  | object name rest => [.int, .identifier name, .semicolon] ++ rest.words
  | product left right rest =>
    [.identifier left, .star, .identifier right, .semicolon] ++ rest.words
  | block inner rest => [.openBrace] ++ inner.words ++ [.closeBrace] ++ rest.words

/-- How deep blocks stand in each other. -/
def depth : BlockItems → Nat
  | done => 0
  | typedefInt _ rest => rest.depth
  | object _ rest => rest.depth
  | product _ _ rest => rest.depth
  | block inner rest => max (inner.depth + 1) rest.depth

def names : BlockItems → List String
  | done => []
  | typedefInt name rest => name :: rest.names
  | object name rest => name :: rest.names
  | product left right rest => left :: right :: rest.names
  | block inner rest => inner.names ++ rest.names

/-- The items in source order. `left * right;` declares if `left` names a type, is dropped if only
`right` does, and multiplies otherwise. Places of nodes do not matter. -/
def elaborate (place : SourceLocation) (environment : Environment) : BlockItems → Elaboration
  | done => ⟨[], [], environment⟩
  | typedefInt name rest =>
    let later := rest.elaborate place (environment.bind name .typedefName)
    { later with nodes := .intTypedef place name :: later.nodes }
  | object name rest =>
    let later := rest.elaborate place (environment.bind name .ordinary)
    { later with nodes := .intObject place name :: later.nodes }
  | product left right rest =>
    if environment.lookup left = some .typedefName then
      let later := rest.elaborate place (environment.bind right .ordinary)
      { later with nodes := .pointerObject place left right :: later.nodes }
    else if environment.lookup right = some .typedefName then
      let later := rest.elaborate place environment
      { later with dropped := right :: later.dropped }
    else
      let later := rest.elaborate place environment
      { later with nodes := .productStatement place left right :: later.nodes }
  | block inner rest =>
    let inside := inner.elaborate place environment.enter
    let later := rest.elaborate place inside.environment.tail
    { nodes := .ofChildren .compound place inside.nodes :: later.nodes
      dropped := inside.dropped ++ later.dropped
      environment := later.environment }

end BlockItems

/-! ## Scopes as environments -/

namespace ScopeStack

def environment (scopes : ScopeStack) : Environment :=
  scopes.toList.map fun scope name => scope.names.lookup name

variable (scopes : ScopeStack) (name : String)

@[simp] theorem environment_bind (kind : NameKind) :
    (scopes.bind name kind).environment = scopes.environment.bind name kind := by
  simp only [environment, bind, toList, List.map_cons, Environment.bind, List.cons.injEq, and_true]
  funext other
  by_cases same : other = name
  · simp [same]
  · have differs : (other == name) = false := beq_false_of_ne same
    simp [List.lookup_cons, same, differs]

@[simp] theorem environment_addTypedef :
    (scopes.addTypedef name).environment = scopes.environment.bind name .typedefName :=
  scopes.environment_bind name .typedefName

@[simp] theorem environment_addOrdinary :
    (scopes.addOrdinary name).environment = scopes.environment.bind name .ordinary :=
  scopes.environment_bind name .ordinary

@[simp] theorem environment_enter : scopes.enter.environment = scopes.environment.enter := rfl

theorem environment_tail : scopes.environment.tail = scopes.outer.map fun scope name =>
    scope.names.lookup name := rfl

/-- What is entered last is left first. -/
theorem exit_of_outer {inside scopes : ScopeStack} (outer : inside.outer = scopes.toList) :
    inside.exit = scopes := by
  simp [exit, outer, toList]

theorem isTypedefName_eq :
    scopes.isTypedefName name = decide (scopes.environment.lookup name = some .typedefName) := by
  have same : scopes.lookupName? name = scopes.environment.lookup name := by
    simp [lookupName?, environment, Environment.lookup, List.findSome?_map, Function.comp_def]
  rw [isTypedefName, same, Bool.beq_eq_decide_eq]

end ScopeStack

/-! ## Reading the items -/

/-- The later list goes on with one problem for each of the names, which is that it names a type. -/
def TypeNamesReported (before after : Diagnostics) (names : List String) : Prop :=
  ∃ new : Diagnostics, after = before.append new ∧
    new.toList.map (fun diagnostic => (diagnostic.kind, diagnostic.message)) =
      names.map fun name =>
        (DiagnosticKind.grammatical, (GrammarProblem.unexpectedTypeName name).message)

namespace TypeNamesReported

variable {first second third : Diagnostics} {names more : List String}

theorem none (diagnostics : Diagnostics) : TypeNamesReported diagnostics diagnostics [] :=
  ⟨.empty, by simp [Diagnostics.append, Diagnostics.empty], rfl⟩

theorem one (diagnostics : Diagnostics) (place : SourceLocation) (name : String) :
    TypeNamesReported diagnostics
      (diagnostics.report .grammatical place (GrammarProblem.unexpectedTypeName name).message)
      [name] := by
  refine ⟨Diagnostics.empty.report .grammatical place
    (GrammarProblem.unexpectedTypeName name).message, ?_, rfl⟩
  simp only [Diagnostics.append, Diagnostics.empty, Diagnostics.report, Array.append_push,
    Array.append_empty]

theorem trans (left : TypeNamesReported first second names)
    (right : TypeNamesReported second third more) :
    TypeNamesReported first third (names ++ more) := by
  obtain ⟨new, rfl, newNames⟩ := left
  obtain ⟨newer, rfl, newerNames⟩ := right
  refine ⟨new.append newer, ?_, by simp [newNames, newerNames]⟩
  simp [Diagnostics.append, Array.append_assoc]

end TypeNamesReported

open Parse Productions

/-- The items stand at the current token, with a closing brace behind them. -/
structure BlockItems.StandAt (context : ParseContext) (state : ParseState) (items : BlockItems) :
    Prop where
  plain : ∀ name ∈ items.names, name ≠ "__builtin_va_list"
  calm : state.panicking = false
  has : context.tokens.HasWordsAt state.position items.words
  closes : (context.tokens.get (state.position + items.words.length)).kind =
    .punctuator .closeBrace

/-- What reading the items of a block from `state` on comes to when their end is reached in `next`
with the nodes `more`. -/
structure ReadAsElaborated (place : SourceLocation) (items : BlockItems)
    (state next : ParseState) (more : Array Node) : Prop where
  position : next.position = state.position + items.words.length
  calm : next.panicking = false
  outer : next.scopes.outer = state.scopes.outer
  environment : next.scopes.environment =
    (items.elaborate place state.scopes.environment).environment
  nodes : Node.sameShapes more.toList (items.elaborate place state.scopes.environment).nodes = true
  problems : TypeNamesReported state.diagnostics next.diagnostics
    (items.elaborate place state.scopes.environment).dropped

section Reading

variable {context : ParseContext} {dialect : Dialect} {place : SourceLocation}
  {items rest : BlockItems} {state middle next : ParseState} {first more : Array Node}

/-- What one item adds stands in front of what the items behind it add. -/
theorem ReadAsElaborated.after (read : ReadAsElaborated place rest middle next more)
    (shapes : List Node) (dropped : List String)
    (moved : state.position + items.words.length = middle.position + rest.words.length)
    (outer : middle.scopes.outer = state.scopes.outer)
    (nodes : Node.sameShapes first.toList shapes = true)
    (problems : TypeNamesReported state.diagnostics middle.diagnostics dropped)
    (elaborated : items.elaborate place state.scopes.environment =
      ⟨shapes ++ (rest.elaborate place middle.scopes.environment).nodes,
        dropped ++ (rest.elaborate place middle.scopes.environment).dropped,
        (rest.elaborate place middle.scopes.environment).environment⟩) :
    ReadAsElaborated place items state next (first ++ more) := by
  constructor
  · rw [moved, read.position]
  · exact read.calm
  · rw [read.outer, outer]
  · rw [elaborated, read.environment]
  · rw [elaborated, Array.toList_append]
    exact Node.sameShapes_append nodes read.nodes
  · rw [elaborated]
    exact problems.trans read.problems

namespace BlockItems.StandAt

variable {front : List Word}

theorem words_front (stand : items.StandAt context state) (words : items.words = front ++ rest.words) :
    context.tokens.HasWordsAt state.position front := by
  have has := stand.has
  rw [words, TokenStream.hasWordsAt_append] at has
  exact has.1

theorem behind (stand : items.StandAt context state) (words : items.words = front ++ rest.words)
    (names : rest.names ⊆ items.names)
    (position : middle.position = state.position + front.length)
    (calm : middle.panicking = false) : rest.StandAt context middle := by
  constructor
  · intro name member
    exact stand.plain name (names member)
  · exact calm
  · have has := stand.has
    rw [words, TokenStream.hasWordsAt_append, ← position] at has
    exact has.2
  · have closes := stand.closes
    rwa [words, List.length_append, ← Nat.add_assoc, ← position] at closes

end BlockItems.StandAt

/-- Wherever the items stand, they are read as they are elaborated, up to the brace behind them. -/
def ReadsItems (context : ParseContext) (place : SourceLocation) (levels : Nat)
    (items : BlockItems) : Prop :=
  ∀ (state : ParseState) (nodes : Array Node), items.StandAt context state → ∃ more next,
    repeatFrom (recoveringStep endsBlock (blockItem (ofLevels levels))) nodes context state =
      .ok (nodes ++ more) next ∧
    ReadAsElaborated place items state next more

namespace ReadsItems

variable {levels : Nat} {name left right : String} {inner : BlockItems}

theorem done : ReadsItems context place levels .done := by
  intro state nodes stand
  have closes := stand.closes
  simp only [BlockItems.words, List.length_nil, Nat.add_zero] at closes
  refine ⟨#[], state, ?_, rfl, stand.calm, rfl, rfl, rfl, .none _⟩
  rw [recoveringStep_stop (.inr (by simp [endsBlock, closes]))]
  simp

/-- An item that is read leaves its node in front of those of the items behind it. -/
theorem item {word : Word} {front : List Word} {node shape : Node} {dropped : List String}
    (later : ReadsItems context place levels rest) (stand : items.StandAt context state)
    (words : items.words = (word :: front) ++ rest.words) (names : rest.names ⊆ items.names)
    (notEnd : word.kind ≠ .endOfFile) (notClosed : word.kind ≠ .punctuator .closeBrace)
    (read : blockItem (ofLevels levels) context state = .ok { nodes := #[node] } middle)
    (same : node.sameShape shape = true)
    (position : middle.position = state.position + (front.length + 1))
    (calm : middle.panicking = false) (outer : middle.scopes.outer = state.scopes.outer)
    (problems : TypeNamesReported state.diagnostics middle.diagnostics dropped)
    (elaborated : items.elaborate place state.scopes.environment =
      ⟨[shape] ++ (rest.elaborate place middle.scopes.environment).nodes,
        dropped ++ (rest.elaborate place middle.scopes.environment).dropped,
        (rest.elaborate place middle.scopes.environment).environment⟩)
    (nodes : Array Node) :
    ∃ more next,
      repeatFrom (recoveringStep endsBlock (blockItem (ofLevels levels))) nodes context state =
        .ok (nodes ++ more) next ∧
      ReadAsElaborated place items state next more := by
  have kind : (context.tokens.get state.position).kind = word.kind :=
    congrArg Word.kind (stand.words_front words).1
  obtain ⟨more, next, run, readRest⟩ :=
    later middle (nodes ++ #[node]) (stand.behind words names position calm)
  refine ⟨#[node] ++ more, next, ?_,
    readRest.after [shape] dropped ?_ outer ?_ problems elaborated⟩
  · rw [recoveringStep_item (by rwa [kind]) (by simp [endsBlock, kind, notClosed]) read (by omega),
      run, Array.append_assoc]
  · rw [words, position, List.length_append, List.length_cons]
    omega
  · simp [Node.sameShapes, same]

theorem typedefInt (later : ReadsItems context place (levels + 1) rest) :
    ReadsItems context place (levels + 1) (.typedefInt name rest) := by
  intro state nodes stand
  obtain ⟨node, read, same⟩ := blockItem_intTypedef place (stand.words_front rfl)
  refine item later stand rfl (List.subset_cons_self _ _) (by simp [Word.keyword])
    (by simp [Word.keyword]) read same rfl stand.calm rfl (.none _) ?_ nodes
  simp [BlockItems.elaborate]

theorem object (later : ReadsItems context place (levels + 1) rest) :
    ReadsItems context place (levels + 1) (.object name rest) := by
  intro state nodes stand
  obtain ⟨node, read, same⟩ := blockItem_intObject place (stand.words_front rfl)
  refine item later stand rfl (List.subset_cons_self _ _) (by simp [Word.int, Word.keyword])
    (by simp [Word.int, Word.keyword]) read same rfl stand.calm rfl (.none _) ?_ nodes
  simp [BlockItems.elaborate]

/-- An item that is dropped leaves a problem in front of those of the items behind it. -/
theorem dropped (later : ReadsItems context place levels rest)
    (stand : (BlockItems.product left right rest).StandAt context state)
    (product : AtProduct context state left right)
    (gaveUp : blockItem (ofLevels levels) context state =
      .error .givenUp
        { (state.reported (context.tokens.get (state.position + 2)).location
            (.unexpectedTypeName right)).movedTo (state.position + 2) with
          panicking := true })
    (elaborated : (BlockItems.product left right rest).elaborate place state.scopes.environment =
      ⟨[] ++ (rest.elaborate place state.scopes.environment).nodes,
        [right] ++ (rest.elaborate place state.scopes.environment).dropped,
        (rest.elaborate place state.scopes.environment).environment⟩)
    (nodes : Array Node) :
    ∃ more next,
      repeatFrom (recoveringStep endsBlock (blockItem (ofLevels levels))) nodes context state =
        .ok (nodes ++ more) next ∧
      ReadAsElaborated place (.product left right rest) state next more := by
  -- Parsing resumes behind the semicolon, two tokens behind the name at which it gave up.
  have behind : rest.StandAt context
      ((state.reported (context.tokens.get (state.position + 2)).location
        (.unexpectedTypeName right)).movedTo (state.position + 4)) :=
    stand.behind rfl (by simp [BlockItems.names]) rfl stand.calm
  obtain ⟨more, next, run, readRest⟩ := later _ nodes behind
  refine ⟨more, next, ?_, ?_⟩
  · rw [recoveringStep_dropped (by simp [product.first]) (by simp [endsBlock, product.first])
      gaveUp (by simp [product.resumption_eq]), ← run]
    simp [product.resumption_eq, ParseState.movedTo, ParseState.reported, stand.calm]
  · rw [← @Array.empty_append _ more]
    refine readRest.after [] [right] ?_ rfl rfl (.one _ _ _) elaborated
    simp only [BlockItems.words, List.length_append, List.length_cons, List.length_nil,
      ParseState.position_movedTo]
    omega

/-- The three readings of two names with a star between them. -/
theorem product (isC : context.language = cLanguage dialect)
    (later : ReadsItems context place (levels + 5) rest) :
    ReadsItems context place (levels + 5) (.product left right rest) := by
  intro state nodes stand
  have atProduct := AtProduct.of_words (stand.words_front rfl)
  have names : rest.names ⊆ (BlockItems.product left right rest).names := by
    simp [BlockItems.names]
  have leftType : context.language.isTypeName state.scopes.isTypedefName left = _ :=
    isTypeName_of_language isC (stand.plain left (by simp [BlockItems.names]))
  have rightType : context.language.isTypeName state.scopes.isTypedefName right = _ :=
    isTypeName_of_language isC (stand.plain right (by simp [BlockItems.names]))
  rw [ScopeStack.isTypedefName_eq] at leftType rightType
  by_cases declares : state.scopes.environment.lookup left = some .typedefName
  · obtain ⟨node, read, same⟩ :=
      blockItem_pointerObject place atProduct (by simp [leftType, declares])
    refine item later stand rfl names (by simp [Word.identifier]) (by simp [Word.identifier])
      read same rfl stand.calm rfl (.none _) ?_ nodes
    simp [BlockItems.elaborate, declares]
  · by_cases drops : state.scopes.environment.lookup right = some .typedefName
    · exact dropped later stand atProduct
        (atProduct.blockItem_gaveUp isC stand.calm (by simp [leftType, declares])
          (by simp [rightType, drops]))
        (by simp [BlockItems.elaborate, declares, drops]) nodes
    · obtain ⟨node, read, same⟩ := atProduct.blockItem_product place isC
        (by simp [leftType, declares]) (by simp [rightType, drops])
      refine item later stand rfl names (by simp [Word.identifier]) (by simp [Word.identifier])
        read same rfl stand.calm rfl (.none _) ?_ nodes
      simp [BlockItems.elaborate, declares, drops]

/-- A block is read one level further in, and its scope is left again behind it. -/
theorem block (inside : ReadsItems context place levels inner)
    (later : ReadsItems context place (levels + 1) rest) :
    ReadsItems context place (levels + 1) (.block inner rest) := by
  intro state nodes stand
  have words : (BlockItems.block inner rest).words =
      (.openBrace :: (inner.words ++ [.closeBrace])) ++ rest.words := by
    simp [BlockItems.words]
  obtain ⟨opens, has⟩ := stand.words_front words
  obtain ⟨hasInner, closes, _⟩ := (TokenStream.hasWordsAt_append _ _ _).mp has
  have isOpening : (context.tokens.get state.position).kind = .punctuator .openBrace :=
    congrArg Word.kind opens
  have isClosing : (context.tokens.get (state.position + 1 + inner.words.length)).kind =
      .punctuator .closeBrace :=
    congrArg Word.kind closes
  have within : inner.StandAt context
      ((state.rescoped state.scopes.enter).movedTo (state.position + 1)) :=
    ⟨fun name member => stand.plain name (List.mem_append_left _ member), stand.calm, hasInner,
      isClosing⟩
  obtain ⟨more, next, run, readInner⟩ := inside _ #[] within
  -- What was read inside changed the innermost scope only, and that scope is left.
  have left : next.scopes.exit = state.scopes := ScopeStack.exit_of_outer readInner.outer
  have environment : next.scopes.environment =
      (inner.elaborate place state.scopes.environment.enter).environment := readInner.environment
  have tail : (inner.elaborate place state.scopes.environment.enter).environment.tail =
      state.scopes.environment := by
    rw [← environment, ScopeStack.environment_tail, readInner.outer]
    rfl
  have position : next.position = state.position + 1 + inner.words.length := readInner.position
  have read : blockItem (ofLevels (levels + 1)) context state =
      .ok { nodes := #[.ofChildren .compound (context.tokens.get state.position).location
          more.toList] }
        ((next.rescoped state.scopes).movedTo (next.position + 1)) := by
    have statement : (ofLevels (levels + 1)).statement = statementRule (ofLevels levels) := rfl
    have block := block_of_items isOpening run (by rwa [position])
    rw [Array.empty_append, left] at block
    simp [blockItem, startsDeclaration_punctuator isOpening, single, statement,
      statementRule_block isOpening, block]
  have same : (Node.ofChildren .compound (context.tokens.get state.position).location
      more.toList).sameShape (.ofChildren .compound place
        (inner.elaborate place state.scopes.environment.enter).nodes) = true := by
    simpa [Node.ofChildren, Node.sameShape] using readInner.nodes
  refine item later stand words (List.subset_append_right _ _)
    (by simp [Word.openBrace, Word.punctuator]) (by simp [Word.openBrace, Word.punctuator]) read same
    ?_ readInner.calm rfl readInner.problems ?_ nodes
  · simp only [ParseState.position_movedTo, position, List.length_append, List.length_cons,
      List.length_nil]
    omega
  · simp [BlockItems.elaborate, tail]

end ReadsItems

/-- The items of a block are read as they are elaborated, if there are levels enough for the blocks
in it and for the operands of a product. -/
theorem readsItems (isC : context.language = cLanguage dialect) (items : BlockItems) :
    ∀ levels, items.depth + 5 ≤ levels → ReadsItems context place levels items := by
  induction items with
  | done =>
    intro levels _
    exact .done
  | typedefInt name rest ih =>
    intro levels deep
    obtain ⟨levels, rfl⟩ : ∃ fewer, levels = fewer + 1 := ⟨levels - 1, by omega⟩
    exact .typedefInt (ih _ deep)
  | object name rest ih =>
    intro levels deep
    obtain ⟨levels, rfl⟩ : ∃ fewer, levels = fewer + 1 := ⟨levels - 1, by omega⟩
    exact .object (ih _ deep)
  | product left right rest ih =>
    intro levels deep
    obtain ⟨levels, rfl⟩ : ∃ fewer, levels = fewer + 5 := ⟨levels - 5, by omega⟩
    exact .product isC (ih _ deep)
  | block inner rest ihInner ihRest =>
    intro levels deep
    obtain ⟨levels, rfl⟩ : ∃ fewer, levels = fewer + 1 := ⟨levels - 1, by omega⟩
    simp only [BlockItems.depth] at deep
    exact .block (ihInner _ (by omega)) (ihRest _ (by omega))

end Reading

end CFrontEnd
