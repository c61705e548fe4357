import CFrontEnd.Proofs.Initializers.Designators

/-!
Lists of values. A value in a list may stand behind the way to what it is for; without one it must not
be taken for the beginning of such a way.
-/

namespace CFrontEnd

open Parse Productions

mutual

/-- An expression, or a list in braces. -/
inductive IsInitializer : Node → Prop
  | expression {tree : Node} (isTree : IsOperatorTree tree) : IsInitializer tree
  | list {spot : SourceLocation} {items : List Node} (each : ∀ item ∈ items, IsInitializerItem item) :
      IsInitializer ⟨.initializerList, spot, .none, items⟩

/-- What stands in a list: a value, behind steps to what it is for or without. -/
inductive IsInitializerItem : Node → Prop
  | value {value : Node} (isValue : IsInitializer value) : IsInitializerItem value
  | designation {spot : SourceLocation} {path : List Node} {value : Node} (notEmpty : path ≠ [])
      (each : ∀ step ∈ path, IsDesignator step) (isValue : IsInitializer value) :
      IsInitializerItem ⟨.designation, spot, .none, path ++ [value]⟩

end

variable {context : ParseContext} {state : ParseState} {deeper : Productions} {tree value : Node}
  {words : List Word} {spot : SourceLocation}

/-! ## Values -/

/-- What stands here is a value: it is no step to one, and not the end of a list. -/
structure StartsValue (context : ParseContext) (state : ParseState) : Prop where
  noColon : atColonDesignator context state = .ok false state
  noField : (context.tokens.get state.position).kind ≠ .operator .dot
  noIndex : (context.tokens.get state.position).kind ≠ .punctuator .openBracket
  notClosing : (context.tokens.get state.position).kind ≠ .punctuator .closeBrace

theorem Productions.atColonDesignator_false
    (noColon : (context.tokens.get state.position).kind = .identifier →
      (context.tokens.get (state.position + 1)).kind ≠ .punctuator .colon) :
    atColonDesignator context state = .ok false state := by
  by_cases isName : (context.tokens.get state.position).kind = .identifier
  · cases gnu : context.dialect.gnu <;> simp [atColonDesignator, isName, gnu, noColon isName]
  · cases gnu : context.dialect.gnu <;> simp [atColonDesignator, isName, gnu]

/-- An operand that is not at its end in front of a colon does not begin with a name and a colon. -/
theorem StartsOperand.startsValue {need stop : Nat} (starts : StartsOperand context state)
    (reads : ReadsOperand context state need stop tree)
    (ends : (context.tokens.get stop).kind.endsExpression = true)
    (noColon : (context.tokens.get stop).kind ≠ .punctuator .colon) : StartsValue context state := by
  refine ⟨Productions.atColonDesignator_false ?_, ?_, ?_, ?_⟩
  · intro isName isColon
    have noType : context.language.isTypeName state.scopes.isTypedefName
        (context.tokens.get state.position).lexeme = false := by
      simpa [beginsTypeName, isName] using starts.noTypeName
    -- The name alone would be the operand, and the colon would stand where the operand stops.
    have alone : Agrees False .empty (suffixed (ofLevels need) context state) _ :=
      suffixed_of_primary (.inl (primary_identifier isName noType))
    have stopsAt {place : Nat} (stops : (context.tokens.get place).kind.extendsOperand = false)
        (node : Node) : repeatFrom (addSuffix (ofLevels need)) node context (state.movedTo place) =
          .ok node (state.movedTo place) :=
      repeatFrom_done (addSuffix_done stops)
    obtain ⟨node, _, read⟩ := reads need (Nat.le_refl need)
    rw [alone.eq, stopsAt (by rw [isColon]; rfl),
      stopsAt (TokenKind.extendsOperand_of_endsExpression ends)] at read
    have same : state.position + 1 = stop :=
      congrArg ParseState.position (EStateM.Result.ok.inj read).2
    rw [← same] at noColon
    exact noColon isColon
  · rcases starts.kind with same | same | same <;> simp [same]
  · rcases starts.kind with same | same | same <;> simp [same]
  · rcases starts.kind with same | same | same <;> simp [same]

/-- The words that a value in a list is written with, and that they are read as the value. -/
structure ReadsInitializer (tree : Node) (words : List Word) : Prop where
  scans : ∀ next, EndsWord next → next.head? ≠ some '.' →
    ScansAs gnuC17 tree.expressionText.toList words next
  starts : ∀ {context : ParseContext} {state : ParseState}, GnuContext context → state.IsPlain →
    context.tokens.HasWordsAt state.position words →
    (context.tokens.get (state.position + words.length)).kind.endsExpression = true →
    (context.tokens.get (state.position + words.length)).kind ≠ .punctuator .colon →
    StartsValue context state
  reads : ∀ {context : ParseContext} {state : ParseState}, GnuContext context → state.IsPlain →
    context.tokens.HasWordsAt state.position words →
    (context.tokens.get (state.position + words.length)).kind.endsExpression = true →
    ReadsAs Productions.initializer context state (6 * tree.height + 8)
      (state.position + words.length) tree

theorem ReadsBack.readsInitializer (inside : ReadsBack tree words) : ReadsInitializer tree words := by
  refine ⟨?_, ?_, ?_⟩
  · intro next ends notPoint
    exact inside.scans next ends fun _ => notPoint
  · intro context state gnu plain has ends noColon
    exact (inside.starts gnu plain has).startsValue (inside.reads gnu plain has) ends noColon
  · intro context state gnu plain has ends levels enough
    have starts := inside.starts gnu plain has
    obtain ⟨node, same, read⟩ :=
      (inside.reads gnu plain has).assignment gnu.language starts ends levels enough
    have noList : (context.tokens.get state.position).kind ≠ .punctuator .openBrace :=
      starts.inside.2
    exact ⟨node, same, by simp [Productions.initializer, noList, read]⟩

/-! ## Items -/

/-- The words that an item of a list is written with, and that they are read as the item. -/
structure ReadsItem (item : Node) (words : List Word) : Prop where
  scans : ∀ next, EndsWord next → next.head? ≠ some '.' →
    ScansAs gnuC17 item.expressionText.toList words next
  notClosing : ∀ {context : ParseContext} {state : ParseState}, GnuContext context → state.IsPlain →
    context.tokens.HasWordsAt state.position words →
    (context.tokens.get (state.position + words.length)).kind.endsExpression = true →
    (context.tokens.get (state.position + words.length)).kind ≠ .punctuator .colon →
    (context.tokens.get state.position).kind ≠ .punctuator .closeBrace
  reads : ∀ {context : ParseContext} {state : ParseState}, GnuContext context → state.IsPlain →
    context.tokens.HasWordsAt state.position words →
    (context.tokens.get (state.position + words.length)).kind.endsExpression = true →
    (context.tokens.get (state.position + words.length)).kind ≠ .punctuator .colon →
    ReadsAs Productions.initializerItem context state (6 * item.height + 8)
      (state.position + words.length) item

theorem ReadsInitializer.readsItem (inside : ReadsInitializer tree words) : ReadsItem tree words := by
  refine ⟨inside.scans, ?_, ?_⟩
  · intro context state gnu plain has ends noColon
    exact (inside.starts gnu plain has ends noColon).notClosing
  · intro context state gnu plain has ends noColon levels enough
    have starts := inside.starts gnu plain has ends noColon
    obtain ⟨node, same, read⟩ := inside.reads gnu plain has ends levels enough
    have noPath : repeatFrom (addDesignator (ofLevels levels)) #[] context state = .ok #[] state :=
      repeatFrom_done (addDesignator_done starts.noField starts.noIndex)
    refine ⟨node, same, ?_⟩
    simp [initializerItem, starts.noColon, designators_eq, noPath, read]

theorem Node.expressionText_designation (path : List Node) :
    (expressionText ⟨.designation, spot, .none, path ++ [value]⟩).toList =
      (path.flatMap fun step => step.expressionText.toList) ++
        ' ' :: ("=".toList ++ ' ' :: value.expressionText.toList) := by
  have text : expressionText ⟨.designation, spot, .none, path ++ [value]⟩ =
      Spelling.designationText (spellings (path ++ [value])) :=
    rfl
  rw [text, Spelling.designationText, spellings_eq_map, List.map_append, List.map_singleton,
    List.dropLast_concat, List.getLast?_concat]
  simp [String.toList_join, List.flatMap_map, List.map_map]
  rfl

/-- A path begins with a point or a bracket. -/
theorem ReadsDesignator.opensPath {path : List Node} {wordLists : List (List Word)} {position : Nat}
    (notEmpty : path ≠ []) (each : List.Forall₂ ReadsDesignator path wordLists)
    (has : context.tokens.HasWordsAt position wordLists.flatten) :
    (context.tokens.get position).kind = .operator .dot ∨
      (context.tokens.get position).kind = .punctuator .openBracket := by
  cases each with
  | nil => exact absurd rfl notEmpty
  | cons first _ =>
    obtain ⟨word, rest, rfl, isStep⟩ := first.opens
    have isWord : (context.tokens.get position).kind = word.kind := congrArg Word.kind has.1
    rwa [isWord]

/-- Behind the steps of a path stand an assignment sign and the value. -/
theorem Productions.initializerItem_path {steps : List Node} {node : Node} {place : Nat}
    {next : ParseState}
    (opens : (context.tokens.get state.position).kind = .operator .dot ∨
      (context.tokens.get state.position).kind = .punctuator .openBracket)
    (notNone : steps ≠ [])
    (path : repeatFrom (addDesignator deeper) #[] context state =
      repeatFrom (addDesignator deeper) (#[] ++ steps.toArray) context (state.movedTo place))
    (assigns : (context.tokens.get place).kind = .operator .assign)
    (read : deeper.initializer context (state.movedTo (place + 1)) = .ok node next) :
    initializerItem deeper context state =
      .ok (.ofChildren .designation (context.tokens.get state.position).location (steps ++ [node]))
        next := by
  have noName : atColonDesignator context state = .ok false state := by
    refine atColonDesignator_false fun isName => ?_
    rcases opens with same | same <;> simp [same] at isName
  -- The loop over the steps of the path ends at the assignment sign.
  have pathEnds : repeatFrom (addDesignator deeper) (#[] ++ steps.toArray) context
      (state.movedTo place) = .ok (#[] ++ steps.toArray) (state.movedTo place) :=
    repeatFrom_done (addDesignator_done (by simp [assigns]) (by simp [assigns]))
  rw [pathEnds] at path
  simp [initializerItem, noName, designators_eq, path, notNone, expect_apply, assigns, read]

theorem ReadsItem.designation {path : List Node} {wordLists : List (List Word)}
    (notEmpty : path ≠ []) (each : List.Forall₂ ReadsDesignator path wordLists)
    (inside : ReadsInitializer value words) :
    ReadsItem ⟨.designation, spot, .none, path ++ [value]⟩
      (wordLists.flatten ++ .operator .assign "=" :: words) := by
  have known : (TokenKind.operator .assign, "=") ∈ cSymbolKinds := by decide
  have lower (child : Node) (isChild : child ∈ path ++ [value]) :
      child.height + 1 ≤ Node.height ⟨.designation, spot, .none, path ++ [value]⟩ :=
    Node.height_child isChild
  refine ⟨?_, ?_, ?_⟩
  · intro next ends notPoint
    rw [Node.expressionText_designation]
    refine (ReadsDesignator.scansPath each (.cons _ (by decide))).append ?_
    exact .space (.spacedSymbol known (inside.scans next ends notPoint))
  · intro context state _ _ has _ _
    rw [TokenStream.hasWordsAt_append] at has
    rcases ReadsDesignator.opensPath notEmpty each has.1 with same | same <;> simp [same]
  · intro context state gnu plain has ends noColon levels enough
    rw [TokenStream.hasWordsAt_append] at has
    obtain ⟨hasPath, isAssign, hasValue⟩ := has
    rw [length_append_cons] at ends noColon ⊢
    have lowSteps : ∀ step ∈ path, 6 * step.height + 1 ≤ levels := by
      intro step isStep
      have stepLower := lower step (List.mem_append_left _ isStep)
      omega
    obtain ⟨steps, sameSteps, readSteps⟩ :=
      ReadsDesignator.readsPath each gnu plain hasPath lowSteps #[]
    have valueLower := lower value (by simp)
    obtain ⟨node, same, read⟩ :=
      inside.reads gnu (plain.movedTo _) hasValue ends levels (by omega)
    have notNone : steps ≠ [] := by
      rintro rfl
      cases path with
      | nil => exact notEmpty rfl
      | cons _ _ => cases sameSteps
    refine ⟨.ofChildren .designation (context.tokens.get state.position).location
      (steps ++ [node]), ?_, initializerItem_path (ReadsDesignator.opensPath notEmpty each hasPath)
        notNone readSteps (congrArg Word.kind isAssign) read⟩
    have shapes := Node.sameShapes_append sameSteps (by simp [Node.sameShapes, same] :
      Node.sameShapes [node] [value] = true)
    simp [Node.ofChildren, Node.sameShape, shapes]

end CFrontEnd
