import CFrontEnd.Proofs.Grammar.Start
import CFrontEnd.Proofs.Statements.Nested

/-!
Labels in front of statements, and the statements of a block one after the other.
-/

namespace CFrontEnd

open Parse Productions

variable {dialect : Dialect} {tree value : Node} {first : Word} {words : List Word}
  {spot : SourceLocation} {context : ParseContext} {state : ParseState}

namespace ReadsStatement

/-! ## Labels -/

/-- What a label stands in front of is read as the statement it is. -/
theorem labelBody (body : ReadsStatement dialect tree words)
    (isC : context.language = cLanguage dialect) (plain : state.IsPlain)
    (has : context.tokens.HasWordsAt state.position words)
    (noElse : tree.endsOpen = true →
      (context.tokens.get (state.position + words.length)).kind ≠ .keyword .elseWord) :
    ReadsAs Productions.labelBody context state (tree.height + 5) (state.position + words.length)
      tree := by
  have starts := body.starts isC plain has
  intro levels enough
  obtain ⟨node, same, read⟩ := body.reads isC plain has noElse levels enough
  exact ⟨node, same, by simp [Productions.labelBody, starts.notClosing, starts.noDeclaration, read]⟩

theorem caseLabel (operand : ReadsFromWord dialect value first)
    (body : ReadsStatement dialect tree words) :
    ReadsStatement dialect ⟨.caseLabel, spot, .none, [value, tree]⟩
      (.keyword .caseWord "case" :: first :: .punctuator .colon ":" :: words) := by
  have text : (Node.statementText ⟨.caseLabel, spot, .none, [value, tree]⟩).toList =
      "case".toList ++ ' ' :: (value.expressionText.toList ++
        ':' :: ' ' :: tree.statementText.toList) := by
    simp [Node.statementText_caseLabel]
  have lower : tree.height + 1 ≤ Node.height ⟨.caseLabel, spot, .none, [value, tree]⟩ :=
    Node.height_child (by simp)
  have sameEnd : Node.endsOpen ⟨.caseLabel, spot, .none, [value, tree]⟩ = tree.endsOpen :=
    rfl
  refine ofWord Productions.caseLabel rfl (by decide) (fun _ => rfl) ?_ ?_
  · intro next
    rw [text]
    exact .spacedWord rfl rfl ((operand.scansBefore _ (by decide) (by decide)).append
      (.colon (.space (body.scans next))))
  · intro context state isC plain isWord has noElse levels enough
    have stop : state.position + 1 + (first :: Word.punctuator .colon ":" :: words).length =
        state.position + 1 + 1 + 1 + words.length := by
      simp only [List.length_cons]
      omega
    rw [stop, sameEnd] at noElse
    rw [stop]
    obtain ⟨isFirst, isColon, hasBody⟩ := has
    have colon : (context.tokens.get (state.position + 1 + 1)).kind = .punctuator .colon :=
      congrArg Word.kind isColon
    have inside := plain.movedTo (state.position + 1)
    have readsValue : ReadsAs Productions.conditional context (state.movedTo (state.position + 1)) 3
        (state.position + 1 + 1) value :=
      (operand.reads isC inside isFirst).conditional isC (operand.starts isC inside isFirst)
        (by rw [colon]; rfl)
    -- Behind the value stands the colon, so this is no range of cases.
    have noRange : consumeInGnu (.punctuator .ellipsis) context
        (state.movedTo (state.position + 1 + 1)) =
        .ok false (state.movedTo (state.position + 1 + 1)) :=
      consumeInGnu_other (by simp) (by simp [colon])
    obtain ⟨low, sameValue, readValue⟩ := readsValue levels (by omega)
    obtain ⟨inner, sameBody, readBody⟩ := body.labelBody isC
      (plain.movedTo (state.position + 1 + 1 + 1)) hasBody noElse levels (by omega)
    refine ⟨.ofChildren .caseLabel (context.tokens.get state.position).location [low, inner], ?_, ?_⟩
    · simp [Node.ofChildren, Node.sameShape, Node.sameShapes, sameValue, sameBody]
    · simp [Productions.caseLabel, isWord, readValue, noRange, colon, readBody]

theorem defaultLabel (body : ReadsStatement dialect tree words) :
    ReadsStatement dialect ⟨.defaultLabel, spot, .none, [tree]⟩
      (.keyword .defaultWord "default" :: .punctuator .colon ":" :: words) := by
  have text : (Node.statementText ⟨.defaultLabel, spot, .none, [tree]⟩).toList =
      "default".toList ++ ':' :: ' ' :: tree.statementText.toList := by
    simp [Node.statementText_defaultLabel]
  have lower : tree.height + 1 ≤ Node.height ⟨.defaultLabel, spot, .none, [tree]⟩ :=
    Node.height_child (by simp)
  have sameEnd : Node.endsOpen ⟨.defaultLabel, spot, .none, [tree]⟩ = tree.endsOpen :=
    rfl
  refine ofWord Productions.defaultLabel rfl (by decide) (fun _ => rfl) ?_ ?_
  · intro next
    have scansWord : ScansAs dialect "default".toList
        [.keyword .defaultWord "default"] (':' :: ' ' :: tree.statementText.toList ++ next) :=
      .statementWord rfl rfl (.cons _ (by decide))
    rw [text]
    exact scansWord.append (.colon (.space (body.scans next)))
  · intro context state isC plain isWord has noElse levels enough
    rw [List.length_cons, Nat.add_comm words.length, ← Nat.add_assoc] at noElse ⊢
    rw [sameEnd] at noElse
    obtain ⟨isColon, hasBody⟩ := has
    have colon : (context.tokens.get (state.position + 1)).kind = .punctuator .colon :=
      congrArg Word.kind isColon
    obtain ⟨inner, sameBody, readBody⟩ := body.labelBody isC
      (plain.movedTo (state.position + 1 + 1)) hasBody noElse levels (by omega)
    refine ⟨.ofChildren .defaultLabel (context.tokens.get state.position).location [inner], ?_, ?_⟩
    · simp [Node.ofChildren, Node.sameShape, Node.sameShapes, sameBody]
    · simp [Productions.defaultLabel, isWord, colon, readBody]

/-- A name with a colon behind it is a label, whatever the name stands for. -/
theorem labeled {name : String} (isName : IsName dialect name)
    (body : ReadsStatement dialect tree words) :
    ReadsStatement dialect ⟨.labeled, spot, .name name, [tree]⟩
      (.identifier name :: .punctuator .colon ":" :: words) := by
  have text : (Node.statementText ⟨.labeled, spot, .name name, [tree]⟩).toList =
      name.toList ++ ':' :: ' ' :: tree.statementText.toList := by
    simp [Node.statementText_labeled]
  have lower : tree.height + 1 ≤ Node.height ⟨.labeled, spot, .name name, [tree]⟩ :=
    Node.height_child (by simp)
  have sameEnd : Node.endsOpen ⟨.labeled, spot, .name name, [tree]⟩ = tree.endsOpen :=
    rfl
  have starts {context : ParseContext} {state : ParseState}
      (has : context.tokens.HasWordsAt state.position
        (.identifier name :: .punctuator .colon ":" :: words)) : StartsStatement context state := by
    have isIdentifier : (context.tokens.get state.position).kind = .identifier :=
      congrArg Word.kind has.1
    exact ⟨by rw [isIdentifier]; rfl,
      startsDeclaration_label isIdentifier (congrArg Word.kind has.2.1)⟩
  refine ⟨?_, fun _ _ has => starts has, ?_⟩
  · intro next
    have scansName : ScansAs dialect name.toList [.identifier name]
        (':' :: ' ' :: tree.statementText.toList ++ next) :=
      .identifier isName.1 isName.2 (.cons _ (by decide))
    rw [text]
    exact scansName.append (.colon (.space (body.scans next)))
  · intro context state isC plain has noElse
    have startsHere := starts has
    have stop : state.position + (Word.identifier name :: .punctuator .colon ":" :: words).length =
        state.position + 1 + 1 + words.length := by
      simp only [List.length_cons]
      omega
    rw [stop, sameEnd] at noElse
    rw [stop]
    obtain ⟨isLabel, isColon, hasBody⟩ := has
    obtain ⟨isIdentifier, lexeme, _⟩ := Token.word_eq_mk.mp isLabel
    have colon : (context.tokens.get (state.position + 1)).kind = .punctuator .colon :=
      congrArg Word.kind isColon
    have inside := plain.movedTo (state.position + 1 + 1)
    -- A statement does not begin with attributes, which could stand behind the colon.
    have noMore : skipAttributes context (state.movedTo (state.position + 1 + 1)) =
        .ok () (state.movedTo (state.position + 1 + 1)) :=
      skipAttributes_none (body.starts isC inside hasBody).noAttribute
    have reads : ReadsAs labeledStatement context state (tree.height + 5)
        (state.position + 1 + 1 + words.length) ⟨.labeled, spot, .name name, [tree]⟩ := by
      intro levels enough
      obtain ⟨inner, sameBody, readBody⟩ := body.labelBody isC inside hasBody noElse levels enough
      refine ⟨⟨.labeled, (context.tokens.get state.position).location, .name name, [inner]⟩, ?_, ?_⟩
      · simp [Node.sameShape, Node.sameShapes, sameBody]
      · simp [labeledStatement, isIdentifier, colon, noMore, lexeme, readBody]
    exact (reads.statement startsHere fun deeper noAttributes => by
      simp [statementRule, noAttributes, isIdentifier, atLabel, colon]).mono (by omega)

/-! ## Blocks -/

variable {items : List Node} {wordLists : List (List Word)}

/-- Nothing at all is no statement, as the end of a text shows. -/
theorem words_ne_nil (reads : ReadsStatement dialect tree words) : words ≠ [] := by
  rintro rfl
  have starts : StartsStatement ((cLanguage dialect).context ⟨#[], tree.location⟩) (.first .empty) :=
    reads.starts rfl ⟨rfl, fun _ => rfl⟩ trivial
  exact starts.notEnd rfl

/-- Each statement of a block has a blank behind it. -/
theorem scansItems (each : List.Forall₂ (ReadsStatement dialect) items wordLists)
    (next : List Char) :
    ScansAs dialect (items.flatMap fun item => item.statementText.toList ++ [' '])
      wordLists.flatten next := by
  induction each with
  | nil => exact .nil next
  | cons item _ ih =>
    rw [List.flatMap_cons, List.flatten_cons, List.append_assoc]
    exact (item.scans _).append (.space ih)

/-- No statement of a block and no end of one is an `else`. -/
theorem notElse_ahead (each : List.Forall₂ (ReadsStatement dialect) items wordLists)
    (isC : context.language = cLanguage dialect) (plain : state.IsPlain)
    (has : context.tokens.HasWordsAt state.position wordLists.flatten)
    (closes : (context.tokens.get (state.position + wordLists.flatten.length)).kind =
      .punctuator .closeBrace) :
    (context.tokens.get state.position).kind ≠ .keyword .elseWord := by
  cases each with
  | nil =>
    have closes : (context.tokens.get state.position).kind = .punctuator .closeBrace := closes
    simp [closes]
  | cons item _ =>
    rw [List.flatten_cons, TokenStream.hasWordsAt_append] at has
    exact (item.starts isC plain has.1).notElse

/-- The statements of a block are read one by one, behind the nodes read before. -/
theorem readsItems (each : List.Forall₂ (ReadsStatement dialect) items wordLists) {levels : Nat}
    (enough : ∀ item ∈ items, item.height + 5 ≤ levels) (before : Array Node)
    (isC : context.language = cLanguage dialect) (plain : state.IsPlain)
    (has : context.tokens.HasWordsAt state.position wordLists.flatten)
    (closes : (context.tokens.get (state.position + wordLists.flatten.length)).kind =
      .punctuator .closeBrace) :
    ∃ nodes, Node.sameShapes nodes items = true ∧
      repeatFrom (recoveringStep endsBlock (blockItem (ofLevels levels))) before context state =
        .ok (before ++ nodes.toArray)
          (state.movedTo (state.position + wordLists.flatten.length)) := by
  induction each generalizing before state with
  | nil =>
    have closes : (context.tokens.get state.position).kind = .punctuator .closeBrace := closes
    refine ⟨[], rfl, ?_⟩
    rw [recoveringStep_stop (.inr (by simp [endsBlock, closes]))]
    simp
  | @cons item words items wordLists read each ih =>
    obtain ⟨hasItem, hasRest⟩ := (context.tokens.hasWordsAt_append _ _ _).mp has
    rw [List.flatten_cons, List.length_append, ← Nat.add_assoc] at closes ⊢
    have starts := read.starts isC plain hasItem
    have inside := plain.movedTo (state.position + words.length)
    -- The item may end in an open `if`, but no `else` follows it in the block.
    have noElse := notElse_ahead each isC inside hasRest closes
    obtain ⟨node, same, readItem⟩ :=
      read.reads isC plain hasItem (fun _ => noElse) levels (enough _ List.mem_cons_self)
    obtain ⟨nodes, sameRest, readRest⟩ := ih (fun item isItem => enough item (.tail _ isItem))
      (before.push node) inside hasRest closes
    have readBlock : blockItem (ofLevels levels) context state =
        .ok { nodes := #[node] } (state.movedTo (state.position + words.length)) := by
      simp [blockItem, starts.noDeclaration, single, readItem]
    have forward : 0 < words.length := List.length_pos_iff.mpr read.words_ne_nil
    refine ⟨node :: nodes, by simp [Node.sameShapes, same, sameRest], ?_⟩
    rw [recoveringStep_item starts.notEnd (by simp [endsBlock, starts.notClosing]) readBlock
      (Nat.lt_add_of_pos_right forward)]
    simpa using readRest

theorem compound (each : List.Forall₂ (ReadsStatement dialect) items wordLists) :
    ReadsStatement dialect ⟨.compound, spot, .none, items⟩
      (.openBrace :: (wordLists.flatten ++ [.closeBrace])) := by
  have opens {context : ParseContext} {state : ParseState}
      (has : context.tokens.HasWordsAt state.position
        (.openBrace :: (wordLists.flatten ++ [.closeBrace]))) :
      (context.tokens.get state.position).kind = .punctuator .openBrace :=
    congrArg Word.kind has.1
  refine ⟨?_, ?_, ?_⟩
  · intro next
    have text : (Node.statementText ⟨.compound, spot, .none, items⟩).toList =
        '\x7b' :: ' ' :: ((items.flatMap fun item => item.statementText.toList ++ [' ']) ++
          ['\x7d']) := by
      simp [Node.statementText_compound, List.flatMap_map]
    rw [text]
    exact .openBrace (.space ((scansItems each _).append (.closeBrace next)))
  · intro context state _ _ has
    exact .punctuator (.inl rfl) (opens has)
  · intro context state isC plain has _
    have isOpen := opens has
    obtain ⟨hasItems, isClose, _⟩ := (context.tokens.hasWordsAt_append _ _ _).mp has.2
    have closes : (context.tokens.get (state.position + 1 + wordLists.flatten.length)).kind =
        .punctuator .closeBrace := congrArg Word.kind isClose
    have stop : state.position +
        (Word.openBrace :: (wordLists.flatten ++ [.closeBrace])).length =
          state.position + 1 + wordLists.flatten.length + 1 := by
      simp only [List.length_cons, List.length_append, List.length_nil]
      omega
    rw [stop]
    have reads : ReadsAs block context state
        (Node.height ⟨.compound, spot, .none, items⟩ + 4)
        (state.position + 1 + wordLists.flatten.length + 1) ⟨.compound, spot, .none, items⟩ := by
      intro levels enough
      -- The items are lower than the block, and the block uses up the level that they do not
      -- need.
      have deep : ∀ item ∈ items, item.height + 5 ≤ levels := by
        intro item isItem
        have lower : item.height + 1 ≤ Node.height ⟨.compound, spot, .none, items⟩ :=
          Node.height_child isItem
        omega
      obtain ⟨nodes, same, readItems⟩ := readsItems each deep #[] isC
        (plain.enter.movedTo (state.position + 1)) hasItems closes
      refine ⟨.ofChildren .compound (context.tokens.get state.position).location nodes, ?_, ?_⟩
      · simp [Node.ofChildren, Node.sameShape, same]
      · rw [block_of_items isOpen readItems closes]
        simp
    exact reads.statement (.punctuator (.inl rfl) isOpen) fun deeper _ => statementRule_block isOpen

end ReadsStatement

end CFrontEnd
