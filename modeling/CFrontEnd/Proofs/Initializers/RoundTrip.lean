import CFrontEnd.Proofs.Initializers.Lists

/-!
Initializers come back from their texts: lists in braces, the lists in them, and the ways to what their
values are for.
-/

namespace CFrontEnd

open Parse Productions

variable {context : ParseContext} {state : ParseState} {item : Node} {items : List Node}
  {words more : List Word} {spot : SourceLocation}

/-! ## Items one after the other -/

namespace Productions

variable {deeper : Productions} {found : Array Node} {node : Node} {stop : Nat}

/-- One more item, if the list does not end here. -/
def addItem (deeper : Productions) (items : Array Node) : Parse (ForInStep (Array Node)) := do
  if ← atPunctuator .closeBrace then return .done items
  else
    let items := items.push (← initializerItem deeper)
    if ← consumePunctuator .comma then return .yield items else return .done items

theorem initializerListRule_eq (deeper : Productions) :
    initializerListRule deeper = (do
      let opening ← expectPunctuator .openBrace "'\x7b'"
      let items ← iterate #[] (addItem deeper)
      discard (expectPunctuator .closeBrace "'\x7d' after initializer list")
      return .ofChildren .initializerList opening.location items.toList) :=
  rfl

theorem addItem_last (notClosing : (context.tokens.get state.position).kind ≠ .punctuator .closeBrace)
    (read : initializerItem deeper context state = .ok node (state.movedTo stop))
    (noComma : (context.tokens.get stop).kind ≠ .punctuator .comma) :
    addItem deeper found context state = .ok (.done (found.push node)) (state.movedTo stop) := by
  simp [addItem, notClosing, read, noComma]

theorem addItem_comma (notClosing : (context.tokens.get state.position).kind ≠ .punctuator .closeBrace)
    (read : initializerItem deeper context state = .ok node (state.movedTo stop))
    (comma : (context.tokens.get stop).kind = .punctuator .comma) :
    addItem deeper found context state =
      .ok (.yield (found.push node)) (state.movedTo (stop + 1)) := by
  simp [addItem, notClosing, read, comma]

end Productions

/-- The words that the items are written with, and that they are read as the items up to the brace
behind them. -/
structure ReadsInitializerItems (items : List Node) (words : List Word) : Prop where
  scans : ∀ later, ScansAs gnuC17 (", ".intercalate (items.map Node.expressionText)).toList words
    ('\x7d' :: later)
  reads : ∀ {context : ParseContext} {state : ParseState} {levels : Nat}, GnuContext context →
    state.IsPlain → context.tokens.HasWordsAt state.position words →
    (context.tokens.get (state.position + words.length)).kind = .punctuator .closeBrace →
    (∀ item ∈ items, 6 * item.height + 8 ≤ levels) → ∀ found : Array Node,
    ∃ nodes, Node.sameShapes nodes items = true ∧
      repeatFrom (addItem (ofLevels levels)) found context state =
        .ok (found ++ nodes.toArray) (state.movedTo (state.position + words.length))

namespace ReadsInitializerItems

theorem nil : ReadsInitializerItems [] [] := by
  refine ⟨fun later => .nil _, ?_⟩
  intro context state levels _ _ _ closes _ found
  have closes : (context.tokens.get state.position).kind = .punctuator .closeBrace := closes
  have stops : repeatFrom (addItem (ofLevels levels)) found context state = .ok found state :=
    repeatFrom_done (by simp [addItem, closes])
  exact ⟨[], rfl, by simpa using stops⟩

theorem single (inside : ReadsItem item words) : ReadsInitializerItems [item] words := by
  refine ⟨?_, ?_⟩
  · intro later
    rw [List.map_singleton, String.intercalate_singleton]
    exact inside.scans _ (.cons later (by decide)) (by simp)
  · intro context state levels gnu plain has closes enough found
    have ends : (context.tokens.get (state.position + words.length)).kind.endsExpression = true := by
      rw [closes]
      rfl
    have noColon : (context.tokens.get (state.position + words.length)).kind ≠
        .punctuator .colon := by simp [closes]
    obtain ⟨node, same, read⟩ :=
      inside.reads gnu plain has ends noColon levels (enough item List.mem_cons_self)
    refine ⟨[node], by simp [Node.sameShapes, same], ?_⟩
    rw [repeatFrom_done
      (addItem_last (inside.notClosing gnu plain has ends noColon) read (by simp [closes]))]
    simp

theorem cons {next : Node} (inside : ReadsItem item words)
    (rest : ReadsInitializerItems (next :: items) more) :
    ReadsInitializerItems (item :: next :: items) (words ++ .comma :: more) := by
  refine ⟨?_, ?_⟩
  · intro later
    have scansRest := rest.scans later
    rw [List.map_cons] at scansRest
    rw [List.map_cons, List.map_cons, String.intercalate_cons_cons, String.toList_append,
      String.toList_append, List.append_assoc]
    have notPoint : (',' :: ' ' :: ((", ".intercalate
        ((next :: items).map Node.expressionText)).toList ++ '\x7d' :: later)).head? ≠ some '.' := by
      simp
    exact (inside.scans _ (.cons _ (by decide)) notPoint).append (.comma scansRest)
  · intro context state levels gnu plain has closes enough found
    rw [TokenStream.hasWordsAt_append, TokenStream.hasWordsAt_cons] at has
    obtain ⟨hasFirst, isComma, hasRest⟩ := has
    rw [length_append_cons] at closes ⊢
    have comma : (context.tokens.get (state.position + words.length)).kind = .punctuator .comma :=
      congrArg Word.kind isComma
    have ends : (context.tokens.get (state.position + words.length)).kind.endsExpression = true := by
      rw [comma]
      rfl
    have noColon : (context.tokens.get (state.position + words.length)).kind ≠
        .punctuator .colon := by simp [comma]
    obtain ⟨node, same, read⟩ :=
      inside.reads gnu plain hasFirst ends noColon levels (enough item List.mem_cons_self)
    obtain ⟨nodes, sameRest, readRest⟩ := rest.reads gnu
      (plain.movedTo (state.position + words.length + 1)) hasRest closes
      (fun other isOther => enough other (.tail _ isOther)) (found.push node)
    have step : addItem (ofLevels levels) found context state = .ok (.yield (found.push node))
        (state.movedTo (state.position + words.length + 1)) :=
      addItem_comma (inside.notClosing gnu plain hasFirst ends noColon) read comma
    -- The loop goes on only if the item and its comma took tokens.
    have progress : (state.movedTo (state.position + words.length + 1)).remaining context <
        state.remaining context := by
      have inText : state.position + words.length < context.tokens.body.size :=
        TokenStream.lt_size_of_kind (by simp [comma])
      simp only [ParseState.remaining, TokenStream.remaining, TokenStream.length,
        ParseState.position_movedTo]
      omega
    refine ⟨node :: nodes, by simp [Node.sameShapes, same, sameRest], ?_⟩
    rw [repeatFrom_yield step progress, readRest]
    simp

theorem ofAll (each : ∀ item ∈ items, ∃ words, ReadsItem item words) :
    ∃ words, ReadsInitializerItems items words := by
  induction items with
  | nil => exact ⟨[], nil⟩
  | cons item rest ih =>
    obtain ⟨words, reads⟩ := each item List.mem_cons_self
    obtain ⟨more, readsRest⟩ := ih fun other isOther => each other (.tail _ isOther)
    cases rest with
    | nil => exact ⟨words, single reads⟩
    | cons next rest => exact ⟨_, cons reads readsRest⟩

end ReadsInitializerItems

/-! ## Lists -/

theorem Node.expressionText_initializerList (items : List Node) :
    (expressionText ⟨.initializerList, spot, .none, items⟩).toList =
      '\x7b' :: ((", ".intercalate (items.map expressionText)).toList ++ ['\x7d']) := by
  have texts : (spellings items).map Spelling.expression = items.map expressionText := by
    rw [spellings_eq_map, List.map_map]
    rfl
  have text : expressionText ⟨.initializerList, spot, .none, items⟩ =
      "\x7b" ++ Spelling.listText ((spellings items).map Spelling.expression) ++ "\x7d" :=
    rfl
  rw [text, texts]
  simp [Spelling.listText]

theorem ReadsInitializerItems.list (inside : ReadsInitializerItems items words) :
    ReadsInitializer ⟨.initializerList, spot, .none, items⟩
      (.openBrace :: (words ++ [.closeBrace])) := by
  refine ⟨?_, ?_, ?_⟩
  · intro next _ _
    rw [Node.expressionText_initializerList]
    exact .openBrace ((inside.scans next).append (.closeBrace next))
  · intro context state _ _ has _ _
    have opens : (context.tokens.get state.position).kind = .punctuator .openBrace :=
      congrArg Word.kind has.1
    exact ⟨atColonDesignator_false (by simp [opens]), by simp [opens], by simp [opens],
      by simp [opens]⟩
  · intro context state gnu plain has _ levels enough
    obtain ⟨levels, rfl⟩ : ∃ fewer, levels = fewer + 1 := ⟨levels - 1, by omega⟩
    rw [TokenStream.hasWordsAt_cons, TokenStream.hasWordsAt_append,
      TokenStream.hasWordsAt_cons] at has
    obtain ⟨isOpening, hasItems, isClosing, _⟩ := has
    have opens : (context.tokens.get state.position).kind = .punctuator .openBrace :=
      congrArg Word.kind isOpening
    have closes : (context.tokens.get (state.position + 1 + words.length)).kind =
      .punctuator .closeBrace := congrArg Word.kind isClosing
    have low : ∀ item ∈ items, 6 * item.height + 8 ≤ levels := by
      intro item isItem
      have lower : item.height + 1 ≤ Node.height ⟨.initializerList, spot, .none, items⟩ :=
        Node.height_child isItem
      omega
    obtain ⟨nodes, same, read⟩ :=
      inside.reads gnu (plain.movedTo (state.position + 1)) hasItems closes low #[]
    rw [length_enclosed]
    refine ⟨.ofChildren .initializerList (context.tokens.get state.position).location nodes, ?_, ?_⟩
    · simp [Node.ofChildren, Node.sameShape, same]
    · have asList : Productions.initializer (ofLevels (levels + 1)) context state =
          initializerListRule (ofLevels levels) context state := by
        simp [Productions.initializer, opens, ofLevels, rules]
      rw [asList, initializerListRule_eq]
      simp [opens, read, closes]

mutual

/-- Every initializer is written with words that are read as it. -/
theorem IsInitializer.readsInitializer {tree : Node} :
    IsInitializer tree → ∃ words, ReadsInitializer tree words
  | .expression isTree => by
    obtain ⟨_, inside⟩ := isTree.readsBack
    exact ⟨_, inside.readsInitializer⟩
  | .list each => by
    obtain ⟨_, inside⟩ :=
      ReadsInitializerItems.ofAll fun item isItem => (each item isItem).readsItem
    exact ⟨_, inside.list⟩

theorem IsInitializerItem.readsItem {item : Node} :
    IsInitializerItem item → ∃ words, ReadsItem item words
  | .value isValue => by
    obtain ⟨_, inside⟩ := isValue.readsInitializer
    exact ⟨_, inside.readsItem⟩
  | .designation notEmpty each isValue => by
    obtain ⟨_, steps⟩ := exists_wordLists fun step isStep => (each step isStep).readsDesignator
    obtain ⟨_, inside⟩ := isValue.readsInitializer
    exact ⟨_, .designation notEmpty steps inside⟩

end

/-- The text of an initializer is scanned and read without a problem, and gives a tree of the same
shape. -/
theorem parseRule_initializerText (tree : Node) (isInitializer : IsInitializer tree)
    (low : tree.height ≤ 150) (name : String) (diagnostics : Diagnostics) :
    ∃ tokens node,
      tokenize (cLanguage gnuC17) ⟨name, tree.expressionText⟩ diagnostics =
        (tokens, diagnostics) ∧
      (cLanguage gnuC17).parseRule "initializer" tokens diagnostics = (some node, diagnostics) ∧
      node.sameShape tree = true := by
  obtain ⟨words, inside⟩ := isInitializer.readsInitializer
  obtain ⟨tokens, tokenized, isWords⟩ :=
    (inside.scans [] .nil (by simp)).tokenize name diagnostics
  have gnu : GnuContext ((cLanguage gnuC17).context tokens) :=
    ⟨rfl, by simp [Language.context, gnuC17]⟩
  have plain : (ParseState.first diagnostics).IsPlain := ⟨rfl, fun _ => rfl⟩
  have has : tokens.HasWordsAt 0 words := isWords ▸ tokens.hasWordsAt_body
  have ends := TokenStream.get_behind_words isWords
  obtain ⟨node, same, read⟩ := inside.reads gnu plain has
    (by rw [Language.tokens_context]; exact (congrArg _ ends).trans rfl) maxNesting
    (by rw [maxNesting]; omega)
  exact ⟨tokens, node, tokenized, Language.parseRule_ok .initializer read ends, same⟩

/-- The tree of `{.x[0 ... 2] = {1, y}, {}}`. -/
def sampleInitializer : Node :=
  let spot : SourceLocation := ⟨"<input>", 1, 1, 0⟩
  let number (value : Nat) : Node := ⟨.integerLiteral, spot, .literal (.integer value {}), []⟩
  let list (items : List Node) : Node := ⟨.initializerList, spot, .none, items⟩
  let path : List Node := [⟨.fieldDesignator, spot, .name "x", []⟩,
    ⟨.rangeDesignator, spot, .none, [number 0, number 2]⟩]
  let values : Node := list [number 1, ⟨.identifier, spot, .name "y", []⟩]
  list [⟨.designation, spot, .none, path ++ [values]⟩, list []]

theorem parseRule_initializerText_sample :
    IsInitializer sampleInitializer ∧ sampleInitializer.height ≤ 150 ∧ ∃ tokens node,
      tokenize (cLanguage gnuC17) ⟨"<input>", sampleInitializer.expressionText⟩ .empty =
        (tokens, .empty) ∧
      (cLanguage gnuC17).parseRule "initializer" tokens .empty = (some node, .empty) ∧
      node.sameShape sampleInitializer = true := by
  have number (value : Nat) (small : value ≤ 2) :
      IsOperatorTree ⟨.integerLiteral, ⟨"<input>", 1, 1, 0⟩, .literal (.integer value {}), []⟩ :=
    .integer ⟨by omega, by decide⟩
  have isInitializer : IsInitializer sampleInitializer := by
    refine .list (List.forall_mem_cons.mpr ⟨.designation (by simp) ?_ (.list ?_), ?_⟩)
    · exact List.forall_mem_cons.mpr ⟨.field (by decide), List.forall_mem_singleton.mpr
        (.range (number 0 (by decide)) (number 2 (by decide)))⟩
    · exact List.forall_mem_cons.mpr ⟨.value (.expression (number 1 (by decide))),
        List.forall_mem_singleton.mpr (.value (.expression (.identifier (by decide) (by decide))))⟩
    · exact List.forall_mem_singleton.mpr (.value (.list (by simp)))
  have low : sampleInitializer.height ≤ 150 := by decide
  exact ⟨isInitializer, low,
    parseRule_initializerText sampleInitializer isInitializer low "<input>" .empty⟩

end CFrontEnd
