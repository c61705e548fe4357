import CFrontEnd.Proofs.Spelling.Expressions
import CFrontEnd.Proofs.Types.Parameters
import CFrontEnd.Proofs.Types.Parts

/-!
Arrays and functions behind a declarator. The length of an array is an operand alone, which takes the
levels of all expressions around it. A function has the parameters of its tree.
-/

namespace CFrontEnd

section

open Parse Productions

variable {context : ParseContext} {state : ParseState}

/-! ## Operands alone -/

/-- With fewer levels than the expressions around an operand the operand is not reached. -/
theorem tooDeep_assignment (calm : state.panicking = false) (starts : StartsOperand context state)
    {levels : Nat} (few : levels < operandLevels) :
    TooDeep state.diagnostics ((ofLevels levels).assignment context state) := by
  have unary : TooDeep state.diagnostics ((ofLevels 0).unary context state) := .exhausted calm
  have cast : TooDeep state.diagnostics ((ofLevels 1).cast context state) := by
    change TooDeep state.diagnostics (castRule (ofLevels 0) context state)
    rwa [castRule_of_noType starts.noType]
  have conditional : ∀ levels, TooDeep state.diagnostics ((ofLevels levels).cast context state) →
      TooDeep state.diagnostics ((ofLevels (levels + 1)).conditional context state) := by
    intro levels deep
    have binary : TooDeep state.diagnostics (binary (ofLevels levels) context state) := by
      unfold binary
      cases state.remaining context with
      | zero => exact deep
      | succ steps =>
        rw [binaryWithin_succ]
        exact deep.bind
    exact binary.bind
  match levels, few with
  | 0, _ => exact .exhausted calm
  | 1, _ =>
    have inside : TooDeep state.diagnostics ((ofLevels 0).conditional context state) :=
      .exhausted calm
    exact inside.bind
  | 2, _ => exact (conditional 0 (.exhausted calm)).bind
  | 3, _ => exact (conditional 1 cast).bind

theorem demands_assignment {dialect : Dialect} (isC : context.language = cLanguage dialect)
    (calm : state.panicking = false) {stop : Nat} {tree : Node}
    (starts : StartsOperand context state) (reads : ReadsOperand context state 0 stop tree)
    (ends : (context.tokens.get stop).kind.endsExpression = true) (levels : Nat) :
    Demands operandLevels levels state.diagnostics ((ofLevels levels).assignment context state)
      (∃ node, node.sameShape tree = true ∧
        (ofLevels levels).assignment context state = .ok node (state.movedTo stop)) :=
  ⟨reads.assignment isC starts ends levels, tooDeep_assignment calm starts⟩

/-- The length of an array is one word. -/
theorem IsArrayLength.readsOperand {length : Node} (isLength : IsArrayLength length) :
    ∃ word : Word, (word.kind = .identifier ∨ word.kind = .literal .integer) ∧
      (∀ later, ScansAs gnuC23 length.expressionText.toList [word] (']' :: later)) ∧
      ∀ {context : ParseContext} {state : ParseState}, context.language = cLanguage gnuC23 →
        state.IsPlain → (context.tokens.get state.position).word = word →
        StartsOperand context state ∧ ReadsOperand context state 0 (state.position + 1) length := by
  have ends (later : List Char) : EndsWord (']' :: later) := .cons later (by decide)
  cases isLength with
  | @integer spot value suffix isInteger =>
    refine ⟨.integer value suffix, .inr rfl, ?_, ?_⟩
    · intro later
      exact .integer isInteger.1 isInteger.2 (ends later) (by simp)
    · intro context state _ _ isWord
      obtain ⟨kind, _, isValue⟩ := Token.word_eq_mk.mp isWord
      exact ⟨.single (.inr kind) (by simp [beginsTypeName, kind]), .integer kind isValue⟩
  | @identifier spot name isName =>
    refine ⟨.identifier name, .inl rfl, ?_, ?_⟩
    · intro later
      exact .identifier isName.1.1 isName.1.2 (ends later)
    · intro context state isC plain isWord
      obtain ⟨kind, lexeme, _⟩ := Token.word_eq_mk.mp isWord
      have noType : context.language.isTypeName state.scopes.isTypedefName name = false := by
        rw [isTypeName_cLanguage isC plain]
        simpa using isName.2
      exact ⟨.single (.inl kind) (by simp [beginsTypeName, kind, lexeme, noType]),
        .identifier kind lexeme noType⟩

/-! ## Arrays -/

theorem Productions.arrayWords_none
    (noKeyword : ∀ word, (context.tokens.get state.position).kind ≠ .keyword word) :
    arrayWords context state = .ok {} state := by
  apply repeatFrom_done
  cases kind : (context.tokens.get state.position).kind with
  | keyword word => exact absurd kind (noKeyword word)
  | _ => simp [kind]

namespace ReadsStep

variable {spot : SourceLocation}

theorem openArray :
    ReadsStep "[]" [.openBracket, .closeBracket] 0
      (fun tree => ⟨.arrayType, spot, .array {} false false, [tree]⟩) where
  notEmpty := by simp
  ends next := .cons _ (by decide)
  begins := by simp [Word.openBracket, Word.punctuator, TokenKind.endsDeclarator]
  scans next := .openBracket (.closeBracket (.nil next))
  follows {stream place} has := by
    have opens := Token.kind_of_word has.1
    have closes := Token.kind_of_word has.2.1
    exact ⟨.array opens (by rw [closes]; decide), by rw [opens]; decide⟩
  reads {context state} _ _ has := by
    have opens : (context.tokens.get state.position).kind = .punctuator .openBracket :=
      Token.kind_of_word has.1
    have closes : (context.tokens.get (state.position + 1)).kind = .punctuator .closeBracket :=
      Token.kind_of_word has.2.1
    have noWords : arrayWords context (state.movedTo (state.position + 1)) = _ :=
      arrayWords_none (by simp [closes])
    have noLength : Node.sameShapes (none : Option Node).toList (none : Option Node).toList = true :=
      rfl
    intro levels declarator
    refine .of_good ⟨.array (context.tokens.get state.position).location {} false false none,
      .array noLength, ?_⟩
    simp [addDerivation, TokenStream.startsBrackets, opens, closes, arrayDerivation, noWords,
      atOpenLength, expectClosingBracket]

theorem sizedArray {length : Node} (isLength : IsArrayLength length) :
    ∃ words, ReadsStep ("[" ++ length.expressionText ++ "]") words operandLevels
      (fun tree => ⟨.arrayType, spot, .array {} false false, [tree, length]⟩) := by
  obtain ⟨word, isOperand, scans, reads⟩ := isLength.readsOperand
  refine ⟨[.openBracket, word, .closeBracket], ?_⟩
  constructor
  · simp
  · intro next
    rw [String.append_assoc, String.toList_append]
    exact .cons _ (by decide)
  · simp [Word.openBracket, Word.punctuator, TokenKind.endsDeclarator]
  · intro next
    have scansLength := (scans next).append (.closeBracket (.nil next))
    simpa using ScansAs.openBracket scansLength
  · intro stream place has
    have opens := Token.kind_of_word has.1
    refine ⟨.array opens ?_, by rw [opens]; decide⟩
    rw [Token.kind_of_word has.2.1]
    rcases isOperand with same | same <;> simp [same]
  · intro context state isC plain has
    have opens : (context.tokens.get state.position).kind = .punctuator .openBracket :=
      Token.kind_of_word has.1
    have closes : (context.tokens.get (state.position + 1 + 1)).kind = .punctuator .closeBracket :=
      Token.kind_of_word has.2.2.1
    have isLengthWord := Token.kind_of_word has.2.1
    obtain ⟨starts, operand⟩ :=
      reads isC (plain.movedTo (state.position + 1)) has.2.1
    have noWords : arrayWords context (state.movedTo (state.position + 1)) = _ :=
      arrayWords_none (by rcases isOperand with same | same <;> simp [isLengthWord, same])
    intro levels declarator
    have inside := demands_assignment isC (plain.movedTo (state.position + 1)).calm starts operand
      (by rw [ParseState.position_movedTo, closes]; rfl) levels
    -- The length is an expression: it is read if the levels are enough, and gives up for good
    -- otherwise.
    refine inside.carry ?_ ?_
    · rintro ⟨node, same, read⟩
      have sameLength : Node.sameShapes (some node).toList (some length).toList = true := by
        simp [Node.sameShapes, same]
      refine ⟨.array (context.tokens.get state.position).location {} false false (some node),
        .array sameLength, ?_⟩
      · rcases isOperand with isKind | isKind
        all_goals
          simp [addDerivation, TokenStream.startsBrackets, opens, isLengthWord, isKind, closes,
            arrayDerivation, noWords, atOpenLength, expectClosingBracket, read]
    · intro after gaveUp
      refine ⟨after, ?_, rfl⟩
      rcases isOperand with isKind | isKind
      all_goals
        simp [addDerivation, TokenStream.startsBrackets, opens, isLengthWord, isKind,
          arrayDerivation, noWords, atOpenLength, gaveUp]

end ReadsStep

end

section

open Parse Productions

/-! ## Lists behind a declarator -/

theorem ReadsParameterList.step {text : String} {words : List Word} {need : Nat} {trees : List Node}
    {isVariadic isPrototyped : Bool} {spot : SourceLocation}
    (list : ReadsParameterList text.toList words need trees isVariadic isPrototyped) :
    ReadsStep (Spelling.parenthesized text) (.openParen :: (words ++ [.closeParen])) need
      (fun tree =>
        ⟨.functionType, spot, .functionType isVariadic isPrototyped, tree :: trees⟩) where
  notEmpty := by simp [Spelling.parenthesized]
  ends next := by
    rw [Spelling.parenthesized, String.append_assoc, String.toList_append]
    exact .cons _ (by decide)
  begins := by simp [Word.openParen, Word.punctuator, TokenKind.endsDeclarator]
  scans next := by
    have scans := (list.scans next).append (.closeParen (.nil next))
    simpa [Spelling.parenthesized] using ScansAs.openParen scans
  follows {stream place} has := by
    have opens := Token.kind_of_word has.1
    exact ⟨.function opens (list.begins has.2), by rw [opens]; decide⟩
  reads {context state} isC plain has := by
    obtain ⟨isOpen, hasRest⟩ := has
    have opens : (context.tokens.get state.position).kind = .punctuator .openParen :=
      Token.kind_of_word isOpen
    have length : state.position + (Word.openParen :: (words ++ [.closeParen])).length =
        state.position + 1 + words.length + 1 := by
      simp
      omega
    rw [length]
    -- The parameters have a scope of their own, which is left behind them.
    let inside := (state.rescoped state.scopes.enter).movedTo (state.position + 1)
    have insidePlain : inside.IsPlain := by
      refine ⟨plain.calm, fun name => ?_⟩
      rw [ParseState.scopes_movedTo, ParseState.scopes_rescoped, ScopeStack.isTypedefName_enter]
      exact plain.noTypes name
    intro levels declarator
    refine (list.reads isC insidePlain hasRest levels).carry ?_ ?_
    · rintro ⟨parameters, scopes, same, rfl, rfl, adds, read⟩
      refine ⟨.function (context.tokens.get state.position).location parameters.nodes.toList
        parameters.isVariadic parameters.isPrototyped, .function same, ?_⟩
      have left : scopes.exit = state.scopes := adds.exit
      simp [addDerivation, opens, functionDerivation, inNewScope_apply, inside, read, left]
    · intro after gaveUp
      refine ⟨after.rescoped after.scopes.exit, ?_, rfl⟩
      simp [addDerivation, opens, functionDerivation, inNewScope_apply, inside, gaveUp]

/-! ## Lists of the parameters of a tree -/

namespace Parameter

def text (parameter : Parameter) : String :=
  parameter.type.declaratorText (parameter.name.getD "")

/-- The parameter comes back from its text. -/
def IsRead (parameter : Parameter) : Prop :=
  ∃ words, ReadsType .either parameter.text words (parameter.type.depthAround false 0)
    parameter.name parameter.type

@[simp] theorem parametersDepth_cons (parameter : Parameter) (rest : List Node) :
    Node.parametersDepth (parameter.node :: rest) =
      max (parameter.type.depthAround false 0 + 1) (Node.parametersDepth rest) := by
  simp [node, Node.parametersDepth]

end Parameter

theorem Spelling.listText_cons (first : String) {others : List String} (notEmpty : others ≠ []) :
    listText (first :: others) = first ++ ", " ++ listText others := by
  obtain ⟨second, rest, rfl⟩ := List.exists_cons_of_ne_nil notEmpty
  exact String.intercalate_cons_cons

/-- The texts of the parameters, and an ellipsis behind them if there may be more. -/
def listedTexts (parameters : List Parameter) (isVariadic : Bool) : List String :=
  parameters.map Parameter.text ++ (if isVariadic then ["..."] else [])

theorem readsParameters {parameters : List Parameter} {isVariadic : Bool}
    (listed : listedTexts parameters isVariadic ≠ [])
    (areRead : ∀ parameter ∈ parameters, parameter.IsRead) :
    ∃ words, ReadsParameters (Spelling.listText (listedTexts parameters isVariadic)).toList words
        (Node.parametersDepth (parameters.map Parameter.node)) (parameters.map Parameter.node)
        isVariadic ∧
      (words = [.ofKeyword .voidWord] → isVariadic = false ∧
        ∃ parameter, parameters = [parameter] ∧ parameter.IsPlainVoid) := by
  induction parameters with
  | nil =>
    cases isVariadic with
    | false => exact absurd rfl listed
    | true => exact ⟨[.ellipsis], .ellipsis, by simp [Word.ellipsis, Word.ofKeyword, Word.punctuator,
        Word.keyword]⟩
  | cons parameter rest ih =>
    obtain ⟨words, reads⟩ := areRead parameter (by simp)
    have nodes : (parameter :: rest).map Parameter.node =
        parameter.node :: rest.map Parameter.node :=
      rfl
    rw [nodes, Parameter.parametersDepth_cons]
    -- No comma stands behind the last parameter, unless an ellipsis follows.
    by_cases isLast : listedTexts rest isVariadic = []
    · obtain ⟨noRest, notVariadic⟩ := List.append_eq_nil_iff.mp isLast
      obtain rfl := List.map_eq_nil_iff.mp noRest
      have isVariadic_eq : isVariadic = false := by
        cases isVariadic with
        | false => rfl
        | true => simp at notVariadic
      obtain rfl := isVariadic_eq
      refine ⟨words, ?_, ?_⟩
      · simpa [listedTexts, Spelling.listText, Node.parametersDepth] using ReadsParameters.last reads
      · intro isVoid
        exact ⟨rfl, parameter, rfl, reads.bare isVoid⟩
    · obtain ⟨others, readsRest, _⟩ := ih isLast fun other inRest =>
        areRead other (List.mem_cons_of_mem parameter inRest)
      have texts : (Spelling.listText (listedTexts (parameter :: rest) isVariadic)).toList =
          parameter.text.toList ++ ',' :: ' ' ::
            (Spelling.listText (listedTexts rest isVariadic)).toList := by
        change (Spelling.listText (parameter.text :: listedTexts rest isVariadic)).toList = _
        rw [Spelling.listText_cons _ isLast]
        simp
      rw [texts]
      refine ⟨words ++ .comma :: others, .cons reads readsRest, ?_⟩
      intro isVoid
      -- With a comma there are more words than `void`.
      obtain ⟨keyword, between, isFirst, _⟩ := reads.begins
      have length := congrArg List.length isVoid
      simp [isFirst] at length

/-- What is written between the parentheses of a function. -/
def parametersText (parameters : List Parameter) (isVariadic isPrototyped : Bool) : String :=
  Spelling.listText <|
    if isVariadic then parameters.map Parameter.text ++ ["..."]
    else if (parameters.map Parameter.text).isEmpty && isPrototyped then ["void"]
    else parameters.map Parameter.text

theorem readsParameterList {parameters : List Parameter} {isVariadic isPrototyped : Bool}
    (isList : IsParameterList parameters isVariadic isPrototyped)
    (areRead : ∀ parameter ∈ parameters, parameter.IsRead) :
    ∃ words, ReadsParameterList (parametersText parameters isVariadic isPrototyped).toList words
      (Node.parametersDepth (parameters.map Parameter.node)) (parameters.map Parameter.node)
      isVariadic isPrototyped := by
  by_cases listed : listedTexts parameters isVariadic = []
  · obtain ⟨noParameters, notVariadic⟩ := List.append_eq_nil_iff.mp listed
    obtain rfl := List.map_eq_nil_iff.mp noParameters
    cases isVariadic with
    | true => simp at notVariadic
    | false =>
      cases isPrototyped with
      | false => exact ⟨_, .unprototyped⟩
      | true => exact ⟨_, .voidOnly⟩
  · obtain ⟨words, reads, onlyVoid⟩ := readsParameters listed areRead
    -- A parameter that is written as the one word would be read as the empty list.
    have notVoid : words ≠ [.ofKeyword .voidWord] := by
      intro isVoid
      obtain ⟨notVariadic, parameter, single, plainVoid⟩ := onlyVoid isVoid
      exact isList.notVoid notVariadic parameter single plainVoid
    have prototyped : isPrototyped = true := by
      cases isPrototyped with
      | true => rfl
      | false =>
        obtain ⟨rfl, rfl⟩ := isList.unprototyped rfl
        exact absurd rfl listed
    have texts : parametersText parameters isVariadic isPrototyped =
        Spelling.listText (listedTexts parameters isVariadic) := by
      cases isVariadic with
      | true => rfl
      | false =>
        have some : parameters ≠ [] := by
          rintro rfl
          exact listed rfl
        simp [parametersText, listedTexts, some]
    rw [texts, prototyped]
    exact ⟨words, .ofParameters reads notVoid⟩

/-! ## Trees of functions -/

theorem IsTypeTree.parameter?_spelling {tree : Node} (isTree : IsTypeTree tree) :
    tree.spelling.parameter? = none := by
  cases isTree with
  | base isBase => cases isBase <;> rfl
  | _ => rfl

theorem Node.declaratorText_function {spot : SourceLocation} {returned : Node}
    {parameters : List Parameter} {isVariadic isPrototyped : Bool} (isTree : IsTypeTree returned)
    (inner : String) :
    declaratorText ⟨.functionType, spot, .functionType isVariadic isPrototyped,
        returned :: parameters.map Parameter.node⟩ inner =
      returned.declaratorText (Spelling.closed inner ++
        Spelling.parenthesized (parametersText parameters isVariadic isPrototyped)) := by
  have texts : (spellings (returned :: parameters.map Parameter.node)).filterMap Spelling.parameter? =
      parameters.map Parameter.text := by
    rw [spellings_eq_map, List.map_cons, List.filterMap_cons, isTree.parameter?_spelling]
    induction parameters with
    | nil => rfl
    | cons parameter rest ih => exact congrArg (parameter.text :: ·) ih
  change returned.spelling.declarator (Spelling.closed inner ++ Spelling.parenthesized
    (Spelling.parametersText _ (spellings (returned :: parameters.map Parameter.node)))) = _
  rw [Spelling.parametersText, texts]
  rfl

end

end CFrontEnd
