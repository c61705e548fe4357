import CFrontEnd.Proofs.Grammar.Questions
import CFrontEnd.Proofs.Grammar.Specifiers

/-!
Specifiers that are words: what several of them say together, and which problems they make. Words that
are repeated say no more than one of them, and only storage classes are a problem then.
-/

namespace CFrontEnd

/-- The words that are said of a declaration or not, however often they are repeated. -/
def Keyword.isFlag : Keyword → Bool
  | .constWord | .volatileWord | .restrictWord | .atomicWord | .inlineWord | .noreturnWord
  | .threadLocalWord => true
  | _ => false

/-- The words that are specifiers of a declaration without anything behind them. -/
def Keyword.isSpecifier (word : Keyword) : Bool :=
  word.isStorageWord || word.spellsType || word.isFlag

/-- How many storage classes stand behind the first one. -/
def furtherStorage (words : List Keyword) : Nat := words.countP Keyword.isStorageWord - 1

/-- What the words say together. Of several storage classes the first counts. -/
def DeclarationSpecifiers.ofWords (place : SourceLocation) (words : List Keyword) :
    DeclarationSpecifiers where
  location := place
  storage := (words.find? Keyword.isStorageWord).bind Keyword.storageClass?
  isTypedef := words.find? Keyword.isStorageWord == some .typedefWord
  isThreadLocal := words.contains .threadLocalWord
  isInline := words.contains .inlineWord
  isNoreturn := words.contains .noreturnWord
  qualifiers :=
    { isConst := words.contains .constWord
      isVolatile := words.contains .volatileWord
      isRestrict := words.contains .restrictWord
      isAtomic := words.contains .atomicWord }
  words := (words.filter Keyword.spellsType).toArray
  isPresent := !words.isEmpty

theorem TokenStream.shows_append {stream : TokenStream} {position : Nat}
    {first second : List TokenKind} :
    stream.Shows position (first ++ second) ↔
      stream.Shows position first ∧ stream.Shows (position + first.length) second := by
  induction first generalizing position with
  | nil => simp [Shows]
  | cons kind rest ih =>
    have later : position + (rest.length + 1) = position + 1 + rest.length := by omega
    simp only [List.cons_append, Shows, ih, and_assoc, List.length_cons, later]

namespace ParseState

/-- The state with other problems recorded, and all else as it is. -/
def noted (state : ParseState) (diagnostics : Diagnostics) : ParseState :=
  { state with diagnostics := diagnostics }

variable (state : ParseState) (diagnostics : Diagnostics)

@[simp] theorem position_noted : (state.noted diagnostics).position = state.position := rfl

@[simp] theorem scopes_noted : (state.noted diagnostics).scopes = state.scopes := rfl

@[simp] theorem diagnostics_noted : (state.noted diagnostics).diagnostics = diagnostics := rfl

@[simp] theorem panicking_noted : (state.noted diagnostics).panicking = state.panicking := rfl

@[simp] theorem noted_diagnostics : state.noted state.diagnostics = state := rfl

@[simp] theorem noted_noted (later : Diagnostics) :
    (state.noted diagnostics).noted later = state.noted later := rfl

end ParseState

@[simp] theorem Diagnostics.count_report (diagnostics : Diagnostics) (kind : DiagnosticKind)
    (location : SourceLocation) (message : String) :
    (diagnostics.report kind location message).count = diagnostics.count + 1 := by
  simp [count, report]

theorem Parse.complain_calm {context : ParseContext} {state : ParseState} {place : SourceLocation}
    {problem : GrammarProblem} (calm : state.panicking = false) :
    complain place problem context state =
      .ok () (state.noted (state.diagnostics.report .grammatical place problem.message)) := by
  simp [complain, calm, ParseState.noted]

namespace DeclarationSpecifiers

variable {place : SourceLocation} {front : List Keyword} {word : Keyword}

theorem hasStorage_ofWords (place : SourceLocation) (front : List Keyword) :
    (ofWords place front).hasStorage = front.any Keyword.isStorageWord := by
  rw [Bool.eq_iff_iff, List.any_eq_true]
  cases first : front.find? Keyword.isStorageWord with
  | none =>
    have noStorage := List.find?_eq_none.mp first
    simp [hasStorage, ofWords, first]
    simpa using noStorage
  | some word =>
    refine iff_of_true ?_ ⟨word, List.mem_of_find?_eq_some first, List.find?_some first⟩
    have isStorage := List.find?_some first
    simpa [hasStorage, ofWords, first, Keyword.isStorageWord] using isStorage

theorem mem_concat {flag : Keyword} (noFlag : word.isFlag = false) (isFlag : flag.isFlag = true) :
    flag ∈ front ++ [word] ↔ flag ∈ front := by
  have other : flag ≠ word := by
    rintro rfl
    rw [isFlag] at noFlag
    cases noFlag
  simp [other]

/-- A word for a type is added to the ones in front of it. -/
theorem ofWords_type (spells : word.spellsType = true) :
    ofWords place (front ++ [word]) =
      { ofWords place front with
        isPresent := true
        words := (ofWords place front).words.push word } := by
  have noStorage : word.isStorageWord = false := by
    revert spells
    cases word <;> decide
  have noFlag : word.isFlag = false := by
    revert spells
    cases word <;> decide
  simp (disch := decide) [ofWords, List.find?_append, noStorage, spells, mem_concat noFlag]

/-- A storage class counts only if it is the first one. -/
theorem ofWords_storage (isStorage : word.isStorageWord = true) :
    ofWords place (front ++ [word]) =
      if front.any Keyword.isStorageWord then { ofWords place front with isPresent := true }
      else
        { ofWords place front with
          isPresent := true
          isTypedef := word == .typedefWord
          storage := word.storageClass? } := by
  have noType : word.spellsType = false := by
    revert isStorage
    cases word <;> decide
  have noFlag : word.isFlag = false := by
    revert isStorage
    cases word <;> decide
  cases first : front.find? Keyword.isStorageWord with
  | none =>
    have noStorage : front.any Keyword.isStorageWord = false := by
      simpa using List.find?_eq_none.mp first
    simp (disch := decide) [ofWords, List.find?_append, first, noStorage, isStorage, noType,
      mem_concat noFlag]
  | some earlier =>
    have someStorage : front.any Keyword.isStorageWord = true :=
      List.any_eq_true.mpr ⟨earlier, List.mem_of_find?_eq_some first, List.find?_some first⟩
    simp (disch := decide) [ofWords, List.find?_append, first, someStorage, noType, mem_concat noFlag]

end DeclarationSpecifiers

theorem furtherStorage_concat (front : List Keyword) (word : Keyword) :
    furtherStorage (front ++ [word]) =
      furtherStorage front +
        if (word.isStorageWord && front.any Keyword.isStorageWord) = true then 1 else 0 := by
  have some : front.any Keyword.isStorageWord = true ↔ 0 < front.countP Keyword.isStorageWord := by
    rw [List.any_eq_true, List.countP_pos_iff]
  simp only [furtherStorage, List.countP_append, List.countP_singleton, Bool.and_eq_true, some]
  cases word.isStorageWord <;> by_cases positive : 0 < front.countP Keyword.isStorageWord <;>
    simp [positive]
  all_goals omega

namespace Productions

open Parse DeclarationSpecifiers

variable {deeper : Productions} {context : ParseContext} {state : ParseState}
  {specifiers : DeclarationSpecifiers} {place : SourceLocation} {front : List Keyword}
  {word : Keyword}

/-- A storage class behind another one is a problem and nothing else. -/
theorem addSpecifier_storage
    (isWord : (context.tokens.get state.position).kind = .keyword word)
    (isStorage : word.isStorageWord = true) (calm : state.panicking = false) :
    repeatFrom (addSpecifier deeper true) (ofWords place front) context state =
      repeatFrom (addSpecifier deeper true) (ofWords place (front ++ [word])) context
        ((if front.any Keyword.isStorageWord then
            state.reported (context.tokens.get state.position).location .multipleStorageClasses
          else state).movedTo (state.position + 1)) := by
  have noType : namedType? deeper word (context.tokens.get (state.position + 1)) = none := by
    revert isStorage
    cases word <;> simp [Keyword.isStorageWord, Keyword.storageClass?, namedType?]
  have adds (token : Token) :
      addWord? { ofWords place front with isPresent := true } token word true =
        some (addStorage { ofWords place front with isPresent := true } token word true) := by
    revert isStorage
    cases word <;> simp [Keyword.isStorageWord, Keyword.storageClass?, addWord?, Qualifiers.add?]
  have hasStorage : ({ ofWords place front with isPresent := true } :
      DeclarationSpecifiers).hasStorage = front.any Keyword.isStorageWord :=
    hasStorage_ofWords place front
  refine addSpecifier_added isWord noType (adds _) ?_ ?_
  · rw [ofWords_storage isStorage]
    cases someStorage : front.any Keyword.isStorageWord <;>
      simp [addStorage, hasStorage.trans someStorage, complain_calm, calm, ParseState.reported,
        ParseState.noted, ParseState.movedTo]
  · split <;> rfl

theorem addSpecifier_flag
    (isWord : (context.tokens.get state.position).kind = .keyword word)
    (isFlag : word.isFlag = true)
    (noParen : (context.tokens.get (state.position + 1)).kind ≠ .punctuator .openParen) :
    repeatFrom (addSpecifier deeper true) (ofWords place front) context state =
      repeatFrom (addSpecifier deeper true) (ofWords place (front ++ [word])) context
        (state.movedTo (state.position + 1)) := by
  apply addSpecifier_word isWord
  · revert isFlag
    cases word <;> simp [Keyword.isFlag, namedType?, noParen]
  · have present : ∀ last : Keyword, (front ++ [last]).isEmpty = false := by simp
    revert isFlag
    cases word <;> simp [Keyword.isFlag, addWord?, Qualifiers.add?, ofWords, List.find?_append,
      present, Keyword.isStorageWord, Keyword.storageClass?, Keyword.spellsType]

theorem addSpecifier_isSpecifier (isSpecifier : word.isSpecifier = true)
    (isWord : (context.tokens.get state.position).kind = .keyword word)
    (noParen : (context.tokens.get (state.position + 1)).kind ≠ .punctuator .openParen)
    (calm : state.panicking = false) :
    ∃ diagnostics,
      repeatFrom (addSpecifier deeper true) (ofWords place front) context state =
        repeatFrom (addSpecifier deeper true) (ofWords place (front ++ [word])) context
          ((state.noted diagnostics).movedTo (state.position + 1)) ∧
      diagnostics.count + furtherStorage front =
        state.diagnostics.count + furtherStorage (front ++ [word]) := by
  rw [furtherStorage_concat]
  cases isStorage : word.isStorageWord with
  | true =>
    rw [addSpecifier_storage isWord isStorage calm]
    cases front.any Keyword.isStorageWord with
    | true =>
      refine ⟨_, rfl, ?_⟩
      simp
      omega
    | false => exact ⟨state.diagnostics, rfl, by simp⟩
  | false =>
    refine ⟨state.diagnostics, ?_, by simp⟩
    rw [ParseState.noted_diagnostics]
    rw [Keyword.isSpecifier, isStorage, Bool.false_or, Bool.or_eq_true] at isSpecifier
    rcases isSpecifier with spells | isFlag
    · rw [addSpecifier_typeWord isWord spells, ofWords_type spells]
    · exact addSpecifier_flag isWord isFlag noParen

variable (deeper place front) in
/-- The words of a declaration are passed, with what they say together. -/
theorem addSpecifier_words {words : List Keyword} {behind : TokenKind}
    (specify : ∀ word ∈ words, word.isSpecifier = true)
    (shows : context.tokens.Shows state.position (words.map .keyword ++ [behind]))
    (noParen : behind ≠ .punctuator .openParen) (calm : state.panicking = false) :
    ∃ diagnostics,
      repeatFrom (addSpecifier deeper true) (ofWords place front) context state =
        repeatFrom (addSpecifier deeper true) (ofWords place (front ++ words)) context
          ((state.noted diagnostics).movedTo (state.position + words.length)) ∧
      diagnostics.count + furtherStorage front =
        state.diagnostics.count + furtherStorage (front ++ words) := by
  induction words generalizing front state with
  | nil => exact ⟨state.diagnostics, by simp, by simp⟩
  | cons word rest ih =>
    obtain ⟨isWord, behindWord⟩ := shows
    -- With a parenthesis behind it a word can begin a type of its own.
    have noParenNext :
        (context.tokens.get (state.position + 1)).kind ≠ .punctuator .openParen := by
      cases rest with
      | nil => rwa [behindWord.1]
      | cons next others => simp [behindWord.1]
    obtain ⟨middle, firstRun, firstCount⟩ :=
      addSpecifier_isSpecifier (specify word List.mem_cons_self) isWord noParenNext calm
    obtain ⟨last, restRun, restCount⟩ := @ih ((state.noted middle).movedTo (state.position + 1))
      (front ++ [word]) (fun other isOther => specify other (List.mem_cons_of_mem word isOther)) behindWord calm
    rw [List.append_assoc] at restRun restCount
    refine ⟨last, ?_, ?_⟩
    · rw [firstRun, restRun]
      have place : state.position + 1 + rest.length = state.position + (rest.length + 1) := by omega
      rw [ParseState.position_movedTo, List.length_cons, ← place]
      rfl
    · have sameCount : last.count + furtherStorage (front ++ [word]) =
          middle.count + furtherStorage (front ++ word :: rest) := restCount
      omega

end Productions

end CFrontEnd
