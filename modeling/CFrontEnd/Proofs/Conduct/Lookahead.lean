import CFrontEnd.Proofs.Conduct.Progress
import CFrontEnd.Proofs.Grammar.Specifiers
import CFrontEnd.Proofs.Recovery.Brackets
import CFrontEnd.Proofs.Schema.Rules

/-!
The scan ahead of a block item agrees with the productions that read it. Attributes that are passed over
without a problem end at the same token for both, and at a token at which the scan finds a declaration
a specifier is read.
-/

namespace CFrontEnd

open Parse Productions

/-! ## Where the scan stops -/

namespace TokenStream

variable {stream : TokenStream} {position stop : Nat}

theorem afterBalanced_unclosed {opener closer : Punctuator} {depth : Nat}
    (unclosed : stream.afterBalanced opener closer depth position = (stop, false)) :
    (stream.get stop).kind = .endOfFile := by
  fun_induction TokenStream.afterBalanced stream opener closer depth position with
  | case1 depth position inside token ends =>
    obtain rfl : position = stop := congrArg Prod.fst unclosed
    simpa [token, getElem_body] using ends
  | case2 _ _ _ _ _ _ ih => exact ih unclosed
  | case3 => cases unclosed
  | case4 _ _ _ _ _ _ _ _ ih => exact ih unclosed
  | case5 _ _ _ _ _ _ _ ih => exact ih unclosed
  | case6 depth position outside =>
    obtain rfl : position = stop := congrArg Prod.fst unclosed
    exact kind_of_size_le (by omega)

/-- Of which form an attribute is, and where its brackets close behind those that it begins with. -/
theorem behindAttribute?_some {reached : Nat × Bool}
    (found : stream.behindAttribute? position = some reached) :
    ((stream.get position).kind = .keyword .attributeWord ∧
      (stream.get (position + 1)).kind = .punctuator .openParen ∧
      stream.afterBalanced .openParen .closeParen 1 (position + 2) = reached) ∨
    ((stream.get position).kind = .punctuator .openBracket ∧
      (stream.get (position + 1)).kind = .punctuator .openBracket ∧
      stream.afterBalanced .openBracket .closeBracket 2 (position + 2) = reached) := by
  rw [behindAttribute?] at found
  split at found
  · rename_i begins
    rw [Bool.and_eq_true, Token.isKeyword_eq, Token.isPunctuator_eq, decide_eq_true_eq,
      decide_eq_true_eq] at begins
    have counted := @afterBalanced_opening stream (position + 1) 0 .paren begins.2
    exact .inl ⟨begins.1, begins.2, counted.symm.trans (Option.some.inj found)⟩
  · split at found
    · rename_i begins
      rw [startsBrackets, Bool.and_eq_true, Token.isPunctuator_eq, Token.isPunctuator_eq,
        decide_eq_true_eq, decide_eq_true_eq] at begins
      have outer := @afterBalanced_opening stream position 0 .square begins.1
      have counted := outer.trans (@afterBalanced_opening stream (position + 1) 1 .square begins.2)
      exact .inr ⟨begins.1, begins.2, counted.symm.trans (Option.some.inj found)⟩
    · cases found

theorem behindAttribute?_none (found : stream.behindAttribute? position = none) :
    ((stream.get position).kind = .keyword .attributeWord →
      (stream.get (position + 1)).kind ≠ .punctuator .openParen) ∧
    stream.startsBrackets position = false := by
  rw [behindAttribute?] at found
  split at found
  · cases found
  · rename_i noWord
    split at found
    · cases found
    · rename_i noBrackets
      exact ⟨by simpa using noWord, by simpa using noBrackets⟩

end TokenStream

namespace Parse

variable {context : ParseContext} {state : ParseState}

/-! ## Attributes and `__extension__` -/

theorem giveUp_error {α : Type} (place : SourceLocation) (problem : GrammarProblem) :
    ∃ next, (giveUp place problem : Parse α) context state = .error .givenUp next := by
  unfold giveUp
  split
  · exact ⟨_, rfl⟩
  · exact ⟨_, rfl⟩

theorem skipBalanced_unclosed {opener closer : Punctuator} {depth stop : Nat}
    (unclosed : context.tokens.afterBalanced opener closer depth state.position = (stop, false)) :
    ∃ next, skipBalanced opener closer depth context state = .error .givenUp next := by
  have run : skipBalanced opener closer depth context state =
      unexpected "closing bracket" context (state.movedTo stop) := by
    refine (bind_apply _ _).trans ?_
    simp only [unclosed]
    rfl
  rw [run, unexpected_apply]
  exact giveUp_error _ _

theorem skipAttributes_closed {stop : Nat}
    (found : context.tokens.behindAttribute? state.position = some (stop, true)) :
    skipAttributes context state = skipAttributes context (state.movedTo stop) := by
  refine repeatFrom_yield ?_ (TokenStream.remaining_behindAttribute found)
  rcases TokenStream.behindAttribute?_some found with
    ⟨isWord, opens, closes⟩ | ⟨first, second, closes⟩
  · have skipped : skipBalanced .openParen .closeParen 1 context
        (state.movedTo (state.position + 2)) = .ok () (state.movedTo stop) :=
      Fence.skipBalanced_apply closes
    simp [isWord, opens, skipped]
  · have skipped : skipBalanced .openBracket .closeBracket 2 context
        (state.movedTo (state.position + 2)) = .ok () (state.movedTo stop) :=
      Fence.skipBalanced_apply closes
    simp [TokenStream.startsBrackets, first, second, skipped]

theorem skipAttributes_unclosed {stop : Nat}
    (found : context.tokens.behindAttribute? state.position = some (stop, false)) :
    ∃ next, skipAttributes context state = .error .givenUp next := by
  rcases TokenStream.behindAttribute?_some found with ⟨isWord, opens, ends⟩ | ⟨first, second, ends⟩
  · obtain ⟨next, gaveUp⟩ : ∃ next, skipBalanced .openParen .closeParen 1 context
        (state.movedTo (state.position + 2)) = .error .givenUp next := skipBalanced_unclosed ends
    exact ⟨next, repeatFrom_error (by simp [isWord, opens, gaveUp])⟩
  · obtain ⟨next, gaveUp⟩ : ∃ next, skipBalanced .openBracket .closeBracket 2 context
        (state.movedTo (state.position + 2)) = .error .givenUp next := skipBalanced_unclosed ends
    refine ⟨next, repeatFrom_error ?_⟩
    simp [TokenStream.startsBrackets, first, second, gaveUp]

theorem skipAttributes_broken
    (isWord : (context.tokens.get state.position).kind = .keyword .attributeWord)
    (noParen : (context.tokens.get (state.position + 1)).kind ≠ .punctuator .openParen) :
    ∃ next, skipAttributes context state = .error .givenUp next := by
  obtain ⟨next, gaveUp⟩ : ∃ next, (unexpected "'(' after '__attribute__'" : Parse Token) context
      (state.movedTo (state.position + 1)) = .error .givenUp next := by
    rw [unexpected_apply]
    exact giveUp_error _ _
  refine ⟨next, repeatFrom_error ?_⟩
  simp only [bind_apply, consume_keyword_apply, isWord, if_true, discard_apply,
    expectPunctuator_apply, ParseState.position_movedTo, if_neg noParen, gaveUp]

theorem skipAttributes_nothing
    (noWord : (context.tokens.get state.position).kind ≠ .keyword .attributeWord)
    (noBrackets : context.tokens.startsBrackets state.position = false) :
    skipAttributes context state = .ok () state :=
  repeatFrom_done (by simp [noWord, noBrackets])

/-- Attributes are passed over to the token where the scan stops, or else that token is one at which
no declaration begins. -/
theorem skipAttributes_cases (context : ParseContext) (state : ParseState) :
    skipAttributes context state =
      .ok () (state.movedTo (context.tokens.afterAttributes state.position)) ∨
    (∃ next, skipAttributes context state = .error .givenUp next) ∧
      (context.tokens.get (context.tokens.afterAttributes state.position)).kind ∈
        [.keyword .attributeWord, .endOfFile] := by
  -- On the tokens that are left, of which a closed attribute uses up some.
  induction left : state.remaining context using Nat.strongRecOn generalizing state with
  | ind left ih =>
    subst left
    rw [TokenStream.afterAttributes_eq]
    cases found : context.tokens.behindAttribute? state.position with
    | none =>
      obtain ⟨noParen, noBrackets⟩ := TokenStream.behindAttribute?_none found
      by_cases isWord : (context.tokens.get state.position).kind = .keyword .attributeWord
      · exact .inr ⟨skipAttributes_broken isWord (noParen isWord), by simp [isWord]⟩
      · exact .inl (skipAttributes_nothing isWord noBrackets)
    | some reached =>
      obtain ⟨stop, closed⟩ := reached
      cases closed with
      | true =>
        rw [skipAttributes_closed found]
        exact ih _ (TokenStream.remaining_behindAttribute found) (state.movedTo stop) rfl
      | false =>
        have ends : (context.tokens.get stop).kind = .endOfFile := by
          rcases TokenStream.behindAttribute?_some found with ⟨_, _, same⟩ | ⟨_, _, same⟩
          · exact TokenStream.afterBalanced_unclosed same
          · exact TokenStream.afterBalanced_unclosed same
        exact .inr ⟨skipAttributes_unclosed found, by simp [ends]⟩

theorem skipAttributes_further {reached : Nat × Bool} {next : ParseState}
    (found : context.tokens.behindAttribute? state.position = some reached)
    (run : skipAttributes context state = .ok () next) :
    next.remaining context < state.remaining context := by
  obtain ⟨stop, closed⟩ := reached
  cases closed with
  | true =>
    rw [skipAttributes_closed found] at run
    have fewer : context.tokens.remaining stop < state.remaining context :=
      TokenStream.remaining_behindAttribute found
    have forward : (state.movedTo stop).position + 0 ≤ next.position :=
      (proceeds_skipAttributes.advances (state.movedTo stop)).further () next run
    have later : next.remaining context ≤ context.tokens.remaining stop :=
      Nat.sub_le_sub_left forward _
    omega
  | false =>
    obtain ⟨gaveUp, same⟩ := skipAttributes_unclosed found
    rw [same] at run
    cases run

theorem skipExtensions_apply :
    skipExtensions context state =
      .ok () (state.movedTo (context.tokens.afterExtensions state.position)) := by
  induction left : state.remaining context using Nat.strongRecOn generalizing state with
  | ind left ih =>
    subst left
    by_cases isWord : (context.tokens.get state.position).kind = .keyword .extensionWord
    · have inside : state.position < context.tokens.body.size :=
        TokenStream.lt_size_of_kind (by simp [isWord])
      have fewer : (state.movedTo (state.position + 1)).remaining context <
          state.remaining context := ParseState.remaining_movedTo_lt (by simp [isWord]) (by omega)
      rw [TokenStream.afterExtensions, dif_pos inside, TokenStream.getElem_body inside,
        if_pos (by simp [isWord])]
      refine (repeatFrom_yield ?_ fewer).trans (ih _ fewer rfl)
      simp [isWord]
    · rw [TokenStream.afterExtensions_same isWord]
      exact skipExtensions_none isWord

/-! ## Rounds of a repetition -/

section Rounds

variable {α : Type} {step : α → Parse (ForInStep α)}

/-- The repetition, at `value` in `state`, comes to be at `last` in `final`. -/
inductive Rounds (context : ParseContext) (step : α → Parse (ForInStep α)) :
    α → ParseState → α → ParseState → Prop
  | here (value : α) (state : ParseState) : Rounds context step value state value state
  | further {value middle last : α} {state between final : ParseState}
      (ran : step value context state = .ok (.yield middle) between)
      (progress : between.remaining context < state.remaining context)
      (later : Rounds context step middle between last final) :
      Rounds context step value state last final

theorem Rounds.forward {value last : α} {state final : ParseState}
    (rounds : Rounds context step value state last final) : state.position ≤ final.position := by
  induction rounds with
  | here => exact Nat.le_refl _
  | further _ progress _ ih =>
    unfold ParseState.remaining TokenStream.remaining at progress
    omega

/-- What a repetition gives up with is what the step of its last round gives up with. -/
theorem rounds_of_error {value : α} {reason : GivenUp} {next : ParseState}
    (gaveUp : repeatFrom step value context state = .error reason next) :
    ∃ last final, Rounds context step value state last final ∧
      step last context final = .error reason next := by
  fun_induction repeatFrom step value context state with
  | case1 => cases gaveUp
  | case2 value state middle between ran progress ih =>
    obtain ⟨last, final, rounds, same⟩ := ih gaveUp
    exact ⟨last, final, .further ran progress rounds, same⟩
  | case3 => cases gaveUp
  | case4 value state reason next ran =>
    cases gaveUp
    exact ⟨value, state, .here value state, ran⟩

end Rounds

end Parse

namespace Productions

variable {deeper : Productions} {context : ParseContext} {state : ParseState}
  {specifiers : DeclarationSpecifiers} {token : Token} {word : Keyword} {admitsStorage : Bool}

/-! ## Where there is a specifier -/

theorem yields_addNamedType_isPresent {type : Node} (present : specifiers.isPresent = true) :
    Yields context (addNamedType specifiers token type) (·.isPresent = true) :=
  yields_ite (fun _ => yields_then fun _ => yields_pure present) fun _ => yields_pure present

theorem yields_addStorage_isPresent (present : specifiers.isPresent = true) :
    Yields context (addStorage specifiers token word admitsStorage) (·.isPresent = true) := by
  refine yields_ite (fun _ => yields_then fun _ => yields_pure present) fun _ => ?_
  exact yields_ite (fun _ => yields_then fun _ => yields_pure present) fun _ => yields_pure present

theorem yields_addWord?_isPresent {addition : Parse DeclarationSpecifiers}
    (present : specifiers.isPresent = true)
    (found : addWord? specifiers token word admitsStorage = some addition) :
    Yields context addition (·.isPresent = true) := by
  unfold addWord? at found
  split at found
  · cases found
    exact yields_pure present
  · cases found
    exact yields_pure present
  · cases found
    exact yields_pure present
  · cases found
    exact yields_when (yields_pure present)
  · split at found
    · cases found
      exact yields_addStorage_isPresent present
    · split at found
      · cases found
        exact yields_pure present
      · cases found

/-- A specifier that is there stays there. -/
theorem yields_addSpecifier_isPresent (present : specifiers.isPresent = true) :
    Yields context (addSpecifier deeper admitsStorage specifiers)
      (Stepped (·.isPresent = true) (·.isPresent = true)) := by
  have yieldsStep : ∀ {production : Parse DeclarationSpecifiers},
      Yields context production (·.isPresent = true) →
      Yields context (.yield <$> production) (Stepped (·.isPresent = true) (·.isPresent = true)) :=
    fun yields => yields_map yields fun _ present => ⟨present, present⟩
  refine yields_then fun token => ?_
  dsimp only
  split
  · exact yields_then fun _ => yields_pure ⟨present, present⟩
  · exact yields_then fun _ => yields_pure ⟨present, present⟩
  · exact yields_then fun _ => yields_pure ⟨rfl, rfl⟩
  · refine yields_then fun next => ?_
    split
    · exact yields_then fun _ => yieldsStep (yields_addNamedType_isPresent rfl)
    · split
      · rename_i addition found
        exact yields_then fun _ => yieldsStep (yields_addWord?_isPresent rfl found)
      · exact yields_pure present
  · refine yields_then fun _ => yields_ite (fun _ => yields_then fun _ => yields_pure ?_)
      fun _ => yields_pure present
    exact ⟨rfl, rfl⟩
  · refine yields_then fun _ => yields_ite (fun _ => yields_then fun _ => ?_)
      fun _ => yields_pure present
    exact yields_pure ⟨present, present⟩

/-- A word at which a declaration begins is a specifier, or begins one. -/
theorem addWord?_of_begins (begins : word.beginsDeclaration = true)
    (apart : word ∉ [.alignasWord, .staticAssertWord, .labelWord]) :
    ∃ addition, addWord? specifiers token word admitsStorage = some addition := by
  cases word <;>
    first
      | exact ⟨_, rfl⟩
      | exact absurd begins (by decide)
      | exact absurd apart (by decide)

/-- The current token is one at which the scan finds a declaration that is to have a specifier. -/
inductive BeginsSpecifier (context : ParseContext) (state : ParseState) : Prop
  | word {word : Keyword} (isWord : (context.tokens.get state.position).kind = .keyword word)
    (begins : word.beginsDeclaration = true) (apart : word ∉ [.staticAssertWord, .labelWord])
  | name (isName : (context.tokens.get state.position).kind = .identifier)
    (isType : context.language.isTypeName state.scopes.isTypedefName
      (context.tokens.get state.position).lexeme = true)

/-- The step goes on, and with a specifier. -/
def GoesOnPresent : ForInStep DeclarationSpecifiers → Prop
  | .done _ => False
  | .yield more => more.isPresent = true

theorem yields_goesOnPresent {production : Parse DeclarationSpecifiers}
    (yields : Yields context production (·.isPresent = true)) :
    Yields context (.yield <$> production) GoesOnPresent :=
  yields_map yields fun _ present => present

/-- There the first round has a specifier, or gives up in it. -/
theorem addSpecifier_begins (begins : BeginsSpecifier context state)
    (noOther : specifiers.named = none) (noWords : specifiers.words = #[])
    {outcome : ForInStep DeclarationSpecifiers} {next : ParseState}
    (run : addSpecifier deeper admitsStorage specifiers context state = .ok outcome next) :
    GoesOnPresent outcome := by
  cases begins with
  | name isName isType =>
    rw [addSpecifier_firstName isName isType noOther noWords] at run
    cases run
    rfl
  | @word word isWord begins apart =>
    -- Of the words an alignment is the only one that is neither a type of its own nor an
    -- addition.
    by_cases isAlignment : word = .alignasWord
    · subst isAlignment
      rw [addSpecifier_alignment isWord] at run
      have yields : Yields context (alignment deeper >>= fun node =>
          pure (.yield { specifiers with
            isPresent := true
            alignments := specifiers.alignments.push node })) GoesOnPresent :=
        yields_then fun _ => yields_pure rfl
      exact yields state outcome next run
    · cases found : namedType? deeper word (context.tokens.get (state.position + 1)) with
      | some production =>
        rw [addSpecifier_named isWord found] at run
        exact yields_then (fun _ => yields_goesOnPresent (yields_addNamedType_isPresent rfl))
          state outcome next run
      | none =>
        obtain ⟨addition, adds⟩ : ∃ addition, addWord? { specifiers with isPresent := true }
            (context.tokens.get state.position) word admitsStorage = some addition :=
          addWord?_of_begins begins (by simpa [isAlignment] using apart)
        rw [addSpecifier_addition isWord found adds] at run
        exact yields_then (fun _ => yields_goesOnPresent (yields_addWord?_isPresent rfl adds))
          state outcome next run

/-! ## The specifiers of a declaration -/

/-- Attributes in front of the specifiers do not count as one. -/
theorem addSpecifier_attributes
    (skipped : skipAttributes context state =
      .ok () (state.movedTo (context.tokens.afterAttributes state.position))) :
    repeatFrom (addSpecifier deeper admitsStorage) specifiers context state =
      repeatFrom (addSpecifier deeper admitsStorage) specifiers context
        (state.movedTo (context.tokens.afterAttributes state.position)) := by
  cases found : context.tokens.behindAttribute? state.position with
  | none =>
    rw [TokenStream.afterAttributes_eq, found]
    rfl
  | some reached =>
    refine repeatFrom_yield ?_ (skipAttributes_further found skipped)
    rcases TokenStream.behindAttribute?_some found with ⟨isWord, _⟩ | ⟨first, second, _⟩
    · simp [addSpecifier, isWord, skipped]
    · simp [addSpecifier, TokenStream.startsBrackets, first, second, skipped]

theorem isPresent_of_begins (begins : BeginsSpecifier context state)
    (noOther : specifiers.named = none) (noWords : specifiers.words = #[])
    {result : DeclarationSpecifiers} {next : ParseState}
    (run : repeatFrom (addSpecifier deeper admitsStorage) specifiers context state =
      .ok result next) : result.isPresent = true := by
  rw [repeatFrom] at run
  split at run
  · rename_i ran
    exact (addSpecifier_begins begins noOther noWords ran).elim
  · rename_i middle between ran
    have present : middle.isPresent = true := addSpecifier_begins begins noOther noWords ran
    split at run
    · have yields : Yields context (iterate middle (addSpecifier deeper admitsStorage))
          (·.isPresent = true) :=
        yields_iterateKeeping present fun _ => yields_addSpecifier_isPresent
      exact yields between result next run
    · cases run
      exact present
  · cases run

/-- How the specifiers from `start` on end if none stands in front of `place`. The nesting is too deep
for them, or a specifier that begins at `place` or behind it gives up, or there is one. -/
inductive SpecifiersEnd (context : ParseContext) (start : ParseState) (place : Nat) :
    Nat → EStateM.Result GivenUp ParseState DeclarationSpecifiers → Prop
  | tooDeep {reason : GivenUp} {next : ParseState}
      (gaveUp : (tooDeep : Parse DeclarationSpecifiers) context start = .error reason next) :
      SpecifiersEnd context start place 0 (.error reason next)
  | gaveUp {levels : Nat} {last : DeclarationSpecifiers} {final next : ParseState}
      {reason : GivenUp}
      (rounds : Rounds context (addSpecifier (ofLevels levels) true)
        { location := (context.tokens.get start.position).location } (start.movedTo place) last final)
      (behind : place ≤ final.position)
      (inSpecifier :
        addSpecifier (ofLevels levels) true last context final = .error reason next) :
      SpecifiersEnd context start place (levels + 1) (.error reason next)
  | present {levels : Nat} {specifiers : DeclarationSpecifiers} {next : ParseState}
      (isPresent : specifiers.isPresent = true) :
      SpecifiersEnd context start place (levels + 1) (.ok specifiers next)

theorem specifiersEnd_of_begins {start : ParseState}
    (begins : BeginsSpecifier context
      (start.movedTo (context.tokens.afterAttributes start.position)))
    (skipped : skipAttributes context start =
      .ok () (start.movedTo (context.tokens.afterAttributes start.position))) (levels : Nat) :
    SpecifiersEnd context start (context.tokens.afterAttributes start.position) levels
      ((ofLevels levels).specifiers true context start) := by
  cases levels with
  | zero =>
    obtain ⟨next, gaveUp⟩ : ∃ next, (ofLevels 0).specifiers true context start =
        .error .givenUp next :=
      @giveUp_error context start _ (context.tokens.get start.position).location .nestedTooDeeply
    rw [gaveUp]
    exact .tooDeep gaveUp
  | succ levels =>
    have passed : (ofLevels (levels + 1)).specifiers true context start =
        repeatFrom (addSpecifier (ofLevels levels) true)
          { location := (context.tokens.get start.position).location } context
          (start.movedTo (context.tokens.afterAttributes start.position)) :=
      addSpecifier_attributes skipped
    rw [passed]
    cases run : repeatFrom (addSpecifier (ofLevels levels) true)
        { location := (context.tokens.get start.position).location } context
        (start.movedTo (context.tokens.afterAttributes start.position)) with
    | error reason next =>
      obtain ⟨last, final, rounds, gaveUp⟩ := rounds_of_error run
      exact .gaveUp rounds rounds.forward gaveUp
    | ok specifiers next => exact .present (isPresent_of_begins begins rfl rfl run)

/-- What a declaration consists of behind its specifiers. -/
def declared (deeper : Productions) (specifiers : DeclarationSpecifiers) : Parse Items := do
  let base ← baseType specifiers
  if ← consumePunctuator .semicolon then return { nodes := (tagDeclaration? base).toArray }
  else
    let items ← initDeclarators deeper none specifiers base
    addTypedefs items.nodes
    if (items.nodes.back?.bind Node.body?).isSome then return items
    else thenFinish items (expectSemicolon "declaration")

/-- Where there is a specifier, nothing is asked of what stands without one. -/
theorem declaration_declared
    (present : ∀ specifiers next, deeper.specifiers true context state = .ok specifiers next →
      specifiers.isPresent = true) :
    declaration deeper none context state =
      (deeper.specifiers true >>= declared deeper) context state := by
  unfold declaration
  rw [bind_apply, bind_apply]
  cases read : deeper.specifiers true context state with
  | error reason next => rfl
  | ok specifiers next =>
    have isPresent := present specifiers next read
    simp only [isPresent, if_true]
    rfl

theorem blockDeclaration_start
    (noAssertion : (context.tokens.get
      (context.tokens.afterExtensions state.position)).kind ≠ .keyword .staticAssertWord)
    (noLabel : (context.tokens.get
      (context.tokens.afterExtensions state.position)).kind ≠ .keyword .labelWord) :
    blockDeclaration deeper context state =
      declaration deeper none context
        (state.movedTo (context.tokens.afterExtensions state.position)) := by
  simp only [blockDeclaration, bind_apply, skipExtensions_apply, peek_apply,
    ParseState.position_movedTo]

end Productions

/-! ## The scan and the productions -/

namespace TokenStream

/-- The place of the token that decides whether the item at `position` is a declaration. -/
def decidingPlace (stream : TokenStream) (position : Nat) : Nat :=
  stream.afterAttributes (stream.afterExtensions position)

variable {stream : TokenStream} {position : Nat}

/-- A word that does not begin an attribute decides where it stands. -/
theorem kind_decidingPlace {word : Keyword} (noAttribute : word ≠ .attributeWord)
    (isWord : (stream.get (stream.afterExtensions position)).kind = .keyword word) :
    (stream.get (stream.decidingPlace position)).kind = .keyword word := by
  have other := TokenKind.mayBeginAttribute_keyword noAttribute
  rw [decidingPlace, afterAttributes_same (by rw [isWord, other]), isWord]

end TokenStream

variable {context : ParseContext} {state : ParseState}

theorem beginsSpecifier_of_startsDeclaration
    (answer : startsDeclaration context state = .ok true state)
    (noAssertion : (context.tokens.get
      (context.tokens.decidingPlace state.position)).kind ≠ .keyword .staticAssertWord)
    (noLabel : (context.tokens.get
      (context.tokens.decidingPlace state.position)).kind ≠ .keyword .labelWord) :
    BeginsSpecifier context (state.movedTo (context.tokens.decidingPlace state.position)) := by
  simp only [startsDeclaration, EStateM.Result.ok.injEq, and_true] at answer
  split at answer
  · rename_i word isWord
    refine .word isWord answer ?_
    rintro isApart
    simp only [List.mem_cons, List.not_mem_nil, or_false] at isApart
    rcases isApart with rfl | rfl
    · exact noAssertion isWord
    · exact noLabel isWord
  · rename_i isName
    rw [Bool.and_eq_true] at answer
    exact .name isName answer.1
  · cases answer

theorem skipAttributes_of_begins {start : ParseState}
    (begins : BeginsSpecifier context
      (start.movedTo (context.tokens.afterAttributes start.position))) :
    skipAttributes context start =
      .ok () (start.movedTo (context.tokens.afterAttributes start.position)) := by
  rcases skipAttributes_cases context start with skipped | ⟨_, incomplete⟩
  · exact skipped
  · simp only [List.mem_cons, List.not_mem_nil, or_false] at incomplete
    cases begins with
    | word isWord begins =>
      rw [ParseState.position_movedTo] at isWord
      rw [isWord] at incomplete
      rcases incomplete with same | same
      · cases same
        cases begins
      · cases same
    | name isName =>
      rw [ParseState.position_movedTo] at isName
      simp [isName] at incomplete

/-- `__extension__ [[]] int` in front of the end of the text. -/
def extendedInt : TokenStream where
  body := #[.keyword .extensionWord, .punctuator .openBracket, .punctuator .openBracket,
    .punctuator .closeBracket, .punctuator .closeBracket, .keyword .intWord].map fun kind =>
      { kind := kind, lexeme := "", location := ⟨"", 1, 1, 0⟩ }
  endLocation := ⟨"", 1, 1, 0⟩

end CFrontEnd
