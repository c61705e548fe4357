import CFrontEnd.Proofs.Grammar.Evaluation
import CFrontEnd.Proofs.Likeness.Relations

/-!
Productions that do the same on two texts that are alike: they go as far on both, with results and
problems that are alike, or give up on both.
-/

namespace CFrontEnd

open Parse

/-- Two texts that are alike, to be parsed in one language. The problems `earlier` were there before. -/
structure Twins where
  like : Likeness
  first : ParseContext
  second : ParseContext
  tokens : first.tokens.Alike like second.tokens
  language : second.language = first.language
  dialect : second.dialect = first.dialect
  earlier : Diagnostics

/-- Behind the earlier problems the problems are alike. -/
def Diagnostics.Alike (like : Likeness) (earlier diagnostics others : Diagnostics) : Prop :=
  ∃ new otherNew, diagnostics.toList = earlier.toList ++ new ∧
    others.toList = earlier.toList ++ otherNew ∧ List.Forall₂ (Diagnostic.Alike like) new otherNew

/-- States with the same in them but for the problems. -/
inductive ParseState.Alike (twins : Twins) : ParseState → ParseState → Prop
  | intro {state : ParseState} {others : Diagnostics}
      (recorded : Diagnostics.Alike twins.like twins.earlier state.diagnostics others) :
      Alike twins state { state with diagnostics := others }

theorem ParseState.Alike.of {twins : Twins} (state : ParseState) {others : Diagnostics}
    (recorded : Diagnostics.Alike twins.like twins.earlier state.diagnostics others) :
    state.Alike twins { state with diagnostics := others } :=
  .intro recorded

/-- Both runs have results, or both gave up. -/
inductive OutcomesAlike (twins : Twins) {α : Type} (alike : α → α → Prop) :
    EStateM.Result GivenUp ParseState α → EStateM.Result GivenUp ParseState α → Prop
  | ok {value other : α} {next otherNext : ParseState} (values : alike value other)
      (states : next.Alike twins otherNext) :
      OutcomesAlike twins alike (.ok value next) (.ok other otherNext)
  | error {next otherNext : ParseState} (states : next.Alike twins otherNext) :
      OutcomesAlike twins alike (.error .givenUp next) (.error .givenUp otherNext)

/-- On the second text `other` does what `production` does on the first. -/
def Agree (twins : Twins) {α : Type} (alike : α → α → Prop) (production other : Parse α) : Prop :=
  ∀ state partner, state.Alike twins partner →
    OutcomesAlike twins alike (production twins.first state) (other twins.second partner)

variable {twins : Twins} {α β : Type} {alike : α → α → Prop} {last : β → β → Prop}
  {production other : Parse α}

/-! ## Composition -/

theorem agree_pure {value otherValue : α} (values : alike value otherValue) :
    Agree twins alike (pure value) (pure otherValue) :=
  fun _ _ states => .ok values states

theorem agree_bind {continuation otherContinuation : α → Parse β}
    (first : Agree twins alike production other)
    (rest : ∀ value otherValue, alike value otherValue →
      Agree twins last (continuation value) (otherContinuation otherValue)) :
    Agree twins last (production >>= continuation) (other >>= otherContinuation) := by
  intro state partner states
  have outcomes := first state partner states
  rw [bind_apply, bind_apply]
  generalize production twins.first state = outcome at outcomes ⊢
  generalize other twins.second partner = otherOutcome at outcomes ⊢
  cases outcomes with
  | ok values states => exact rest _ _ values _ _ states
  | error states => exact .error states

theorem agree_then {continuation otherContinuation : α → Parse β}
    (first : Agree twins Eq production other)
    (rest : ∀ value, Agree twins last (continuation value) (otherContinuation value)) :
    Agree twins last (production >>= continuation) (other >>= otherContinuation) := by
  refine agree_bind first fun value otherValue same => ?_
  subst same
  exact rest value

theorem agree_map {change otherChange : α → β} (agree : Agree twins alike production other)
    (changed : ∀ value otherValue, alike value otherValue →
      last (change value) (otherChange otherValue)) :
    Agree twins last (change <$> production) (otherChange <$> other) := by
  intro state partner states
  have outcomes := agree state partner states
  rw [map_apply, map_apply]
  generalize production twins.first state = outcome at outcomes ⊢
  generalize other twins.second partner = otherOutcome at outcomes ⊢
  cases outcomes with
  | ok values states => exact .ok (changed _ _ values) states
  | error states => exact .error states

theorem agree_discard (agree : Agree twins alike production other) :
    Agree twins Eq (discard production) (discard other) :=
  agree_map agree fun _ _ _ => rfl

section Choice

variable {condition : Prop} [Decidable condition] {production₂ other₂ : Parse α}

theorem agree_ite (holds : Agree twins alike production other)
    (fails : Agree twins alike production₂ other₂) :
    Agree twins alike (if condition then production else production₂)
      (if condition then other else other₂) := by
  split
  · exact holds
  · exact fails

theorem agree_either {continuation otherContinuation : α → Parse β}
    (holds : Agree twins alike production other) (fails : Agree twins alike production₂ other₂)
    (rest : ∀ value otherValue, alike value otherValue →
      Agree twins last (continuation value) (otherContinuation otherValue)) :
    Agree twins last
      (if condition then production >>= continuation else production₂ >>= continuation)
      (if condition then other >>= otherContinuation else other₂ >>= otherContinuation) :=
  agree_ite (agree_bind holds rest) (agree_bind fails rest)

theorem agree_optional {continuation otherContinuation : Option α → Parse β}
    (holds : Agree twins alike production other)
    (rest : ∀ found otherFound, Option.Rel alike found otherFound →
      Agree twins last (continuation found) (otherContinuation otherFound)) :
    Agree twins last
      (if condition then some <$> production >>= continuation else pure none >>= continuation)
      (if condition then some <$> other >>= otherContinuation
        else pure none >>= otherContinuation) :=
  agree_either (agree_map holds fun _ _ => .some) (agree_pure .none) rest

theorem agree_unless {continuation otherContinuation : Option α → Parse β}
    (fails : Agree twins alike production other)
    (rest : ∀ found otherFound, Option.Rel alike found otherFound →
      Agree twins last (continuation found) (otherContinuation otherFound)) :
    Agree twins last
      (if condition then pure none >>= continuation else some <$> production >>= continuation)
      (if condition then pure none >>= otherContinuation
        else some <$> other >>= otherContinuation) :=
  agree_either (agree_pure .none) (agree_map fails fun _ _ => .some) rest

theorem agree_when {action otherAction : Parse Unit} {continuation otherContinuation : Unit → Parse β}
    (acts : Agree twins Eq action otherAction)
    (rest : Agree twins last (continuation ()) (otherContinuation ())) :
    Agree twins last (if condition then action >>= continuation else continuation ())
      (if condition then otherAction >>= otherContinuation else otherContinuation ()) :=
  agree_ite (agree_then acts fun _ => rest) rest

end Choice

theorem agree_attempt (agree : Agree twins alike production other) :
    Agree twins (Option.Rel alike) (attempt production) (attempt other) := by
  intro state partner states
  have outcomes := agree state partner states
  unfold attempt
  generalize production twins.first state = outcome at outcomes ⊢
  generalize other twins.second partner = otherOutcome at outcomes ⊢
  cases outcomes with
  | ok values states => exact .ok (.some values) states
  | error states => exact .ok .none states

theorem ParseState.Alike.rescoped {state partner : ParseState} (states : state.Alike twins partner)
    (change : ScopeStack → ScopeStack) :
    (state.rescoped (change state.scopes)).Alike twins (partner.rescoped (change partner.scopes)) := by
  obtain ⟨recorded⟩ := states
  exact .of (state.rescoped _) recorded

theorem agree_inNewScope (agree : Agree twins alike production other) :
    Agree twins alike (inNewScope production) (inNewScope other) := by
  intro state partner states
  have outcomes := agree _ _ (states.rescoped ScopeStack.enter)
  rw [inNewScope_apply, inNewScope_apply]
  generalize production twins.first _ = outcome at outcomes ⊢
  generalize other twins.second _ = otherOutcome at outcomes ⊢
  cases outcomes with
  | ok values after => exact .ok values (after.rescoped ScopeStack.exit)
  | error after => exact .error (after.rescoped ScopeStack.exit)

/-! ## Tokens -/

namespace TokenStream.Alike

variable {like : Likeness} {stream otherStream : TokenStream}

theorem size (tokens : stream.Alike like otherStream) :
    otherStream.body.size = stream.body.size := by
  simpa using tokens.body.length_eq.symm

theorem get (tokens : stream.Alike like otherStream) (position : Nat) :
    (stream.get position).Alike like (otherStream.get position) := by
  unfold TokenStream.get
  by_cases inside : position < stream.body.size
  · have otherInside : position < otherStream.body.size := tokens.size ▸ inside
    rw [dif_pos inside, dif_pos otherInside]
    exact tokens.body.get inside otherInside
  · have otherOutside : ¬ position < otherStream.body.size := tokens.size ▸ inside
    rw [dif_neg inside, dif_neg otherOutside]
    exact .intro tokens.finish .none (Likeness.writes_words (by decide))

/-- The kinds of tokens are all that lookahead and recovery go by. -/
theorem kind_getElem (tokens : stream.Alike like otherStream) {position : Nat}
    (inside : position < stream.body.size) (otherInside : position < otherStream.body.size) :
    otherStream.body[position].kind = stream.body[position].kind := by
  have alike := tokens.get position
  unfold TokenStream.get at alike
  rw [dif_pos inside, dif_pos otherInside] at alike
  exact alike.kind

theorem remaining (tokens : stream.Alike like otherStream) (position : Nat) :
    otherStream.remaining position = stream.remaining position := by
  rw [TokenStream.remaining, TokenStream.remaining, TokenStream.length, TokenStream.length,
    tokens.size]

end TokenStream.Alike

theorem agree_look (question : TokenStream → Nat → α)
    (answers : ∀ position, alike (question twins.first.tokens position)
      (question twins.second.tokens position)) :
    Agree twins alike (fun context state => .ok (question context.tokens state.position) state)
      (fun context state => .ok (question context.tokens state.position) state) := by
  rintro state _ ⟨recorded⟩
  exact .ok (answers state.position) (.intro recorded)

theorem agree_peek : Agree twins (Token.Alike twins.like) peek peek :=
  agree_look (fun tokens position => tokens.get position) twins.tokens.get

theorem agree_peekAhead {distance : Nat} :
    Agree twins (Token.Alike twins.like) (peekAhead distance) (peekAhead distance) :=
  agree_look (fun tokens position => tokens.get (position + distance))
    fun _ => twins.tokens.get _

theorem agree_position : Agree twins Eq position position :=
  agree_look (fun _ position => position) fun _ => rfl

theorem agree_advance : Agree twins (Token.Alike twins.like) advance advance := by
  rintro state _ ⟨recorded⟩
  have token := twins.tokens.get state.position
  rw [advance_apply, advance_apply]
  dsimp only
  rw [token.kind]
  refine .ok token ?_
  split
  · exact .intro recorded
  · exact .of (state.movedTo (state.position + 1)) recorded

theorem agree_discard_advance : Agree twins Eq (discard advance) (discard advance) :=
  agree_discard agree_advance

theorem agree_location : Agree twins twins.like.places location location :=
  agree_bind agree_peek fun _ _ token => agree_pure token.placed

theorem agree_askKind (question : TokenKind → α) :
    Agree twins Eq (do return question (← peek).kind) (do return question (← peek).kind) :=
  agree_bind agree_peek fun _ _ token => agree_pure (congrArg question token.kind.symm)

theorem agree_atEnd : Agree twins Eq atEnd atEnd :=
  agree_askKind TokenKind.isEndOfFile

theorem agree_atPunctuator {punctuator : Punctuator} :
    Agree twins Eq (atPunctuator punctuator) (atPunctuator punctuator) :=
  agree_askKind (· == .punctuator punctuator)

theorem agree_atOperator {operator : Operator} :
    Agree twins Eq (atOperator operator) (atOperator operator) :=
  agree_askKind (· == .operator operator)

theorem agree_atKeyword {word : Keyword} : Agree twins Eq (atKeyword word) (atKeyword word) :=
  agree_askKind (· == .keyword word)

theorem agree_consume {kind : TokenKind} : Agree twins Eq (consume kind) (consume kind) := by
  refine agree_bind agree_peek fun token partner tokens => ?_
  rw [tokens.kind]
  exact agree_ite (agree_then agree_discard_advance fun _ => agree_pure rfl) (agree_pure rfl)

theorem agree_consumePunctuator {punctuator : Punctuator} :
    Agree twins Eq (consumePunctuator punctuator) (consumePunctuator punctuator) :=
  agree_consume

/-! ## Names and dialect -/

theorem agree_ask (question : Language → Dialect → ScopeStack → α) :
    Agree twins Eq
      (fun context state => .ok (question context.language context.dialect state.scopes) state)
      (fun context state => .ok (question context.language context.dialect state.scopes) state) := by
  rintro state _ ⟨recorded⟩
  dsimp only
  rw [twins.language, twins.dialect]
  exact .ok rfl (.intro recorded)

theorem agree_isTypeName {name : String} : Agree twins Eq (isTypeName name) (isTypeName name) :=
  agree_ask fun language _ scopes => language.isTypeName scopes.isTypedefName name

theorem agree_isGnu : Agree twins Eq isGnu isGnu :=
  agree_ask fun _ dialect _ => dialect.gnu

theorem agree_afterC89 : Agree twins Eq afterC89 afterC89 :=
  agree_ask fun _ dialect _ => decide (Standard.c89 < dialect.standard)

theorem agree_scopes : Agree twins Eq scopes scopes := agree_ask fun _ _ scopes => scopes

theorem agree_consumeInGnu {kind : TokenKind} :
    Agree twins Eq (consumeInGnu kind) (consumeInGnu kind) :=
  agree_then agree_isGnu fun _ => agree_ite agree_consume (agree_pure rfl)

theorem agree_modifyScopes {change otherChange : ScopeStack → ScopeStack}
    (same : ∀ scopes, otherChange scopes = change scopes) :
    Agree twins Eq (modifyScopes change) (modifyScopes otherChange) := by
  intro state partner states
  rw [modifyScopes_apply, modifyScopes_apply, same]
  exact .ok rfl (states.rescoped change)

theorem agree_addOrdinary {name : String} : Agree twins Eq (addOrdinary name) (addOrdinary name) :=
  agree_modifyScopes fun _ => rfl

/-! ## Problems -/

variable {place otherPlace : SourceLocation} {problem otherProblem : GrammarProblem}

theorem Diagnostics.Alike.report {like : Likeness} {earlier diagnostics others : Diagnostics}
    (recorded : Diagnostics.Alike like earlier diagnostics others) (kind : DiagnosticKind)
    (placed : like.places place otherPlace) {message : String} (written : like.Writes message) :
    Diagnostics.Alike like earlier (diagnostics.report kind place message)
      (others.report kind otherPlace message) := by
  obtain ⟨new, otherNew, same, otherSame, alike⟩ := recorded
  refine ⟨new ++ [⟨kind, place, message⟩], otherNew ++ [⟨kind, otherPlace, message⟩], ?_, ?_, ?_⟩
  · rw [toList_report, same, List.append_assoc]
  · rw [toList_report, otherSame, List.append_assoc]
  · exact List.rel_append alike (.cons (.intro placed written) .nil)

theorem agree_giveUp (placed : twins.like.places place otherPlace)
    (same : otherProblem.message = problem.message)
    (written : ∀ text ∈ problem.quoted, twins.like.Writes text) :
    Agree twins alike (giveUp place problem) (giveUp otherPlace otherProblem) := by
  rintro state _ ⟨recorded⟩
  unfold giveUp
  dsimp only
  rw [same]
  split
  · exact .error (.of state.drop recorded)
  · exact .error (.intro (recorded.report .grammatical placed (Likeness.writes_message written)))

theorem agree_complain (placed : twins.like.places place otherPlace)
    (same : otherProblem.message = problem.message)
    (written : ∀ text ∈ problem.quoted, twins.like.Writes text) :
    Agree twins Eq (complain place problem) (complain otherPlace otherProblem) := by
  rintro state _ ⟨recorded⟩
  unfold complain
  dsimp only
  rw [same]
  split
  · exact .ok rfl (.of state.drop recorded)
  · exact .ok rfl (.intro (recorded.report .grammatical placed (Likeness.writes_message written)))

section Expectation

variable {what : String} (written : twins.like.Writes what)

include written

theorem agree_unexpectedText : Agree twins alike (unexpected what : Parse α) (unexpected what) := by
  refine agree_bind agree_peek ?_
  rintro _ _ ⟨placed, _, lexeme⟩
  exact agree_giveUp placed rfl (List.forall_mem_cons.mpr ⟨written, List.forall_mem_singleton.mpr lexeme⟩)

theorem agree_expectText {kind : TokenKind} :
    Agree twins (Token.Alike twins.like) (expect kind what) (expect kind what) := by
  refine agree_bind agree_peek fun token partner tokens => ?_
  rw [tokens.kind]
  exact agree_ite agree_advance (agree_unexpectedText written)

theorem agree_expectPunctuatorText {punctuator : Punctuator} :
    Agree twins Eq (discard (expectPunctuator punctuator what))
      (discard (expectPunctuator punctuator what)) :=
  agree_discard (agree_expectText written)

theorem agree_expectSemicolonText :
    Agree twins Eq (expectSemicolon what) (expectSemicolon what) :=
  agree_expectPunctuatorText (Likeness.writes_append (Likeness.writes_words (by decide)) written)

end Expectation

/-! What is expected is mostly told in words of the grammar alone. -/

section Words

variable {words : List Char} (line : InLine words)

include line

theorem agree_unexpected :
    Agree twins alike (unexpected (String.ofList words) : Parse α) (unexpected (String.ofList words)) :=
  agree_unexpectedText (Likeness.writes_words line)

theorem agree_expect {kind : TokenKind} :
    Agree twins (Token.Alike twins.like) (expect kind (String.ofList words))
      (expect kind (String.ofList words)) :=
  agree_expectText (Likeness.writes_words line)

theorem agree_expectPunctuator {punctuator : Punctuator} :
    Agree twins Eq (discard (expectPunctuator punctuator (String.ofList words)))
      (discard (expectPunctuator punctuator (String.ofList words))) :=
  agree_expectPunctuatorText (Likeness.writes_words line)

theorem agree_expectSemicolon :
    Agree twins Eq (expectSemicolon (String.ofList words)) (expectSemicolon (String.ofList words)) :=
  agree_expectSemicolonText (Likeness.writes_words line)

end Words

theorem agree_expectIdentifier :
    Agree twins (Token.Alike twins.like) expectIdentifier expectIdentifier :=
  agree_expect (by decide)

theorem agree_optionalIdentifier :
    Agree twins (Option.Rel (Token.Alike twins.like)) optionalIdentifier optionalIdentifier := by
  refine agree_bind agree_peek ?_
  rintro _ _ ⟨_, _⟩
  exact agree_ite (agree_map agree_advance fun _ _ => .some) (agree_pure .none)

theorem agree_expectClosingParen : Agree twins Eq expectClosingParen expectClosingParen :=
  agree_expectPunctuator (by decide)

/-! ## Repetition -/

/-- Steps of a repetition that both end it or both want another one. -/
inductive StepsAlike (alike : α → α → Prop) : ForInStep α → ForInStep α → Prop
  | done {value other : α} (values : alike value other) : StepsAlike alike (.done value) (.done other)
  | yield {value other : α} (values : alike value other) :
      StepsAlike alike (.yield value) (.yield other)

theorem StepsAlike.of_eq {step otherStep : ForInStep α} (same : step = otherStep) :
    StepsAlike Eq step otherStep := by
  subst same
  cases step with
  | done value => exact .done rfl
  | yield value => exact .yield rfl

theorem ParseState.Alike.remaining {state partner : ParseState} (states : state.Alike twins partner) :
    partner.remaining twins.second = state.remaining twins.first := by
  obtain ⟨_⟩ := states
  exact twins.tokens.remaining state.position

theorem agree_iterate {start otherStart : α} {step otherStep : α → Parse (ForInStep α)}
    (begins : alike start otherStart)
    (steps : ∀ value otherValue, alike value otherValue →
      Agree twins (StepsAlike alike) (step value) (otherStep otherValue)) :
    Agree twins alike (iterate start step) (iterate otherStart otherStep) := by
  intro state partner states
  rw [iterate_apply, iterate_apply]
  -- On the tokens that are left, of which there are as many on both sides.
  induction left : state.remaining twins.first using Nat.strongRecOn
    generalizing start otherStart state partner with
  | ind left ih =>
    subst left
    have outcomes := steps start otherStart begins state partner states
    rw [repeatFrom, repeatFrom]
    generalize step start twins.first state = outcome at outcomes ⊢
    generalize otherStep otherStart twins.second partner = otherOutcome at outcomes ⊢
    cases outcomes with
    | error after => exact .error after
    | @ok _ _ next _ values after =>
      cases values with
      | done values => exact .ok values after
      | yield values =>
        dsimp only
        by_cases progress : next.remaining twins.first < state.remaining twins.first
        · rw [if_pos progress, if_pos (by rwa [after.remaining, states.remaining])]
          exact ih _ progress values _ _ after rfl
        · rw [if_neg progress, if_neg (by rwa [after.remaining, states.remaining])]
          obtain ⟨recorded⟩ := after
          exact .ok values (.of next.stall recorded)

theorem agree_iterateSame {start : α} {step : α → Parse (ForInStep α)}
    (steps : ∀ value, Agree twins Eq (step value) (step value)) :
    Agree twins Eq (iterate start step) (iterate start step) := by
  refine agree_iterate rfl ?_
  rintro value _ rfl state partner states
  have outcomes := steps value state partner states
  generalize step value twins.first state = outcome at outcomes ⊢
  generalize step value twins.second partner = otherOutcome at outcomes ⊢
  cases outcomes with
  | ok same states => exact .ok (.of_eq same) states
  | error states => exact .error states

theorem agree_forIn {Item : Type} {related : Item → Item → Prop} {items others : List Item}
    {body : Item → PUnit → Parse (ForInStep PUnit)} (pairs : List.Forall₂ related items others)
    (steps : ∀ item other, related item other → Agree twins Eq (body item ⟨⟩) (body other ⟨⟩)) :
    Agree twins Eq (forIn items ⟨⟩ body) (forIn others ⟨⟩ body) := by
  induction pairs with
  | nil => exact agree_pure rfl
  | cons first rest ih =>
    rw [List.forIn_cons, List.forIn_cons]
    refine agree_then (steps _ _ first) fun step => ?_
    cases step with
    | done => exact agree_pure rfl
    | yield => exact ih

end CFrontEnd
