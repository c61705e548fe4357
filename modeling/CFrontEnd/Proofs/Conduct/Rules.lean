import CFrontEnd.Proofs.Conduct.Runs
import CFrontEnd.Proofs.Recovery.Nesting

/-!
How far a production goes wherever it starts: one rule for each primitive, with what is done behind it,
and for each way of composing productions.
-/

namespace CFrontEnd

open Parse TokenStream

/-- The production runs as its results are worth from wherever the tokens ahead are of the known
kinds. -/
def Leads {α : Type} (context : ParseContext) (known : List TokenKind) (production : Parse α)
    (use : Use α) : Prop :=
  ∀ state, context.tokens.Shows state.position known → Runs context state production state use

/-- A result of the production has used up so many tokens at the least. -/
def Proceeds {α : Type} (context : ParseContext) (known : List TokenKind) (production : Parse α)
    (count : Nat) : Prop :=
  Leads context known production (.atLeast count)

variable {α β : Type} {context : ParseContext} {known : List TokenKind} {production : Parse α}
  {continuation : α → Parse β} {state next : ParseState} {use : Use α} {last : Use β}
  {count : Nat}

/-! ## Composition -/

theorem leads_pure {value : α} (same : use value = some 0) :
    Leads context known (pure value) use :=
  fun _ _ => .pure same

theorem proceeds_pure {value : α} : Proceeds context known (pure value) 0 := leads_pure rfl

theorem Leads.at (leads : Leads context [] production use) : Leads context known production use :=
  fun state _ => leads state trivial

theorem Leads.run (leads : Leads context [] production use) :
    Runs context state production state use :=
  leads state trivial

theorem Leads.first {kind : TokenKind} {kinds : List TokenKind}
    (leads : Leads context [kind] production use) : Leads context (kind :: kinds) production use :=
  fun state shows => leads state ⟨shows.1, trivial⟩

theorem Leads.of_kind {token : Token} {kind : TokenKind} (same : token.kind = kind)
    (leads : Leads context [kind] production use) : Leads context [token.kind] production use :=
  same ▸ leads

theorem Leads.mono {weaker : Use α} (leads : Leads context known production use)
    (weaken : ∀ before value next, Ended context (use value) before next →
      Ended context (weaker value) before next) : Leads context known production weaker :=
  fun state shows => (leads state shows).mono (weaken state)

theorem Leads.bind {worth : α → Nat}
    (leads : Leads context known production fun value => some (worth value))
    (rest : ∀ value, Leads context [] (continuation value) (last.less (worth value))) :
    Leads context known (production >>= continuation) last := by
  intro state shows
  refine (leads state shows).bind fun value next ended => ?_
  exact .since ended.1 ended.2 (rest value next trivial)

theorem Proceeds.least {least : Nat} (proceeds : Proceeds context known production count)
    (enough : least ≤ count) : Proceeds context known production least :=
  Leads.mono proceeds fun _ _ _ ended =>
    ⟨ended.1, Nat.le_trans (Nat.add_le_add_left enough _) ended.2⟩

theorem Proceeds.any (proceeds : Proceeds context known production count) :
    Proceeds context known production 0 :=
  proceeds.least (Nat.zero_le count)

theorem leads_bind (first : Proceeds context known production count)
    (rest : ∀ value, Leads context [] (continuation value) (last.less count)) :
    Leads context known (production >>= continuation) last :=
  Leads.bind first rest

theorem proceeds_first (first : Proceeds context known production count)
    (rest : ∀ value, Proceeds context [] (continuation value) 0) :
    Proceeds context known (production >>= continuation) count := by
  refine leads_bind first fun value => ?_
  have none : (Use.atLeast count).less count = (.atLeast 0 : Use β) := by
    funext value
    simp [Use.less, Use.atLeast]
  rw [none]
  exact rest value

theorem leads_map {change : α → β} (leads : Leads context known production use)
    (same : ∀ value, last (change value) = use value) :
    Leads context known (change <$> production) last := by
  intro state shows
  constructor
  · intro value next run
    rw [map_apply] at run
    split at run
    · rename_i read
      cases run
      rw [same]
      exact (leads state shows).ok _ _ read
    · cases run
  · intro reason next run
    rw [map_apply] at run
    split at run
    · cases run
    · rename_i read
      cases run
      exact (leads state shows).error _ _ read

theorem proceeds_map {change : α → β} (proceeds : Proceeds context known production count) :
    Proceeds context known (change <$> production) count :=
  leads_map proceeds fun _ => rfl

theorem proceeds_discard (proceeds : Proceeds context known production count) :
    Proceeds context known (discard production) count :=
  proceeds_map proceeds

theorem leads_ite {condition : Prop} [Decidable condition] {other : Parse α}
    (holds : condition → Leads context known production use)
    (fails : ¬ condition → Leads context known other use) :
    Leads context known (if condition then production else other) use := by
  by_cases decided : condition
  · rw [if_pos decided]
    exact holds decided
  · rw [if_neg decided]
    exact fails decided

theorem leads_either {condition : Prop} [Decidable condition] {other : Parse α}
    (holds : condition → Proceeds context known production count)
    (fails : ¬ condition → Proceeds context known other count)
    (rest : ∀ value, Leads context [] (continuation value) (last.less count)) :
    Leads context known
      (if condition then production >>= continuation else other >>= continuation) last :=
  leads_ite (fun decided => leads_bind (holds decided) rest)
    fun decided => leads_bind (fails decided) rest

theorem leads_optional {condition : Prop} [Decidable condition]
    {continuation : Option α → Parse β} (holds : condition → Proceeds context known production count)
    (rest : ∀ value, Leads context [] (continuation value) (last.less 0)) :
    Leads context known
      (if condition then some <$> production >>= continuation else pure none >>= continuation)
      last :=
  leads_either (fun decided => (proceeds_map (holds decided)).any) (fun _ => proceeds_pure) rest

theorem leads_when {condition : Prop} [Decidable condition] {action : Parse Unit}
    {continuation : Unit → Parse β} (holds : condition → Proceeds context known action 0)
    (rest : Leads context [] (continuation ()) (last.less 0)) :
    Leads context known (if condition then action >>= continuation else continuation ()) last :=
  leads_ite (fun decided => leads_bind (holds decided) fun _ => rest)
    fun _ => Leads.at (rest.mono fun _ value _ ended => by
      cases worth : last value <;> simpa [Use.less, worth] using ended)

theorem proceeds_forIn {Item : Type} {items : List Item}
    {body : Item → PUnit → Parse (ForInStep PUnit)}
    (inside : ∀ item, Proceeds context [] (body item ⟨⟩) 0) :
    Proceeds context [] (forIn items ⟨⟩ body) 0 := by
  induction items with
  | nil => exact proceeds_pure
  | cons item items ih =>
    rw [List.forIn_cons]
    refine leads_bind (inside item) fun outcome => ?_
    cases outcome with
    | done => exact proceeds_pure
    | yield => exact ih

theorem leads_iterate {start : α} {step : α → Parse (ForInStep α)}
    (stepped : ∀ value, Leads context [] (step value) use.step) :
    Leads context known (iterate start step) use :=
  fun _ _ => .repeatFrom fun value state => stepped value state trivial

theorem leads_iterateCarrying {start : α} {step : α → Parse (ForInStep α)} {worth : α → Nat}
    (small : ∀ value, worth value ≤ 1)
    (stepped : ∀ value, Leads context [] (step value) (use.less (worth value)).step) :
    Leads context known (iterate start step) (use.less (worth start)) :=
  fun _ _ => .repeatFrom_carrying small fun value state => stepped value state trivial

theorem proceeds_iterate {start : α} {step : α → Parse (ForInStep α)}
    (stepped : ∀ value, Leads context [] (step value) (Use.atLeast 0).step) :
    Proceeds context known (iterate start step) 0 :=
  leads_iterate stepped

theorem proceeds_iterateFurther {start : α} {step : α → Parse (ForInStep α)}
    (begins : Proceeds context known (step start) 1)
    (stepped : ∀ value, Leads context [] (step value) (Use.atLeast 0).step) :
    Proceeds context known (iterate start step) 1 :=
  fun state shows =>
    .repeatFrom_further (begins state shows) fun value state => stepped value state trivial

/-! ## Questions -/

theorem leads_ask (asks : Asks production)
    (rest : ∀ value, Leads context known (continuation value) last) :
    Leads context known (production >>= continuation) last := by
  intro state shows
  obtain ⟨value, run⟩ := asks context state
  exact .step run (rest value state shows)

theorem leads_location {continuation : SourceLocation → Parse β}
    (rest : ∀ place, Leads context known (continuation place) last) :
    Leads context known (location >>= continuation) last :=
  leads_ask asks_location rest

theorem leads_peek {continuation : Token → Parse β}
    (rest : ∀ token : Token, Leads context [token.kind] (continuation token) last) :
    Leads context known (peek >>= continuation) last := by
  intro state _
  exact .step peek_apply (rest _ state ⟨rfl, trivial⟩)

theorem leads_peekKnown {kind : TokenKind} {kinds : List TokenKind} {continuation : Token → Parse β}
    (rest : ∀ token : Token, token.kind = kind →
      Leads context (kind :: kinds) (continuation token) last) :
    Leads context (kind :: kinds) (peek >>= continuation) last := by
  intro state shows
  exact .step peek_apply (rest _ shows.1 state shows)

theorem leads_test {kinds : List TokenKind} {test : Parse Bool} {continuation : Bool → Parse β}
    (sees : Sees kinds test) (succeeds : Leads context kinds (continuation true) last)
    (fails : Leads context known (continuation false) last) :
    Leads context known (test >>= continuation) last := by
  intro state shows
  obtain ⟨answer, run, seen⟩ := sees context state
  refine .step run ?_
  cases answer with
  | true => exact succeeds state (seen rfl)
  | false => exact fails state shows

theorem leads_find {ask : Parse (Option α)} {continuation : Option α → Parse β} (finds : Finds ask)
    (found : ∀ value operator, Leads context [.operator operator] (continuation (some value)) last)
    (missing : Leads context known (continuation none) last) :
    Leads context known (ask >>= continuation) last := by
  intro state shows
  obtain ⟨answer, run, isOperator⟩ := finds context state
  refine .step run ?_
  cases answer with
  | some value =>
    obtain ⟨operator, kind⟩ := isOperator rfl
    exact found value operator state ⟨kind, trivial⟩
  | none => exact missing state shows

/-! ## Moving past tokens -/

theorem leads_advance {kind : TokenKind} {kinds : List TokenKind} {continuation : Token → Parse β}
    (notEnd : kind ≠ .endOfFile)
    (rest : ∀ token, Leads context kinds (continuation token) (last.less 1)) :
    Leads context (kind :: kinds) (advance >>= continuation) last := by
  intro state ⟨same, shows⟩
  have inside : (context.tokens.get state.position).kind ≠ .endOfFile := same ▸ notEnd
  have run : Parse.advance context state = .ok (context.tokens.get state.position)
      (state.movedTo (state.position + 1)) := by
    simp [inside]
  exact .step run (.since (.advance inside) (Nat.le_refl _) (rest _ _ shows))

theorem proceeds_advance {kind : TokenKind} (notEnd : kind ≠ .endOfFile) :
    Proceeds context (kind :: known) advance 1 := by
  rw [← bind_pure advance]
  exact leads_advance notEnd fun _ => leads_pure rfl

/-- The end of file is not used up, so that at any token nothing is said about how far it goes. -/
theorem proceeds_advanceAny : Proceeds context known advance 0 := by
  intro state _
  by_cases ends : (context.tokens.get state.position).kind = .endOfFile
  · have run : Parse.advance context state = .ok (context.tokens.get state.position) state := by
      simp [ends]
    exact .of_ok run ⟨.refl context state, Nat.le_refl _⟩
  · have run : Parse.advance context state = .ok (context.tokens.get state.position)
        (state.movedTo (state.position + 1)) := by
      simp [ends]
    exact .of_ok run ⟨.advance ends, Nat.le_succ _⟩

theorem leads_discard_advance {kind : TokenKind} {kinds : List TokenKind}
    {continuation : Unit → Parse β} (notEnd : kind ≠ .endOfFile)
    (rest : Leads context kinds (continuation ()) (last.less 1)) :
    Leads context (kind :: kinds) (discard advance >>= continuation) last := by
  rw [discard_bind]
  exact leads_advance notEnd fun _ => rest

theorem leads_consume {kind : TokenKind} {continuation : Bool → Parse β} (notEnd : kind ≠ .endOfFile)
    (found : Leads context [] (continuation true) (last.less 1))
    (missing : Leads context known (continuation false) last) :
    Leads context known (consume kind >>= continuation) last := by
  intro state shows
  have run : consume kind context state = _ := consume_apply notEnd
  by_cases same : (context.tokens.get state.position).kind = kind
  · rw [if_pos same] at run
    have inside : (context.tokens.get state.position).kind ≠ .endOfFile := same ▸ notEnd
    exact .step run (.since (.advance inside) (Nat.le_refl _) (found _ trivial))
  · rw [if_neg same] at run
    exact .step run (missing state shows)

theorem leads_consumeKnown {kind : TokenKind} {kinds : List TokenKind}
    {continuation : Bool → Parse β} (notEnd : kind ≠ .endOfFile)
    (found : Leads context kinds (continuation true) (last.less 1)) :
    Leads context (kind :: kinds) (consume kind >>= continuation) last := by
  intro state ⟨same, shows⟩
  have run : consume kind context state = _ := consume_apply notEnd
  rw [if_pos same] at run
  exact .step run (.since (.advance (same ▸ notEnd)) (Nat.le_refl _) (found _ shows))

theorem leads_consumeOther {kind other : TokenKind} {kinds : List TokenKind}
    {continuation : Bool → Parse β} (notEnd : kind ≠ .endOfFile) (differs : other ≠ kind)
    (missing : Leads context (other :: kinds) (continuation false) last) :
    Leads context (other :: kinds) (consume kind >>= continuation) last := by
  intro state shows
  have run : consume kind context state = _ := consume_apply notEnd
  rw [if_neg (shows.1 ▸ differs)] at run
  exact .step run (missing state shows)

theorem leads_consumePunctuator {punctuator : Punctuator} {continuation : Bool → Parse β}
    (found : Leads context [] (continuation true) (last.less 1))
    (missing : Leads context known (continuation false) last) :
    Leads context known (consumePunctuator punctuator >>= continuation) last :=
  leads_consume (by simp) found missing

theorem proceeds_consume {kind : TokenKind} (notEnd : kind ≠ .endOfFile) :
    Proceeds context known (consume kind) 0 := by
  rw [← bind_pure (consume kind)]
  exact leads_consume notEnd (leads_pure rfl) (leads_pure rfl)

theorem leads_consumeInGnu {kind : TokenKind} {continuation : Bool → Parse β}
    (notEnd : kind ≠ .endOfFile) (found : Leads context [] (continuation true) (last.less 1))
    (missing : Leads context known (continuation false) last) :
    Leads context known (consumeInGnu kind >>= continuation) last := by
  rw [consumeInGnu, bind_assoc]
  refine leads_ask asks_isGnu fun answer => ?_
  cases answer with
  | true => exact leads_consume notEnd found missing
  | false => exact missing

theorem proceeds_consumeInGnu {kind : TokenKind} (notEnd : kind ≠ .endOfFile) :
    Proceeds context known (consumeInGnu kind) 0 := by
  rw [← bind_pure (consumeInGnu kind)]
  exact leads_consumeInGnu notEnd (leads_pure rfl) (leads_pure rfl)

/-! ## Problems -/

theorem ParseState.complains_reported (place : SourceLocation) (problem : GrammarProblem) :
    state.Complains (state.reported place problem) := by
  refine ⟨[⟨.grammatical, place, problem.message⟩], ?_, _, List.mem_singleton.mpr rfl, rfl⟩
  simp

theorem Passed.reported {place : SourceLocation} {problem : GrammarProblem} :
    Passed context state (state.reported place problem) := by
  refine ⟨Nat.le_refl _, .nil, rfl, ?_, rfl⟩
  rw [ParseState.diagnostics_reported, Diagnostics.toList_report]
  exact List.prefix_append _ _

/-- Of the two records of a problem in panic and outside of it only the latter is one to promise
anything about. -/
theorem leads_giveUp {place : SourceLocation} {problem : GrammarProblem} :
    Leads context known (giveUp place problem) use := by
  intro state _
  cases panicking : state.panicking with
  | false =>
    have recorded : Passed context state (state.reported place problem) := .reported
    refine .of_error (giveUp_apply panicking place problem) ⟨?_, fun _ => ⟨rfl, rfl, ?_⟩⟩
    · exact ⟨recorded.forward, recorded.inside, rfl, recorded.recorded, rfl⟩
    · exact ParseState.complains_reported place problem
  | true =>
    have run : (giveUp place problem : Parse α) context state = .error .givenUp state.drop := by
      simp [giveUp, panicking]
    refine .of_error run ⟨?_, fun calm => absurd calm (by simp [panicking])⟩
    exact ⟨Nat.le_refl _, .nil, rfl, List.prefix_refl _, rfl⟩

theorem leads_unexpected {what : String} : Leads context known (unexpected what) use := by
  rw [unexpected]
  exact leads_peek fun _ => leads_giveUp

theorem leads_tooDeep : Leads context known Productions.tooDeep use := by
  rw [Productions.tooDeep]
  exact leads_location fun _ => leads_giveUp

theorem proceeds_complain {place : SourceLocation} {problem : GrammarProblem} :
    Proceeds context known (complain place problem) 0 := by
  intro state _
  cases panicking : state.panicking with
  | false =>
    have run : complain place problem context state = .ok () (state.reported place problem) := by
      simp [complain, panicking, ParseState.reported]
    exact .of_ok run ⟨.of_passed .reported rfl rfl, Nat.le_refl _⟩
  | true =>
    have run : complain place problem context state = .ok () state.drop := by
      simp [complain, panicking]
    refine .of_ok run ⟨⟨?_, fun calm => absurd calm (by simp [panicking])⟩, Nat.le_refl _⟩
    exact ⟨Nat.le_refl _, .nil, rfl, List.prefix_refl _, rfl⟩

theorem leads_complain {place : SourceLocation} {problem : GrammarProblem}
    {continuation : Unit → Parse β} (rest : Leads context [] (continuation ()) (last.less 0)) :
    Leads context known (complain place problem >>= continuation) last :=
  leads_bind proceeds_complain fun _ => rest

/-- A token that is asked for is used up, or else the production gives up in front of it. -/
theorem proceeds_expect {kind : TokenKind} {what : String} (notEnd : kind ≠ .endOfFile) :
    Proceeds context known (expect kind what) 1 := by
  intro state _
  have run : expect kind what context state = _ := expect_apply what notEnd
  by_cases same : (context.tokens.get state.position).kind = kind
  · rw [if_pos same] at run
    have inside : (context.tokens.get state.position).kind ≠ .endOfFile := same ▸ notEnd
    exact .of_ok run ⟨.advance inside, Nat.le_refl _⟩
  · rw [if_neg same] at run
    exact .of_eq run leads_unexpected.run

theorem proceeds_expectPunctuator {punctuator : Punctuator} {what : String} :
    Proceeds context known (discard (expectPunctuator punctuator what)) 1 :=
  proceeds_discard (proceeds_expect (by simp))

theorem proceeds_expectIdentifier : Proceeds context known expectIdentifier 1 :=
  proceeds_expect (by simp)

theorem proceeds_optionalIdentifier : Proceeds context known optionalIdentifier 0 := by
  refine leads_peek fun token => leads_ite (fun isName => ?_) fun _ => proceeds_pure
  have kind : token.kind = .identifier := by simpa using isName
  rw [kind]
  exact (proceeds_map (proceeds_advance (by simp))).any

theorem proceeds_expectClosingParen : Proceeds context known expectClosingParen 1 :=
  proceeds_expectPunctuator

theorem proceeds_expectSemicolon {what : String} :
    Proceeds context known (expectSemicolon what) 1 :=
  proceeds_expectPunctuator

/-! ## Scopes -/

@[simp] theorem ScopeStack.outer_bind (scopes : ScopeStack) (name : String) (kind : NameKind) :
    (scopes.bind name kind).outer = scopes.outer :=
  rfl

theorem ScopeStack.outer_addTag {scopes changed : ScopeStack} {kind : TagKind} {name : String}
    (added : scopes.addTag kind name = .ok changed) : changed.outer = scopes.outer := by
  unfold ScopeStack.addTag at added
  split at added
  · split at added <;> cases added
    rfl
  · cases added
    rfl

/-- What happens in the innermost scope leaves the ones around it as they are. -/
theorem proceeds_modifyScopes {change : ScopeStack → ScopeStack}
    (outer : ∀ scopes, (change scopes).outer = scopes.outer) :
    Proceeds context known (modifyScopes change) 0 :=
  fun _ _ => .of_ok (modifyScopes_apply change) ⟨.rescoped (outer _), Nat.le_refl _⟩

theorem proceeds_addOrdinary {name : String} : Proceeds context known (addOrdinary name) 0 :=
  proceeds_modifyScopes fun _ => rfl

/-- Where the scope that was entered is the innermost one again, leaving it restores all others. -/
theorem Passed.inNewScope (inside : Passed context (state.rescoped state.scopes.enter) next) :
    Passed context state (next.rescoped next.scopes.exit) ∧ next.scopes.exit = state.scopes := by
  have outer : next.scopes.outer = state.scopes.toList := inside.outer
  have same : next.scopes.exit = state.scopes := by
    simp [ScopeStack.exit, outer, ScopeStack.toList]
  refine ⟨⟨inside.forward, inside.inside, ?_, inside.recorded, inside.unstalled⟩, same⟩
  exact congrArg ScopeStack.outer same

theorem leads_inNewScope (inside : Leads context known production use) :
    Leads context known (inNewScope production) use := by
  intro state shows
  have enters := inside (state.rescoped state.scopes.enter) shows
  constructor
  · intro value next same
    rw [inNewScope_apply] at same
    split at same
    · rename_i after read
      cases same
      have ended := enters.ok _ _ read
      have passed := ended.passed.inNewScope.1
      cases worth : use value with
      | none =>
        rw [worth] at ended
        exact ⟨passed, ended.alarmed⟩
      | some least =>
        rw [worth] at ended
        exact ⟨⟨passed, ended.1.calm⟩, ended.2⟩
    · cases same
  · intro reason next same
    rw [inNewScope_apply] at same
    split at same
    · cases same
    · rename_i after read
      cases same
      have gaveUp := enters.error _ _ read
      exact ⟨gaveUp.passed.inNewScope.1, gaveUp.alarmed⟩

/-! ## Attributes -/

section AfterBalanced

variable (stream : TokenStream) (opener closer : Punctuator) (depth position : Nat)

theorem afterBalanced_forward :
    position ≤ (stream.afterBalanced opener closer depth position).1 ∧
      ((stream.afterBalanced opener closer depth position).2 = true →
        position < (stream.afterBalanced opener closer depth position).1) := by
  fun_induction TokenStream.afterBalanced stream opener closer depth position <;> simp_all <;> omega

theorem inside_afterBalanced :
    stream.Inside position (stream.afterBalanced opener closer depth position).1 := by
  fun_induction TokenStream.afterBalanced stream opener closer depth position with
  | case1 => exact .nil
  | case2 depth position inside token notEnd opens ih =>
    exact .cons (by simpa [token, getElem_body] using notEnd) ih
  | case3 depth position inside token notEnd _ closes =>
    exact .cons (by simpa [token, getElem_body] using notEnd) .nil
  | case4 depth position inside token notEnd _ _ _ ih =>
    exact .cons (by simpa [token, getElem_body] using notEnd) ih
  | case5 depth position inside token notEnd _ _ ih =>
    exact .cons (by simpa [token, getElem_body] using notEnd) ih
  | case6 => exact .nil

end AfterBalanced

theorem proceeds_skipBalanced {opener closer : Punctuator} {depth : Nat} :
    Proceeds context known (skipBalanced opener closer depth) 0 := by
  refine leads_bind (?moves : Proceeds context known _ 0) fun _ =>
    leads_ite (fun _ => leads_unexpected) fun _ => proceeds_pure
  intro state _
  have forward := (afterBalanced_forward context.tokens opener closer depth state.position).1
  exact .of_ok rfl ⟨.movedTo forward (inside_afterBalanced _ _ _ _ _), forward⟩

theorem leads_attributeInParens {what : String} {use : Use (ForInStep Unit)}
    (same : use (.yield ()) = some 0) :
    Leads context known (do
      discard (expectPunctuator .openParen what)
      skipBalanced .openParen .closeParen 1
      return .yield ()) use := by
  refine leads_bind proceeds_expectPunctuator.any fun _ => leads_bind proceeds_skipBalanced fun _ => ?_
  exact leads_pure (by simp [Use.less, same])

theorem leads_attributeInBrackets {use : Use (ForInStep Unit)} (same : use (.yield ()) = some 1) :
    Leads context [.punctuator .openBracket, .punctuator .openBracket] (do
      discard advance
      discard advance
      skipBalanced .openBracket .closeBracket 2
      return .yield ()) use := by
  refine leads_discard_advance (by simp) (leads_discard_advance (by simp) ?_)
  refine leads_bind proceeds_skipBalanced fun _ => leads_pure ?_
  simp [Use.less, same]

theorem leads_attributeStep :
    Leads context known (do
      if ← consume (.keyword .attributeWord) then
        discard (expectPunctuator .openParen "'(' after '__attribute__'")
        skipBalanced .openParen .closeParen 1
        return .yield ()
      else if ← atBrackets then
        discard advance
        discard advance
        skipBalanced .openBracket .closeBracket 2
        return .yield ()
      else return .done ()) (Use.atLeast 0).step :=
  leads_consume (by simp) (leads_attributeInParens rfl)
    (leads_test sees_atBrackets (leads_attributeInBrackets rfl) (leads_pure rfl))

theorem proceeds_skipAttributes : Proceeds context known skipAttributes 0 :=
  proceeds_iterate fun _ => leads_attributeStep

theorem proceeds_skipAttributes_word :
    Proceeds context [.keyword .attributeWord] skipAttributes 1 :=
  proceeds_iterateFurther (leads_consumeKnown (by simp) (leads_attributeInParens rfl))
    fun _ => leads_attributeStep

theorem proceeds_skipAttributes_brackets :
    Proceeds context [.punctuator .openBracket, .punctuator .openBracket] skipAttributes 1 := by
  refine proceeds_iterateFurther (leads_consumeOther (by simp) (by simp) fun state shows => ?_)
    fun _ => leads_attributeStep
  have starts : context.tokens.startsBrackets state.position = true := by
    simpa [TokenStream.startsBrackets, TokenStream.Shows] using shows
  have run : atBrackets context state = .ok true state := by rw [atBrackets_apply, starts]
  exact .step run (leads_attributeInBrackets rfl state shows)

theorem proceeds_skipExtensions : Proceeds context known skipExtensions 0 :=
  proceeds_iterate fun _ => leads_consume (by simp) (leads_pure rfl) (leads_pure rfl)

end CFrontEnd
