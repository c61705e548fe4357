import CFrontEnd.Proofs.Recovery.Fence

/-!
What confined productions are made of: one rule for each primitive, with what is done behind it, and
for each way of composing productions.
-/

namespace CFrontEnd

open Parse

namespace Fence

variable {α β : Type} {context : ParseContext} {fence : Fence context} {known : List TokenKind}
  {production : Parse α} {continuation : α → Parse β} {state next : ParseState}
  {Post : α → ParseState → Prop} {Last : β → ParseState → Prop} {place : SourceLocation}

/-! ## Composition -/

theorem leads_pure {value : α} (post : ∀ state, fence.Holds state → Post value state) :
    fence.Leads known (pure value) Post :=
  fun state holds _ => .of_ok rfl (.refl holds) (post state holds)

theorem confined_pure {value : α} : fence.Confined known (pure value : Parse α) :=
  leads_pure fun _ holds => holds

theorem Leads.at (leads : fence.Leads [] production Post) : fence.Leads known production Post :=
  fun state holds _ => leads state holds trivial

theorem Leads.first {kind : TokenKind} {kinds : List TokenKind}
    (leads : fence.Leads [kind] production Post) : fence.Leads (kind :: kinds) production Post :=
  fun state holds shows => leads state holds ⟨shows.1, trivial⟩

theorem Leads.of_kind {token : Token} {kind : TokenKind} (same : token.kind = kind)
    (leads : fence.Leads [kind] production Post) : fence.Leads [token.kind] production Post :=
  same ▸ leads

theorem Leads.run (leads : fence.Leads [] production Post) (holds : fence.Holds state) :
    fence.Confines production state Post :=
  leads state holds trivial

theorem Leads.bind {Middle : α → ParseState → Prop} (first : fence.Leads known production Middle)
    (rest : ∀ value next, Middle value next →
      fence.Holds next ∧ fence.Leads [] (continuation value) Last) :
    fence.Leads known (production >>= continuation) Last := by
  intro state holds shows
  refine (first state holds shows).bind ?_
  intro value next _ middle
  obtain ⟨holdsNext, leads⟩ := rest value next middle
  exact leads next holdsNext trivial

theorem leads_bind (first : fence.Confined known production)
    (rest : ∀ value, fence.Leads [] (continuation value) Last) :
    fence.Leads known (production >>= continuation) Last :=
  first.bind fun value _ holds => ⟨holds, rest value⟩

theorem leads_map {change : α → β} (inside : fence.Leads known production Post)
    (post : ∀ value next, Post value next → Last (change value) next) :
    fence.Leads known (change <$> production) Last := by
  intro state holds shows
  rw [← bind_pure_comp]
  refine (inside state holds shows).bind fun value next reach middle => ?_
  exact .of_ok rfl (.quiet rfl (Nat.le_refl _) reach.bounded) (post value next middle)

theorem confined_map {change : α → β} (inside : fence.Confined known production) :
    fence.Confined known (change <$> production) :=
  leads_map inside fun _ _ holds => holds

theorem confined_discard (inside : fence.Confined known production) :
    fence.Confined known (discard production) :=
  confined_map inside

theorem leads_ite {condition : Prop} [Decidable condition] {other : Parse α}
    (holds : condition → fence.Leads known production Post)
    (fails : ¬ condition → fence.Leads known other Post) :
    fence.Leads known (if condition then production else other) Post := by
  by_cases decided : condition
  · rw [if_pos decided]
    exact holds decided
  · rw [if_neg decided]
    exact fails decided

theorem Leads.either {condition : Prop} [Decidable condition] {other : Parse α}
    {Middle : α → ParseState → Prop} (holds : condition → fence.Leads known production Middle)
    (fails : ¬ condition → fence.Leads known other Middle)
    (rest : ∀ value next, Middle value next →
      fence.Holds next ∧ fence.Leads [] (continuation value) Last) :
    fence.Leads known
      (if condition then production >>= continuation else other >>= continuation) Last :=
  leads_ite (fun decided => (holds decided).bind rest) fun decided => (fails decided).bind rest

theorem leads_either {condition : Prop} [Decidable condition] {other : Parse α}
    (holds : condition → fence.Confined known production)
    (fails : ¬ condition → fence.Confined known other)
    (rest : ∀ value, fence.Leads [] (continuation value) Last) :
    fence.Leads known
      (if condition then production >>= continuation else other >>= continuation) Last :=
  Leads.either holds fails fun value _ holds => ⟨holds, rest value⟩

theorem leads_when {condition : Prop} [Decidable condition] {action : Parse Unit}
    {continuation : Unit → Parse β} (holds : condition → fence.Confined known action)
    (rest : fence.Leads [] (continuation ()) Last) :
    fence.Leads known (if condition then action >>= continuation else continuation ()) Last :=
  leads_ite (fun decided => leads_bind (holds decided) fun _ => rest) fun _ => rest.at

theorem leads_optional {condition : Prop} [Decidable condition]
    {continuation : Option α → Parse β} (holds : condition → fence.Confined known production)
    (rest : ∀ value, fence.Leads [] (continuation value) Last) :
    fence.Leads known
      (if condition then some <$> production >>= continuation else pure none >>= continuation)
      Last :=
  leads_either (fun decided => confined_map (holds decided)) (fun _ => confined_pure) rest

theorem confined_forIn {Item : Type} {items : List Item}
    {body : Item → PUnit → Parse (ForInStep PUnit)}
    (inside : ∀ item, fence.Confined [] (body item ⟨⟩)) :
    fence.Confined [] (forIn items ⟨⟩ body) := by
  induction items with
  | nil => exact confined_pure
  | cons item items ih =>
    rw [List.forIn_cons]
    refine leads_bind (inside item) fun outcome => ?_
    cases outcome with
    | done => exact confined_pure
    | yield => exact ih

theorem leads_iterate {start : α} {step : α → Parse (ForInStep α)}
    (stepped : ∀ value, fence.Leads [] (step value) (Stepped (fun _ => fence.Holds) Post)) :
    fence.Leads known (iterate start step) Post :=
  fun _ holds _ => Confines.repeatFrom
    (fun value state holds => stepped value state holds trivial) holds

theorem confined_iterate {start : α} {step : α → Parse (ForInStep α)}
    (stepped : ∀ value, fence.Confined [] (step value)) :
    fence.Confined known (iterate start step) := by
  refine leads_iterate fun value state holds shows => ?_
  refine (stepped value state holds shows).mono ?_
  intro outcome next _ post
  exact ⟨fun _ _ => post, fun _ _ => ⟨post, post.stall⟩⟩

/-! ## Going on -/

theorem Leads.onward (first : fence.Leads known production fun _ next => fence.Onward next)
    (rest : ∀ value, fence.Confined [] (continuation value)) :
    fence.Leads known (production >>= continuation) fun _ next => fence.Onward next := by
  intro state holds shows
  refine (first state holds shows).bind fun value next _ onward => ?_
  refine ((rest value).run onward.holds).mono fun _ last later holdsLast => ⟨holdsLast, ?_⟩
  exact Nat.lt_of_lt_of_le onward.further later.forward

/-! ## Staying at a token -/

/-- The production does not move, so that the tokens ahead stay known. -/
def Keeps (fence : Fence context) (known : List TokenKind) (production : Parse α) : Prop :=
  fence.Leads known production fun _ next =>
    fence.Holds next ∧ context.tokens.Shows next.position known

theorem Keeps.confined (keeps : fence.Keeps known production) : fence.Confined known production :=
  fun state holds shows => (keeps state holds shows).mono fun _ _ _ post => post.1

theorem leads_keep (first : fence.Keeps known production)
    (rest : ∀ value, fence.Leads known (continuation value) Last) :
    fence.Leads known (production >>= continuation) Last := by
  intro state holds shows
  refine (first state holds shows).bind ?_
  rintro value next _ ⟨holdsNext, showsNext⟩
  exact rest value next holdsNext showsNext

theorem keeps_pure {value : α} : fence.Keeps known (pure value : Parse α) :=
  fun _ holds shows => .of_ok rfl (.refl holds) ⟨holds, shows⟩

theorem keeps_modifyScopes {change : ScopeStack → ScopeStack} :
    fence.Keeps known (modifyScopes change) :=
  fun _ holds shows => .of_ok (modifyScopes_apply change) ((Reach.refl holds).rescoped _)
    ⟨⟨holds.low, holds.high, holds.calm⟩, shows⟩

theorem keeps_complain {problem : GrammarProblem} (covered : fence.Covers place) :
    fence.Keeps known (complain place problem) := by
  intro state holds shows
  have run : complain place problem context state = .ok () (state.reported place problem) := by
    simp [complain, holds.calm, ParseState.reported]
  exact .of_ok run (.report holds covered problem state.panicking)
    ⟨⟨holds.low, holds.high, holds.calm⟩, shows⟩

/-! ## Questions -/

theorem leads_ask (asks : Asks production)
    (rest : ∀ value, fence.Leads known (continuation value) Last) :
    fence.Leads known (production >>= continuation) Last := by
  intro state holds shows
  obtain ⟨value, run⟩ := asks context state
  exact .step run (.refl holds) (rest value state holds shows)

theorem leads_peek {continuation : Token → Parse β}
    (rest : ∀ token : Token, fence.Covers token.location →
      fence.Leads [token.kind] (continuation token) Last) :
    fence.Leads known (peek >>= continuation) Last := by
  intro state holds _
  exact .step peek_apply (.refl holds) (rest _ holds.covers state holds ⟨rfl, trivial⟩)

theorem leads_peekKnown {kind : TokenKind} {continuation : Token → Parse β}
    (rest : ∀ token : Token, fence.Covers token.location →
      fence.Leads [kind] (continuation token) Last) :
    fence.Leads [kind] (peek >>= continuation) Last := by
  intro state holds shows
  exact .step peek_apply (.refl holds) (rest _ holds.covers state holds shows)

theorem leads_peekAhead {kind : TokenKind} {continuation : Token → Parse β}
    (rest : ∀ token : Token, fence.Leads [kind, token.kind] (continuation token) Last) :
    fence.Leads [kind] (peekAhead 1 >>= continuation) Last := by
  intro state holds shows
  exact .step (peekAhead_apply 1) (.refl holds) (rest _ state holds ⟨shows.1, rfl, trivial⟩)

theorem leads_location {continuation : SourceLocation → Parse β}
    (rest : ∀ place, fence.Covers place → fence.Leads known (continuation place) Last) :
    fence.Leads known (location >>= continuation) Last := by
  intro state holds shows
  exact .step location_apply (.refl holds) (rest _ holds.covers state holds shows)

theorem leads_test {kinds : List TokenKind} {test : Parse Bool} {continuation : Bool → Parse β}
    (sees : Sees kinds test) (succeeds : fence.Leads kinds (continuation true) Last)
    (fails : fence.Leads known (continuation false) Last) :
    fence.Leads known (test >>= continuation) Last := by
  intro state holds shows
  obtain ⟨answer, run, seen⟩ := sees context state
  refine .step run (.refl holds) ?_
  cases answer with
  | true => exact succeeds state holds (seen rfl)
  | false => exact fails state holds shows

theorem leads_atPunctuator {punctuator : Punctuator} {continuation : Bool → Parse β}
    (succeeds : fence.Leads [.punctuator punctuator] (continuation true) Last)
    (fails : fence.Leads known (continuation false) Last) :
    fence.Leads known (atPunctuator punctuator >>= continuation) Last :=
  leads_test sees_atPunctuator succeeds fails

theorem leads_atKeyword {word : Keyword} {continuation : Bool → Parse β}
    (succeeds : fence.Leads [.keyword word] (continuation true) Last)
    (fails : fence.Leads known (continuation false) Last) :
    fence.Leads known (atKeyword word >>= continuation) Last :=
  leads_test sees_atKeyword succeeds fails

theorem leads_find {ask : Parse (Option α)} {continuation : Option α → Parse β} (finds : Finds ask)
    (found : ∀ value operator, fence.Leads [.operator operator] (continuation (some value)) Last)
    (missing : fence.Leads known (continuation none) Last) :
    fence.Leads known (ask >>= continuation) Last := by
  intro state holds shows
  obtain ⟨answer, run, isOperator⟩ := finds context state
  refine .step run (.refl holds) ?_
  cases answer with
  | some value =>
    obtain ⟨operator, kind⟩ := isOperator rfl
    exact found value operator state holds ⟨kind, trivial⟩
  | none => exact missing state holds shows

/-! ## Moving past tokens -/

@[simp] theorem admits_keyword (word : Keyword) : fence.Admits (.keyword word) :=
  ⟨by simp, by simp⟩

@[simp] theorem admits_operator (operator : Operator) : fence.Admits (.operator operator) :=
  ⟨by simp, by simp⟩

@[simp] theorem admits_literal (kind : LiteralKind) : fence.Admits (.literal kind) :=
  ⟨by simp, by simp⟩

@[simp] theorem admits_identifier : fence.Admits .identifier := ⟨by simp, by simp⟩

@[simp] theorem admits_punctuator {punctuator : Punctuator} (noBrace : punctuator ≠ .closeBrace)
    (noSemicolon : punctuator ≠ .semicolon) : fence.Admits (.punctuator punctuator) := by
  refine ⟨?_, by simp⟩
  intro same
  cases same
  exact fence.ends.elim noBrace noSemicolon

theorem admits_semicolon (isBrace : fence.mark = .closeBrace) :
    fence.Admits (.punctuator .semicolon) :=
  ⟨by simp [isBrace], by simp⟩

theorem Holds.advance (holds : fence.Holds state)
    (admits : fence.Admits (context.tokens.get state.position).kind) :
    fence.Holds (state.movedTo (state.position + 1)) ∧
      fence.Reach state (state.movedTo (state.position + 1)) := by
  have inside := holds.lt_stop admits.noMark
  refine ⟨holds.movedTo (by omega) inside, .quiet rfl (Nat.le_succ _) ?_⟩
  exact Nat.le_trans inside stop_le_limit

/-- A semicolon may be the fence, and nothing is read behind it. -/
theorem Holds.semicolon (holds : fence.Holds state)
    (ends : (context.tokens.get state.position).kind = .punctuator .semicolon) :
    fence.Reach state (state.movedTo (state.position + 1)) ∧
      fence.Past (state.movedTo (state.position + 1)) := by
  have bounded : state.position + 1 ≤ fence.limit := by
    by_cases atStop : state.position = fence.stop
    · rw [limit, TokenStream.behind, if_pos (atStop ▸ ends)]
      omega
    · have high := holds.high
      exact Nat.le_trans (by omega) stop_le_limit
  exact ⟨.quiet rfl (Nat.le_succ _) bounded, Nat.lt_succ_of_le holds.low, holds.calm⟩

theorem leads_advance {kind : TokenKind} {kinds : List TokenKind} {continuation : Token → Parse β}
    (admits : fence.Admits kind)
    (rest : ∀ token : Token, fence.Covers token.location →
      fence.Leads kinds (continuation token) Last) :
    fence.Leads (kind :: kinds) (advance >>= continuation) Last := by
  intro state holds shows
  obtain ⟨rfl, shows⟩ := shows
  obtain ⟨holdsNext, reach⟩ := holds.advance admits
  have run : Parse.advance context state = .ok (context.tokens.get state.position)
      (state.movedTo (state.position + 1)) := by
    simp [admits.notEnd]
  exact .step run reach (rest _ holds.covers _ holdsNext shows)

theorem confined_advance {kind : TokenKind} {kinds : List TokenKind} (admits : fence.Admits kind) :
    fence.Confined (kind :: kinds) advance := by
  rw [← bind_pure advance]
  exact leads_advance admits fun _ _ => confined_pure

theorem leads_discard_advance {kind : TokenKind} {kinds : List TokenKind}
    {continuation : Unit → Parse β} (admits : fence.Admits kind)
    (rest : fence.Leads kinds (continuation ()) Last) :
    fence.Leads (kind :: kinds) (discard advance >>= continuation) Last := by
  rw [discard_bind]
  exact leads_advance admits fun _ _ => rest

theorem leads_onward {kind : TokenKind} {kinds : List TokenKind} {continuation : Unit → Parse β}
    (admits : fence.Admits kind) (rest : fence.Confined kinds (continuation ())) :
    fence.Leads (kind :: kinds) (discard advance >>= continuation) fun _ next => fence.Onward next := by
  intro state holds ⟨same, shows⟩
  obtain ⟨holdsNext, reach⟩ := holds.advance (same ▸ admits)
  have moved : discard Parse.advance context state = .ok () (state.movedTo (state.position + 1)) := by
    simp [same, admits.notEnd]
  refine .step moved reach ((rest _ holdsNext shows).mono fun _ last later holdsLast => ⟨holdsLast, ?_⟩)
  exact Nat.lt_of_lt_of_le (Nat.lt_succ_of_le holds.low) later.forward

theorem leads_consume {kind : TokenKind} {continuation : Bool → Parse β} (admits : fence.Admits kind)
    (found : fence.Leads [] (continuation true) Last)
    (missing : fence.Leads known (continuation false) Last) :
    fence.Leads known (consume kind >>= continuation) Last := by
  intro state holds shows
  have run : consume kind context state = _ := consume_apply admits.notEnd
  by_cases same : (context.tokens.get state.position).kind = kind
  · rw [if_pos same] at run
    obtain ⟨holdsNext, reach⟩ := holds.advance (same ▸ admits)
    exact .step run reach (found _ holdsNext trivial)
  · rw [if_neg same] at run
    exact .step run (.refl holds) (missing state holds shows)

theorem leads_consumePunctuator {punctuator : Punctuator} {continuation : Bool → Parse β}
    (admits : fence.Admits (.punctuator punctuator))
    (found : fence.Leads [] (continuation true) Last)
    (missing : fence.Leads known (continuation false) Last) :
    fence.Leads known (consumePunctuator punctuator >>= continuation) Last :=
  leads_consume admits found missing

theorem leads_advanceSemicolon {value : β} (found : ∀ next, fence.Past next → Last value next) :
    fence.Leads [.punctuator .semicolon] (discard advance >>= fun _ => pure value) Last := by
  intro state holds ⟨ends, _⟩
  obtain ⟨reach, past⟩ := holds.semicolon ends
  have moved : discard advance context state = .ok () (state.movedTo (state.position + 1)) := by
    simp [ends]
  exact .step moved reach (.of_ok rfl (.quiet rfl (Nat.le_refl _) reach.bounded) (found _ past))

theorem leads_consumeSemicolon {value : β} {other : Parse β}
    (found : ∀ next, fence.Past next → Last value next)
    (missing : fence.Leads known other Last) :
    fence.Leads known (consumePunctuator .semicolon >>= fun found =>
      if found = true then pure value else other) Last := by
  intro state holds shows
  have run : consumePunctuator .semicolon context state = _ := consumePunctuator_apply .semicolon
  by_cases ends : (context.tokens.get state.position).kind = .punctuator .semicolon
  · rw [if_pos ends] at run
    obtain ⟨reach, past⟩ := holds.semicolon ends
    exact .step run reach (.of_ok rfl (.quiet rfl (Nat.le_refl _) reach.bounded) (found _ past))
  · rw [if_neg ends] at run
    exact .step run (.refl holds) (missing state holds shows)

theorem leads_consumed {kind : TokenKind} {continuation : Bool → Parse β} (admits : fence.Admits kind)
    (rest : ∀ found, fence.Leads [] (continuation found) Last) :
    fence.Leads known (consume kind >>= continuation) Last :=
  leads_consume admits (rest true) (rest false).at

theorem leads_consumeInGnu {kind : TokenKind} {continuation : Bool → Parse β}
    (admits : fence.Admits kind) (found : fence.Leads [] (continuation true) Last)
    (missing : fence.Leads known (continuation false) Last) :
    fence.Leads known (consumeInGnu kind >>= continuation) Last := by
  rw [consumeInGnu, bind_assoc]
  refine leads_ask asks_isGnu fun answer => ?_
  cases answer with
  | true => exact leads_consume admits found missing
  | false => exact missing

theorem confined_consumeInGnu {kind : TokenKind} (admits : fence.Admits kind) :
    fence.Confined known (consumeInGnu kind) := by
  rw [← bind_pure (consumeInGnu kind)]
  exact leads_consumeInGnu admits confined_pure confined_pure

/-! ## Problems -/

theorem leads_giveUp {problem : GrammarProblem} (covered : fence.Covers place) :
    fence.Leads known (giveUp place problem : Parse α) Post := by
  intro state holds _
  exact .of_error (giveUp_apply holds.calm place problem) (.report holds covered problem true)
    holds.high

theorem leads_unexpected {what : String} : fence.Leads known (unexpected what : Parse α) Post := by
  rw [unexpected]
  exact leads_peek fun _ covered => leads_giveUp covered

theorem leads_tooDeep : fence.Leads known (Productions.tooDeep : Parse α) Post := by
  rw [Productions.tooDeep]
  exact leads_location fun _ covered => leads_giveUp covered

theorem leads_complain {problem : GrammarProblem} {continuation : Unit → Parse β}
    (covered : fence.Covers place) (rest : fence.Leads known (continuation ()) Last) :
    fence.Leads known (complain place problem >>= continuation) Last :=
  leads_keep (keeps_complain covered) fun _ => rest

theorem confines_expect {kind : TokenKind} {what : String} {continuation : Token → Parse β}
    (holds : fence.Holds state) (notEnd : kind ≠ .endOfFile)
    (found : (context.tokens.get state.position).kind = kind →
      fence.Reach state (state.movedTo (state.position + 1)) ∧
        fence.Confines (continuation (context.tokens.get state.position))
          (state.movedTo (state.position + 1)) Last) :
    fence.Confines (expect kind what >>= continuation) state Last := by
  have run : expect kind what context state = _ := expect_apply what notEnd
  by_cases same : (context.tokens.get state.position).kind = kind
  · rw [if_pos same] at run
    obtain ⟨reach, rest⟩ := found same
    exact .step run reach rest
  · rw [if_neg same, unexpected_apply, giveUp_apply holds.calm] at run
    have gaveUp : (expect kind what >>= continuation) context state = _ := bind_apply _ _
    rw [run] at gaveUp
    exact .of_error gaveUp (.report holds holds.covers _ true) holds.high

theorem confined_expect {kind : TokenKind} {what : String} (admits : fence.Admits kind) :
    fence.Confined known (expect kind what) := by
  intro state holds _
  rw [← bind_pure (expect kind what)]
  refine confines_expect holds admits.notEnd fun same => ?_
  obtain ⟨holdsNext, reach⟩ := holds.advance (same ▸ admits)
  exact ⟨reach, .of_ok rfl (.refl holdsNext) holdsNext⟩

theorem leads_expectKnown {kind : TokenKind} {kinds : List TokenKind} {what : String}
    {continuation : Token → Parse β} (admits : fence.Admits kind)
    (rest : ∀ token, fence.Leads kinds (continuation token) Last) :
    fence.Leads (kind :: kinds) (expect kind what >>= continuation) Last := by
  intro state holds ⟨same, shows⟩
  refine confines_expect holds admits.notEnd fun _ => ?_
  obtain ⟨holdsNext, reach⟩ := holds.advance (same ▸ admits)
  exact ⟨reach, rest _ _ holdsNext shows⟩

theorem confined_expectPunctuator {punctuator : Punctuator} {what : String}
    (admits : fence.Admits (.punctuator punctuator)) :
    fence.Confined known (discard (expectPunctuator punctuator what)) :=
  confined_discard (confined_expect admits)

theorem confined_expectIdentifier : fence.Confined known expectIdentifier :=
  confined_expect admits_identifier

theorem confined_optionalIdentifier : fence.Confined known optionalIdentifier := by
  refine leads_peek fun token _ => leads_ite (fun isName => ?_) fun _ => confined_pure
  have kind : token.kind = .identifier := by simpa using isName
  rw [kind]
  exact confined_map (confined_advance admits_identifier)

theorem confined_expectClosingParen : fence.Confined known expectClosingParen :=
  confined_expectPunctuator (by simp)

theorem leads_expectSemicolon {what : String} :
    fence.Leads known (expectSemicolon what) fun _ next => fence.Past next := by
  intro state holds _
  rw [← bind_pure (expectSemicolon what), expectSemicolon, discard_bind]
  refine confines_expect holds (by simp) fun ends => ?_
  obtain ⟨reach, past⟩ := holds.semicolon ends
  exact ⟨reach, .of_ok rfl (.quiet rfl (Nat.le_refl _) reach.bounded) past⟩

theorem leads_lastSemicolon {what : String} {value : β} :
    fence.Leads known (expectSemicolon what >>= fun _ => pure value) fun _ next => fence.Past next := by
  intro state holds shows
  refine (leads_expectSemicolon state holds shows).bind fun _ next reach past => ?_
  exact .of_ok rfl (.quiet rfl (Nat.le_refl _) reach.bounded) past

theorem confined_expectSemicolon {what : String} (isBrace : fence.mark = .closeBrace) :
    fence.Confined known (expectSemicolon what) :=
  confined_expectPunctuator (admits_semicolon isBrace)

/-! ## Scopes -/

theorem confined_addOrdinary {name : String} : fence.Confined known (addOrdinary name) :=
  keeps_modifyScopes.confined

theorem confined_inNewScope (inside : fence.Confined known production) :
    fence.Confined known (inNewScope production) := by
  intro state holds shows
  have enters := inside (state.rescoped state.scopes.enter) ⟨holds.low, holds.high, holds.calm⟩ shows
  constructor
  · intro value next same
    rw [inNewScope_apply] at same
    split at same
    · rename_i middle after read
      cases same
      obtain ⟨reach, post⟩ := enters.ok _ _ read
      have outside : fence.Reach state after := ⟨reach.forward, reach.bounded, reach.problems⟩
      exact ⟨outside.rescoped _, post.low, post.high, post.calm⟩
    · cases same
  · intro reason next same
    rw [inNewScope_apply] at same
    split at same
    · cases same
    · rename_i reason after read
      cases same
      obtain ⟨reach, high⟩ := enters.error _ _ read
      have outside : fence.Reach state after := ⟨reach.forward, reach.bounded, reach.problems⟩
      exact ⟨outside.rescoped _, high⟩

end Fence

end CFrontEnd
