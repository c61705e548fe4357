import CFrontEnd.Proofs.Conduct.Catalogue
import CFrontEnd.Proofs.Grammar.Start

/-!
Scopes that are entered are left again, also where a production gives up in them. What is declared
changes the innermost scope only.
-/

namespace CFrontEnd

open Parse Productions

variable {context : ParseContext} {level : Productions}

/-! ## Productions that leave all scopes as they are -/

/-- The production leaves the scopes exactly as it found them. -/
def KeepsScopes {α : Type} (context : ParseContext) (production : Parse α) : Prop :=
  ∀ state, (production.leaves context state).scopes = state.scopes

section Composition

variable {α β : Type} {production : Parse α} {continuation : α → Parse β}

theorem keepsScopes_pure {value : α} : KeepsScopes context (pure value) := fun _ => rfl

theorem keepsScopes_bind (first : KeepsScopes context production)
    (rest : ∀ value, KeepsScopes context (continuation value)) :
    KeepsScopes context (production >>= continuation) := by
  intro state
  have kept := first state
  unfold Parse.leaves at kept ⊢
  rw [bind_apply]
  cases run : production context state with
  | ok value next =>
    rw [run] at kept
    have restKept := rest value next
    unfold Parse.leaves at restKept
    exact restKept.trans kept
  | error reason next =>
    rw [run] at kept
    exact kept

theorem keepsScopes_map {change : α → β} (kept : KeepsScopes context production) :
    KeepsScopes context (change <$> production) := by
  rw [← bind_pure_comp]
  exact keepsScopes_bind kept fun _ => keepsScopes_pure

theorem keepsScopes_ite {condition : Prop} [Decidable condition] {other : Parse α}
    (holds : KeepsScopes context production) (fails : KeepsScopes context other) :
    KeepsScopes context (if condition then production else other) := by
  split
  · exact holds
  · exact fails

theorem keepsScopes_ask (asks : Asks production) : KeepsScopes context production := by
  intro state
  obtain ⟨value, run⟩ := asks context state
  unfold Parse.leaves
  rw [run]

theorem keepsScopes_advance : KeepsScopes context advance := by
  intro state
  unfold Parse.leaves
  rw [advance_apply]
  dsimp only
  split <;> rfl

theorem keepsScopes_giveUp {place : SourceLocation} {problem : GrammarProblem} :
    KeepsScopes context (giveUp place problem : Parse α) := by
  intro state
  unfold Parse.leaves giveUp
  cases state.panicking <;> rfl

theorem keepsScopes_expect {kind : TokenKind} {what : String} :
    KeepsScopes context (expect kind what) := by
  refine keepsScopes_bind (keepsScopes_ask asks_peek) fun _ => keepsScopes_ite keepsScopes_advance ?_
  exact keepsScopes_bind (keepsScopes_ask asks_peek) fun _ => keepsScopes_giveUp

/-- What is entered is left again, with or without a result, if inside the scopes around the innermost
one are kept. -/
theorem keepsScopes_inNewScope {least : Nat} (inside : Proceeds context [] production least) :
    KeepsScopes context (inNewScope production) := by
  intro state
  have runs : Runs context (state.rescoped state.scopes.enter) production
      (state.rescoped state.scopes.enter) (.atLeast least) := Leads.run inside
  have restored := runs.leaves.inNewScope.2
  unfold Parse.leaves at restored ⊢
  rw [inNewScope_apply]
  cases run : production context (state.rescoped state.scopes.enter) with
  | ok value next =>
    rw [run] at restored
    exact restored
  | error reason next =>
    rw [run] at restored
    exact restored

end Composition

theorem keepsScopes_block (inside : level.Conducted context) : KeepsScopes context (block level) := by
  have items : Proceeds context []
      (recoveringItems (fun token => token.isPunctuator .closeBrace) (blockItem level)) 0 :=
    proceeds_recoveringItems (leads_blockItem inside)
  refine keepsScopes_bind keepsScopes_expect fun _ => ?_
  refine keepsScopes_bind (keepsScopes_inNewScope items) fun _ => ?_
  exact keepsScopes_bind (keepsScopes_map keepsScopes_expect) fun _ => keepsScopes_pure

theorem keepsScopes_functionDerivation (inside : level.Conducted context) :
    KeepsScopes context (functionDerivation level) := by
  have list : Proceeds context [] (parameterList level) 0 := proceeds_parameterList inside
  refine keepsScopes_bind (keepsScopes_ask asks_location) fun _ => ?_
  refine keepsScopes_bind (keepsScopes_map keepsScopes_advance) fun _ => ?_
  exact keepsScopes_bind (keepsScopes_inNewScope list) fun _ => keepsScopes_pure

theorem keepsScopes_forLoop (inside : level.Conducted context) :
    KeepsScopes context (forLoop level) :=
  keepsScopes_bind keepsScopes_advance fun _ => keepsScopes_inNewScope (proceeds_forScope inside)

/-! ## All productions -/

/-- Whatever a production comes to, the scopes around the innermost one are as they were, and blocks,
loops that may declare and lists of parameters leave all scopes as they were. So a rule that starts in
the file scope ends there. -/
theorem scopes_restored (context : ParseContext) (levels : Nat) :
    (∀ {α : Type} (production : Parse α) (least : Nat),
      IsProduction (ofLevels levels) production least → ∀ state,
        (production.leaves context state).scopes.outer = state.scopes.outer ∧
        (production.leaves context state).scopes.depth = state.scopes.depth) ∧
    KeepsScopes context (block (ofLevels levels)) ∧
    KeepsScopes context (forLoop (ofLevels levels)) ∧
    KeepsScopes context (functionDerivation (ofLevels levels)) ∧
    ∀ name diagnostics,
      ((wholeRule name).leaves context (.first diagnostics)).scopes.depth = 1 := by
  have inside : Conducted context (ofLevels levels) := conducted_ofLevels levels
  refine ⟨?_, keepsScopes_block inside, keepsScopes_forLoop inside,
    keepsScopes_functionDerivation inside, ?_⟩
  · intro α production least isProduction state
    have runs : Runs context state production state (.atLeast least) :=
      Leads.run (isProduction.proceeds inside)
    have outer := runs.leaves.outer
    exact ⟨outer, by rw [ScopeStack.depth, outer]; rfl⟩
  · intro name diagnostics
    have passed : Passed context (.first diagnostics)
        ((wholeRule name).leaves context (.first diagnostics)) := wholeRule_leaves name _
    rw [ScopeStack.depth, passed.outer]
    rfl

end CFrontEnd
