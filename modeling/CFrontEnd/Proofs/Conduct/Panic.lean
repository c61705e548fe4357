import CFrontEnd.Proofs.Conduct.Catalogue

/-!
Whether parsing is in panic follows from what a production comes to. Outside of a panic a result leaves
none and giving up leaves one, with the problem that it is for recorded.
-/

namespace CFrontEnd

open Parse Productions

variable {context : ParseContext}

/-- What a production does to problems and panic, where it starts outside of a panic. -/
structure KeepsOrder {α : Type} (production : Parse α) (context : ParseContext) (state : ParseState) :
    Prop where
  calm : ∀ value next, production context state = .ok value next → next.panicking = false
  alarmed : ∀ reason next, production context state = .error reason next →
    next.panicking = true ∧ state.Complains next
  recorded : state.diagnostics.toList <+: (production.leaves context state).diagnostics.toList
  undropped : (production.leaves context state).dropped = state.dropped

theorem Proceeds.keepsOrder {α : Type} {production : Parse α} {least : Nat}
    (proceeds : Proceeds context [] production least) {state : ParseState}
    (calm : state.panicking = false) : KeepsOrder production context state := by
  have runs : Runs context state production state (.atLeast least) := Leads.run proceeds
  refine ⟨?_, ?_, runs.leaves.recorded, ?_⟩
  · intro value next run
    exact ((runs.ok value next run).1.calm calm).1
  · intro reason next run
    obtain ⟨alarmed, _, complains⟩ := (runs.error reason next run).alarmed calm
    exact ⟨alarmed, complains⟩
  · unfold Parse.leaves
    split
    · rename_i value next run
      exact ((runs.ok value next run).1.calm calm).2
    · rename_i reason next run
      exact ((runs.error reason next run).alarmed calm).2.1

/-- The problems of the later state begin with those of the earlier one, and one of the others is a
problem with the grammar or one of the front end itself. -/
def ParseState.ComplainsOrFails (before after : ParseState) : Prop :=
  ∃ new, after.diagnostics.toList = before.diagnostics.toList ++ new ∧
    ∃ diagnostic ∈ new, diagnostic.kind = .grammatical ∨ diagnostic.kind = .internal

theorem wholeRule_complains {name : String} {state next : ParseState} {reason : GivenUp}
    (calm : state.panicking = false) (gaveUp : wholeRule name context state = .error reason next) :
    state.ComplainsOrFails next := by
  rcases wholeRule_cases name state with runs | ⟨place, message, run⟩
  · obtain ⟨_, _, new, same, diagnostic, member, kind⟩ := (runs.error _ _ gaveUp).alarmed calm
    exact ⟨new, same, diagnostic, member, .inl kind⟩
  · rw [run] at gaveUp
    cases gaveUp
    refine ⟨[⟨.internal, place, message⟩], ?_, _, List.mem_singleton.mpr rfl, .inr rfl⟩
    exact Diagnostics.toList_report _ _ _ _

theorem wholeRule_undropped (name : String) {state : ParseState} (calm : state.panicking = false) :
    ((wholeRule name).leaves context state).dropped = state.dropped := by
  rcases wholeRule_cases name state with runs | ⟨place, message, run⟩
  · unfold Parse.leaves
    split
    · rename_i value next run
      exact ((runs.ok value next run).1.calm calm).2
    · rename_i reason next run
      exact ((runs.error reason next run).alarmed calm).2.1
  · unfold Parse.leaves
    rw [run]

/-- Without a tree there is a problem that says why. -/
theorem parseRule_complains {language : Language} {name : String} {tokens : TokenStream}
    {diagnostics : Diagnostics} (noTree : (language.parseRule name tokens diagnostics).1 = none) :
    ∃ new, (language.parseRule name tokens diagnostics).2.toList = diagnostics.toList ++ new ∧
      ∃ diagnostic ∈ new, diagnostic.kind = .grammatical ∨ diagnostic.kind = .internal := by
  unfold Language.parseRule Language.run at *
  split at noTree
  · cases noTree
  · rename_i reason next gaveUp
    exact wholeRule_complains rfl gaveUp

/-- Outside of a panic every production leaves a panic behind exactly where it gives up, with the problem
recorded behind the earlier ones, so that no problem is met in panic. A rule that leads to no tree has a
problem of the grammar or of the front end recorded. -/
theorem panic_follows_outcome (context : ParseContext) (levels : Nat) :
    (∀ {α : Type} (production : Parse α) (least : Nat),
      IsProduction (ofLevels levels) production least → ∀ state, state.panicking = false →
        KeepsOrder production context state) ∧
    (∀ name (state : ParseState), state.panicking = false →
      state.diagnostics.toList <+: ((wholeRule name).leaves context state).diagnostics.toList ∧
      ((wholeRule name).leaves context state).dropped = state.dropped ∧
      ∀ reason next, wholeRule name context state = .error reason next →
        state.ComplainsOrFails next) ∧
    ∀ (language : Language) name tokens diagnostics,
      (language.parseRule name tokens diagnostics).1 = none →
      ∃ new, (language.parseRule name tokens diagnostics).2.toList = diagnostics.toList ++ new ∧
        ∃ diagnostic ∈ new, diagnostic.kind = .grammatical ∨ diagnostic.kind = .internal := by
  refine ⟨?_, ?_, fun _ _ _ _ => parseRule_complains⟩
  · intro α production least isProduction state calm
    exact (isProduction.proceeds (conducted_ofLevels levels)).keepsOrder calm
  · intro name state calm
    exact ⟨(wholeRule_leaves name state).recorded, wholeRule_undropped name calm,
      fun reason next => wholeRule_complains calm⟩

end CFrontEnd
