import CFrontEnd.Proofs.Recovery.Brackets

/-!
Productions that keep what they have read where they are not completed, and parsing on behind them:
inside of braces parsing resumes in front of the closing brace, and elsewhere behind the semicolon at
the latest.
-/

namespace CFrontEnd

open Parse

namespace Fence

variable {α β : Type} {context : ParseContext} {fence : Fence context} {known : List TokenKind}
  {production : Parse α} {state next : ParseState} {start : Nat} {items : Items}
  {Post : α → ParseState → Prop} {Last : β → ParseState → Prop}

/-- Without a problem the state is in front of the fence, and with one it is not behind it. -/
structure Kept (fence : Fence context) (items : Items) (next : ParseState) : Prop where
  high : next.position ≤ fence.stop
  calm : items.completed = true → next.panicking = false

/-- Items that are completed may have used up the semicolon that the fence is. -/
structure Ended (fence : Fence context) (Done : ParseState → Prop) (items : Items)
    (next : ParseState) : Prop where
  high : items.completed = false → next.position ≤ fence.stop
  done : items.completed = true → Done next

theorem Leads.mono {Weaker : α → ParseState → Prop} (leads : fence.Leads known production Post)
    (weaken : ∀ value next, next.position ≤ fence.limit → Post value next → Weaker value next) :
    fence.Leads known production Weaker :=
  fun state holds shows =>
    (leads state holds shows).mono fun value next reach => weaken value next reach.bounded

theorem Leads.kept {production : Parse Items}
    (leads : fence.Leads known production (fence.Ended fence.Past))
    (isBrace : fence.mark = .closeBrace) : fence.Leads known production fence.Kept := by
  refine leads.mono fun value next bounded ended => ⟨?_, fun completed => (ended.done completed).calm⟩
  rwa [limit_eq_stop isBrace] at bounded

/-- In front of a closing brace there is no further place than the fence. -/
theorem Leads.confined (leads : fence.Leads known production fun _ next => fence.Past next)
    (isBrace : fence.mark = .closeBrace) : fence.Confined known production := by
  intro state holds shows
  refine (leads state holds shows).mono fun value next reach past => reach.holds holds ?_ past.calm
  rw [← limit_eq_stop isBrace]
  exact reach.bounded

/-! ## Productions with a problem in them -/

theorem Confines.attempt {continuation : Option α → Parse β}
    (inside : fence.Confines production state Post)
    (found : ∀ value next, fence.Reach state next → Post value next →
      fence.Confines (continuation (some value)) next Last)
    (missing : ∀ next, fence.Reach state next → next.position ≤ fence.stop →
      fence.Confines (continuation none) next Last) :
    fence.Confines (attempt production >>= continuation) state Last := by
  have outcome : fence.Confines (Parse.attempt production) state fun answer next =>
      (∀ value, answer = some value → Post value next) ∧
        (answer = none → next.position ≤ fence.stop) := by
    cases ran : production context state with
    | ok value next =>
      obtain ⟨reach, post⟩ := inside.ok _ _ ran
      have run : Parse.attempt production context state = .ok (some value) next := by
        simp [Parse.attempt, ran]
      refine .of_ok run reach ⟨?_, by simp⟩
      rintro _ ⟨⟩
      exact post
    | error reason next =>
      obtain ⟨reach, high⟩ := inside.error _ _ ran
      have run : Parse.attempt production context state = .ok none next := by
        simp [Parse.attempt, ran]
      exact .of_ok run reach ⟨by simp, fun _ => high⟩
  refine outcome.bind ?_
  rintro answer next reach ⟨present, absent⟩
  cases answer with
  | some value => exact found value next reach (present value rfl)
  | none => exact missing next reach (absent rfl)

theorem leads_single {production : Parse Node} {Done : ParseState → Prop}
    (leads : fence.Leads known production fun _ next => Done next) :
    fence.Leads known (single production) (fence.Ended Done) := by
  intro state holds shows
  refine (leads state holds shows).bind fun node next reach done => ?_
  exact .of_ok rfl (.quiet rfl (Nat.le_refl _) reach.bounded) ⟨by simp, fun _ => done⟩

theorem confines_thenFinish {finish : Parse Unit} {Done : ParseState → Prop}
    (kept : fence.Kept items state) (low : fence.first ≤ state.position)
    (leads : fence.Leads [] finish fun _ next => Done next) :
    fence.Confines (thenFinish items finish) state (fence.Ended Done) := by
  have bounded : state.position ≤ fence.limit := Nat.le_trans kept.high stop_le_limit
  have still : fence.Reach state state := .quiet rfl (Nat.le_refl _) bounded
  unfold thenFinish
  cases completed : items.completed with
  | false => exact .of_ok rfl still ⟨fun _ => kept.high, by simp [completed]⟩
  | true =>
    have holds : fence.Holds state := ⟨low, kept.high, kept.calm completed⟩
    refine Confines.attempt (leads.run holds) ?_ ?_
    · intro _ next reach done
      exact .of_ok rfl (.quiet rfl (Nat.le_refl _) reach.bounded)
        ⟨by simp [completed], fun _ => done⟩
    · intro next reach high
      exact .of_ok rfl (.quiet rfl (Nat.le_refl _) reach.bounded) ⟨fun _ => high, by simp⟩

theorem leads_thenFinish {production : Parse Items} {finish : Parse Unit} {Done : ParseState → Prop}
    (first : fence.Leads known production fence.Kept)
    (leads : fence.Leads [] finish fun _ next => Done next) :
    fence.Leads known (production >>= fun items => thenFinish items finish) (fence.Ended Done) := by
  intro state holds shows
  refine (first state holds shows).bind fun items next reach kept => ?_
  exact confines_thenFinish kept (Nat.le_trans holds.low reach.forward) leads

theorem leads_separatedItems {item : Parse Node} (inside : fence.Confined [] item) :
    fence.Leads known (separatedItems item) fence.Kept := by
  refine leads_iterate fun items state holds _ => ?_
  refine Confines.attempt (inside.run holds) ?_ ?_
  · intro node next _ holds
    refine Leads.run (leads_consumePunctuator (by simp) (leads_pure ?_) (leads_pure ?_)) holds
    · intro state holds
      exact .of_yield holds ⟨holds.high, fun _ => holds.calm⟩
    · intro state holds
      exact .of_done ⟨holds.high, fun _ => holds.calm⟩
  · intro next reach high
    exact .of_ok rfl (.quiet rfl (Nat.le_refl _) reach.bounded) (.of_done ⟨high, by simp⟩)

theorem confined_completed {production : Parse Items}
    (leads : fence.Leads known production fence.Kept) :
    fence.Confined known (completed production) := by
  intro state holds shows
  refine (leads state holds shows).bind fun items next reach kept => ?_
  have still : fence.Reach next next := .quiet rfl (Nat.le_refl _) reach.bounded
  cases completed : items.completed with
  | true => exact .of_ok rfl still (reach.holds holds kept.high (kept.calm completed))
  | false => exact .of_error rfl still kept.high

/-! ## Resuming -/

/-- From an item that is not the fence parsing goes on behind where the item began. -/
theorem confines_recoverFrom (low : fence.first ≤ start) (behind : start ≤ state.position)
    (high : state.position ≤ fence.stop)
    (notEnd : (context.tokens.get start).kind ≠ .endOfFile)
    (below : start = fence.stop → fence.mark = .semicolon) :
    fence.Confines (recoverFrom start) state fun _ next =>
      next.panicking = false ∧ start < next.position := by
  have isMark := fence.isMark
  have ends := fence.ends
  let place := context.tokens.resumption state.position 0 state.position
  have forward : state.position ≤ place := context.tokens.le_resumption _ _ _
  have bounded : place ≤ fence.limit := by
    refine TokenStream.resumption_le_behind fence.closed (by omega) high ?_
    simpa [isMark] using ends
  let resumed : ParseState := { state with position := place, panicking := false }
  have moves : synchronize context state = .ok () resumed := rfl
  refine .step moves (.quiet rfl forward bounded) ?_
  have asked : Parse.position context resumed = .ok place resumed := rfl
  refine .step asked (.quiet rfl (Nat.le_refl _) bounded) ?_
  -- Where parsing would resume at the item itself, it is one token further.
  by_cases same : place = start
  · have here : state.position = start := by omega
    have inside : start < fence.stop := by
      refine Nat.lt_of_le_of_ne (by omega) fun atStop => ?_
      rw [← atStop, below atStop, ← here] at isMark
      have passed : place = state.position + 1 := TokenStream.resumption_semicolon isMark
      omega
    have advanced : discard advance context resumed = .ok () (resumed.movedTo (start + 1)) := by
      simp [resumed, same, notEnd]
    rw [if_pos same]
    refine .of_ok advanced (.quiet rfl (by simp [resumed]; omega) ?_) ⟨rfl, Nat.lt_succ_self _⟩
    exact Nat.le_trans inside stop_le_limit
  · rw [if_neg same]
    have later : start < place := by omega
    exact .of_ok rfl (.quiet rfl (Nat.le_refl _) bounded) ⟨rfl, later⟩

/-- An item that is completed leads on as it says, and one that is not leads to where parsing
resumes. -/
theorem confines_recoveringStep {stops : Token → Bool} {item : Parse Items} {nodes : Array Node}
    {Good : ParseState → Prop} (holds : fence.Holds state)
    (inside : fence.Confines item state (fence.Ended fun next => next.panicking = false ∧ Good next))
    (recovers : ∀ next, state.position < next.position → Good next)
    (notEnd : (context.tokens.get state.position).kind ≠ .endOfFile)
    (goesOn : stops (context.tokens.get state.position) = false)
    (below : state.position = fence.stop → fence.mark = .semicolon) :
    fence.Confines (recoveringStep stops item nodes) state fun outcome next =>
      next.panicking = false ∧ Good next ∧ ∃ more, outcome = .yield more := by
  have resumes : ∀ (next : ParseState) (more : Array Node), fence.Reach state next →
      next.position ≤ fence.stop →
      fence.Confines (recoverFrom state.position >>= fun _ => pure (.yield more)) next
        fun (outcome : ForInStep (Array Node)) next =>
          next.panicking = false ∧ Good next ∧ ∃ more, outcome = .yield more := by
    intro next more reach high
    refine (confines_recoverFrom holds.low reach.forward high notEnd below).bind ?_
    rintro _ last later ⟨calm, further⟩
    exact .of_ok rfl (.quiet rfl (Nat.le_refl _) later.bounded) ⟨calm, recovers last further, _, rfl⟩
  unfold recoveringStep
  refine .step peek_apply (.refl holds) ?_
  rw [if_neg (by simp [notEnd, goesOn])]
  have asked : Parse.position context state = .ok state.position state := rfl
  refine .step asked (.refl holds) (inside.attempt ?_ ?_)
  · intro items next reach ended
    cases completed : items.completed with
    | true =>
      simp only [Option.getD_some, completed, Bool.not_true]
      exact .of_ok rfl (.quiet rfl (Nat.le_refl _) reach.bounded)
        ⟨(ended.done completed).1, (ended.done completed).2, _, rfl⟩
    | false =>
      simp only [Option.getD_some, completed, Bool.not_false]
      exact resumes next _ reach (ended.high completed)
  · intro next reach high
    exact resumes next _ reach high

/-- In front of a closing brace items are read until the brace. -/
theorem confined_recoveringItems {stops : Token → Bool} {item : Parse Items}
    (isBrace : fence.mark = .closeBrace)
    (stopsThere : ∀ token : Token, token.kind = .punctuator .closeBrace → stops token = true)
    (inside : fence.Leads [] item (fence.Ended fun next => next.panicking = false)) :
    fence.Confined known (recoveringItems stops item) := by
  rw [recoveringItems_eq]
  refine confined_iterate fun nodes state holds _ => ?_
  by_cases stopped : (context.tokens.get state.position).kind = .endOfFile ∨
      stops (context.tokens.get state.position) = true
  · have run : recoveringStep stops item nodes context state = .ok (.done nodes) state := by
      rcases stopped with ends | stopped
      · simp [recoveringStep, ends]
      · simp [recoveringStep, stopped]
    exact .of_ok run (.refl holds) holds
  · obtain ⟨notEnd, goesOn⟩ := not_or.mp stopped
    have ended : fence.Confines item state (fence.Ended fun next => next.panicking = false ∧ True) :=
      (inside.run holds).mono fun _ _ _ post => ⟨post.high, fun done => ⟨post.done done, trivial⟩⟩
    have below : state.position = fence.stop → fence.mark = .semicolon := by
      intro atStop
      have isMark := fence.isMark
      rw [← atStop, isBrace] at isMark
      exact absurd (stopsThere _ isMark) goesOn
    have step : fence.Confines (recoveringStep stops item nodes) state fun outcome next =>
        next.panicking = false ∧ True ∧ ∃ more, outcome = .yield more :=
      confines_recoveringStep holds ended (fun _ _ => trivial) notEnd (by simpa using goesOn) below
    refine step.mono fun outcome next reach post => reach.holds holds ?_ post.1
    rw [← limit_eq_stop isBrace]
    exact reach.bounded

end Fence

end CFrontEnd
