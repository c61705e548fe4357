import CFrontEnd.Proofs.Conduct.Catalogue
import CFrontEnd.Proofs.Grammar.Operators

/-!
Parsing comes to an end. No production goes back or past the end of the file, those that read something
use up a token, and so do the items that parsing resumes between. What bounds a repetition in the
definitions never ends one.
-/

namespace CFrontEnd

open Parse Productions TokenStream

variable {context : ParseContext} {level : Productions}

/-! ## Bounds that are never met -/

namespace TokenStream

variable {stream : TokenStream} {position : Nat}

/-- The place behind the attribute at `position`, if one begins there, and whether it is closed. -/
def behindAttribute? (stream : TokenStream) (position : Nat) : Option (Nat × Bool) :=
  if (stream.get position).isKeyword .attributeWord
      && (stream.get (position + 1)).isPunctuator .openParen then
    some (stream.afterBalanced .openParen .closeParen 0 (position + 1))
  else if stream.startsBrackets position then
    some (stream.afterBalanced .openBracket .closeBracket 0 position)
  else none

theorem remaining_behindAttribute {next : Nat}
    (found : stream.behindAttribute? position = some (next, true)) :
    stream.remaining next < stream.remaining position := by
  have forward : position < next ∧ (stream.get position).kind ≠ .endOfFile := by
    unfold behindAttribute? at found
    split at found
    · rename_i begins
      have closed := (afterBalanced_forward stream .openParen .closeParen 0 (position + 1)).2
      rw [Option.some.inj found] at closed
      have isWord : (stream.get position).kind = .keyword .attributeWord := by
        rw [Bool.and_eq_true] at begins
        simpa using begins.1
      exact ⟨Nat.lt_of_succ_lt (closed rfl), by simp [isWord]⟩
    · split at found
      · rename_i _ begins
        have closed := (afterBalanced_forward stream .openBracket .closeBracket 0 position).2
        rw [Option.some.inj found] at closed
        have isBracket : (stream.get position).kind = .punctuator .openBracket := by
          rw [startsBrackets, Bool.and_eq_true] at begins
          simpa using begins.1
        exact ⟨closed rfl, by simp [isBracket]⟩
      · cases found
  have inside := lt_size_of_kind forward.2
  unfold remaining length
  omega

/-- Attributes are passed over one by one as long as they are closed; nothing else ends that. -/
theorem afterAttributes_eq (stream : TokenStream) (position : Nat) :
    stream.afterAttributes position =
      match stream.behindAttribute? position with
      | none => position
      | some (next, true) => stream.afterAttributes next
      | some (next, false) => next := by
  rw [afterAttributes, ← behindAttribute?]
  cases found : stream.behindAttribute? position with
  | none => rfl
  | some reached =>
    obtain ⟨next, closed⟩ := reached
    cases closed with
    | true => simp [remaining_behindAttribute found]
    | false => simp

end TokenStream

namespace Parse

variable {α : Type} {step other : α → Parse (ForInStep α)}

/-- Repetitions whose steps agree where so many tokens are left agree there. -/
theorem repeatFrom_congr {bound : Nat}
    (same : ∀ value (state : ParseState), state.remaining context ≤ bound →
      step value context state = other value context state)
    (value : α) (state : ParseState) (within : state.remaining context ≤ bound) :
    repeatFrom step value context state = repeatFrom other value context state := by
  fun_induction repeatFrom step value context state with
  | case1 value state result next ran =>
    rw [same value state within] at ran
    exact (repeatFrom_done ran).symm
  | case2 value state result next ran progress ih =>
    rw [same value state within] at ran
    rw [repeatFrom_yield ran progress]
    exact ih (by omega)
  | case3 value state result next ran stalls =>
    rw [same value state within] at ran
    rw [repeatFrom, ran]
    exact (if_neg stalls).symm
  | case4 value state reason next ran =>
    rw [same value state within] at ran
    exact (repeatFrom_error ran).symm

end Parse

theorem remaining_cast (inside : level.Conducted context) {state next : ParseState} {node : Node}
    (read : level.cast context state = .ok node next) :
    next.remaining context < state.remaining context := by
  have proceeds : Proceeds context [] level.cast 1 := inside.cast
  obtain ⟨reached, further⟩ := proceeds.run.ok node next read
  exact reached.passed.remaining_lt further

theorem binaryStep_bound {steps more bound : Nat}
    (same : ∀ least (state : ParseState), state.remaining context ≤ bound →
      binaryWithin level steps least context state = binaryWithin level more least context state)
    (least : Nat) (left : Node) (state : ParseState) (within : state.remaining context ≤ bound) :
    binaryStep level steps least left context state =
      binaryStep level more least left context state := by
  have finds : Finds (atBinary? least) := finds_atBinary?
  obtain ⟨answer, run, isOperator⟩ := finds context state
  cases answer with
  | none => simp [binaryStep, run]
  | some answer =>
    obtain ⟨operator, rightLevel⟩ := answer
    obtain ⟨_, kind⟩ := isOperator rfl
    have later : (state.movedTo (state.position + 1)).remaining context ≤ bound := by
      unfold ParseState.remaining TokenStream.remaining at *
      simp only [ParseState.position_movedTo]
      omega
    simp [binaryStep, run, kind, same rightLevel _ later]

/-- Where no token is left no operand is read, so that it does not matter how many steps there
are. -/
theorem binaryWithin_end (inside : level.Conducted context) {state : ParseState}
    (noneLeft : state.remaining context = 0) (steps least : Nat) :
    binaryWithin level steps least context state = level.cast context state := by
  cases steps with
  | zero => rfl
  | succ steps =>
    rw [binaryWithin_succ, bind_apply]
    cases read : level.cast context state with
    | error reason next => rfl
    | ok node next =>
      have fewer := remaining_cast inside read
      omega

/-- What stands between operands is read in the same way whatever bounds the steps, as long as the
tokens that are left are no more than that. -/
theorem binaryWithin_bound (inside : level.Conducted context) {steps more : Nat} (least : Nat)
    (state : ParseState) (enough : state.remaining context ≤ steps)
    (alsoEnough : state.remaining context ≤ more) :
    binaryWithin level steps least context state = binaryWithin level more least context state := by
  -- On the steps, of which one is spent on an operand: reading that leaves fewer tokens, so that
  -- one step fewer is still enough for what stands behind it.
  induction steps generalizing more least state with
  | zero =>
    have noneLeft : state.remaining context = 0 := by omega
    rw [binaryWithin_end inside noneLeft, binaryWithin_end inside noneLeft]
  | succ steps ih =>
    cases more with
    | zero =>
      have noneLeft : state.remaining context = 0 := by omega
      rw [binaryWithin_end inside noneLeft, binaryWithin_end inside noneLeft]
    | succ more =>
      rw [binaryWithin_succ, binaryWithin_succ, bind_apply, bind_apply]
      cases read : level.cast context state with
      | error reason next => rfl
      | ok node next =>
        have fewer := remaining_cast inside read
        refine repeatFrom_congr (fun left state within => ?_) node next (Nat.le_refl _)
        refine binaryStep_bound (fun least state within => ?_) least left state within
        exact ih least state (by omega) (by omega)

/-! ## Items that parsing resumes between -/

/-- The three loops that resume behind items that were not completed: the tokens that end each of them,
and its items. -/
inductive IsRecovered (level : Productions) : (Token → Bool) → Parse Items → Prop
  | wholeText : IsRecovered level (fun _ => false) (externalDeclaration level)
  | block : IsRecovered level endsBlock (blockItem level)
  | members : IsRecovered level endsBlock (memberDeclaration level)

theorem IsRecovered.leads {stops : Token → Bool} {item : Parse Items}
    (isRecovered : IsRecovered level stops item) (inside : level.Conducted context) :
    Leads context [] item (.items 1) := by
  cases isRecovered with
  | wholeText => exact leads_externalDeclaration inside
  | block => exact leads_blockItem inside
  | members => exact leads_memberDeclaration inside

/-- Each round at a token that does not end the loop goes on to another one further on. -/
theorem recoveringStep_further {stops : Token → Bool} {item : Parse Items} {nodes : Array Node}
    {state : ParseState} (inside : Leads context [] item (.items 1))
    (notEnd : (context.tokens.get state.position).kind ≠ .endOfFile)
    (goesOn : stops (context.tokens.get state.position) = false) :
    ∃ more next, recoveringStep stops item nodes context state = .ok (.yield more) next ∧
      state.position < next.position := by
  obtain ⟨more, next, run⟩ := recoveringStep_yields notEnd goesOn
  have step : Leads context [] (recoveringStep stops item nodes) (Use.atLeast 0).step :=
    leads_recoveringStep inside
  exact ⟨more, next, run, (step.run.ok _ _ run).2⟩

/-! ## Going forward -/

/-- What a production does with the place, wherever it starts: it goes back over no token and past no end
of file, ends no repetition from outside, and uses up so many tokens if it has a result. -/
structure Advances {α : Type} (production : Parse α) (least : Nat) (context : ParseContext)
    (state : ParseState) : Prop where
  forward : state.position ≤ (production.leaves context state).position
  withinText : ∀ stop, (context.tokens.get stop).kind = .endOfFile → state.position ≤ stop →
    (production.leaves context state).position ≤ stop
  unstalled : (production.leaves context state).stalled = state.stalled
  further : ∀ value next, production context state = .ok value next →
    state.position + least ≤ next.position

theorem Passed.le_end {before after : ParseState} (passed : Passed context before after) {stop : Nat}
    (ends : (context.tokens.get stop).kind = .endOfFile) (low : before.position ≤ stop) :
    after.position ≤ stop :=
  Nat.le_of_not_lt fun past => passed.inside stop low past ends

theorem Proceeds.advances {α : Type} {production : Parse α} {least : Nat}
    (proceeds : Proceeds context [] production least) (state : ParseState) :
    Advances production least context state := by
  have runs : Runs context state production state (.atLeast least) := Leads.run proceeds
  refine ⟨runs.leaves.forward, fun _ => runs.leaves.le_end, runs.leaves.unstalled, ?_⟩
  exact fun value next run => (runs.ok value next run).2

theorem wholeRule_advances (name : String) (state : ParseState) :
    Advances (wholeRule name) 0 context state := by
  have passed : Passed context state ((wholeRule name).leaves context state) :=
    wholeRule_leaves name state
  refine ⟨passed.forward, fun _ => passed.le_end, passed.unstalled, fun value next run => ?_⟩
  have same : (wholeRule name).leaves context state = next := by simp [Parse.leaves, run]
  exact same ▸ passed.forward

end CFrontEnd
