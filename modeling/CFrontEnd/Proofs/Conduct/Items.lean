import CFrontEnd.Proofs.Conduct.Rules
import CFrontEnd.Proofs.Grammar.Statements

/-!
Productions that keep what they have read where they are not completed, and parsing on behind them. Items
that are not completed stand for giving up; behind them parsing resumes further on, out of the panic.
-/

namespace CFrontEnd

open Parse TokenStream

variable {α β : Type} {context : ParseContext} {known : List TokenKind} {production : Parse α}
  {before state next : ParseState} {use : Use α} {last : Use β} {count : Nat}

namespace Use

/-- Items that are not completed stand for a problem. -/
def items (count : Nat) : Use Items := fun items => if items.completed then some count else none

theorem less_items (count used : Nat) : (items count).less used = items (count - used) := by
  funext items
  cases completed : items.completed <;> simp [less, Use.items, completed]

/-- Nothing in the place of a result stands for a problem. -/
def attempted (use : Use α) : Use (Option α)
  | some value => use value
  | none => none

end Use

theorem leads_attempt (leads : Leads context known production use) :
    Leads context known (attempt production) use.attempted := by
  intro state shows
  have runs := leads state shows
  cases ran : production context state with
  | ok value next =>
    have run : attempt production context state = .ok (some value) next := by simp [attempt, ran]
    exact .of_ok run (runs.ok _ _ ran)
  | error reason next =>
    have run : attempt production context state = .ok none next := by simp [attempt, ran]
    exact .of_ok run (runs.error _ _ ran)

theorem leads_attempted {continuation : Option α → Parse β}
    (inside : Proceeds context known production count)
    (found : ∀ value, Leads context [] (continuation (some value)) (last.less count))
    (missing : ∀ before next, GaveUp context before next →
      Runs context before (continuation none) next last) :
    Leads context known (attempt production >>= continuation) last := by
  intro state shows
  refine (leads_attempt inside state shows).bind fun answer next ended => ?_
  cases answer with
  | some value => exact .since ended.1 ended.2 (found value next trivial)
  | none => exact missing state next ended

theorem leads_single {production : Parse Node} (proceeds : Proceeds context known production count) :
    Leads context known (single production) (.items count) := by
  refine leads_bind proceeds fun _ => leads_pure ?_
  simp [Use.less, Use.items]

theorem Leads.anyItems {production : Parse Items}
    (leads : Leads context known production (.items count)) :
    Leads context known production (.items 0) := by
  refine leads.mono fun before items next ended => ?_
  cases completed : items.completed with
  | true =>
    simp only [Use.items, completed, if_true] at ended ⊢
    exact ⟨ended.1, Nat.le_trans (Nat.le_add_right _ _) ended.2⟩
  | false => simpa [Use.items, completed] using ended

theorem runs_thenFinish {items : Items} {finish : Parse Unit}
    (ended : Ended context (Use.items count items) before state)
    (finishes : Proceeds context [] finish 0) :
    Runs context before (thenFinish items finish) state (.items count) := by
  unfold thenFinish
  cases completed : items.completed with
  | false =>
    refine .of_ok rfl ?_
    simpa [Use.items, completed] using ended
  | true =>
    have reached : Ended context (some count) before state := by
      simpa [Use.items, completed] using ended
    refine .since reached.1 reached.2 (Leads.run ?_)
    refine leads_attempted finishes (fun _ => leads_pure ?_) fun _ _ gaveUp => .of_ok rfl gaveUp
    simp [Use.less, Use.items, completed]

theorem leads_thenFinish {production : Parse Items} {finish : Parse Unit}
    (leads : Leads context known production (.items count))
    (finishes : Proceeds context [] finish 0) :
    Leads context known (production >>= fun items => thenFinish items finish) (.items count) :=
  fun state shows => (leads state shows).bind fun _ _ ended => runs_thenFinish ended finishes

theorem leads_separatedItems {item : Parse Node} (inside : Proceeds context [] item 1) :
    Leads context known (separatedItems item) (.items 1) := by
  refine leads_iterate fun items => leads_attempted inside (fun node => ?_) fun _ _ gaveUp => ?_
  · exact leads_consumePunctuator (leads_pure rfl) (leads_pure rfl)
  · exact .of_ok rfl gaveUp

theorem proceeds_completed {production : Parse Items}
    (leads : Leads context known production (.items count)) :
    Proceeds context known (completed production) count := by
  intro state shows
  refine (leads state shows).bind fun items next ended => ?_
  cases completed : items.completed with
  | true =>
    have finished : Ended context (some count) state next := by
      simpa [Use.items, completed] using ended
    exact .of_ok rfl finished
  | false =>
    have gaveUp : Ended context none state next := by simpa [Use.items, completed] using ended
    exact .of_error rfl gaveUp

theorem proceeds_listOf {item : Parse Node} (inside : Proceeds context [] item 1) :
    Proceeds context known (Productions.listOf item) 1 :=
  proceeds_completed (leads_separatedItems inside)

/-! ## Resuming -/

theorem inside_resumption (stream : TokenStream) (start braces position : Nat) :
    stream.Inside position (stream.resumption start braces position) := by
  have text : ∀ {position : Nat} (inside : position < stream.body.size),
      stream.body[position].kind ≠ .endOfFile → (stream.get position).kind ≠ .endOfFile := by
    intro position inside notEnd
    rwa [← getElem_body inside]
  fun_induction TokenStream.resumption stream start braces position with
  | case1 | case3 | case7 | case10 => exact .nil
  | case2 _ inside _ kind ih | case4 _ inside _ kind ih => exact .cons (text inside (by simp [kind])) ih
  | case5 _ inside _ notEnd _ _ ih => exact .cons (text inside notEnd) ih
  | case6 _ inside kind => exact .cons (text inside (by simp [kind])) .nil
  | case8 _ inside _ kind _ ih => exact .cons (text inside (by simp [kind])) ih
  | case9 _ inside notEnd _ _ _ _ ih => exact .cons (text inside notEnd) ih

/-- Where an item was given up that began at a token of the text, parsing resumes behind that token and
out of the panic. -/
theorem runs_recoverFrom (gaveUp : GaveUp context before state)
    (notEnd : (context.tokens.get before.position).kind ≠ .endOfFile) :
    Runs context before (recoverFrom before.position) state (.atLeast 1) := by
  let place := context.tokens.resumption state.position 0 state.position
  let resumed : ParseState := { state with position := place, panicking := false }
  have forward : state.position ≤ place := context.tokens.le_resumption _ _ _
  have resumes : Passed context state resumed :=
    ⟨forward, inside_resumption _ _ _ _, rfl, List.prefix_refl _, rfl⟩
  have reached : Reached context before resumed :=
    ⟨gaveUp.passed.trans resumes, fun calm => ⟨rfl, (gaveUp.alarmed calm).2.1⟩⟩
  have moves : synchronize context state = .ok () resumed := rfl
  have asked : position context resumed = .ok place resumed := rfl
  refine .step moves (.step asked ?_)
  have low : before.position ≤ place := reached.passed.forward
  -- An item can be given up at its first token, and parsing would resume right there: then that
  -- token is passed over.
  by_cases same : place = before.position
  · rw [if_pos same]
    have notEndHere : (context.tokens.get resumed.position).kind ≠ .endOfFile := by
      simpa [resumed, same] using notEnd
    have advanced : discard advance context resumed = .ok () (resumed.movedTo (place + 1)) := by
      simp [notEndHere, resumed]
    exact .of_ok advanced ⟨reached.trans (.advance notEndHere), Nat.succ_le_succ low⟩
  · rw [if_neg same]
    exact .of_ok rfl ⟨reached, Nat.lt_of_le_of_ne low (Ne.symm same)⟩

/-- An item that is not the last goes forward, whether it is completed or parsing resumes behind
it. -/
theorem leads_recoveringStep {stops : Token → Bool} {item : Parse Items} {nodes : Array Node}
    (inside : Leads context [] item (.items 1)) :
    Leads context known (recoveringStep stops item nodes) (Use.atLeast 0).step := by
  refine leads_peek fun token => leads_ite (fun _ => leads_pure rfl) fun goesOn state shows => ?_
  have notEnd : (context.tokens.get state.position).kind ≠ .endOfFile := by
    rw [shows.1]
    intro ends
    simp [ends] at goesOn
  have asked : position context state = .ok state.position state := rfl
  have resumes : ∀ (next : ParseState) (more : Array Node), GaveUp context state next →
      Runs context state (recoverFrom state.position >>= fun _ => pure (.yield more)) next
        (Use.atLeast 0).step := by
    intro next more gaveUp
    exact (runs_recoverFrom gaveUp notEnd).bind fun _ _ ended => .of_ok rfl ended
  refine .step asked ((leads_attempt inside state trivial).bind fun answer next ended => ?_)
  cases answer with
  | none => exact resumes next _ ended
  | some items =>
    cases completed : items.completed with
    | true =>
      simp only [Option.getD_some, completed, Bool.not_true]
      have finished : Ended context (some 1) state next := by
        simpa [Use.attempted, Use.items, completed] using ended
      exact .of_ok rfl finished
    | false =>
      simp only [Option.getD_some, completed, Bool.not_false]
      have gaveUp : Ended context none state next := by
        simpa [Use.attempted, Use.items, completed] using ended
      exact resumes next _ gaveUp

theorem proceeds_recoveringItems {stops : Token → Bool} {item : Parse Items}
    (inside : Leads context [] item (.items 1)) :
    Proceeds context known (recoveringItems stops item) 0 := by
  rw [recoveringItems_eq]
  exact proceeds_iterate fun _ => leads_recoveringStep inside

end CFrontEnd
