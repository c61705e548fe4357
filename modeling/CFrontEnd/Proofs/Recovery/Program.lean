import CFrontEnd.Proofs.Recovery.Statements
import CFrontEnd.Proofs.Blocks.Program

/-!
Problems stay where they are: however ill-formed the first part of a text is, if its brackets are
properly nested and it ends with a semicolon, a declaration behind it is read as if it stood alone, and
no problem is recorded at its tokens.
-/

namespace CFrontEnd

open Parse Productions

/-! ## Up to the semicolon -/

theorem Nested.notEnd {tokens : List Token} (nested : Nested tokens) :
    ∀ token ∈ tokens, token.kind ≠ .endOfFile := by
  induction nested with
  | nil => simp
  | plain _ notEnd _ ih => simpa using ⟨notEnd, ih⟩
  | enclosed bracket opens closes _ _ ihInside ih =>
    intro token member
    simp only [List.mem_cons, List.mem_append] at member
    rcases member with rfl | member | rfl | member
    · simp [opens]
    · exact ihInside token member
    · simp [closes]
    · exact ih token member

namespace TokenStream

variable {stream : TokenStream} {first stop : Nat}

theorem ClosesWithin.later {start : Nat} (closed : stream.ClosesWithin first stop)
    (later : first ≤ start) : stream.ClosesWithin start stop :=
  fun position low => closed position (Nat.le_trans later low)

/-- A semicolon closes nothing. -/
theorem ClosesWithin.semicolon (closed : stream.ClosesWithin first (stop + 1))
    (ends : (stream.get stop).kind = .punctuator .semicolon) : stream.ClosesWithin first stop := by
  intro position low high bracket opens
  obtain ⟨close, after, before, nested, closes⟩ :=
    closed position low (Nat.lt_succ_of_lt high) bracket opens
  have noStop : close ≠ stop := by
    rintro rfl
    rw [ends] at closes
    cases bracket <;> simp [Bracket.closing] at closes
  exact ⟨close, after, by omega, nested, closes⟩

end TokenStream

namespace Fence

variable {context : ParseContext} {state next : ParseState} {stop levels : Nat}

/-- The last semicolon as a fence, for what begins at `first`. -/
def atSemicolon (first : Nat) (closed : context.tokens.ClosesWithin 0 stop)
    (ends : (context.tokens.get stop).kind = .punctuator .semicolon) : Fence context :=
  ⟨first, stop, .semicolon, ends, .inr rfl, closed.later (Nat.zero_le _)⟩

/-- Every item of the text moves on, but not past the semicolon. -/
theorem recoveringStep_moves (nodes : Array Node) (closed : context.tokens.ClosesWithin 0 stop)
    (ends : (context.tokens.get stop).kind = .punctuator .semicolon)
    (high : state.position ≤ stop) (calm : state.panicking = false)
    (notEnd : (context.tokens.get state.position).kind ≠ .endOfFile) :
    ∃ more next,
      recoveringStep (fun _ => false) (externalDeclaration (ofLevels levels)) nodes context state =
        .ok (.yield more) next ∧
      state.position < next.position ∧ next.panicking = false ∧
      (atSemicolon 0 closed ends).Reach state next := by
  let fence : Fence context := atSemicolon state.position closed ends
  have holds : fence.Holds state := ⟨Nat.le_refl _, high, calm⟩
  have item : fence.Confines (externalDeclaration (ofLevels levels)) state
      (fence.Ended fun next => next.panicking = false ∧ state.position < next.position) := by
    refine ((leads_externalDeclaration (fenced_ofLevels levels)).run holds).mono fun _ _ _ ended => ?_
    exact ⟨ended.high, fun completed => ⟨(ended.done completed).calm, (ended.done completed).further⟩⟩
  obtain ⟨more, next, ran⟩ : ∃ more next,
      recoveringStep (fun _ => false) (externalDeclaration (ofLevels levels)) nodes context state =
        .ok (.yield more) next := recoveringStep_yields notEnd rfl
  have step : fence.Confines
      (recoveringStep (fun _ => false) (externalDeclaration (ofLevels levels)) nodes) state _ :=
    confines_recoveringStep holds item (fun _ further => further) notEnd rfl fun _ => rfl
  obtain ⟨reach, calmNext, further, -⟩ := step.ok _ next ran
  exact ⟨more, next, ran, further, calmNext, reach.forward, reach.bounded, reach.problems⟩

/-- Reading a text gets to the place behind the semicolon, and without a problem behind it. -/
theorem recoveringItems_reach (levels : Nat) (nodes : Array Node)
    (closed : context.tokens.ClosesWithin 0 stop)
    (ends : (context.tokens.get stop).kind = .punctuator .semicolon)
    (notEnd : ∀ position ≤ stop, (context.tokens.get position).kind ≠ .endOfFile)
    (high : state.position ≤ stop + 1) (calm : state.panicking = false) :
    ∃ more next,
      repeatFrom (recoveringStep (fun _ => false) (externalDeclaration (ofLevels levels))) nodes
          context state =
        repeatFrom (recoveringStep (fun _ => false) (externalDeclaration (ofLevels levels))) more
          context next ∧
      next.position = stop + 1 ∧ next.panicking = false ∧
      (atSemicolon 0 closed ends).Reach state next := by
  induction left : stop + 1 - state.position using Nat.strongRecOn generalizing state nodes with
  | ind left ih =>
    subst left
    have limit : (atSemicolon 0 closed ends).limit = stop + 1 := if_pos ends
    -- No item crosses the semicolon: items follow each other until one ends right behind it.
    by_cases behind : state.position = stop + 1
    · refine ⟨nodes, state, rfl, behind, calm, .quiet rfl (Nat.le_refl _) ?_⟩
      omega
    · have here : state.position ≤ stop := by omega
      obtain ⟨more, next, ran, further, calmNext, reach⟩ :=
        recoveringStep_moves nodes closed ends here calm (notEnd _ here)
      have bounded := reach.bounded
      obtain ⟨last, final, rest, position, calmFinal, later⟩ :=
        ih (stop + 1 - next.position) (by omega) more (by omega) calmNext rfl
      refine ⟨last, final, ?_, position, calmFinal, reach.trans later⟩
      rw [← rest]
      exact repeatFrom_yield ran (ParseState.remaining_movedTo_lt (notEnd _ here) further)

end Fence

/-! ## Behind the semicolon -/

/-- `int` with a name behind it declares an object of that name, whatever the name stood for. -/
theorem externalDeclaration_int {context : ParseContext} {state : ParseState} {levels : Nat}
    (isInt : (context.tokens.get state.position).kind = .keyword .intWord)
    (isName : (context.tokens.get (state.position + 1)).kind = .identifier)
    (ends : (context.tokens.get (state.position + 2)).kind = .punctuator .semicolon) :
    externalDeclaration (ofLevels (levels + 1)) context state =
      .ok { nodes := #[⟨.variableDeclaration, (context.tokens.get (state.position + 1)).location,
          .declaration { name := some (context.tokens.get (state.position + 1)).lexeme },
          [.named .builtinType (context.tokens.get state.position).location "int"]⟩] }
        ((state.rescoped
          (state.scopes.addOrdinary (context.tokens.get (state.position + 1)).lexeme)).movedTo
            (state.position + 3)) := by
  have specified : (ofLevels (levels + 1)).specifiers true context state = _ :=
    specifiersRule_int isInt isName
  have read : (ofLevels (levels + 1)).declarator .named context
      (state.movedTo (state.position + 1)) = _ := declaratorRule_name isName ends
  have declared : declaration (ofLevels (levels + 1))
      (some (functionBody (ofLevels (levels + 1)))) context state = _ :=
    declaration_variable specified rfl (baseType_int _ _) (by simp [isName]) read ends rfl rfl
  exact (externalDeclaration_ordinary isInt (by decide)).trans declared

/-- A text of which the first part ends with a semicolon and the second is one declaration. -/
theorem wholeText_lastDeclaration {context : ParseContext} {state : ParseState} {levels stop : Nat}
    (closed : context.tokens.ClosesWithin 0 stop)
    (ends : (context.tokens.get stop).kind = .punctuator .semicolon)
    (notEnd : ∀ position ≤ stop, (context.tokens.get position).kind ≠ .endOfFile)
    (isInt : (context.tokens.get (stop + 1)).kind = .keyword .intWord)
    (isName : (context.tokens.get (stop + 2)).kind = .identifier)
    (closes : (context.tokens.get (stop + 3)).kind = .punctuator .semicolon)
    (atEnd : (context.tokens.get (stop + 4)).kind = .endOfFile)
    (first : state.position = 0) (calm : state.panicking = false) :
    ∃ nodes next new,
      StartRule.wholeText (ofLevels (levels + 1)) context state =
        .ok (.ofChildren .program (context.tokens.get 0).location
          (nodes ++ [⟨.variableDeclaration, (context.tokens.get (stop + 2)).location,
            .declaration { name := some (context.tokens.get (stop + 2)).lexeme },
            [.named .builtinType (context.tokens.get (stop + 1)).location "int"]⟩])) next ∧
      next.position = stop + 4 ∧ next.diagnostics = state.diagnostics.append new ∧
      ∀ diagnostic ∈ new.toList, ∃ position, position ≤ stop ∧
        (context.tokens.get position).location = diagnostic.location := by
  obtain ⟨nodes, middle, same, position, _, reach⟩ :=
    Fence.recoveringItems_reach (levels + 1) #[] closed ends notEnd (by omega) calm
  obtain ⟨new, problems, covered⟩ := reach.problems
  have read : externalDeclaration (ofLevels (levels + 1)) context middle = _ :=
    externalDeclaration_int (by rwa [position]) (by rwa [position]) (by rwa [position])
  have items := same.trans <|
    (recoveringStep_item (by simp [position, isInt]) rfl read (by simp)).trans <|
    recoveringStep_stop (.inl (by simpa [position] using atEnd))
  let declared : ScopeStack := middle.scopes.addOrdinary (context.tokens.get (stop + 2)).lexeme
  refine ⟨nodes.toList, (middle.rescoped declared).movedTo (stop + 4), new, ?_, rfl, problems, covered⟩
  simp [StartRule.wholeText, recoveringItems_eq, items, first, position, declared, Nat.add_assoc]

theorem TokenStream.HasAt.mem {stream : TokenStream} {tokens : List Token} {start position : Nat}
    (has : stream.HasAt start tokens) (low : start ≤ position)
    (high : position < start + tokens.length) : stream.get position ∈ tokens := by
  induction tokens generalizing start with
  | nil => simp at high; omega
  | cons token rest ih =>
    obtain ⟨_, same, hasRest⟩ := has
    by_cases here : position = start
    · simp [here, same]
    · rw [List.length_cons] at high
      exact List.mem_cons_of_mem _ (ih hasRest (by omega) (by omega))

def SourceLocation.inColumn (column : Nat) : SourceLocation := ⟨"<input>", 1, column, column - 1⟩

/-- The word as a token of a line. -/
def Word.inColumn (word : Word) (column : Nat) : Token :=
  ⟨word.kind, word.lexeme, .inColumn column, word.value⟩

/-- `int x = { ( ; ) int } ;`, where parsing resumes inside of the braces. -/
def Token.malformedLine : List Token :=
  [Word.int.inColumn 1, (Word.identifier "x").inColumn 5, (Word.operator .assign "=").inColumn 7,
    Word.openBrace.inColumn 9, Word.openParen.inColumn 11, Word.semicolon.inColumn 13,
    Word.closeParen.inColumn 15, Word.int.inColumn 17, Word.closeBrace.inColumn 21,
    Word.semicolon.inColumn 23]

end CFrontEnd
