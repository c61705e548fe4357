import CFrontEnd.Proofs.Conduct.Panic
import CFrontEnd.Proofs.Conduct.Progress
import CFrontEnd.Proofs.Grammar.Start
import CFrontEnd.Proofs.Scan.Words

/-!
The two ways to parse from the rule that a language starts from: as its start rule, and by name. Both
read the same tokens and come to the same tree. By name a token that is left over is one problem more;
as the start rule it is none, so that the two agree for every text only where the rule itself reads up to
the end of the file.
-/

namespace CFrontEnd

open Parse Productions

/-- The place at which parsing from the start rule stops, with a tree or without one. -/
def Language.reach (language : Language) (tokens : TokenStream) (diagnostics : Diagnostics) : Nat :=
  ((fromRule language.startRule).leaves (language.context tokens) (.first diagnostics)).position

variable {context : ParseContext} {level : Productions} {state next : ParseState} {node : Node}

/-! ## Up to the end of the file -/

/-- Items with recovery between them are read until a token ends them. -/
theorem recoveringItems_toStop (stops : Token → Bool) {item : Parse Items}
    (inside : Leads context [] item (.items 1)) (nodes : Array Node) (state : ParseState) :
    ∃ result last, repeatFrom (recoveringStep stops item) nodes context state = .ok result last ∧
      ((context.tokens.get last.position).kind = .endOfFile ∨
        stops (context.tokens.get last.position) = true) := by
  induction left : state.remaining context using Nat.strongRecOn generalizing nodes state with
  | ind left ih =>
    by_cases stopped : (context.tokens.get state.position).kind = .endOfFile ∨
        stops (context.tokens.get state.position) = true
    · exact ⟨nodes, state, recoveringStep_stop stopped, stopped⟩
    · obtain ⟨notEnd, goesOn⟩ := not_or.mp stopped
      obtain ⟨more, further, step, forward⟩ :
          ∃ more next, recoveringStep stops item nodes context state = .ok (.yield more) next ∧
            state.position < next.position :=
        recoveringStep_further inside notEnd (by simpa using goesOn)
      have fewer : further.remaining context < state.remaining context :=
        ParseState.remaining_movedTo_lt notEnd forward
      obtain ⟨result, last, read, ends⟩ := ih _ (left ▸ fewer) more further rfl
      exact ⟨result, last, (repeatFrom_yield step fewer).trans read, ends⟩

/-- The rule of whole texts leaves no token over. -/
theorem wholeText_toEnd (inside : level.Conducted context) (state : ParseState) :
    ∃ tree last, StartRule.wholeText level context state = .ok tree last ∧
      (context.tokens.get last.position).kind = .endOfFile := by
  obtain ⟨nodes, last, read, ends⟩ :=
    recoveringItems_toStop (fun _ => false) (leads_externalDeclaration inside) #[] state
  refine ⟨.ofChildren .program (context.tokens.get state.position).location nodes.toList, last, ?_, ?_⟩
  · simp [StartRule.wholeText, recoveringItems_eq, read]
  · exact ends.resolve_right Bool.false_ne_true

/-! ## Rules by name -/

theorem fromRule_ok {name : String} (read : fromRule name context state = .ok node next) :
    ∃ rule : StartRule, StartRule.ofName? name = some rule ∧
      rule.production (.ofLevels maxNesting) context state = .ok node next := by
  cases known : (if context.language.hasRule name then StartRule.ofName? name else none) with
  | none => simp [fromRule, known] at read
  | some rule =>
    refine ⟨rule, ?_, by simpa [fromRule, known] using read⟩
    split at known
    · exact known
    · cases known

theorem fromRule_calm {name : String} (calm : state.panicking = false)
    (read : fromRule name context state = .ok node next) : next.panicking = false := by
  obtain ⟨rule, _, run⟩ := fromRule_ok read
  have inside : (ofLevels maxNesting).Conducted context := conducted_ofLevels maxNesting
  exact ((proceeds_production rule inside).keepsOrder calm).calm node next run

/-- By name the rule of whole texts reads to the end of the file. -/
theorem fromRule_program (read : fromRule StartRule.program.name context state = .ok node next) :
    (context.tokens.get next.position).kind = .endOfFile := by
  obtain ⟨rule, named, run⟩ := fromRule_ok read
  obtain rfl : rule = .program := by
    have isProgram : StartRule.ofName? StartRule.program.name = some .program := by decide
    exact Option.some.inj (named.symm.trans isProgram)
  have inside : (ofLevels maxNesting).Conducted context := conducted_ofLevels maxNesting
  obtain ⟨tree, last, whole, ends⟩ := wholeText_toEnd inside state
  obtain ⟨-, rfl⟩ := EStateM.Result.ok.inj (whole.symm.trans run)
  exact ends

theorem wholeRule_ok {name : String} (calm : next.panicking = false)
    (read : fromRule name context state = .ok node next) :
    wholeRule name context state = .ok node
      (if (context.tokens.get next.position).kind = .endOfFile then next
        else next.reported (context.tokens.get next.position).location
          (.unfinishedRule (context.tokens.get next.position) name)) := by
  by_cases ends : (context.tokens.get next.position).kind = .endOfFile
  · simp [wholeRule, read, ends]
  · simp [wholeRule, read, ends, complain, calm, ParseState.reported]

theorem wholeRule_error {name : String} {reason : GivenUp}
    (gaveUp : fromRule name context state = .error reason next) :
    wholeRule name context state = .error reason next := by
  simp [wholeRule, gaveUp]

namespace Language

variable {language : Language} {tokens : TokenStream} {diagnostics : Diagnostics}

theorem reach_ok
    (read : fromRule language.startRule (language.context tokens) (.first diagnostics) =
      .ok node next) : language.reach tokens diagnostics = next.position := by
  simp [reach, leaves, read]

theorem parse_ok
    (read : fromRule language.startRule (language.context tokens) (.first diagnostics) =
      .ok node next) : language.parse tokens diagnostics = (node, next.diagnostics) := by
  have run : language.run (fromRule language.startRule) tokens diagnostics = .ok node next := read
  rw [parse, run]

theorem parse_error {reason : GivenUp}
    (gaveUp : fromRule language.startRule (language.context tokens) (.first diagnostics) =
      .error reason next) :
    language.parse tokens diagnostics =
      (.leaf .program (tokens.get next.position).location .none, next.diagnostics) := by
  have run : language.run (fromRule language.startRule) tokens diagnostics = .error reason next :=
    gaveUp
  rw [parse, run]

end Language

/-- Parsed from the start rule and by the name of that rule, a text leads to the same tree and the same
problems, but for one problem that is recorded by name alone, at the first of the tokens that are left
over. Where there is no tree, both have recorded why. A text that starts from the rule of whole texts
leaves no tokens over. -/
theorem parse_startRule (language : Language) (tokens : TokenStream) (diagnostics : Diagnostics) :
    let last := tokens.get (language.reach tokens diagnostics)
    let plain := language.parse tokens diagnostics
    let named := language.parseRule language.startRule tokens diagnostics
    (named.1 = none ∧ named.2 = plain.2 ∧ ∃ new, plain.2.toList = diagnostics.toList ++ new ∧
      ∃ diagnostic ∈ new, diagnostic.kind = .grammatical ∨ diagnostic.kind = .internal) ∨
    (named.1 = some plain.1 ∧
      (last.kind = .endOfFile → named.2 = plain.2) ∧
      (last.kind ≠ .endOfFile → named.2 = plain.2.report .grammatical last.location
        (GrammarProblem.unfinishedRule last language.startRule).message) ∧
      (language.startRule = "translation_unit" → last.kind = .endOfFile)) := by
  intro last plain named
  cases run : fromRule language.startRule (language.context tokens) (.first diagnostics) with
  | ok node next =>
    right
    have stops : last = tokens.get next.position := by
      simp only [last, Language.reach_ok run]
    have plainly : plain = (node, next.diagnostics) := Language.parse_ok run
    -- A rule that gave a tree is not panicking at its end, so the tokens left over are all that
    -- can be added.
    have calm : next.panicking = false := fromRule_calm rfl run
    have byName : wholeRule language.startRule (language.context tokens) (.first diagnostics) = _ :=
      wholeRule_ok calm run
    have strictly : named = _ := Language.parseRule_of_run (by rw [byName])
    refine ⟨?_, ?_, ?_, ?_⟩
    · rw [plainly, strictly]
    · intro ends
      rw [plainly, strictly]
      simp [← stops, ends]
    · intro goesOn
      rw [plainly, strictly]
      simp [← stops, goesOn]
    · intro isProgram
      rw [stops]
      rw [isProgram] at run
      exact fromRule_program run
  | error reason next =>
    left
    have plainly : plain = (_, next.diagnostics) := Language.parse_error run
    have byName : named = (none, next.diagnostics) :=
      Language.parseRule_of_run (by rw [wholeRule_error run])
    have noTree : named.1 = none := by rw [byName]
    have complains := parseRule_complains noTree
    refine ⟨noTree, ?_, ?_⟩
    · rw [byName, plainly]
    · rw [plainly]
      simpa [named, byName] using complains

/-- A language whose texts are statements. -/
def statementLanguage : Language :=
  Language.Declaration.build
    { name := "statements", version := "1", punctuators := [⟨";", .semicolon⟩],
      rules := ["statement"], startRule := some "statement" }

theorem statementLanguage_eq : statementLanguage =
    { name := "statements", version := "1", punctuators := [⟨";", .semicolon⟩],
      rules := ["statement"], startRule := "statement" } := by
  simp [statementLanguage, Language.Declaration.build, longestFirst]

/-- A semicolon is a whole statement, whatever stands behind it. -/
theorem fromRule_emptyStatement (tokens : TokenStream) (diagnostics : Diagnostics)
    (isEmpty : (tokens.get 0).kind = .punctuator .semicolon) :
    fromRule "statement" (statementLanguage.context tokens) (.first diagnostics) =
      .ok (.leaf .empty (tokens.get 0).location .none)
        ((ParseState.first diagnostics).movedTo 1) := by
  have known : statementLanguage.hasRule "statement" = true := by decide
  have named : StartRule.ofName? "statement" = some .statement := by decide
  have run : statementRule (.ofLevels 1023) (statementLanguage.context tokens)
      (.first diagnostics) = _ := statementRule_empty isEmpty
  simp only [fromRule, Language.context, known, named, if_true]
  exact run

/-- The tokens of two semicolons. -/
def semicolonTokens : TokenStream :=
  ⟨#[⟨.punctuator .semicolon, ";", ⟨"<input>", 1, 1, 0⟩, none⟩,
    ⟨.punctuator .semicolon, ";", ⟨"<input>", 1, 2, 1⟩, none⟩], ⟨"<input>", 1, 3, 2⟩⟩

theorem tokenize_semicolons :
    tokenize statementLanguage ⟨"<input>", ";;"⟩ .empty = (semicolonTokens, .empty) := by
  rw [statementLanguage_eq]
  change (Scanner.ofBuffer ⟨"<input>", ";;"⟩ .empty).drain _ #[] = _
  rw [Scanner.drain_cons _ (rfl : _ = ';' :: [';']), Scanner.drain_cons _ (rfl : _ = ';' :: []),
    Scanner.drain_nil _ rfl]
  rfl

/-- Started from another rule, a text can be half read without a problem: of two semicolons one is left
over, which is a problem by name only. -/
theorem parse_leavesSemicolon :
    tokenize statementLanguage ⟨"<input>", ";;"⟩ .empty = (semicolonTokens, .empty) ∧
      (statementLanguage.parseSource ⟨"<input>", ";;"⟩).2 = .empty ∧
      (semicolonTokens.get (statementLanguage.reach semicolonTokens .empty)).kind ≠ .endOfFile ∧
      (statementLanguage.parseRule statementLanguage.startRule semicolonTokens .empty).2 ≠
        .empty := by
  have run := fromRule_emptyStatement semicolonTokens .empty rfl
  have stops : statementLanguage.reach semicolonTokens .empty =
      ((ParseState.first .empty).movedTo 1).position := Language.reach_ok run
  have parsed : statementLanguage.parse semicolonTokens .empty = _ := Language.parse_ok run
  have named : wholeRule statementLanguage.startRule (statementLanguage.context semicolonTokens)
      (.first .empty) = _ := wholeRule_ok rfl run
  have leftOver : (semicolonTokens.get 1).kind ≠ .endOfFile := by decide
  refine ⟨tokenize_semicolons, ?_, ?_, ?_⟩
  · rw [Language.parseSource, tokenize_semicolons]
    exact congrArg Prod.snd parsed
  · rw [stops]
    exact leftOver
  · have strict : statementLanguage.parseRule statementLanguage.startRule semicolonTokens .empty = _ :=
      Language.parseRule_of_run (by rw [named])
    rw [strict]
    simp [leftOver, ParseState.first, Diagnostics.report_ne]

end CFrontEnd
