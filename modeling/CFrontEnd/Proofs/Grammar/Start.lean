import CFrontEnd.Grammar.Start
import CFrontEnd.Proofs.Grammar.Evaluation
import CFrontEnd.Proofs.Grammar.Words

/-!
Parsing a whole text by a named rule.
-/

namespace CFrontEnd

/-- What a text of the language is parsed in. -/
def Language.context (language : Language) (tokens : TokenStream) : ParseContext :=
  { tokens := tokens, language := language, dialect := language.dialect }

/-- The state that parsing begins in. -/
def ParseState.first (diagnostics : Diagnostics) : ParseState :=
  { position := 0, scopes := .initial, diagnostics := diagnostics, panicking := false }

variable {context : ParseContext} {state next : ParseState} {node : Node}

theorem Diagnostics.report_ne (diagnostics : Diagnostics) (kind : DiagnosticKind)
    (location : SourceLocation) (message : String) :
    diagnostics.report kind location message ≠ diagnostics := by
  intro same
  have sizes := congrArg (fun diagnostics => diagnostics.toList.length) same
  simp at sizes

@[simp] theorem dialect_cLanguage (dialect : Dialect) : (cLanguage dialect).dialect = dialect := by
  obtain ⟨standard, gnu⟩ := dialect
  cases standard <;> cases gnu <;> decide

theorem TokenStream.get_size (stream : TokenStream) :
    (stream.get stream.body.size).kind = .endOfFile := by
  simp [get, final, Token.endOfFile]

theorem TokenStream.get_behind_words {stream : TokenStream} {words : List Word}
    (isWords : stream.body.toList.map Token.word = words) :
    (stream.get (0 + words.length)).kind = .endOfFile := by
  rw [← isWords, List.length_map, Array.length_toList, Nat.zero_add]
  exact stream.get_size

namespace Parse

/-- The rules of C are those that can be parsed from. -/
theorem fromRule_name (isC : context.language = cLanguage context.dialect) (rule : StartRule) :
    fromRule rule.name context state =
      rule.production (.ofLevels maxNesting) context state := by
  have known : context.language.hasRule rule.name = true := by
    rw [isC]
    cases rule <;> rfl
  have named : StartRule.ofName? rule.name = some rule := by
    cases rule <;> decide
  simp [fromRule, known, named]

end Parse

namespace Language

variable {dialect : Dialect} (rule : StartRule) {tokens : TokenStream} {diagnostics : Diagnostics}

@[simp] theorem tokens_context (language : Language) :
    (language.context tokens).tokens = tokens :=
  rfl

theorem fromRule_context :
    Parse.fromRule rule.name ((cLanguage dialect).context tokens) state =
      rule.production (.ofLevels maxNesting) ((cLanguage dialect).context tokens) state :=
  Parse.fromRule_name (by simp [context]) rule

theorem parseRule_of_run {language : Language} {name : String} {result : Option Node × Diagnostics}
    (whole : (match Parse.wholeRule name (language.context tokens) (.first diagnostics) with
      | .ok node state => (some node, state.diagnostics)
      | .error _ state => (none, state.diagnostics)) = result) :
    language.parseRule name tokens diagnostics = result :=
  whole

theorem parseRule_ok
    (read : rule.production (.ofLevels maxNesting) ((cLanguage dialect).context tokens)
      (.first diagnostics) = .ok node next)
    (ends : (tokens.get next.position).kind = .endOfFile) :
    (cLanguage dialect).parseRule rule.name tokens diagnostics = (some node, next.diagnostics) := by
  rw [← fromRule_context rule] at read
  exact parseRule_of_run (by simp [Parse.wholeRule, read, ends])

theorem parseRule_unfinished
    (read : rule.production (.ofLevels maxNesting) ((cLanguage dialect).context tokens)
      (.first diagnostics) = .ok node next)
    (calm : next.panicking = false)
    (goesOn : (tokens.get next.position).kind ≠ .endOfFile) :
    (cLanguage dialect).parseRule rule.name tokens diagnostics =
      (some node, next.diagnostics.report .grammatical (tokens.get next.position).location
        (GrammarProblem.unfinishedRule (tokens.get next.position) rule.name).message) := by
  rw [← fromRule_context rule] at read
  exact parseRule_of_run (by simp [Parse.wholeRule, read, goesOn, Parse.complain, calm])

theorem parseRule_error {reason : GivenUp}
    (gaveUp : rule.production (.ofLevels maxNesting) ((cLanguage dialect).context tokens)
      (.first diagnostics) = .error reason next) :
    (cLanguage dialect).parseRule rule.name tokens diagnostics = (none, next.diagnostics) := by
  rw [← fromRule_context rule] at gaveUp
  exact parseRule_of_run (by simp [Parse.wholeRule, gaveUp])

theorem exists_read {after : Diagnostics}
    (parsed : (cLanguage dialect).parseRule rule.name tokens diagnostics = (some node, after)) :
    ∃ next, rule.production (.ofLevels maxNesting) ((cLanguage dialect).context tokens)
      (.first diagnostics) = .ok node next := by
  cases read : rule.production (.ofLevels maxNesting) ((cLanguage dialect).context tokens)
      (.first diagnostics) with
  | error reason next =>
    rw [parseRule_error rule read] at parsed
    cases parsed
  | ok other next =>
    obtain ⟨last, run⟩ : ∃ last, Parse.wholeRule rule.name ((cLanguage dialect).context tokens)
        (.first diagnostics) = .ok other last := by
      rw [← fromRule_context rule] at read
      by_cases ends : (tokens.get next.position).kind = .endOfFile
      · exact ⟨next, by simp [Parse.wholeRule, read, ends]⟩
      · cases calm : next.panicking <;>
          exact ⟨_, by simp [Parse.wholeRule, read, ends, Parse.complain, calm]; rfl⟩
    have whole : (cLanguage dialect).parseRule rule.name tokens diagnostics =
        (some other, last.diagnostics) := parseRule_of_run (by rw [run])
    rw [whole] at parsed
    obtain ⟨same, _⟩ := Prod.mk.inj parsed
    rw [Option.some.inj same]
    exact ⟨next, rfl⟩

end Language

end CFrontEnd
