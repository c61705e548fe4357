import CFrontEnd.Proofs.Grammar.Words
import CFrontEnd.Proofs.Scan.Segments
import CFrontEnd.Proofs.Scan.Symbols

/-!
What the scanner makes of a text that is put together from the texts of tokens: each stretch gives its
words and nothing else, as long as what comes next does not go on with its last token.
-/

namespace CFrontEnd

/-- In front of `next` the text is scanned as the given words, without a problem. -/
def ScansAs (dialect : Dialect) (text : List Char) (words : List Word) (next : List Char) : Prop :=
  ∀ (scanner : Scanner) (found : Array Token), scanner.reader.rest = text ++ next →
    ∃ later : Scanner, ∃ tokens : List Token, later.reader.rest = next ∧
      later.diagnostics = scanner.diagnostics ∧ tokens.map Token.word = words ∧
      scanner.drain (cLanguage dialect) found =
        later.drain (cLanguage dialect) (found ++ tokens.toArray)

theorem Scanner.drain_cons {language : Language} {scanner : Scanner} {first : Char}
    {rest : List Char} (found : Array Token) (ahead : scanner.reader.rest = first :: rest) :
    scanner.drain language found =
      (scanner.skip (scanner.segment language first rest)).drain language
        (found ++ (scanner.tokenOf (scanner.segment language first rest)).toList.toArray) := by
  rw [drain.eq_def]
  split
  · rename_i ended
    rw [ended] at ahead
    cases ahead
  · rename_i other later isCons
    rw [isCons] at ahead
    obtain ⟨rfl, rfl⟩ := List.cons.inj ahead
    cases token : scanner.tokenOf (scanner.segment language other later) <;> simp [token]

theorem Scanner.drain_nil {language : Language} {scanner : Scanner} (found : Array Token)
    (ended : scanner.reader.rest = []) :
    scanner.drain language found = (⟨found, scanner.location⟩, scanner.diagnostics) := by
  rw [drain.eq_def]
  split
  · rfl
  · rename_i isCons
    rw [ended] at isCons
    cases isCons

namespace ScansAs

variable {dialect : Dialect} {text second next : List Char} {words more : List Word}

theorem nil (next : List Char) : ScansAs dialect [] [] next := by
  intro scanner found ahead
  exact ⟨scanner, [], ahead, rfl, rfl, by simp⟩

theorem append (isFirst : ScansAs dialect text words (second ++ next))
    (isSecond : ScansAs dialect second more next) :
    ScansAs dialect (text ++ second) (words ++ more) next := by
  intro scanner found ahead
  rw [List.append_assoc] at ahead
  obtain ⟨middle, tokens, middleAhead, sameFirst, firstWords, firstDrain⟩ :=
    isFirst scanner found ahead
  obtain ⟨last, others, lastAhead, sameSecond, secondWords, secondDrain⟩ :=
    isSecond middle _ middleAhead
  refine ⟨last, tokens ++ others, lastAhead, sameSecond.trans sameFirst, ?_, ?_⟩
  · rw [List.map_append, firstWords, secondWords]
  · rw [firstDrain, secondDrain]
    congr 1
    simp

theorem segment {first : Char} {tail : List Char} {segment : Segment}
    (isFirst : ∀ atLineStart,
      Segment.first (cLanguage dialect) atLineStart first (tail ++ next) = segment)
    (length : segment.length = (first :: tail).length) (noProblems : segment.problems = [])
    (words : List Word)
    (isWord : ∀ scanner : Scanner, scanner.reader.rest = first :: tail ++ next →
      (scanner.tokenOf segment).toList.map Token.word = words) :
    ScansAs dialect (first :: tail) words next := by
  intro scanner found ahead
  rw [List.cons_append] at ahead
  have same : scanner.segment (cLanguage dialect) first (tail ++ next) = segment := isFirst _
  refine ⟨scanner.skip segment, (scanner.tokenOf segment).toList, ?_, ?_, isWord scanner ahead, ?_⟩
  · rw [Scanner.rest_skip, ahead, length, ← List.cons_append, List.drop_left]
  · simp [Scanner.skip, noProblems]
  · rw [Scanner.drain_cons found ahead, same]

theorem token {first : Char} {tail : List Char} {segment : Segment} {kind : TokenKind}
    {value : Option Literal}
    (isFirst : ∀ atLineStart,
      Segment.first (cLanguage dialect) atLineStart first (tail ++ next) = segment)
    (length : segment.length = (first :: tail).length) (noProblems : segment.problems = [])
    (isToken : segment.kind = .token kind value) :
    ScansAs dialect (first :: tail) [⟨kind, String.ofList (first :: tail), value⟩] next := by
  refine .segment isFirst length noProblems _ ?_
  intro scanner ahead
  simp [Scanner.tokenOf, isToken, Token.word, ahead, length]

theorem blank (next : List Char) : ScansAs dialect [' '] [] next :=
  .segment (fun _ => rfl) rfl rfl [] fun _ _ => rfl

end ScansAs

/-- A text that is scanned as words to its end has those words for its tokens. -/
theorem ScansAs.tokenize {dialect : Dialect} {text : String} {words : List Word}
    (scans : ScansAs dialect text.toList words []) (name : String) (diagnostics : Diagnostics) :
    ∃ tokens, tokenize (cLanguage dialect) ⟨name, text⟩ diagnostics = (tokens, diagnostics) ∧
      tokens.body.toList.map Token.word = words := by
  have ahead : (Scanner.ofBuffer ⟨name, text⟩ diagnostics).reader.rest = text.toList ++ [] :=
    (List.append_nil _).symm
  obtain ⟨last, tokens, ended, same, isWords, drained⟩ := scans _ #[] ahead
  refine ⟨⟨tokens.toArray, last.location⟩, ?_, isWords⟩
  rw [CFrontEnd.tokenize, drained, Scanner.drain.eq_def]
  split
  · rw [same]
    simp [Scanner.ofBuffer]
  · rename_i isCons
    rw [isCons] at ended
    cases ended

namespace Segment

variable {dialect : Dialect} {first : Char} {rest : List Char} {segment : Segment}

/-- What begins no layout is a token, if it is one in the eyes of the scanner. -/
theorem first_of_tokenAt? (atLineStart : Bool) (notBlank : first ∉ cWhiteSpace)
    (notSplice : first ≠ '\\') (notDirective : first ≠ '#')
    (notLineComment : ¬ ['/', '/'] <+: first :: rest)
    (notBlockComment : ¬ ['/', '*'] <+: first :: rest)
    (found : tokenAt? (cLanguage dialect) first rest = some segment) :
    Segment.first (cLanguage dialect) atLineStart first rest = segment := by
  have notBlank : (cLanguage dialect).classes.isBlank first = false := by
    rw [← Bool.not_eq_true, isBlank_iff]
    exact notBlank
  have noSplice : spliceAt? first rest = none := by simp [spliceAt?, notSplice]
  have noDirective : directiveAt? (cLanguage dialect) atLineStart first rest = none := by
    simp [directiveAt?, notDirective]
  have noLineComment : lineCommentAt? (cLanguage dialect) first rest = none := by
    have notOpen : beginsWith "//" (first :: rest) = false := by
      rw [← Bool.not_eq_true, beginsWith_iff]
      exact fun opens => notLineComment opens.2
    rcases lineOpener dialect with ⟨opener, _⟩ | ⟨opener, _⟩
    · simp [lineCommentAt?, opener, notOpen]
    · simp [lineCommentAt?, opener]
  have noBlockComment : blockCommentAt? (cLanguage dialect) first rest = none := by
    have notOpen : beginsWith "/*" (first :: rest) = false := by
      rw [← Bool.not_eq_true, beginsWith_iff]
      exact fun opens => notBlockComment opens.2
    simp [blockCommentAt?, blockOpener, notOpen]
  simp [Segment.first, notBlank, noSplice, noDirective, noLineComment, noBlockComment, found]

end Segment

end CFrontEnd
