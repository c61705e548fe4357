import Mathlib.Data.List.Find
import CFrontEnd.Proofs.Scan.Cuts
import CFrontEnd.Proofs.Scan.Lexemes

/-!
A token depends on its own characters, and on what stands behind it only so far as that goes on with
it. White space goes on with nothing but a literal that is not closed.
-/

namespace CFrontEnd

theorem not_mem_cSymbols_blank {blank : Char} (isBlank : blank ∈ cWhiteSpace) :
    ∀ symbol ∈ cSymbols, blank ∉ symbol.toList := by
  have decided : cSymbols.all (fun symbol => cWhiteSpace.all fun other =>
      !symbol.toList.contains other) = true := by
    decide
  intro symbol isSymbol inSymbol
  have apart := List.all_eq_true.mp (List.all_eq_true.mp decided symbol isSymbol) blank isBlank
  simp [inSymbol] at apart

namespace Segment

variable {dialect : Dialect} {blank first : Char} {tail rest input : List Char} {count : Nat}
  {segment : Segment}

/-- The same white space goes on with the literal that is not closed, or every literal is. -/
def ClosedBefore (blank : Char) (segment : Segment) : Prop :=
  isLineEnd blank = true ∨ segment.problems = []

/-! ## Numbers -/

/-- A number that starts with a point has a digit behind it. -/
theorem startsNumber_length {language : Language} (fraction : language.numbers.fraction = true)
    (digits : ∀ character, language.classes.isDigit character = true → character.isDigit = true)
    (starts : startsNumber language first rest = true) :
    0 < (NumberText.read language (first :: rest)).characters.length ∧
      (first.isDigit = false →
        1 < (NumberText.read language (first :: rest)).characters.length) := by
  cases isDigit : first.isDigit with
  | true => exact ⟨number_length_pos isDigit, fun notDigit => by cases notDigit⟩
  | false =>
    have notDigit : language.classes.isDigit first = false := by
      by_contra other
      simp [digits first (by simpa using other)] at isDigit
    simp only [startsNumber, notDigit, Bool.false_or, Bool.and_eq_true, beq_iff_eq] at starts
    -- A number that does not begin with a digit begins with a point, and then a digit is asked
    -- for.
    obtain ⟨rfl, digitAhead⟩ := starts
    cases rest with
    | nil => cases digitAhead
    | cons digit rest =>
      have digitAhead : NumberText.isDigitOf 10 digit = true := digits digit digitAhead
      have fractionAhead : NumberText.fractionAt language.numbers 10 ('.' :: digit :: rest) =
          some (digit :: rest.takeWhile (NumberText.isDigitOf 10)) := by
        have inRun := List.takeWhile_cons_of_pos (l := rest) digitAhead
        simp [NumberText.fractionAt, fraction, inRun]
      have announced : NumberText.announcedRadix language.numbers ('.' :: digit :: rest) =
          (10, 0) := by
        simp [NumberText.announcedRadix]
      have noWhole : ('.' :: digit :: rest).takeWhile (NumberText.isDigitOf 10) = [] :=
        List.takeWhile_cons_of_neg (by decide)
      have long : 1 < (NumberText.read language ('.' :: digit :: rest)).characters.length := by
        simp only [NumberText.characters, NumberText.body, NumberText.read, announced,
          List.drop_zero, noWhole, List.length_nil, fractionAhead, NumberText.pointAndFraction,
          List.length_append, List.length_cons]
        omega
      exact ⟨by omega, fun _ => long⟩

theorem numberAt?_of_starts {language : Language} (fraction : language.numbers.fraction = true)
    (digits : ∀ character, language.classes.isDigit character = true → character.isDigit = true)
    (starts : startsNumber language first rest = true) :
    ∃ kind value problems, numberAt? language first rest = some
      { kind := .token (.literal kind) (some value)
        length := (NumberText.read language (first :: rest)).characters.length
        problems := problems
        length_pos := (startsNumber_length fraction digits starts).1 } := by
  simp only [numberAt?, starts, if_true, (startsNumber_length fraction digits starts).1, dite_true]
  exact ⟨_, _, _, rfl⟩

theorem numberAt?_cutAt (apart : IsApart dialect blank)
    (found : numberAt? (cLanguage dialect) first rest = some segment)
    (inCount : segment.length ≤ count + 1) :
    numberAt? (cLanguage dialect) first (cutAt blank tail count rest) = some segment := by
  cases starts : startsNumber (cLanguage dialect) first rest with
  | false => simp [numberAt?, starts] at found
  | true =>
    obtain ⟨kind, value, problems, isNumber⟩ := numberAt?_of_starts rfl (fun _ isDigit => isDigit) starts
    have lengthSame : segment.length =
        (NumberText.read (cLanguage dialect) (first :: rest)).characters.length := by
      rw [isNumber] at found
      rw [← Option.some.inj found]
    rw [lengthSame] at inCount
    have startsCut : startsNumber (cLanguage dialect) first (cutAt blank tail count rest) = true := by
      have startsHere := starts
      simp only [startsNumber, Bool.or_eq_true, Bool.and_eq_true] at starts ⊢
      rcases starts with isDigit | ⟨isPoint, digitAhead⟩
      · exact .inl isDigit
      refine .inr ⟨isPoint, ?_⟩
      have notDigit : first.isDigit = false := by
        rw [eq_of_beq isPoint]
        decide
      have long := (startsNumber_length rfl (fun _ isDigit => isDigit) startsHere).2 notDigit
      obtain ⟨fewer, rfl⟩ : ∃ fewer, count = fewer + 1 := ⟨count - 1, by omega⟩
      cases rest with
      | nil => cases digitAhead
      | cons digit rest => simpa [cutAt_cons] using digitAhead
    have readSame : NumberText.read (cLanguage dialect) (first :: cutAt blank tail count rest) =
        NumberText.read (cLanguage dialect) (first :: rest) := by
      rw [← cutAt_cons]
      exact NumberText.read_cutAt apart inCount
    rw [← found]
    simp only [numberAt?, starts, startsCut, if_true, readSame]

theorem numberAt?_cutAt_none (apart : IsApart dialect blank)
    (missing : numberAt? (cLanguage dialect) first rest = none) :
    numberAt? (cLanguage dialect) first (cutAt blank tail count rest) = none := by
  cases starts : startsNumber (cLanguage dialect) first rest with
  | true =>
    obtain ⟨_, _, _, isNumber⟩ := numberAt?_of_starts rfl (fun _ isDigit => isDigit) starts
    rw [isNumber] at missing
    cases missing
  | false =>
    have startsCut : startsNumber (cLanguage dialect) first (cutAt blank tail count rest) = false := by
      simp only [startsNumber, Bool.or_eq_false_iff, Bool.and_eq_false_iff] at starts ⊢
      exact starts.imp_right fun other => other.imp_right (head?_cutAt apart.digit)
    simp [numberAt?, startsCut]

/-! ## Literals in quotes -/

theorem quotedAt?_cutAt (apart : IsApart dialect blank) {encoding : Encoding} {before : Nat}
    (found : quotedAt? (cLanguage dialect) encoding before input = some segment)
    (inCount : segment.length ≤ before + count) (closed : segment.ClosedBefore blank) :
    quotedAt? (cLanguage dialect) encoding before (cutAt blank tail count input) = some segment := by
  cases input with
  | nil => cases found
  | cons quote rest =>
    -- Strings and character constants differ only in what is made of the units that are read.
    have same (quoteInLine : isLineEnd quote = false)
        (length : segment.length = before +
          (QuotedReading.read encoding quote (cLanguage dialect).marks.escape (before + 1)
            rest).length + 1)
        (terminated : segment.problems = [] →
          (QuotedReading.read encoding quote (cLanguage dialect).marks.escape (before + 1)
            rest).terminated = true) :
        quotedAt? (cLanguage dialect) encoding before (cutAt blank tail count (quote :: rest)) =
          quotedAt? (cLanguage dialect) encoding before (quote :: rest) := by
      obtain ⟨fewer, rfl⟩ : ∃ fewer, count = fewer + 1 := ⟨count - 1, by omega⟩
      have readSame : QuotedReading.read encoding quote (cLanguage dialect).marks.escape
          (before + 1) (cutAt blank tail fewer rest) =
            QuotedReading.read encoding quote (cLanguage dialect).marks.escape (before + 1) rest :=
        QuotedReading.read_cutAt apart quoteInLine _ (by omega) (closed.imp_right terminated)
      rw [cutAt_cons]
      simp only [quotedAt?, readSame]
    rw [← found]
    simp only [quotedAt?] at found
    split at found
    · rename_i isString
      have quoteSame : quote = '"' := eq_of_beq isString
      refine same (by rw [quoteSame]; decide) ?_ ?_
      · rw [← Option.some.inj found]
      · rw [← Option.some.inj found]
        intro noProblems
        simp only [QuotedReading.asString, List.append_eq_nil_iff] at noProblems
        simpa using noProblems.2
    · split at found
      · rename_i isCharacter
        have quoteSame : quote = '\'' := eq_of_beq isCharacter
        refine same (by rw [quoteSame]; decide) ?_ ?_
        · rw [← Option.some.inj found]
        · rw [← Option.some.inj found]
          intro noProblems
          simp only [QuotedReading.asCharacter, List.append_eq_nil_iff] at noProblems
          have noLast := noProblems.2
          split at noLast
          · cases noLast
          · simp_all
      · cases found

theorem quotedAt?_cutAt_none (apart : IsApart dialect blank) {encoding : Encoding} {before : Nat}
    (missing : quotedAt? (cLanguage dialect) encoding before input = none) :
    quotedAt? (cLanguage dialect) encoding before (cutAt blank tail count input) = none := by
  have notMark := apart.mark
  simp only [List.mem_cons, List.not_mem_nil, or_false, not_or] at notMark
  have notQuote : (input.head?.any fun quote => quote == '"' || quote == '\'') = false := by
    cases input with
    | nil => rfl
    | cons quote rest =>
      simp only [quotedAt?] at missing
      split at missing
      · cases missing
      · split at missing
        · cases missing
        · rename_i notString notCharacter
          have notString : ¬ (quote == '"') = true := notString
          have notCharacter : ¬ (quote == '\'') = true := notCharacter
          simp [notString, notCharacter]
  have blankApart : (blank == '"' || blank == '\'') = false := by simp [notMark]
  have cut : (cutAt blank tail count input).head?.any (fun quote => quote == '"' || quote == '\'') =
      false := head?_cutAt blankApart notQuote
  refine quotedAt?_eq_none fun quote isQuote => ?_
  rw [isQuote] at cut
  simpa using cut

/-! ## Words -/

/-- A word is known by its characters, unless a quote behind it makes a literal of it. -/
theorem wordAt?_eq (more : List Char)
    (starts : (cLanguage dialect).classes.startsIdentifier first = true) :
    ∃ kind, ∀ rest, rest.takeWhile (cLanguage dialect).classes.continuesIdentifier = more →
      wordAt? (cLanguage dialect) first rest =
        ((Encoding.ofSpelling? (first :: more)).bind fun encoding =>
          quotedAt? (cLanguage dialect) encoding (more.length + 1) (rest.drop more.length)).or
        (some { kind := .token kind none, length := more.length + 1 }) := by
  apply Exists.intro
  intro rest isRun
  simp only [wordAt?, starts, if_true, Option.orElse_eq_orElse, Option.orElse_eq_or, isRun]
  rfl

theorem quotedAt?_length {encoding : Encoding} {before : Nat}
    (found : quotedAt? (cLanguage dialect) encoding before input = some segment) :
    before < segment.length := by
  cases input with
  | nil => cases found
  | cons quote rest =>
    simp only [quotedAt?] at found
    split at found
    · rw [← Option.some.inj found]
      simp only
      omega
    · split at found
      · rw [← Option.some.inj found]
        simp only
        omega
      · cases found

theorem wordAt?_cutAt (apart : IsApart dialect blank)
    (found : wordAt? (cLanguage dialect) first rest = some segment)
    (inCount : segment.length ≤ count + 1) (closed : segment.ClosedBefore blank) :
    wordAt? (cLanguage dialect) first (cutAt blank tail count rest) = some segment := by
  cases starts : (cLanguage dialect).classes.startsIdentifier first with
  | false => simp [wordAt?, starts] at found
  | true =>
    obtain ⟨more, isRun⟩ : ∃ more,
        rest.takeWhile (cLanguage dialect).classes.continuesIdentifier = more := ⟨_, rfl⟩
    obtain ⟨kind, isWordAt⟩ := wordAt?_eq more starts
    rw [isWordAt rest isRun] at found
    -- Both as the prefix of a literal and as a name, the run of the word lies within the segment.
    have short : more.length ≤ count := by
      rcases Option.or_eq_some_iff.mp found with isLiteral | ⟨_, isWord⟩
      · obtain ⟨encoding, _, isQuoted⟩ := Option.bind_eq_some_iff.mp isLiteral
        have beyond := quotedAt?_length isQuoted
        omega
      · have lengthSame : more.length + 1 = segment.length := by
          rw [← Option.some.inj isWord]
        omega
    have inRest : more.length ≤ rest.length := by
      rw [← isRun]
      exact (List.takeWhile_prefix _).length_le
    rw [isWordAt _ ((takeWhile_cutAt apart.inWord (by rwa [isRun])).trans isRun),
      drop_cutAt short inRest]
    rw [Option.or_eq_some_iff] at found ⊢
    rcases found with isLiteral | ⟨noLiteral, isWord⟩
    · obtain ⟨encoding, known, isQuoted⟩ := Option.bind_eq_some_iff.mp isLiteral
      refine .inl (Option.bind_eq_some_iff.mpr ⟨encoding, known, ?_⟩)
      exact quotedAt?_cutAt apart isQuoted (by omega) closed
    · refine .inr ⟨?_, isWord⟩
      rw [Option.bind_eq_none_iff] at noLiteral ⊢
      exact fun encoding known => quotedAt?_cutAt_none apart (noLiteral encoding known)

theorem wordAt?_cutAt_none (missing : wordAt? (cLanguage dialect) first rest = none) :
    wordAt? (cLanguage dialect) first input = none := by
  unfold wordAt? at missing ⊢
  split at missing
  · simp at missing
  · rename_i notStarts
    rw [if_neg notStarts]

/-! ## Symbols -/

/-- A symbol within the cut is ahead in the one text if it is ahead in the other. -/
theorem isPrefix_cutAt {symbol : List Char} (noBlank : blank ∉ symbol)
    (short : symbol <+: input → symbol.length ≤ count) :
    symbol <+: cutAt blank tail count input ↔ symbol <+: input := by
  constructor
  · intro ahead
    rcases List.prefix_or_prefix_of_prefix ahead (List.prefix_append _ _) with inTaken | ⟨more, same⟩
    · exact inTaken.trans (List.take_prefix _ _)
    · rw [← same, cutAt, List.prefix_append_right_inj] at ahead
      cases more with
      | nil =>
        rw [← same, List.append_nil]
        exact List.take_prefix _ _
      | cons next more =>
        obtain ⟨rfl, _⟩ := List.cons_prefix_cons.mp ahead
        exact absurd (same ▸ List.mem_append_right _ List.mem_cons_self) noBlank
  · intro ahead
    exact (List.prefix_take_iff.mpr ⟨ahead, short ahead⟩).trans (List.prefix_append _ _)

theorem symbolKind?_cutAt {kind : TokenKind} {symbol : String} (isBlank : blank ∈ cWhiteSpace)
    (found : symbolKind? (cLanguage dialect) input = some (kind, symbol))
    (inCount : symbol.length ≤ count) :
    symbolKind? (cLanguage dialect) (cutAt blank tail count input) = some (kind, symbol) := by
  have isSymbol := (symbolKind?_some found).2.1
  -- A symbol that is cut would be longer than the longest that the text begins with.
  have begins : ∀ other ∈ cSymbols,
      beginsWith other (cutAt blank tail count input) = beginsWith other input := by
    intro other otherSymbol
    have short : other.toList <+: input → other.toList.length ≤ count := by
      intro ahead
      have longest := symbolKind?_longest found other otherSymbol ahead
      rw [utf8ByteSize_cSymbols other otherSymbol, utf8ByteSize_cSymbols symbol isSymbol,
        String.length_toList] at longest
      rw [String.length_toList] at longest ⊢
      omega
    rw [Bool.eq_iff_iff, beginsWith_iff, beginsWith_iff,
      isPrefix_cutAt (not_mem_cSymbols_blank isBlank other otherSymbol) short]
  have operators : (cLanguage dialect).matchOperator? (cutAt blank tail count input) =
      (cLanguage dialect).matchOperator? input := by
    unfold Language.matchOperator?
    refine List.find?_congr fun entry inTable => begins entry.symbol ?_
    rw [operators_cLanguage] at inTable
    exact List.mem_append_left _ (List.mem_map_of_mem inTable)
  have punctuators : (cLanguage dialect).matchPunctuator? (cutAt blank tail count input) =
      (cLanguage dialect).matchPunctuator? input := by
    unfold Language.matchPunctuator?
    refine List.find?_congr fun entry inTable => begins entry.symbol ?_
    rw [punctuators_cLanguage] at inTable
    exact List.mem_append_right _ (List.mem_map_of_mem inTable)
  rw [← found]
  simp only [symbolKind?, operators, punctuators]

theorem symbolAt?_cutAt (isBlank : blank ∈ cWhiteSpace)
    (found : symbolAt? (cLanguage dialect) first rest = some segment)
    (inCount : segment.length ≤ count + 1) :
    symbolAt? (cLanguage dialect) first (cutAt blank tail count rest) = some segment := by
  obtain ⟨⟨kind, symbol⟩, known, isSegment⟩ := Option.bind_eq_some_iff.mp found
  have lengthSame : symbol.length = segment.length := by
    simp only at isSegment
    split at isSegment
    · rw [← Option.some.inj isSegment]
    · cases isSegment
  have knownCut : symbolKind? (cLanguage dialect) (cutAt blank tail (count + 1) (first :: rest)) =
      some (kind, symbol) := symbolKind?_cutAt isBlank known (by omega)
  rw [cutAt_cons] at knownCut
  rw [symbolAt?, knownCut]
  exact isSegment

/-! ## Tokens -/

theorem tokenAt?_cutAt (isBlank : blank ∈ cWhiteSpace)
    (found : tokenAt? (cLanguage dialect) first rest = some segment)
    (inCount : segment.length ≤ count + 1) (closed : segment.ClosedBefore blank) :
    tokenAt? (cLanguage dialect) first (cutAt blank tail count rest) = some segment := by
  have apart := IsApart.ofBlank dialect isBlank
  simp only [tokenAt?, Option.orElse_eq_orElse, Option.orElse_eq_or, Option.or_eq_some_iff]
    at found ⊢
  rcases found with isNumber | ⟨noNumber, found⟩
  · exact .inl (numberAt?_cutAt apart isNumber inCount)
  · refine .inr ⟨numberAt?_cutAt_none apart noNumber, ?_⟩
    rw [← cutAt_cons]
    rcases found with isQuoted | ⟨noQuoted, found⟩
    · exact .inl (quotedAt?_cutAt apart isQuoted (by omega) closed)
    · refine .inr ⟨quotedAt?_cutAt_none apart noQuoted, ?_⟩
      rcases found with isWord | ⟨noWord, isSymbol⟩
      · exact .inl (wordAt?_cutAt apart isWord inCount closed)
      · exact .inr ⟨wordAt?_cutAt_none noWord, symbolAt?_cutAt isBlank isSymbol inCount⟩

end Segment

end CFrontEnd
