import CFrontEnd.Proofs.Scan.Positions
import CFrontEnd.Proofs.Text.Numerals

/-!
Linemarkers as a preprocessor writes them. They are read as they were meant, and what stands behind them
is scanned as if a new scanner began there.
-/

namespace CFrontEnd

/-! ## Texts of linemarkers -/

def AreBlanks (text : List Char) : Prop := ∀ character ∈ text, character = ' ' ∨ character = '\t'

/-- A name for between double quotes, with a backslash in front of each quote and of each backslash. -/
def escapedName (name : List Char) : List Char :=
  name.flatMap fun character =>
    if character = '"' ∨ character = '\\' then ['\\', character] else [character]

/-- What may stand between the `#` and the number. -/
inductive IsMarkerStart : List Char → Prop
  | number {indent : List Char} (areBlanks : AreBlanks indent) : IsMarkerStart indent
  | line {indent spaces : List Char} (areBlanks : AreBlanks indent) (areSpaces : AreBlanks spaces)
      (notEmpty : spaces ≠ []) : IsMarkerStart (indent ++ 'l' :: 'i' :: 'n' :: 'e' :: spaces)

/-- A line that says which line of which file comes next. The flags behind the name may be anything. -/
inductive IsLinemarker (line : Nat) (file : String) : List Char → Prop
  | mk {start digits spaces flags : List Char} (isStart : IsMarkerStart start) (notEmpty : digits ≠ [])
      (areDigits : ∀ digit ∈ digits, digit.isDigit = true) (isLine : numeral 10 digits = line)
      (fits : line ≤ Linemarker.maxLine) (areSpaces : AreBlanks spaces)
      (nameInLine : InLine file.toList) (flagsInLine : InLine flags) :
      IsLinemarker line file ('#' :: (start ++ (digits ++ (spaces ++
        ('"' :: (escapedName file.toList ++ '"' :: flags)))) ++ ['\n']))

namespace Linemarker

/-! ## Reading -/

/-- Reading takes the escaping back. -/
theorem fileName_escapedName (name behind : List Char) :
    fileName (escapedName name ++ '"' :: behind) = some name := by
  induction name with
  | nil => rfl
  | cons first name ih =>
    by_cases isEscaped : first = '"' ∨ first = '\\'
    · have escaped : escapedName (first :: name) = '\\' :: first :: escapedName name := by
        simp [escapedName, isEscaped]
      rw [escaped, List.cons_append, List.cons_append, fileName, ih]
      rfl
    · have plain : escapedName (first :: name) = first :: escapedName name := by
        simp [escapedName, isEscaped]
      rw [not_or] at isEscaped
      rw [plain, List.cons_append, fileName, ih]
      · rfl
      · exact isEscaped.1
      · exact fun isBackslash => absurd isBackslash isEscaped.2
      · exact fun _ _ isBackslash => absurd isBackslash isEscaped.2

theorem dropWhile_blanks {blanks : List Char} (areBlanks : AreBlanks blanks) {first : Char}
    (notBlank : isWhiteSpace first = false) (rest : List Char) :
    (blanks ++ first :: rest).dropWhile isWhiteSpace = first :: rest := by
  rw [List.dropWhile_append_of_pos, List.dropWhile_cons_of_neg (by simp [notBlank])]
  intro character isBlank
  rcases areBlanks character isBlank with rfl | rfl <;> decide

theorem digit_facts {digit : Char} (isDigit : digit.isDigit = true) :
    isWhiteSpace digit = false ∧ isLineEnd digit = false ∧ digit ≠ 'l' := by
  have ascii : digit.toNat < 0x80 := by
    simp only [Char.isDigit, Bool.and_eq_true, decide_eq_true_eq] at isDigit
    exact Nat.lt_of_le_of_lt isDigit.2 (by decide)
  refine of_isAscii (fun digit => digit.isDigit = true → isWhiteSpace digit = false ∧
    isLineEnd digit = false ∧ digit ≠ 'l') ?_ ascii isDigit
  decide

/-- The number is found behind the word `line` as it is without it. -/
theorem skipLineWord_start {start : List Char} (isStart : IsMarkerStart start) {digit : Char}
    (isDigit : digit.isDigit = true) (rest : List Char) :
    skipLineWord ((start ++ digit :: rest).dropWhile isWhiteSpace) = digit :: rest := by
  obtain ⟨notBlank, _, notLetter⟩ := digit_facts isDigit
  cases isStart with
  | number areBlanks =>
    rw [dropWhile_blanks areBlanks notBlank]
    unfold skipLineWord
    split
    · rename_i same
      exact absurd (List.cons.inj same).1 notLetter
    · rfl
  | @line indent spaces areBlanks areSpaces notEmpty =>
    obtain ⟨space, spaces, rfl⟩ := List.exists_cons_of_ne_nil notEmpty
    obtain ⟨isSpace, areSpaces⟩ := List.forall_mem_cons.mp areSpaces
    have isAscii : isAsciiWhiteSpace space = true := by
      rcases isSpace with rfl | rfl <;> rfl
    rw [List.append_assoc, List.cons_append, dropWhile_blanks areBlanks rfl]
    simp only [List.cons_append, skipLineWord, isAscii, if_true]
    exact dropWhile_blanks areSpaces notBlank rest

theorem parse?_marker {start digits spaces flags : List Char} {file : String}
    (isStart : IsMarkerStart start) (notEmpty : digits ≠ [])
    (areDigits : ∀ digit ∈ digits, digit.isDigit = true) (fits : numeral 10 digits ≤ maxLine)
    (areSpaces : AreBlanks spaces) :
    parse? (start ++ (digits ++ (spaces ++ ('"' :: (escapedName file.toList ++ '"' :: flags))))) =
      some ⟨numeral 10 digits, some file⟩ := by
  have behind := dropWhile_blanks areSpaces (by decide : isWhiteSpace '"' = false)
    (escapedName file.toList ++ '"' :: flags)
  have isRun : (digits ++ (spaces ++ ('"' :: (escapedName file.toList ++ '"' :: flags)))).takeWhile
      Char.isDigit = digits := by
    refine takeWhile_run areDigits fun character isNext => ?_
    cases spaces with
    | nil =>
      obtain rfl := Option.some.inj isNext
      rfl
    | cons space more =>
      obtain rfl := Option.some.inj isNext
      rcases areSpaces space List.mem_cons_self with rfl | rfl <;> rfl
  obtain ⟨digit, more, rfl⟩ := List.exists_cons_of_ne_nil notEmpty
  have isNumber := skipLineWord_start isStart (areDigits digit List.mem_cons_self)
  simp only [List.cons_append] at isNumber isRun
  simp [parse?, isNumber, isRun, behind, fits, fileAt, fileName_escapedName]

end Linemarker

theorem AreBlanks.inLine {text : List Char} (areBlanks : AreBlanks text) : InLine text := by
  intro character inText
  rcases areBlanks character inText with rfl | rfl <;> rfl

theorem IsMarkerStart.inLine {start : List Char} (isStart : IsMarkerStart start) : InLine start := by
  cases isStart with
  | number areBlanks => exact areBlanks.inLine
  | line areBlanks areSpaces =>
    refine inLine_append.mpr ⟨areBlanks.inLine, ?_⟩
    simpa [inLine_cons, isLineEnd] using areSpaces.inLine

theorem inLine_escapedName {name : List Char} (inLine : InLine name) : InLine (escapedName name) := by
  intro character inEscaped
  obtain ⟨plain, inName, isOne⟩ := List.mem_flatMap.mp inEscaped
  have plainInLine := inLine plain inName
  split at isOne
  · rcases List.mem_cons.mp isOne with rfl | isPlain
    · rfl
    · rwa [List.mem_singleton.mp isPlain]
  · rwa [List.mem_singleton.mp isOne]

theorem IsLinemarker.fits {line : Nat} {file : String} {marker : List Char}
    (isMarker : IsLinemarker line file marker) : line ≤ Linemarker.maxLine := by
  cases isMarker
  assumption

theorem IsLinemarker.exists_text {line : Nat} {file : String} {marker : List Char}
    (isMarker : IsLinemarker line file marker) :
    ∃ text, marker = '#' :: text ++ ['\n'] ∧ InLine text ∧
      Linemarker.parse? text = some ⟨line, some file⟩ := by
  cases isMarker with
  | mk isStart notEmpty areDigits isLine fits areSpaces nameInLine flagsInLine =>
    subst isLine
    refine ⟨_, rfl, ?_, Linemarker.parse?_marker isStart notEmpty areDigits fits areSpaces⟩
    have digitsInLine : InLine _ := fun digit inDigits =>
      (Linemarker.digit_facts (areDigits digit inDigits)).2.1
    simp only [inLine_append, inLine_cons]
    exact ⟨isStart.inLine, digitsInLine, areSpaces.inLine, rfl, inLine_escapedName nameInLine, rfl,
      flagsInLine⟩

/-! ## Scanning -/

namespace Reader

theorem advance_nil (count : Nat) (place : Place) : advance count ⟨[], place⟩ = ⟨[], place⟩ := by
  cases count <;> rfl

theorem advance_add (first second : Nat) (reader : Reader) :
    reader.advance (first + second) = (reader.advance first).advance second := by
  induction first generalizing reader with
  | zero => rw [Nat.zero_add]; rfl
  | succ first ih =>
    obtain ⟨rest, place⟩ := reader
    rw [Nat.add_right_comm]
    cases rest with
    | nil => rw [advance_nil, advance_nil, advance_nil]
    | cons character rest => exact ih _

end Reader

theorem Segment.first_directive (dialect : Dialect) {text : List Char} (inLine : InLine text)
    (later : List Char) :
    Segment.first (cLanguage dialect) true '#' (text ++ '\n' :: later) =
      { kind := .directive (Linemarker.parse? text), length := text.length + 2 } := by
  have isText : (text ++ '\n' :: later).takeWhile (fun character => !isLineEnd character) = text := by
    refine takeWhile_run (fun character inText => by simp [inLine character inText]) ?_
    rintro _ ⟨⟩
    rfl
  have hasDirectives : (cLanguage dialect).features.directives = true := rfl
  have notBlank : (cLanguage dialect).classes.isBlank '#' = false := rfl
  simp [Segment.first, notBlank, spliceAt?, directiveAt?, hasDirectives, isText, lineEndLength]

namespace Scanner

variable {dialect : Dialect} {scanner : Scanner} {line : Nat} {file : String} {marker : List Char}

/-- A linemarker is one segment, and behind it the scanner is the one that begins in its file and line. -/
theorem skip_linemarker (isMarker : IsLinemarker line file marker) (later : List Char)
    (ahead : scanner.reader.rest = marker ++ later)
    (atLineStart : scanner.reader.place.atLineStart = true) (notFinished : scanner.finished = false) :
    ∃ first rest, scanner.reader.rest = first :: rest ∧
      scanner.tokenOf (scanner.segment (cLanguage dialect) first rest) = none ∧
      scanner.problemsOf (scanner.segment (cLanguage dialect) first rest) = [] ∧
      scanner.skip (scanner.segment (cLanguage dialect) first rest) =
        (resume ⟨file, line, 1, 0⟩ later).moved (scanner.reader.place.offset + byteLength marker)
          scanner.diagnostics := by
  obtain ⟨text, rfl, inLine, isRead⟩ := isMarker.exists_text
  have isRest : scanner.reader.rest = '#' :: (text ++ '\n' :: later) := by simp [ahead]
  have isFirst : scanner.segment (cLanguage dialect) '#' (text ++ '\n' :: later) =
      { kind := .directive (some ⟨line, some file⟩), length := text.length + 2 } := by
    rw [segment, atLineStart, Segment.first_directive dialect inLine, isRead]
  refine ⟨'#', _, isRest, ?_, ?_, ?_⟩
  · rw [isFirst]
    rfl
  · rw [isFirst]
    rfl
  · have hashInLine : InLine ('#' :: text) := inLine_cons.mpr ⟨rfl, inLine⟩
    -- The line of the marker moves the column, and its end starts a new line; what was counted is
    -- then replaced by the line that is named.
    have moves (place : Place) : Reader.advance (text.length + 2) ⟨'#' :: (text ++ '\n' :: later), place⟩ =
        ⟨later, ({ place with
          column := place.column + (text.length + 1),
          offset := place.offset + byteLength ('#' :: text) } : Place).after '\n' later.head?⟩ := by
      have toEnd := Reader.advance_inLine hashInLine ('\n' :: later) place
      rw [List.cons_append, List.length_cons] at toEnd
      rw [show text.length + 2 = (text.length + 1) + 1 from rfl, Reader.advance_add, toEnd]
      rfl
    have size : byteLength ('#' :: text ++ ['\n']) = byteLength ('#' :: text) + 1 := by
      rw [byteLength_append]
      rfl
    obtain ⟨⟨_, place⟩, diagnostics, finished⟩ := scanner
    subst isRest notFinished
    simp only [isFirst, skip, segmentStart, moves, size]
    simp [resume, moved, Reader.shift, Place.shift, Place.after, Place.newLine, Place.relocate]
    rw [Nat.add_assoc]
    rfl

/-- As long as no linemarker is read, lines are counted on from the one that the scanner began in. -/
theorem resume_located (line : Nat) (fits : line ≤ Linemarker.maxLine) (file later : String)
    (language : Language) (lineFeedBlank : language.classes.isBlank '\n' = true) :
    (resume ⟨file, line, 1, 0⟩ later.toList).FindsLocated ⟨file, later⟩ line language := by
  have counted := @SourceBuffer.Counted.inLine ⟨file, later⟩ line _ _ _ _ (SourceBuffer.reached_nil _)
  rw [List.length_singleton, Nat.add_sub_cancel, Nat.min_eq_left fits] at counted
  exact findings_located lineFeedBlank counted

end Scanner

/-- A linemarker is read as it is written: what stands behind it has the tokens and problems that it has
for a scanner which begins at the line and file of the linemarker, with offsets that count on. Up to the
next linemarker each token is in the line in which it stands, counted from the one that is named. -/
theorem tokenize_linemarker (dialect : Dialect) {line : Nat} {file marker : String}
    (isMarker : IsLinemarker line file marker.toList) (name later : String)
    (diagnostics : Diagnostics) :
    let start := Scanner.resume ⟨file, line, 1, 0⟩ later.toList
    let behind := start.drain (cLanguage dialect) #[]
    let size := byteLength marker.toList
    tokenize (cLanguage dialect) ⟨name, marker ++ later⟩ diagnostics =
        (⟨behind.1.body.map (Token.shift size), behind.1.endLocation.shift size⟩,
          diagnostics.append ⟨behind.2.entries.map (Diagnostic.shift size)⟩) ∧
      ∀ token ∈ behind.1.toList, start.Unmarked (cLanguage dialect) token.location →
        let place := SourceBuffer.locationAt ⟨file, later⟩ token.location.offset
        token.location =
          { place with line := min (line + place.line - 1) Linemarker.maxLine } := by
  intro start behind size
  have isBehind : behind = (⟨(start.findings (cLanguage dialect)).tokens.toArray,
      (start.findings (cLanguage dialect)).finish⟩,
        ⟨(start.findings (cLanguage dialect)).problems.toArray⟩) := by
    simp only [behind, Scanner.drain_findings]
    simp [start, Scanner.resume, Diagnostics.empty]
  constructor
  · have isText : (Scanner.ofBuffer ⟨name, marker ++ later⟩ diagnostics).reader.rest =
        marker.toList ++ later.toList := String.toList_append
    obtain ⟨first, rest, ahead, noToken, noProblems, skipped⟩ :=
      Scanner.skip_linemarker isMarker later.toList isText rfl rfl
    have found := @Scanner.findings_cons (cLanguage dialect) _ _ _ ahead
    rw [noToken, noProblems, skipped, Scanner.findings_moved] at found
    have fromStart : (Scanner.ofBuffer ⟨name, marker ++ later⟩ diagnostics).reader.place.offset +
        byteLength marker.toList = size := Nat.zero_add _
    rw [fromStart] at found
    rw [tokenize_findings, found, isBehind]
    simp [Diagnostics.append, start]
  -- The tokens of a text without markers are where the text says, and the count starts at the
  -- line that is named.
  · intro token inTokens unmarked
    have located := Scanner.resume_located line isMarker.fits file later (cLanguage dialect) rfl
    rw [isBehind] at inTokens
    rcases List.mem_append.mp inTokens with inBody | isLast
    · exact located.tokens token inBody unmarked
    · rw [List.mem_singleton.mp isLast] at unmarked ⊢
      exact located.finish unmarked

/-- Zeros in front of the number, a quote in the name and a flag behind it. -/
theorem isLinemarker_escaped :
    IsLinemarker 7 "a\"b" "#line 007 \"a\\\"b\" 1\n".toList := by
  have isStart : IsMarkerStart ([] ++ 'l' :: 'i' :: 'n' :: 'e' :: [' ']) :=
    .line (by simp [AreBlanks]) (by simp [AreBlanks]) (by simp)
  have inLine : InLine "a\"b".toList ∧ InLine [' ', '1'] := by simp [InLine, isLineEnd]
  have isMarker : IsLinemarker 7 "a\"b" ('#' :: (_ ++ (['0', '0', '7'] ++ ([' '] ++
      ('"' :: (escapedName "a\"b".toList ++ '"' :: [' ', '1'])))) ++ ['\n'])) :=
    .mk isStart (by simp) (List.all_eq_true.mp (by decide)) (by decide) (by decide)
      (by simp [AreBlanks]) inLine.1 inLine.2
  have isText : "#line 007 \"a\\\"b\" 1\n".toList = _ := String.toList_ofList
  rw [isText]
  exact isMarker

theorem tokenize_linemarker_escaped :
    let marker := "#line 007 \"a\\\"b\" 1\n"
    let start := Scanner.resume ⟨"a\"b", 7, 1, 0⟩ "x\ny".toList
    let behind := start.drain (cLanguage gnuC17) #[]
    let size := byteLength marker.toList
    IsLinemarker 7 "a\"b" marker.toList ∧
      tokenize (cLanguage gnuC17) ⟨"<input>", marker ++ "x\ny"⟩ .empty =
        (⟨behind.1.body.map (Token.shift size), behind.1.endLocation.shift size⟩,
          Diagnostics.empty.append ⟨behind.2.entries.map (Diagnostic.shift size)⟩) ∧
      ∀ token ∈ behind.1.toList, start.Unmarked (cLanguage gnuC17) token.location ∧
        let place := SourceBuffer.locationAt ⟨"a\"b", "x\ny"⟩ token.location.offset
        token.location =
          { place with line := min (7 + place.line - 1) Linemarker.maxLine } := by
  intro marker start behind size
  obtain ⟨same, located⟩ :=
    tokenize_linemarker gnuC17 isLinemarker_escaped "<input>" "x\ny" .empty
  have unmarked : ∀ location, start.Unmarked (cLanguage gnuC17) location :=
    Scanner.unmarked_of_noDirectives (.inr (by decide))
  exact ⟨isLinemarker_escaped, same, fun token inTokens =>
    ⟨unmarked _, located token inTokens (unmarked _)⟩⟩

end CFrontEnd
