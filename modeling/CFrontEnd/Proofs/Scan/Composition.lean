import Mathlib.Data.List.Basic
import CFrontEnd.Proofs.Scan.LineBoundary
import CFrontEnd.Proofs.Scan.Partition

/-!
A text behind a line end is scanned as if a new scanner began there, in the file and line that were
reached.
-/

namespace CFrontEnd

/-! ## Offsets -/

/-- The same place in a text that has more bytes in front. -/
def Place.shift (amount : Nat) (place : Place) : Place :=
  { place with offset := place.offset + amount }

def SourceLocation.shift (amount : Nat) (location : SourceLocation) : SourceLocation :=
  { location with offset := location.offset + amount }

def Token.shift (amount : Nat) (token : Token) : Token :=
  { token with location := token.location.shift amount }

def Diagnostic.shift (amount : Nat) (diagnostic : Diagnostic) : Diagnostic :=
  { diagnostic with location := diagnostic.location.shift amount }

theorem Place.after_shift (amount : Nat) (place : Place) (character : Char) (next : Option Char) :
    (place.shift amount).after character next = (place.after character next).shift amount := by
  have offsets : place.offset + amount + character.utf8Size =
      place.offset + character.utf8Size + amount := by
    omega
  simp only [after, shift, newLine, offsets]
  split
  · rfl
  · split
    · split <;> rfl
    · rfl

@[simp] theorem Place.location_shift (amount : Nat) (place : Place) :
    (place.shift amount).location = place.location.shift amount :=
  rfl

def Reader.shift (amount : Nat) (reader : Reader) : Reader :=
  { reader with place := reader.place.shift amount }

theorem Reader.advance_shift (amount count : Nat) (reader : Reader) :
    (reader.shift amount).advance count = (reader.advance count).shift amount := by
  induction count generalizing reader with
  | zero => rfl
  | succ count ih =>
    obtain ⟨rest, place⟩ := reader
    cases rest with
    | nil => rfl
    | cons character rest =>
      have moved := ih ⟨rest, place.after character rest.head?⟩
      simp only [shift] at moved
      simp only [shift, advance, Place.after_shift, moved]

theorem byteLength_append (front back : List Char) :
    byteLength (front ++ back) = byteLength front + byteLength back := by
  induction front with
  | nil => simp [byteLength]
  | cons first front ih => rw [List.cons_append, byteLength, ih, byteLength, Nat.add_assoc]

theorem byteLength_take_lt {text : List Char} {fewer more : Nat} (inOrder : fewer < more)
    (inText : fewer < text.length) : byteLength (text.take fewer) < byteLength (text.take more) := by
  obtain ⟨difference, rfl⟩ : ∃ difference, more = fewer + (difference + 1) :=
    ⟨more - fewer - 1, by omega⟩
  have positive := text[fewer].utf8Size_pos
  rw [List.take_add, byteLength_append, List.drop_eq_getElem_cons inText, List.take_succ_cons,
    byteLength]
  omega

namespace Scanner

/-- The scanner of the same text with more bytes in front, and with other problems found there. -/
def moved (scanner : Scanner) (amount : Nat) (diagnostics : Diagnostics) : Scanner :=
  { scanner with reader := scanner.reader.shift amount, diagnostics := diagnostics }

/-- The problems of a segment, at the places of the scanner. -/
def problemsOf (scanner : Scanner) (segment : Segment) : List Diagnostic :=
  segment.problems.map (scanner.placed segment)

variable (scanner : Scanner) (segment : Segment) (amount : Nat) (diagnostics : Diagnostics)

theorem report_all_moved (start : Reader) (problems : List (Nat × LexicalProblem)) :
    problems.foldl (report (start.shift amount)) diagnostics =
      ⟨diagnostics.entries ++ (problems.map fun problem => Diagnostic.shift amount
        ⟨.lexical, (start.advance problem.1).place.location, problem.2.message⟩).toArray⟩ := by
  induction problems generalizing diagnostics with
  | nil => simp
  | cons problem rest ih =>
    have reported : report (start.shift amount) diagnostics problem =
        ⟨diagnostics.entries.push (Diagnostic.shift amount
          ⟨.lexical, (start.advance problem.1).place.location, problem.2.message⟩)⟩ := by
      rw [report, Reader.advance_shift]
      rfl
    rw [List.foldl_cons, ih, reported]
    simp

theorem skip_moved :
    (scanner.moved amount diagnostics).skip segment =
      (scanner.skip segment).moved amount ⟨diagnostics.entries ++
        ((scanner.problemsOf segment).map (Diagnostic.shift amount)).toArray⟩ := by
  have start : (scanner.moved amount diagnostics).segmentStart segment =
      (scanner.segmentStart segment).shift amount := rfl
  simp only [skip, start, report_all_moved, Reader.advance_shift, problemsOf, List.map_map]
  unfold moved
  split <;> rfl

theorem tokenOf_moved :
    (scanner.moved amount diagnostics).tokenOf segment =
      (scanner.tokenOf segment).map (Token.shift amount) := by
  unfold tokenOf
  split <;> rfl

end Scanner

/-! ## What a scanner finds -/

/-- The tokens and problems that a scanner still finds, and where its text ends. -/
structure Findings where
  tokens : List Token
  problems : List Diagnostic
  finish : SourceLocation

namespace Scanner

variable {language : Language} {scanner : Scanner}

/-- Induction on what is left of a text, one segment a step. -/
@[elab_as_elim]
theorem segmentInduction (language : Language) {motive : Scanner → Prop}
    (ended : ∀ scanner : Scanner, scanner.reader.rest = [] → motive scanner)
    (step : ∀ (scanner : Scanner) (first : Char) (rest : List Char),
      scanner.reader.rest = first :: rest →
        motive (scanner.skip (scanner.segment language first rest)) → motive scanner)
    (scanner : Scanner) : motive scanner := by
  generalize length : scanner.reader.rest.length = bound
  induction bound using Nat.strongRecOn generalizing scanner with
  | ind bound ih =>
    cases ahead : scanner.reader.rest with
    | nil => exact ended scanner ahead
    | cons first rest =>
      -- A segment is never empty, so the text behind it is shorter.
      have shorter := scanner.skip_shortens (scanner.segment language first rest) first rest ahead
      exact step scanner first rest ahead (ih _ (length ▸ shorter) _ rfl)

def findings (language : Language) (scanner : Scanner) : Findings :=
  let result := (scanner.moved 0 .empty).drain language #[]
  ⟨result.1.body.toList, result.2.toList, result.1.endLocation⟩

/-- What a scanner finds does not depend on what was found before, and moves with its place. -/
theorem exists_findings (language : Language) (scanner : Scanner) :
    ∃ findings : Findings, ∀ amount diagnostics found,
      (scanner.moved amount diagnostics).drain language found =
        (⟨found ++ (findings.tokens.map (Token.shift amount)).toArray,
            findings.finish.shift amount⟩,
          ⟨diagnostics.entries ++
            (findings.problems.map (Diagnostic.shift amount)).toArray⟩) := by
  induction scanner using segmentInduction language with
  | ended scanner ahead =>
    refine ⟨⟨[], [], scanner.location⟩, fun amount diagnostics found => ?_⟩
    have movedAhead : (scanner.moved amount diagnostics).reader.rest = [] := ahead
    rw [drain_nil found movedAhead]
    simp [moved, location, Reader.shift]
  | step scanner first rest ahead ih =>
    obtain ⟨more, isMore⟩ := ih
    refine ⟨⟨(scanner.tokenOf (scanner.segment language first rest)).toList ++ more.tokens,
      scanner.problemsOf (scanner.segment language first rest) ++ more.problems, more.finish⟩,
      fun amount diagnostics found => ?_⟩
    have same : (scanner.moved amount diagnostics).segment language first rest =
        scanner.segment language first rest := rfl
    have movedAhead : (scanner.moved amount diagnostics).reader.rest = first :: rest := ahead
    rw [drain_cons found movedAhead, same, skip_moved, tokenOf_moved, isMore]
    cases scanner.tokenOf (scanner.segment language first rest) <;> simp

theorem drain_moved (amount : Nat) (diagnostics : Diagnostics) (found : Array Token) :
    (scanner.moved amount diagnostics).drain language found =
      (⟨found ++ ((scanner.findings language).tokens.map (Token.shift amount)).toArray,
          (scanner.findings language).finish.shift amount⟩,
        ⟨diagnostics.entries ++
          ((scanner.findings language).problems.map (Diagnostic.shift amount)).toArray⟩) := by
  obtain ⟨findings, isFound⟩ := exists_findings language scanner
  have noTokenShift : Token.shift 0 = id := rfl
  have noProblemShift : Diagnostic.shift 0 = id := rfl
  have same : scanner.findings language = findings := by
    simp only [Scanner.findings, isFound, noTokenShift, noProblemShift, List.map_id]
    simp [Diagnostics.empty, Diagnostics.toList]
    rfl
  rw [same, isFound]

theorem drain_findings (found : Array Token) :
    scanner.drain language found =
      (⟨found ++ (scanner.findings language).tokens.toArray, (scanner.findings language).finish⟩,
        ⟨scanner.diagnostics.entries ++ (scanner.findings language).problems.toArray⟩) := by
  have noTokenShift : Token.shift 0 = id := rfl
  have noProblemShift : Diagnostic.shift 0 = id := rfl
  have noShift (location : SourceLocation) : location.shift 0 = location := rfl
  have drained : scanner.drain language found = _ := drain_moved 0 scanner.diagnostics found
  rw [drained, noTokenShift, noProblemShift, noShift, List.map_id, List.map_id]

theorem findings_moved (amount : Nat) (diagnostics : Diagnostics) :
    (scanner.moved amount diagnostics).findings language =
      ⟨(scanner.findings language).tokens.map (Token.shift amount),
        (scanner.findings language).problems.map (Diagnostic.shift amount),
        (scanner.findings language).finish.shift amount⟩ := by
  have same : (scanner.moved amount diagnostics).moved 0 .empty = scanner.moved amount .empty := rfl
  rw [findings, same, drain_moved]
  simp [Diagnostics.empty, Diagnostics.toList]

theorem findings_nil (ended : scanner.reader.rest = []) :
    scanner.findings language = ⟨[], [], scanner.location⟩ := by
  have movedEnded : (scanner.moved 0 .empty).reader.rest = [] := ended
  rw [findings, drain_nil _ movedEnded]
  rfl

theorem findings_cons {first : Char} {rest : List Char}
    (ahead : scanner.reader.rest = first :: rest) :
    scanner.findings language =
      ⟨(scanner.tokenOf (scanner.segment language first rest)).toList ++
          ((scanner.skip (scanner.segment language first rest)).findings language).tokens,
        scanner.problemsOf (scanner.segment language first rest) ++
          ((scanner.skip (scanner.segment language first rest)).findings language).problems,
        ((scanner.skip (scanner.segment language first rest)).findings language).finish⟩ := by
  have movedAhead : (scanner.moved 0 .empty).reader.rest = first :: rest := ahead
  have same : (scanner.moved 0 .empty).segment language first rest =
      scanner.segment language first rest := rfl
  have noTokenShift : Token.shift 0 = id := rfl
  have noProblemShift : Diagnostic.shift 0 = id := rfl
  have noShift (location : SourceLocation) : location.shift 0 = location := rfl
  rw [findings, drain_cons _ movedAhead, same, skip_moved, drain_moved, tokenOf_moved]
  simp [noTokenShift, noProblemShift, noShift, Diagnostics.empty, Diagnostics.toList]

end Scanner

theorem tokenize_findings (language : Language) (buffer : SourceBuffer) (diagnostics : Diagnostics) :
    tokenize language buffer diagnostics =
      (⟨((Scanner.ofBuffer buffer diagnostics).findings language).tokens.toArray,
          ((Scanner.ofBuffer buffer diagnostics).findings language).finish⟩,
        ⟨diagnostics.entries ++
          ((Scanner.ofBuffer buffer diagnostics).findings language).problems.toArray⟩) := by
  rw [tokenize, Scanner.drain_findings, Array.empty_append]
  rfl

/-! ## Line boundaries -/

theorem Reader.advance_append {rest : List Char} {count : Nat} (place : Place) (later : List Char)
    (ends : EndsWithLineFeed rest) (short : count ≤ rest.length) :
    advance count ⟨rest ++ later, place⟩ =
      ⟨(advance count ⟨rest, place⟩).rest ++ later, (advance count ⟨rest, place⟩).place⟩ := by
  induction count generalizing rest place with
  | zero => rfl
  | succ count ih =>
    cases rest with
    | nil => cases ends
    | cons first rest =>
      cases rest with
      | nil =>
        obtain rfl := Option.some.inj ends
        obtain rfl : count = 0 := by simpa using short
        rfl
      | cons second rest => exact ih (place.after first (some second)) ends (by simpa using short)

/-- Within a line each character is one column. -/
theorem Reader.advance_inLine {front : List Char} (inLine : InLine front) (rest : List Char)
    (place : Place) :
    advance front.length ⟨front ++ rest, place⟩ =
      ⟨rest, { place with
        column := place.column + front.length, offset := place.offset + byteLength front }⟩ := by
  induction front generalizing place with
  | nil => rfl
  | cons first front ih =>
    obtain ⟨firstInLine, restInLine⟩ := inLine_cons.mp inLine
    simp only [isLineEnd, Bool.or_eq_false_iff] at firstInLine
    have after (next : Option Char) : place.after first next =
        { place with offset := place.offset + first.utf8Size, column := place.column + 1 } := by
      simp [Place.after, firstInLine]
    rw [List.length_cons, List.cons_append, advance, after, ih restInLine, byteLength, Nat.add_assoc,
      Nat.add_assoc, Nat.add_comm 1]

/-- At the end of the text a new line begins. -/
theorem Reader.advance_end {rest : List Char} (place : Place) (ends : EndsWithLineFeed rest) :
    (advance rest.length ⟨rest, place⟩).place.column = 1 ∧
      (advance rest.length ⟨rest, place⟩).place.atLineStart = true := by
  induction rest generalizing place with
  | nil => cases ends
  | cons first rest ih =>
    cases rest with
    | nil =>
      obtain rfl := Option.some.inj ends
      exact ⟨rfl, rfl⟩
    | cons second rest => exact ih _ ends

namespace Scanner

variable {dialect : Dialect} {scanner : Scanner} {segment : Segment}

/-- The scanner of a text with more text behind it. -/
def extended (scanner : Scanner) (later : List Char) : Scanner :=
  { scanner with reader := { scanner.reader with rest := scanner.reader.rest ++ later } }

/-- A new scanner that begins a line of a file. -/
def resume (finish : SourceLocation) (text : List Char) : Scanner :=
  { reader := ⟨text, { file := finish.file, line := finish.line }⟩, diagnostics := .empty }

theorem tokenOf_extended (later : List Char) (short : segment.length ≤ scanner.reader.rest.length) :
    (scanner.extended later).tokenOf segment = scanner.tokenOf segment := by
  unfold tokenOf
  split
  · have taken : (scanner.extended later).reader.rest.take segment.length =
        scanner.reader.rest.take segment.length := List.take_append_of_le_length short
    rw [taken]
    rfl
  · rfl

theorem problemsOf_extended (later : List Char) (ends : EndsWithLineFeed scanner.reader.rest)
    (short : segment.length ≤ scanner.reader.rest.length) (within : segment.ProblemsWithin) :
    (scanner.extended later).problemsOf segment = scanner.problemsOf segment := by
  refine List.map_congr_left fun problem inList => ?_
  have bound := within problem inList
  have advanced := Reader.advance_append (scanner.segmentStart segment).place later ends
    (show problem.1 ≤ _ by omega)
  have start : (scanner.extended later).segmentStart segment =
      ⟨scanner.reader.rest ++ later, (scanner.segmentStart segment).place⟩ := rfl
  rw [placed, placed, start, advanced]
  rfl

theorem skip_extended (later : List Char) (ends : EndsWithLineFeed scanner.reader.rest)
    (short : segment.length ≤ scanner.reader.rest.length) (within : segment.ProblemsWithin) :
    (scanner.extended later).skip segment = (scanner.skip segment).extended later := by
  have start : (scanner.extended later).segmentStart segment =
      ⟨scanner.reader.rest ++ later, (scanner.segmentStart segment).place⟩ := rfl
  have reported : segment.problems.foldl (report ((scanner.extended later).segmentStart segment))
      scanner.diagnostics =
        segment.problems.foldl (report (scanner.segmentStart segment)) scanner.diagnostics := by
    refine List.foldl_ext _ _ _ fun diagnostics problem inList => ?_
    have bound := within problem inList
    rw [report, report, start, Reader.advance_append _ later ends (by omega)]
    rfl
  have advanced := Reader.advance_append (scanner.segmentStart segment).place later ends short
  rw [← start] at advanced
  have sameDiagnostics : (scanner.extended later).diagnostics = scanner.diagnostics := rfl
  simp only [skip, advanced, sameDiagnostics, reported]
  unfold extended
  split <;> rfl

/-- Behind the last line feed of a text there is the beginning of a line. -/
theorem skip_end (ends : EndsWithLineFeed scanner.reader.rest)
    (short : segment.length ≤ scanner.reader.rest.length)
    (ended : (scanner.skip segment).reader.rest = []) :
    (scanner.skip segment).reader.place.column = 1 ∧
      (scanner.skip segment).reader.place.atLineStart = true := by
  rw [rest_skip, List.drop_eq_nil_iff] at ended
  have whole : segment.length = scanner.reader.rest.length := Nat.le_antisymm short ended
  have atEnd := Reader.advance_end (scanner.segmentStart segment).place ends
  rw [← whole] at atEnd
  simp only [skip]
  split
  · exact ⟨rfl, atEnd.2⟩
  · exact atEnd

end Scanner

/-- The findings in a text and in the text behind it, which was scanned on its own. -/
def Findings.followedBy (before behind : Findings) : Findings :=
  ⟨before.tokens ++ behind.tokens.map (Token.shift before.finish.offset),
    before.problems ++ behind.problems.map (Diagnostic.shift before.finish.offset),
    behind.finish.shift before.finish.offset⟩

namespace Scanner

variable {dialect : Dialect} {scanner : Scanner}

/-- What is left of a text closes its last line and all of its comments. -/
structure Closes (dialect : Dialect) (scanner : Scanner) : Prop where
  notFinished : scanner.finished = false
  lines : scanner.reader.rest ≠ [] → EndsWithLineFeed scanner.reader.rest
  atEnd : scanner.reader.rest = [] →
    scanner.reader.place.column = 1 ∧ scanner.reader.place.atLineStart = true
  comments : ∀ problem ∈ (scanner.findings (cLanguage dialect)).problems,
    problem.message ≠ "unterminated comment"

namespace Closes

variable {first : Char} {rest : List Char}

theorem lineAhead (closes : scanner.Closes dialect) (ahead : scanner.reader.rest = first :: rest) :
    EndsWithLineFeed (first :: rest) := by
  have ends := closes.lines (by simp [ahead])
  rwa [ahead] at ends

theorem notOpen (closes : scanner.Closes dialect) (ahead : scanner.reader.rest = first :: rest) :
    (scanner.segment (cLanguage dialect) first rest).kind ≠ .blockComment false := by
  intro isComment
  have reported := Segment.first_reportsOpenComment _ _ _ isComment
  refine closes.comments (scanner.placed (scanner.segment (cLanguage dialect) first rest)
    (0, .unterminatedComment)) ?_ rfl
  rw [findings_cons ahead]
  exact List.mem_append_left _ (List.mem_map_of_mem reported)

theorem segment_le (closes : scanner.Closes dialect) (ahead : scanner.reader.rest = first :: rest) :
    (scanner.segment (cLanguage dialect) first rest).length ≤ scanner.reader.rest.length := by
  rw [ahead]
  exact Segment.first_length_le (closes.lineAhead ahead)

theorem skip (closes : scanner.Closes dialect) (ahead : scanner.reader.rest = first :: rest) :
    (scanner.skip (scanner.segment (cLanguage dialect) first rest)).Closes dialect where
  notFinished := closes.notFinished
  lines notEmpty := by
    rw [rest_skip] at notEmpty ⊢
    refine (closes.lines (by simp [ahead])).drop ?_
    by_contra atLeast
    exact notEmpty (List.drop_eq_nil_of_le (by omega))
  atEnd := skip_end (closes.lines (by simp [ahead])) (closes.segment_le ahead)
  comments problem inRest := by
    refine closes.comments problem ?_
    rw [findings_cons ahead]
    exact List.mem_append_right _ inRest

/-- The first segment does not depend on the text that is put behind. -/
theorem segment_extended (closes : scanner.Closes dialect)
    (ahead : scanner.reader.rest = first :: rest) (later : List Char) :
    (scanner.extended later).segment (cLanguage dialect) first (rest ++ later) =
      scanner.segment (cLanguage dialect) first rest :=
  Segment.first_append (closes.lineAhead ahead) (closes.notOpen ahead)

end Closes

/-- Between two lines the scanner knows nothing but the file, the line and the offset. -/
theorem findings_extended (later : List Char) (closes : scanner.Closes dialect) :
    (scanner.extended later).findings (cLanguage dialect) =
      (scanner.findings (cLanguage dialect)).followedBy
        ((resume (scanner.findings (cLanguage dialect)).finish later).findings
          (cLanguage dialect)) := by
  induction scanner using segmentInduction (cLanguage dialect) with
  | ended scanner ahead =>
    have notFinished := closes.notFinished
    obtain ⟨atColumn, atStart⟩ := closes.atEnd ahead
    have resumed : scanner.extended later =
        (resume scanner.location later).moved scanner.location.offset scanner.diagnostics := by
      obtain ⟨⟨rest, ⟨file, line, column, offset, atLineStart⟩⟩, diagnostics, finished⟩ := scanner
      simp only at ahead atColumn atStart notFinished
      subst ahead atColumn atStart notFinished
      simp [extended, resume, moved, Reader.shift, Place.shift, location, Place.location]
    rw [resumed, findings_moved, findings_nil ahead]
    simp [Findings.followedBy]
  | step scanner first rest ahead ih =>
    have ends := closes.lines (by simp [ahead])
    have short := closes.segment_le ahead
    have within : (scanner.segment (cLanguage dialect) first rest).ProblemsWithin :=
      Segment.first_problemsWithin _ _ _
    have extendedAhead : (scanner.extended later).reader.rest = first :: (rest ++ later) := by
      simp [extended, ahead]
    rw [findings_cons extendedAhead, closes.segment_extended ahead,
      skip_extended later ends short within, ih (closes.skip ahead), tokenOf_extended later short,
      problemsOf_extended later ends short within, findings_cons ahead]
    simp [Findings.followedBy]

/-- A text ends where its bytes end. -/
theorem offset_finish (language : Language) (scanner : Scanner) :
    (scanner.findings language).finish.offset =
      scanner.reader.place.offset + byteLength scanner.reader.rest := by
  induction scanner using segmentInduction language with
  | ended scanner ahead =>
    rw [findings_nil ahead, ahead]
    rfl
  | step scanner first rest ahead ih =>
    rw [findings_cons ahead, ih, offset_skip, rest_skip, Nat.add_assoc, ← byteLength_append,
      List.take_append_drop]

theorem offset_placed (scanner : Scanner) (segment : Segment) (problem : Nat × LexicalProblem) :
    (scanner.placed segment problem).location.offset =
      scanner.reader.place.offset + byteLength (scanner.reader.rest.take problem.1) :=
  Reader.offset_advance problem.1 (scanner.segmentStart segment)

/-- No problem is found in front of the place of the scanner. -/
theorem offset_le_of_problem {language : Language} {scanner : Scanner} {problem : Diagnostic}
    (inFindings : problem ∈ (scanner.findings language).problems) :
    scanner.reader.place.offset ≤ problem.location.offset := by
  induction scanner using segmentInduction language with
  | ended scanner ahead =>
    rw [findings_nil ahead] at inFindings
    cases inFindings
  | step scanner first rest ahead ih =>
    rw [findings_cons ahead] at inFindings
    rcases List.mem_append.mp inFindings with isFirst | inRest
    · obtain ⟨found, _, rfl⟩ := List.mem_map.mp isFirst
      rw [offset_placed]
      exact Nat.le_add_right _ _
    · have behind := ih inRest
      rw [offset_skip] at behind
      omega

theorem location_of_tokenOf {segment : Segment} {token : Token}
    (isToken : scanner.tokenOf segment = some token) :
    token.location = scanner.location := by
  unfold tokenOf at isToken
  split at isToken
  · rw [← Option.some.inj isToken]
  · cases isToken

/-- A segment moves the scanner on. -/
theorem offset_lt_skip {first : Char} {rest : List Char} (segment : Segment)
    (ahead : scanner.reader.rest = first :: rest) :
    scanner.reader.place.offset < (scanner.skip segment).reader.place.offset := by
  have further := byteLength_take_lt segment.length_pos
    (show 0 < scanner.reader.rest.length by simp [ahead])
  rw [offset_skip]
  omega

end Scanner

/-- Scanning composes at line ends: behind a text that ends with LF and leaves no comment open, any
text has the tokens and problems that it has for a scanner of its own, which begins in the file and
line where the first text ends. Only the offsets go on counting. -/
theorem tokenize_append (dialect : Dialect) (name text later : String) (diagnostics : Diagnostics)
    (closesLine : text.toList.getLast? = some '\n')
    (closed : ∀ problem ∈ (tokenize (cLanguage dialect) ⟨name, text⟩ .empty).2.toList,
      problem.message ≠ "unterminated comment") :
    let before := tokenize (cLanguage dialect) ⟨name, text⟩ diagnostics
    let behind := (Scanner.resume before.1.endLocation later.toList).drain (cLanguage dialect) #[]
    let size := byteLength text.toList
    tokenize (cLanguage dialect) ⟨name, text ++ later⟩ diagnostics =
      (⟨before.1.body ++ behind.1.body.map (Token.shift size), behind.1.endLocation.shift size⟩,
        before.2.append ⟨behind.2.entries.map (Diagnostic.shift size)⟩) := by
  intro before behind size
  let own := (Scanner.ofBuffer ⟨name, text⟩ .empty).findings (cLanguage dialect)
  let next := (Scanner.resume own.finish later.toList).findings (cLanguage dialect)
  have ownSame : (Scanner.ofBuffer ⟨name, text⟩ diagnostics).findings (cLanguage dialect) = own := rfl
  have beforeSame : before = (⟨own.tokens.toArray, own.finish⟩,
      ⟨diagnostics.entries ++ own.problems.toArray⟩) := by
    simp only [before, tokenize, Scanner.drain_findings, ownSame]
    simp [Scanner.ofBuffer]
  have behindSame : behind = (⟨next.tokens.toArray, next.finish⟩, ⟨next.problems.toArray⟩) := by
    simp only [behind, beforeSame, Scanner.drain_findings]
    simp [Scanner.resume, Diagnostics.empty, next]
  -- The whole text is the first one with the second behind what is left to read.
  have joined : Scanner.ofBuffer ⟨name, text ++ later⟩ diagnostics =
      (Scanner.ofBuffer ⟨name, text⟩ diagnostics).extended later.toList := by
    simp [Scanner.ofBuffer, Scanner.extended, SourceBuffer.characters]
  have ownClosed : ∀ problem ∈ own.problems, problem.message ≠ "unterminated comment" := by
    intro problem inOwn
    refine closed problem ?_
    rw [tokenize, Scanner.drain_findings, Diagnostics.toList, Array.toList_append]
    exact List.mem_append_right _ inOwn
  have ends : EndsWithLineFeed text.toList := closesLine
  have together : ((Scanner.ofBuffer ⟨name, text⟩ diagnostics).extended later.toList).findings
      (cLanguage dialect) = _ :=
    Scanner.findings_extended later.toList
      ⟨rfl, fun _ => ends, fun empty => absurd empty ends.ne_nil, ownClosed⟩
  have sizeSame : own.finish.offset = size := by
    rw [Scanner.offset_finish]
    exact Nat.zero_add _
  rw [tokenize, joined, Scanner.drain_findings, together, ownSame, beforeSame, behindSame]
  simp [Findings.followedBy, sizeSame, Diagnostics.append, Scanner.extended, Scanner.ofBuffer, next]

theorem tokenize_append_linemarker :
    let text := "# 7\n"
    let before := tokenize (cLanguage {}) ⟨"a.c", text⟩ .empty
    let behind := (Scanner.resume before.1.endLocation "y".toList).drain (cLanguage {}) #[]
    text.toList.getLast? = some '\n' ∧
      (∀ problem ∈ before.2.toList, problem.message ≠ "unterminated comment") ∧
      tokenize (cLanguage {}) ⟨"a.c", text ++ "y"⟩ .empty =
        (⟨before.1.body ++ behind.1.body.map (Token.shift (byteLength text.toList)),
            behind.1.endLocation.shift (byteLength text.toList)⟩,
          before.2.append ⟨behind.2.entries.map (Diagnostic.shift (byteLength text.toList))⟩) := by
  let scanner := Scanner.ofBuffer ⟨"a.c", "# 7\n"⟩ .empty
  let segment := scanner.segment (cLanguage {}) '#' [' ', '7', '\n']
  have noProblems : segment.problems = [] := rfl
  have whole : segment.length = 4 := by decide
  have ended : (scanner.skip segment).reader.rest = [] := by
    rw [Scanner.rest_skip, whole]
    rfl
  have closed : ∀ problem ∈ (tokenize (cLanguage {}) ⟨"a.c", "# 7\n"⟩ .empty).2.toList,
      problem.message ≠ "unterminated comment" := by
    have ahead : scanner.reader.rest = ['#', ' ', '7', '\n'] := rfl
    have findings : scanner.findings (cLanguage {}) = _ := Scanner.findings_cons ahead
    rw [Scanner.findings_nil ended, Scanner.problemsOf, noProblems] at findings
    rw [tokenize, Scanner.drain_findings, findings]
    intro problem inEmpty
    cases inEmpty
  exact ⟨rfl, closed, tokenize_append {} "a.c" "# 7\n" "y" .empty rfl closed⟩

end CFrontEnd
