import CFrontEnd.Proofs.Scan.Totality

/-!
The scanner counts lines and columns as it goes, and a source buffer looks them up in the table of its
line starts. As long as no linemarker is read both give the same place for every token and for every
problem, but for the number that the scanner gives the first line.
-/

namespace CFrontEnd

/-- Whether a line ends with `character`, in front of `next`. -/
def closesLine (character : Char) (next : Option Char) : Bool :=
  character == '\n' || (character == '\r' && next != some '\n')

/-! ## The counting place -/

namespace Place

theorem location_after_closing {place : Place} {character : Char} {next : Option Char}
    (closes : closesLine character next = true) :
    (place.after character next).location =
      ⟨place.file, min (place.line + 1) Linemarker.maxLine, 1,
        place.offset + character.utf8Size⟩ := by
  simp only [closesLine, Bool.or_eq_true, Bool.and_eq_true, bne_iff_ne] at closes
  simp only [after]
  split
  · rfl
  · rename_i notFeed
    obtain ⟨isReturn, notBoth⟩ := closes.resolve_left notFeed
    rw [if_pos isReturn, if_neg (by simpa using notBoth)]
    rfl

theorem location_after_inLine {place : Place} {character : Char} {next : Option Char}
    (inLine : closesLine character next = false) :
    (place.after character next).location =
      ⟨place.file, place.line, if character = '\r' then place.column else place.column + 1,
        place.offset + character.utf8Size⟩ := by
  simp only [closesLine, Bool.or_eq_false_iff, Bool.and_eq_false_iff, beq_eq_false_iff_ne, ne_eq,
    bne_eq_false_iff_eq] at inLine
  obtain ⟨notFeed, both⟩ := inLine
  simp only [after, beq_iff_eq, notFeed, if_false]
  split
  · rename_i isReturn
    rw [if_pos (both.resolve_left (not_not_intro isReturn))]
    rfl
  · rfl

end Place

/-! ## The table of line starts -/

theorem dropBytes_append (front back : List Char) :
    dropBytes (byteLength front) (front ++ back) = back := by
  induction front with
  | nil => simp [byteLength, dropBytes]
  | cons first front ih =>
    have positive := first.utf8Size_pos
    obtain ⟨fewer, same⟩ : ∃ fewer, byteLength (first :: front) = fewer + 1 :=
      ⟨byteLength (first :: front) - 1, by rw [byteLength]; omega⟩
    rw [same, List.cons_append, dropBytes, ← same, byteLength, Nat.add_sub_cancel_left, ih]
    omega

theorem byteLength_concat (text : List Char) (character : Char) :
    byteLength (text ++ [character]) = byteLength text + character.utf8Size := by
  simp [byteLength_append, byteLength]

namespace SourceBuffer

theorem startsBefore_append (offset : Nat) (front back : List Char) :
    startsBefore (offset + byteLength front) offset (front ++ back) = front.length := by
  induction front generalizing offset with
  | nil => cases back <;> simp [startsBefore, byteLength]
  | cons first front ih =>
    have positive := first.utf8Size_pos
    have before : offset < offset + byteLength (first :: front) := by
      rw [byteLength]
      omega
    rw [List.cons_append, startsBefore, if_pos before, byteLength, ← Nat.add_assoc, ih,
      List.length_cons, Nat.add_comm]

/-- The table has one step for each character, which looks at the one behind it. -/
theorem lineStartsFrom_cons (offset : Nat) (character : Char) (rest : List Char) :
    lineStartsFrom offset (character :: rest) =
      (if closesLine character rest.head? then [offset + character.utf8Size] else []) ++
        lineStartsFrom (offset + character.utf8Size) rest := by
  have oneByte : '\r'.utf8Size = 1 ∧ '\n'.utf8Size = 1 := by decide
  conv => lhs; unfold lineStartsFrom
  split
  · rename_i isEmpty
    cases isEmpty
  · rename_i later same
    obtain ⟨rfl, rfl⟩ := List.cons.inj same
    simp [closesLine, oneByte, lineStartsFrom]
  · rename_i notFeed same
    obtain ⟨rfl, rfl⟩ := List.cons.inj same
    -- A carriage return closes the line unless a line feed is behind it.
    have closes : closesLine '\r' rest.head? = true := by
      cases rest with
      | nil => rfl
      | cons next rest =>
        have other : next ≠ '\n' := by
          rintro rfl
          exact notFeed _ rfl
        simp [closesLine, other]
    simp [closes, oneByte]
  · rename_i same
    obtain ⟨rfl, rfl⟩ := List.cons.inj same
    simp [closesLine, oneByte]
  · rename_i _ isReturn isFeed same
    obtain ⟨rfl, rfl⟩ := List.cons.inj same
    have notReturn : character ≠ '\r' := isReturn
    have notFeed : character ≠ '\n' := isFeed
    simp [closesLine, notReturn, notFeed]

theorem lt_of_mem_lineStartsFrom {offset start : Nat} {text : List Char}
    (isStart : start ∈ lineStartsFrom offset text) : offset < start := by
  induction text generalizing offset with
  | nil => cases isStart
  | cons character rest ih =>
    have positive := character.utf8Size_pos
    rw [lineStartsFrom_cons, List.mem_append] at isStart
    rcases isStart with isNext | isLater
    · split at isNext
      · rw [List.mem_singleton.mp isNext]
        omega
      · cases isNext
    · have behind := ih isLater
      omega

/-- A place in a text: behind the complete lines `earlier`, which begin at `starts` together with the
line that is reached, and behind `line`, which is the part of that line in front of `rest`. -/
structure Reached (buffer : SourceBuffer) (starts : List Nat) (earlier line rest : List Char) :
    Prop where
  text : buffer.characters = earlier ++ line ++ rest
  table : buffer.lineStarts = starts ++ lineStartsFrom (byteLength (earlier ++ line)) rest
  last : starts.getLast? = some (byteLength earlier)
  reached : ∀ start ∈ starts, start ≤ byteLength earlier

variable {buffer : SourceBuffer} {starts : List Nat} {earlier line rest : List Char}
  {character : Char}

theorem reached_nil (buffer : SourceBuffer) : buffer.Reached [0] [] [] buffer.characters :=
  ⟨rfl, rfl, rfl, by simp [byteLength]⟩

theorem Reached.locationAt (place : buffer.Reached starts earlier line rest) :
    buffer.locationAt (byteLength (earlier ++ line)) =
      ⟨buffer.name, starts.length, line.length + 1, byteLength (earlier ++ line)⟩ := by
  have inText : min (byteLength (earlier ++ line)) buffer.size = byteLength (earlier ++ line) := by
    rw [size, place.text, byteLength_append _ rest]
    omega
  have upTo : buffer.lineStarts.takeWhile (· ≤ byteLength (earlier ++ line)) = starts := by
    have ahead : (lineStartsFrom (byteLength (earlier ++ line)) rest).takeWhile
        (· ≤ byteLength (earlier ++ line)) = [] := by
      rw [List.takeWhile_eq_nil_iff]
      intro long
      have behind := lt_of_mem_lineStartsFrom (List.getElem_mem long)
      simpa using behind
    rw [place.table, List.takeWhile_append_of_pos, ahead, List.append_nil]
    intro start isStart
    have before := place.reached start isStart
    rw [byteLength_append]
    exact decide_eq_true (by omega)
  have lineStart : starts.getLastD 0 = byteLength earlier := by
    rw [List.getLastD_eq_getLast?, place.last, Option.getD_some]
  simp only [SourceBuffer.locationAt, inText, upTo, lineStart, place.text, List.append_assoc,
    dropBytes_append]
  rw [byteLength_append, startsBefore_append]

theorem Reached.close (place : buffer.Reached starts earlier line (character :: rest))
    (closes : closesLine character rest.head? = true) :
    buffer.Reached (starts ++ [byteLength (earlier ++ line ++ [character])])
      (earlier ++ line ++ [character]) [] rest := by
  refine ⟨?_, ?_, by simp, ?_⟩
  · rw [place.text]
    simp
  · rw [place.table, lineStartsFrom_cons, if_pos closes, List.append_nil, byteLength_concat,
      List.append_assoc]
  · intro start isStart
    rcases List.mem_append.mp isStart with isEarlier | isLast
    · have before := place.reached start isEarlier
      rw [List.append_assoc, byteLength_append]
      omega
    · rw [List.mem_singleton.mp isLast]

theorem Reached.extend (place : buffer.Reached starts earlier line (character :: rest))
    (inLine : closesLine character rest.head? = false) :
    buffer.Reached starts earlier (line ++ [character]) rest := by
  refine ⟨?_, ?_, place.last, place.reached⟩
  · rw [place.text]
    simp
  · rw [place.table, lineStartsFrom_cons, inLine, ← List.append_assoc earlier, byteLength_concat]
    rfl

/-- Where the scanner stands in front of `rest`, if it counts the lines of the text from `firstLine`.
Line numbers stop at the largest one, and between CR and LF the column is one behind that of the table. -/
inductive Counted (buffer : SourceBuffer) (firstLine : Nat) : List Char → SourceLocation → Prop
  | inLine {starts : List Nat} {earlier line rest : List Char} :
      buffer.Reached starts earlier line rest →
      Counted buffer firstLine rest
        ⟨buffer.name, min (firstLine + starts.length - 1) Linemarker.maxLine, line.length + 1,
          byteLength (earlier ++ line)⟩
  | betweenEnds {starts : List Nat} {earlier line rest : List Char} :
      buffer.Reached starts earlier (line ++ ['\r']) ('\n' :: rest) →
      Counted buffer firstLine ('\n' :: rest)
        ⟨buffer.name, min (firstLine + starts.length - 1) Linemarker.maxLine, line.length + 1,
          byteLength (earlier ++ (line ++ ['\r']))⟩

/-- The place is that of the table, where the line number does not stop, and the lines are counted from
`firstLine`. -/
def Locates (buffer : SourceBuffer) (firstLine : Nat) (location : SourceLocation) : Prop :=
  location =
    { buffer.locationAt location.offset with
      line := min (firstLine + (buffer.locationAt location.offset).line - 1) Linemarker.maxLine }

theorem Counted.locates {firstLine : Nat} {location : SourceLocation}
    (counted : buffer.Counted firstLine rest location)
    (notFeed : rest.head? ≠ some '\n') : buffer.Locates firstLine location := by
  cases counted with
  | inLine place => rw [Locates, place.locationAt]
  | betweenEnds place => simp at notFeed

end SourceBuffer

/-! ## The scanner in its text -/

namespace Place

variable {buffer : SourceBuffer} {firstLine : Nat} {place : Place} {character : Char}
  {starts : List Nat} {earlier line rest : List Char}

theorem counted_closing (reached : buffer.Reached starts earlier line (character :: rest))
    (closes : closesLine character rest.head? = true) (isFile : place.file = buffer.name)
    (isLine : place.line = min (firstLine + starts.length - 1) Linemarker.maxLine)
    (isOffset : place.offset = byteLength (earlier ++ line)) :
    buffer.Counted firstLine rest (place.after character rest.head?).location := by
  have behind := @SourceBuffer.Counted.inLine buffer firstLine _ _ _ _ (reached.close closes)
  have oneLine : 0 < starts.length :=
    List.length_pos_of_mem (List.mem_of_mem_getLast? reached.last)
  have lineSame : min (min (firstLine + starts.length - 1) Linemarker.maxLine + 1)
      Linemarker.maxLine = min (firstLine + (starts.length + 1) - 1) Linemarker.maxLine := by
    omega
  rw [location_after_closing closes, isFile, isLine, isOffset, lineSame, ← byteLength_concat]
  simpa using behind

theorem counted_after (counted : buffer.Counted firstLine (character :: rest) place.location) :
    buffer.Counted firstLine rest (place.after character rest.head?).location := by
  generalize isPlace : place.location = location at counted
  generalize isAhead : character :: rest = ahead at counted
  cases counted with
  | @inLine starts earlier line _ reached =>
    subst isAhead
    obtain ⟨isFile, isLine, isColumn, isOffset⟩ := SourceLocation.mk.inj isPlace
    cases closes : closesLine character rest.head? with
    | true => exact counted_closing reached closes isFile isLine isOffset
    | false =>
      have behind := reached.extend closes
      rw [location_after_inLine closes, isFile, isLine, isColumn, isOffset, ← byteLength_concat,
        List.append_assoc]
      by_cases isReturn : character = '\r'
      · -- The CR is a column in the table and none to the scanner.
        subst isReturn
        obtain ⟨later, rfl⟩ : ∃ later, rest = '\n' :: later := by
          have feedAhead : rest.head? = some '\n' := by simpa [closesLine] using closes
          exact List.head?_eq_some_iff.mp feedAhead
        rw [if_pos rfl]
        exact .betweenEnds behind
      · rw [if_neg isReturn]
        simpa using @SourceBuffer.Counted.inLine buffer firstLine _ _ _ _ behind
  | @betweenEnds starts earlier line later reached =>
    -- The LF ends the line for both, and with it the difference of the columns.
    obtain ⟨rfl, rfl⟩ := List.cons.inj isAhead
    obtain ⟨isFile, isLine, _, isOffset⟩ := SourceLocation.mk.inj isPlace
    exact counted_closing reached rfl isFile isLine isOffset

end Place

theorem Reader.counted_advance {buffer : SourceBuffer} {firstLine : Nat} (count : Nat)
    {reader : Reader} (counted : buffer.Counted firstLine reader.rest reader.place.location) :
    buffer.Counted firstLine (reader.advance count).rest (reader.advance count).place.location := by
  induction count generalizing reader with
  | zero => exact counted
  | succ count ih =>
    obtain ⟨rest, place⟩ := reader
    cases rest with
    | nil => exact counted
    | cons character rest => exact ih (Place.counted_after counted)

/-! ## Where problems are -/

/-- The problems inside a literal are at its escapes, which do not end a line. -/
theorem QuotedReading.read_problem_inLine (encoding : Encoding) (quote escape : Char) (index : Nat)
    (input : List Char) :
    ∀ problem ∈ (read encoding quote escape index input).problems, ∃ inside,
      problem.1 = index + inside ∧ (input.drop inside).head? ≠ some '\n' := by
  fun_induction read encoding quote escape index input with
  | case1 => simp
  | case2 => simp
  | case3 => simp
  | case4 index first rest _ inLine _ sequence more ih =>
    intro problem inList
    simp only [List.mem_append, Option.mem_toList, Option.map_eq_some_iff] at inList
    rcases inList with ⟨_, _, rfl⟩ | inMore
    · refine ⟨0, rfl, ?_⟩
      rintro ⟨⟩
      exact inLine rfl
    · obtain ⟨inside, place, notFeed⟩ := ih problem inMore
      refine ⟨1 + sequence.length + inside, by omega, ?_⟩
      rwa [Nat.add_assoc, Nat.add_comm, List.drop_succ_cons, ← List.drop_drop]
  | case5 index first rest _ _ _ more ih =>
    intro problem inMore
    obtain ⟨inside, place, notFeed⟩ := ih problem inMore
    refine ⟨inside + 1, by omega, ?_⟩
    rwa [List.drop_succ_cons]

namespace Segment

variable {language : Language} {atLineStart : Bool} {first : Char} {rest : List Char}
  {segment : Segment}

def ProblemsInLine (input : List Char) (segment : Segment) : Prop :=
  ∀ problem ∈ segment.problems, (input.drop problem.1).head? ≠ some '\n'

theorem problemsInLine_of_zero (notFeed : first ≠ '\n')
    (atStart : ∀ problem ∈ segment.problems, problem.1 = 0) :
    segment.ProblemsInLine (first :: rest) := by
  intro problem inList
  rw [atStart problem inList]
  simpa using notFeed

theorem quotedAt?_problemsInLine {encoding : Encoding} {word input : List Char}
    (notFeed : (word ++ input).head? ≠ some '\n')
    (found : quotedAt? language encoding word.length input = some segment) :
    segment.ProblemsInLine (word ++ input) := by
  cases input with
  | nil => cases found
  | cons quote rest =>
    obtain ⟨_, _, _, last, problems, atStart⟩ := quotedAt?_shape found
    rw [ProblemsInLine, problems, List.forall_mem_append]
    constructor
    · intro problem inReading
      obtain ⟨inside, place, inLine⟩ := QuotedReading.read_problem_inLine encoding quote
        language.marks.escape (word.length + 1) rest problem inReading
      rw [place, Nat.add_assoc, List.drop_length_add_append, Nat.add_comm, List.drop_succ_cons]
      exact inLine
    · intro problem inLast
      rwa [literalProblems_atStart problem (atStart problem inLast)]

theorem tokenAt?_problemsInLine (notFeed : first ≠ '\n')
    (found : tokenAt? language first rest = some segment) :
    segment.ProblemsInLine (first :: rest) := by
  refine tokenAt?_of_rules ?_ ?_ ?_ found
  · exact fun isNumber => problemsInLine_of_zero notFeed (numberAt?_problem isNumber)
  · intro encoding word input isText isQuoted
    rw [← isText]
    refine quotedAt?_problemsInLine ?_ isQuoted
    simpa [isText] using notFeed
  · exact fun _ clean => problemsInLine_of_zero notFeed (by simp [clean])

theorem first_problemsInLine (notFeed : first ≠ '\n') :
    (Segment.first language atLineStart first rest).ProblemsInLine (first :: rest) := by
  have clean {candidate : Segment} (noProblems : candidate.problems = []) :
      candidate.ProblemsInLine (first :: rest) :=
    problemsInLine_of_zero notFeed (by simp [noProblems])
  refine first_of_rules (fun _ => clean rfl) (fun _ found => clean (spliceAt?_shape found).2)
    (fun _ found => clean (directiveAt?_shape found).2)
    (fun _ found => clean (lineCommentAt?_shape found).2) ?_
    (fun _ => tokenAt?_problemsInLine notFeed)
    (fun _ => problemsInLine_of_zero notFeed (by simp))
  intro segment found
  obtain ⟨closed, _, problems⟩ := blockCommentAt?_shape found
  refine problemsInLine_of_zero notFeed ?_
  rw [problems]
  split <;> simp

/-- What the segment says about the line that comes next. -/
def marker? (segment : Segment) : Option Linemarker :=
  match segment.kind with
  | .directive marker => marker
  | _ => none

/-- Linemarkers are found by the rule for directives. -/
theorem first_of_marker? {marker : Linemarker}
    (isMarker : (Segment.first language atLineStart first rest).marker? = some marker) :
    directiveAt? language atLineStart first rest =
      some (Segment.first language atLineStart first rest) := by
  have unmarked {segment : Segment} (noMarker : segment.marker? = none) :
      segment.marker? = some marker → directiveAt? language atLineStart first rest = some segment :=
    fun isMarker => absurd (noMarker.symm.trans isMarker) nofun
  refine @first_of_rules language atLineStart first rest
    (fun segment => segment.marker? = some marker →
      directiveAt? language atLineStart first rest = some segment)
    (fun _ => unmarked rfl) ?_ (fun _ found _ => found) ?_ ?_ ?_ (fun _ => unmarked rfl) isMarker
  · exact fun segment found => unmarked (by simp [marker?, (spliceAt?_shape found).1])
  · exact fun segment found => unmarked (by simp [marker?, (lineCommentAt?_shape found).1])
  · intro segment found
    obtain ⟨closed, isComment, _⟩ := blockCommentAt?_shape found
    exact unmarked (by simp [marker?, isComment])
  · intro segment found
    obtain ⟨kind, value, isToken, _⟩ := tokenAt?_isToken found
    exact unmarked (by simp [marker?, isToken])

theorem first_unmarked (noDirective : language.features.directives = false ∨ first ≠ '#') :
    (Segment.first language atLineStart first rest).marker? = none := by
  refine Option.eq_none_iff_forall_ne_some.mpr fun marker isMarker => ?_
  have found := first_of_marker? isMarker
  rcases noDirective with off | other
  · simp [directiveAt?, off] at found
  · simp [directiveAt?, other] at found

end Segment

/-! ## Everything that a scanner finds -/

namespace Scanner

variable {buffer : SourceBuffer} {firstLine : Nat} {language : Language} {scanner : Scanner}
  {segment : Segment}

/-- The offsets of the linemarkers that are still to come. -/
def markers (language : Language) (scanner : Scanner) : List Nat :=
  match _ : scanner.reader.rest with
  | [] => []
  | first :: rest =>
    let segment := scanner.segment language first rest
    let later := markers language (scanner.skip segment)
    if segment.marker?.isSome then scanner.reader.place.offset :: later else later
termination_by scanner.reader.rest.length
decreasing_by exact skip_shortens scanner _ first rest ‹_›

/-- No linemarker is read in front of a place. -/
def Unmarked (language : Language) (scanner : Scanner) (location : SourceLocation) : Prop :=
  ∀ offset ∈ scanner.markers language, location.offset ≤ offset

/-- What is found in front of the next linemarker is found where the table says. -/
structure FindsLocated (buffer : SourceBuffer) (firstLine : Nat) (language : Language)
    (scanner : Scanner) : Prop where
  tokens : ∀ token ∈ (scanner.findings language).tokens,
    scanner.Unmarked language token.location → buffer.Locates firstLine token.location
  problems : ∀ problem ∈ (scanner.findings language).problems,
    scanner.Unmarked language problem.location → buffer.Locates firstLine problem.location
  finish : scanner.Unmarked language (scanner.findings language).finish →
    buffer.Locates firstLine (scanner.findings language).finish

theorem markers_cons {first : Char} {rest : List Char} (ahead : scanner.reader.rest = first :: rest) :
    scanner.markers language =
      if (scanner.segment language first rest).marker?.isSome then
        scanner.reader.place.offset ::
          (scanner.skip (scanner.segment language first rest)).markers language
      else (scanner.skip (scanner.segment language first rest)).markers language := by
  rw [markers.eq_def]
  split
  · simp_all
  · rename_i same
    rw [ahead] at same
    obtain ⟨rfl, rfl⟩ := List.cons.inj same
    rfl

theorem counted_skip (counted : buffer.Counted firstLine scanner.reader.rest scanner.location)
    (unmarked : segment.marker? = none) :
    buffer.Counted firstLine (scanner.skip segment).reader.rest (scanner.skip segment).location := by
  have advanced : buffer.Counted firstLine
      ((scanner.segmentStart segment).advance segment.length).rest
      ((scanner.segmentStart segment).advance segment.length).place.location :=
    Reader.counted_advance segment.length counted
  have isReader : (scanner.skip segment).reader =
      (scanner.segmentStart segment).advance segment.length := by
    simp only [skip]
    split
    · rename_i marker isDirective
      simp [Segment.marker?, isDirective] at unmarked
    · rfl
  rw [location, isReader]
  exact advanced

theorem token_located {first : Char} {rest : List Char} {token : Token}
    (lineFeedBlank : language.classes.isBlank '\n' = true)
    (ahead : scanner.reader.rest = first :: rest)
    (counted : buffer.Counted firstLine scanner.reader.rest scanner.location)
    (isToken : scanner.tokenOf (scanner.segment language first rest) = some token) :
    buffer.Locates firstLine token.location := by
  -- An LF is blank, so the scanner is not between CR and LF.
  have notFeed : first ≠ '\n' := by
    rintro rfl
    simp [segment, Segment.first, lineFeedBlank, tokenOf] at isToken
  rw [location_of_tokenOf isToken]
  refine counted.locates ?_
  simpa [ahead] using notFeed

theorem problem_located {first : Char} {rest : List Char} {problem : Nat × LexicalProblem}
    (lineFeedBlank : language.classes.isBlank '\n' = true)
    (ahead : scanner.reader.rest = first :: rest)
    (counted : buffer.Counted firstLine scanner.reader.rest scanner.location)
    (isProblem : problem ∈ (scanner.segment language first rest).problems) :
    buffer.Locates firstLine
      (scanner.placed (scanner.segment language first rest) problem).location := by
  have notFeed : first ≠ '\n' := by
    rintro rfl
    simp [segment, Segment.first, lineFeedBlank] at isProblem
  have inLine := Segment.first_problemsInLine notFeed problem isProblem
  let start := scanner.segmentStart (scanner.segment language first rest)
  have startCounted : buffer.Counted firstLine start.rest start.place.location := counted
  refine (Reader.counted_advance problem.1 startCounted).locates ?_
  rw [Reader.rest_advance]
  rwa [← ahead] at inLine

/-- Behind a linemarker nothing is known of the lines, as it is read in front of all that is found there. -/
theorem unmarked_behind {first : Char} {rest : List Char} {place : SourceLocation}
    (ahead : scanner.reader.rest = first :: rest)
    (behind : (scanner.skip (scanner.segment language first rest)).reader.place.offset ≤ place.offset)
    (unmarked : scanner.Unmarked language place) :
    (scanner.segment language first rest).marker? = none ∧
      (scanner.skip (scanner.segment language first rest)).Unmarked language place := by
  rw [Unmarked, markers_cons ahead] at unmarked
  cases isMarker : (scanner.segment language first rest).marker? with
  | none =>
    rw [isMarker] at unmarked
    exact ⟨rfl, unmarked⟩
  | some marker =>
    rw [isMarker] at unmarked
    have inFront := unmarked _ List.mem_cons_self
    have further := offset_lt_skip (scanner.segment language first rest) ahead
    omega

theorem findings_located (lineFeedBlank : language.classes.isBlank '\n' = true)
    (counted : buffer.Counted firstLine scanner.reader.rest scanner.location) :
    scanner.FindsLocated buffer firstLine language := by
  induction scanner using segmentInduction language with
  | ended scanner ahead =>
    have nothing : scanner.findings language = _ := findings_nil ahead
    refine ⟨by simp [nothing], by simp [nothing], fun _ => ?_⟩
    rw [nothing]
    refine counted.locates ?_
    simp [ahead]
  | step scanner first rest ahead ih =>
    let segment := scanner.segment language first rest
    -- A linemarker replaces what was counted, so the rest is located only if this segment is
    -- none.
    have behind (unmarked : segment.marker? = none) :
        (scanner.skip segment).FindsLocated buffer firstLine language :=
      ih (counted_skip counted unmarked)
    refine ⟨?_, ?_, ?_⟩
    · intro token inTokens unmarked
      rw [findings_cons ahead] at inTokens
      rcases List.mem_append.mp inTokens with isFirst | isLater
      · exact token_located lineFeedBlank ahead counted (Option.mem_toList.mp isFirst)
      · have place := (((scanner.skip segment).findings_tile language).within isLater).1
        obtain ⟨noMarker, stillUnmarked⟩ := unmarked_behind ahead place unmarked
        exact (behind noMarker).tokens token isLater stillUnmarked
    · intro problem inProblems unmarked
      rw [findings_cons ahead] at inProblems
      rcases List.mem_append.mp inProblems with isFirst | isLater
      · obtain ⟨found, isProblem, rfl⟩ := List.mem_map.mp isFirst
        exact problem_located lineFeedBlank ahead counted isProblem
      · obtain ⟨noMarker, stillUnmarked⟩ :=
          unmarked_behind ahead (offset_le_of_problem isLater) unmarked
        exact (behind noMarker).problems problem isLater stillUnmarked
    · intro unmarked
      rw [findings_cons ahead] at unmarked ⊢
      have place := offset_finish language (scanner.skip segment)
      obtain ⟨noMarker, stillUnmarked⟩ :=
        unmarked_behind ahead (place ▸ Nat.le_add_right _ _) unmarked
      exact (behind noMarker).finish stillUnmarked

/-- Without directives there are no linemarkers. -/
theorem markers_eq_nil (noDirectives : language.features.directives = false ∨ '#' ∉ scanner.reader.rest) :
    scanner.markers language = [] := by
  fun_induction markers language scanner with
  | case1 => rfl
  | case2 scanner first rest ahead segment later isMarker ih =>
    have unmarked : segment.marker? = none := by
      refine Segment.first_unmarked (noDirectives.imp_right fun noMark => ?_)
      rintro rfl
      simp [ahead] at noMark
    simp [unmarked] at isMarker
  | case3 scanner first rest ahead segment later isMarker ih =>
    refine ih (noDirectives.imp_right fun noMark inRest => noMark ?_)
    rw [rest_skip] at inRest
    exact List.mem_of_mem_drop inRest

theorem unmarked_of_noDirectives
    (noDirectives : language.features.directives = false ∨ '#' ∉ scanner.reader.rest)
    (location : SourceLocation) : scanner.Unmarked language location := by
  intro offset isMarker
  rw [markers_eq_nil noDirectives] at isMarker
  cases isMarker

end Scanner

namespace SourceBuffer

variable {buffer : SourceBuffer}

theorem lineCount_le (buffer : SourceBuffer) : buffer.lineCount ≤ buffer.size + 1 := by
  have short (offset : Nat) (text : List Char) :
      (lineStartsFrom offset text).length ≤ byteLength text := by
    induction text generalizing offset with
    | nil => simp [lineStartsFrom]
    | cons character rest ih =>
      have positive := character.utf8Size_pos
      have behind := ih (offset + character.utf8Size)
      rw [lineStartsFrom_cons, byteLength, List.length_append]
      split
      · rw [List.length_singleton]
        omega
      · rw [List.length_nil]
        omega
  exact Nat.succ_le_succ (short 0 buffer.characters)

theorem Locates.eq {location : SourceLocation} (locates : buffer.Locates 1 location)
    (fewLines : buffer.lineCount ≤ Linemarker.maxLine) :
    location = buffer.locationAt location.offset := by
  have inTable : (buffer.locationAt location.offset).line ≤ buffer.lineCount :=
    (List.takeWhile_prefix _).length_le
  have noStop : min (1 + (buffer.locationAt location.offset).line - 1) Linemarker.maxLine =
      (buffer.locationAt location.offset).line := by
    omega
  rw [Locates, noStop] at locates
  exact locates

end SourceBuffer

/-- Every language to which an LF is blank finds its tokens and problems where the table says. -/
theorem tokenize_locates (language : Language) (buffer : SourceBuffer) (diagnostics : Diagnostics)
    (lineFeedBlank : language.classes.isBlank '\n' = true)
    (noDirectives : language.features.directives = false ∨ '#' ∉ buffer.characters) :
    (∀ token ∈ (tokenize language buffer diagnostics).1.toList, buffer.Locates 1 token.location) ∧
      ∃ problems, (tokenize language buffer diagnostics).2.toList = diagnostics.toList ++ problems ∧
        ∀ problem ∈ problems, buffer.Locates 1 problem.location := by
  let scanner := Scanner.ofBuffer buffer diagnostics
  have counted : buffer.Counted 1 scanner.reader.rest scanner.location := .inLine buffer.reached_nil
  have located : scanner.FindsLocated buffer 1 language :=
    Scanner.findings_located lineFeedBlank counted
  have unmarked : ∀ location, scanner.Unmarked language location :=
    Scanner.unmarked_of_noDirectives noDirectives
  rw [tokenize_findings]
  refine ⟨?_, (scanner.findings language).problems, ?_, fun problem inProblems =>
    located.problems problem inProblems (unmarked _)⟩
  · intro token inTokens
    rcases List.mem_append.mp inTokens with inBody | isLast
    · exact located.tokens token inBody (unmarked _)
    · rw [List.mem_singleton.mp isLast]
      exact located.finish (unmarked _)
  · rw [Diagnostics.toList, Array.toList_append]
    rfl

end CFrontEnd
