import CFrontEnd.Proofs.Scan.Linemarkers
import CFrontEnd.Proofs.Scan.Origins

/-!
What the scanner tells of a text fits into one line. A problem repeats characters of a token, and no token
goes over the end of a line. The files of places are named by the buffer or by linemarkers, which end
with their line.
-/

namespace CFrontEnd

/-! ## Texts in one line -/

theorem inLine_text_append {first second : String} (isFirst : InLine first.toList)
    (isSecond : InLine second.toList) : InLine (first ++ second).toList := by
  rw [String.toList_append]
  exact inLine_append.mpr ⟨isFirst, isSecond⟩

theorem inLine_toDigits {radix : Nat} (positive : 0 < radix) (few : radix ≤ 10) (value : Nat) :
    InLine (Nat.toDigits radix value) := fun _ inDigits =>
  (Linemarker.digit_facts (Nat.isDigit_of_mem_toDigits positive few inDigits)).2.1

theorem inLine_number (value : Nat) : InLine (toString value).toList := by
  have digits : (toString value).toList = Nat.toDigits 10 value := by simp
  rw [digits]
  exact inLine_toDigits (by decide) (by decide) value

theorem inLine_octalDigits (value : Nat) : InLine (octalDigits value).toList := by
  rw [octalDigits, String.toList_ofList, inLine_append]
  refine ⟨fun _ inZeros => ?_, inLine_toDigits (by decide) (by decide) value⟩
  rw [List.eq_of_mem_replicate inZeros]
  rfl

theorem SourceLocation.inLine_text {location : SourceLocation} (named : InLine location.file.toList) :
    InLine location.text.toList := by
  have colon : InLine ":".toList := inLine_ofList (by decide)
  exact inLine_text_append (inLine_text_append (inLine_text_append (inLine_text_append named colon)
    (inLine_number _)) colon) (inLine_number _)

theorem Diagnostic.inLine_text {diagnostic : Diagnostic}
    (named : InLine diagnostic.location.file.toList) (told : InLine diagnostic.message.toList) :
    InLine diagnostic.text.toList := by
  have kind : InLine diagnostic.kind.text.toList := by
    cases diagnostic.kind <;> exact inLine_ofList (by decide)
  exact inLine_text_append (inLine_text_append (inLine_text_append (inLine_text_append
    (SourceLocation.inLine_text named) (inLine_ofList (by decide))) kind) (inLine_ofList (by decide))) told

/-! ## Messages -/

namespace LexicalProblem

/-- What the message repeats of a token. -/
def repeated : LexicalProblem → String
  | .invalidIntegerSuffix suffix => suffix
  | .invalidFloatSuffix suffix => suffix
  | .malformedFloat constant => constant
  | .invalidOctalDigit digit => String.singleton digit
  | .unknownEscape character => String.singleton character
  | _ => ""

/-- A visible character is told as it is, and of the others the number. -/
theorem inLine_shown (character : Char) :
    InLine (if isAscii character && !isAsciiGraphic character then
      "\\" ++ octalDigits character.toNat else String.singleton character).toList := by
  split
  · exact inLine_text_append (inLine_ofList (by decide)) (inLine_octalDigits _)
  · rename_i visible
    rw [String.toList_singleton, inLine_cons]
    refine ⟨Bool.eq_false_iff.mpr fun ends => visible ?_, nofun⟩
    simp only [isLineEnd, Bool.or_eq_true, beq_iff_eq] at ends
    rcases ends with rfl | rfl <;> rfl

theorem inLine_message {problem : LexicalProblem} (inLine : InLine problem.repeated.toList) :
    InLine problem.message.toList := by
  have between {before behind : List Char} (begins : InLine before) (ends : InLine behind) :
      InLine (String.ofList before ++ problem.repeated ++ String.ofList behind).toList :=
    inLine_text_append (inLine_text_append (inLine_ofList begins) inLine) (inLine_ofList ends)
  cases problem with
  | stray character =>
    exact inLine_text_append (inLine_text_append (inLine_ofList (by decide)) (inLine_shown character))
      (inLine_ofList (by decide))
  | invalidIntegerSuffix suffix => exact between (by decide) (by decide)
  | invalidFloatSuffix suffix => exact between (by decide) (by decide)
  | malformedFloat constant => exact between (by decide) (by decide)
  | invalidOctalDigit digit => exact between (by decide) (by decide)
  | unknownEscape character => exact between (by decide) (by decide)
  | _ => exact inLine_ofList (by decide)

end LexicalProblem

theorem NumberText.Lacks.repeated {number : NumberText} {problem : LexicalProblem}
    (lacks : number.Lacks problem) : problem.repeated.toList ⊆ number.characters := by
  cases lacks with
  | integerSuffix => simp [LexicalProblem.repeated, characters]
  | floatSuffix => simp [LexicalProblem.repeated, characters]
  | form => simp [LexicalProblem.repeated, characters]
  | octalDigit inWhole => simp [LexicalProblem.repeated, characters, body, inWhole]
  | _ => exact List.nil_subset _

theorem EscapeReading.Lacks.repeated {problem : LexicalProblem} (lacks : Lacks problem) :
    InLine problem.repeated.toList := by
  cases lacks with
  | meaning inLine =>
    rw [LexicalProblem.repeated, String.toList_singleton]
    exact inLine_cons.mpr ⟨inLine, nofun⟩
  | _ => exact inLine_ofList (by decide)

/-! ## Segments -/

namespace Linemarker

theorem fileName_subset {text name : List Char} (found : fileName text = some name) : name ⊆ text := by
  fun_induction fileName text generalizing name with
  | case1 => cases found
  | case2 =>
    cases found
    exact List.nil_subset _
  | case3 => cases found
  | case4 character rest ih =>
    obtain ⟨inner, isInner, rfl⟩ := Option.map_eq_some_iff.mp found
    exact List.subset_cons_of_subset _ (List.cons_subset_cons _ (ih isInner))
  | case5 character rest _ _ _ ih =>
    obtain ⟨inner, isInner, rfl⟩ := Option.map_eq_some_iff.mp found
    exact List.cons_subset_cons _ (ih isInner)

theorem fileAt_subset {text : List Char} {file : String} (found : fileAt text = some file) :
    file.toList ⊆ text := by
  unfold fileAt at found
  split at found
  · obtain ⟨name, isName, rfl⟩ := Option.map_eq_some_iff.mp found
    rw [String.toList_ofList]
    exact List.subset_cons_of_subset _ (fileName_subset isName)
  · cases found

theorem skipLineWord_suffix (text : List Char) : skipLineWord text <:+ text := by
  unfold skipLineWord
  split
  · rename_i character rest
    split
    · exact (List.dropWhile_suffix _).trans (List.suffix_append ['l', 'i', 'n', 'e', character] rest)
    · exact List.suffix_refl _
  · exact List.suffix_refl _

/-- The characters of the file are characters of the line that names it. -/
theorem file_subset {text : List Char} {marker : Linemarker} {file : String}
    (read : parse? text = some marker) (named : file ∈ marker.file) : file.toList ⊆ text := by
  unfold parse? at read
  dsimp only at read
  split at read
  · cases read
  · obtain rfl := Option.some.inj read
    refine List.Subset.trans (fileAt_subset named) (List.IsSuffix.subset ?_)
    exact ((List.dropWhile_suffix _).trans (List.drop_suffix _ _)).trans
      ((skipLineWord_suffix _).trans (List.dropWhile_suffix _))

end Linemarker

namespace Segment

variable {dialect : Dialect} {atLineStart : Bool} {first : Char} {rest : List Char} {segment : Segment}

/-- What is wrong with the segment is told in one line. -/
def TellsInLine (segment : Segment) : Prop :=
  ∀ problem ∈ segment.problems, InLine problem.2.message.toList

theorem numberAt?_tellsInLine (found : numberAt? (cLanguage dialect) first rest = some segment) :
    segment.TellsInLine := by
  rw [TellsInLine, (numberAt?_shape found).2.2, List.forall_mem_map]
  intro problem inList
  have repeated := (NumberText.lacks_of_judge inList).repeated
  exact LexicalProblem.inLine_message fun character inMessage =>
    (number_starts dialect (first :: rest)).2 character (repeated inMessage)

theorem quotedAt?_tellsInLine {language : Language} {encoding : Encoding} {before : Nat}
    {input : List Char} (found : quotedAt? language encoding before input = some segment) :
    segment.TellsInLine := by
  cases input with
  | nil => cases found
  | cons quote rest =>
    obtain ⟨_, _, _, last, problems, whole⟩ := quotedAt?_shape found
    rw [TellsInLine, problems, List.forall_mem_append]
    constructor
    · intro problem inReading
      exact LexicalProblem.inLine_message (QuotedReading.lacks_of_read problem inReading).repeated
    · have told : ∀ problem ∈ literalProblems, InLine problem.2.message.toList := by decide
      exact fun problem inLast => told problem (whole problem inLast)

theorem first_tellsInLine :
    (Segment.first (cLanguage dialect) atLineStart first rest).TellsInLine := by
  have clean {candidate : Segment} (noProblems : candidate.problems = []) : candidate.TellsInLine := by
    simp [TellsInLine, noProblems]
  have token (candidate : Segment) (found : tokenAt? (cLanguage dialect) first rest = some candidate) :
      candidate.TellsInLine :=
    tokenAt?_of_rules numberAt?_tellsInLine (fun _ _ _ _ => quotedAt?_tellsInLine)
      (fun _ => clean) found
  refine first_of_rules (fun _ => clean rfl) (fun _ found => clean (spliceAt?_shape found).2)
    (fun _ found => clean (directiveAt?_shape found).2)
    (fun _ found => clean (lineCommentAt?_shape found).2) ?_ token ?_
  · intro segment found
    obtain ⟨closed, _, problems⟩ := blockCommentAt?_shape found
    rw [TellsInLine, problems]
    cases closed <;> decide
  · intro _ problem inList
    rw [List.mem_singleton.mp inList]
    have nothing : InLine "".toList := inLine_ofList nofun
    exact @LexicalProblem.inLine_message (.stray first) nothing

/-- A linemarker ends with its line, and so does the name in it. -/
theorem first_namesInLine {language : Language} {marker : Linemarker} {file : String}
    (isMarker : (Segment.first language atLineStart first rest).marker? = some marker)
    (named : file ∈ marker.file) : InLine file.toList := by
  have found := first_of_marker? isMarker
  unfold directiveAt? at found
  split at found
  · rw [← Option.some.inj found] at isMarker
    have line := (@StartsInLine.takeWhile (fun character => !isLineEnd character) rfl rfl rest).2
    exact fun character inFile => line character (Linemarker.file_subset isMarker named inFile)
  · cases found

end Segment

/-! ## Whole texts -/

theorem Reader.file_advance (count : Nat) (reader : Reader) :
    (reader.advance count).place.file = reader.place.file := by
  induction count generalizing reader with
  | zero => rfl
  | succ count ih =>
    obtain ⟨rest, place⟩ := reader
    cases rest with
    | nil => rfl
    | cons character rest =>
      rw [advance, ih]
      simp only [Place.after]
      split
      · rfl
      · split
        · split <;> rfl
        · rfl

namespace Scanner

variable {dialect : Dialect} {scanner : Scanner}

theorem inLine_skip {first : Char} {rest : List Char}
    (named : InLine scanner.reader.place.file.toList) :
    InLine (scanner.skip (scanner.segment (cLanguage dialect) first rest)).reader.place.file.toList := by
  simp only [skip]
  split
  · rename_i marker isDirective
    have isMarker : (scanner.segment (cLanguage dialect) first rest).marker? = some marker := by
      simp [Segment.marker?, isDirective]
    rw [Place.relocate, Reader.file_advance]
    cases isFile : marker.file with
    | none => exact named
    | some file => exact Segment.first_namesInLine isMarker isFile
  · rwa [Reader.file_advance]

theorem findings_inLine (named : InLine scanner.reader.place.file.toList) :
    (∀ token ∈ (scanner.findings (cLanguage dialect)).tokens, InLine token.location.file.toList) ∧
      (∀ problem ∈ (scanner.findings (cLanguage dialect)).problems, InLine problem.text.toList) ∧
      InLine (scanner.findings (cLanguage dialect)).finish.file.toList := by
  induction scanner using segmentInduction (cLanguage dialect) with
  | ended scanner ahead =>
    rw [findings_nil ahead]
    exact ⟨List.forall_mem_nil _, List.forall_mem_nil _, named⟩
  | step scanner first rest ahead ih =>
    obtain ⟨tokens, problems, finish⟩ := ih (inLine_skip named)
    rw [findings_cons ahead]
    refine ⟨List.forall_mem_append.mpr ⟨?_, tokens⟩, List.forall_mem_append.mpr ⟨?_, problems⟩, finish⟩
    · intro token isToken
      rw [location_of_tokenOf (Option.mem_toList.mp isToken)]
      exact named
    · rw [problemsOf, List.forall_mem_map]
      intro problem inSegment
      refine Diagnostic.inLine_text ?_ (Segment.first_tellsInLine problem inSegment)
      change InLine (Reader.advance problem.1 _).place.file.toList
      rwa [Reader.file_advance]

end Scanner

/-- The scanner tells its problems in one line each. -/
theorem tokenize_tellsInLine (dialect : Dialect) {buffer : SourceBuffer}
    (named : InLine buffer.name.toList) (diagnostics : Diagnostics) :
    let (tokens, after) := tokenize (cLanguage dialect) buffer diagnostics
    (∀ token ∈ tokens.body, InLine token.location.file.toList) ∧
      InLine tokens.endLocation.file.toList ∧
      ∃ new, after.toList = diagnostics.toList ++ new ∧ ∀ problem ∈ new, InLine problem.text.toList := by
  obtain ⟨tokens, problems, finish⟩ :=
    @Scanner.findings_inLine dialect (Scanner.ofBuffer buffer diagnostics) named
  rw [tokenize_findings]
  refine ⟨fun token inText => tokens token (List.mem_toArray.mp inText), finish, _, ?_, problems⟩
  simp [Diagnostics.toList]

end CFrontEnd
