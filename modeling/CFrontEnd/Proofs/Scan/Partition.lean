import CFrontEnd.Proofs.Scan.Segments

/-!
The scanner divides every text into pieces: no character is lost, taken twice or taken for something
else, and tokens and problems come from the pieces alone.
-/

namespace CFrontEnd

/-! ## Places -/

namespace Reader

theorem atLineStart_after (place : Place) (character : Char) (next : Option Char) :
    (place.after character next).atLineStart =
      (place.atLineStart || (character == '\n' || (character == '\r' && next != some '\n'))) := by
  simp only [Place.after]
  split
  · simp_all [Place.newLine]
  · split
    · split <;> simp_all [Place.newLine]
    · simp_all

theorem offset_after (place : Place) (character : Char) (next : Option Char) :
    (place.after character next).offset = place.offset + character.utf8Size := by
  simp only [Place.after]
  split
  · rfl
  · split
    · split <;> rfl
    · rfl

theorem offset_advance (count : Nat) (reader : Reader) :
    (reader.advance count).place.offset =
      reader.place.offset + byteLength (reader.rest.take count) := by
  induction count generalizing reader with
  | zero => simp [advance, byteLength]
  | succ count ih =>
      obtain ⟨rest, place⟩ := reader
      cases rest with
      | nil => simp [advance, byteLength]
      | cons character rest =>
        simp only [advance, ih, offset_after, List.take_succ_cons, byteLength, Nat.add_assoc]

theorem atLineStart_advance (count : Nat) (reader : Reader) :
    (reader.advance count).place.atLineStart =
      (reader.place.atLineStart ||
        endsLine (reader.rest.take count) (reader.rest.drop count).head?) := by
  induction count generalizing reader with
  | zero => simp [advance, endsLine]
  | succ count ih =>
      obtain ⟨rest, place⟩ := reader
      cases rest with
      | nil => simp [advance, endsLine]
      | cons character rest =>
        have following : (rest.take count).head?.or (rest.drop count).head? = rest.head? := by
          cases rest <;> cases count <;> simp
        simp only [advance, ih, atLineStart_after, List.take_succ_cons, List.drop_succ_cons,
          endsLine, following, Bool.or_assoc]

end Reader

namespace Scanner

variable (scanner : Scanner) (segment : Segment)

theorem offset_skip :
    (scanner.skip segment).reader.place.offset =
      scanner.reader.place.offset + byteLength (scanner.reader.rest.take segment.length) := by
  simp only [skip]
  split <;> simp only [Place.relocate, Reader.offset_advance] <;> rfl

theorem atLineStart_skip :
    (scanner.skip segment).reader.place.atLineStart =
      (scanner.reader.place.atLineStart && !segment.occupiesLine ||
        endsLine (scanner.reader.rest.take segment.length)
          (scanner.reader.rest.drop segment.length).head?) := by
  simp only [skip]
  split <;> simp only [Place.relocate, Reader.atLineStart_advance] <;> rfl

/-- A problem of a segment, at its place in the text. -/
def placed (problem : Nat × LexicalProblem) : Diagnostic :=
  ⟨.lexical, ((scanner.segmentStart segment).advance problem.1).place.location, problem.2.message⟩

theorem toList_report_all (start : Reader) (problems : List (Nat × LexicalProblem))
    (diagnostics : Diagnostics) :
    (problems.foldl (report start) diagnostics).toList =
      diagnostics.toList ++ problems.map fun problem =>
        ⟨.lexical, (start.advance problem.1).place.location, problem.2.message⟩ := by
  induction problems generalizing diagnostics with
  | nil => simp
  | cons problem rest ih => simp [ih, report]

theorem diagnostics_skip :
    (scanner.skip segment).diagnostics.toList =
      scanner.diagnostics.toList ++ segment.problems.map (scanner.placed segment) :=
  toList_report_all _ _ _

end Scanner

/-! ## Problems of layout -/

/-- Whether a message speaks of a stray character or of a comment that is not closed. -/
def isLayoutMessage (message : String) : Bool :=
  "stray ".toList.isPrefixOf message.toList || message == "unterminated comment"

theorem take_of_isLayoutMessage {message : String} (concerns : isLayoutMessage message = true) :
    message.toList.take 3 = ['s', 't', 'r'] ∨ message.toList.take 3 = ['u', 'n', 't'] := by
  simp only [isLayoutMessage, Bool.or_eq_true, List.isPrefixOf_iff_prefix, beq_iff_eq] at concerns
  rcases concerns with ⟨rest, same⟩ | rfl
  · left
    rw [← same]
    rfl
  · right
    decide

theorem not_isLayoutMessage_append {start : String} (rest : String) (long : 3 ≤ start.length)
    (notStray : start.toList.take 3 ≠ ['s', 't', 'r'])
    (notOpen : start.toList.take 3 ≠ ['u', 'n', 't']) : isLayoutMessage (start ++ rest) = false := by
  cases concerns : isLayoutMessage (start ++ rest) with
  | false => rfl
  | true =>
    have begins := take_of_isLayoutMessage concerns
    rw [String.toList_append, List.take_append_of_le_length (by rwa [String.length_toList])] at begins
    rcases begins with isStray | isOpen
    · exact absurd isStray notStray
    · exact absurd isOpen notOpen

theorem isLayoutMessage_stray (rest : String) : isLayoutMessage ("stray '" ++ rest) = true := by
  have begins : "stray ".toList <+: "stray '".toList := by decide
  simp only [isLayoutMessage, Bool.or_eq_true, List.isPrefixOf_iff_prefix, String.toList_append]
  exact .inl (begins.trans (List.prefix_append _ _))

/-- A message of layout is that of a problem of layout. -/
theorem isLayoutMessage_message (problem : LexicalProblem) :
    isLayoutMessage problem.message = problem.concernsLayout := by
  have around (start middle ending : String) (long : 3 ≤ start.length)
      (notStray : start.toList.take 3 ≠ ['s', 't', 'r'])
      (notOpen : start.toList.take 3 ≠ ['u', 'n', 't']) :
      isLayoutMessage (start ++ middle ++ ending) = false := by
    rw [String.append_assoc]
    exact not_isLayoutMessage_append _ long notStray notOpen
  cases problem with
  | stray character =>
    obtain ⟨shown, same⟩ : ∃ shown, (LexicalProblem.stray character).message =
        "stray '" ++ shown ++ "' in program" := ⟨_, rfl⟩
    rw [same, String.append_assoc]
    exact isLayoutMessage_stray _
  | invalidIntegerSuffix suffix =>
    exact around "invalid suffix '" suffix _ (by decide) (by decide) (by decide)
  | invalidFloatSuffix suffix =>
    exact around "invalid suffix '" suffix _ (by decide) (by decide) (by decide)
  | malformedFloat constant =>
    exact around "malformed floating constant '" constant _ (by decide) (by decide) (by decide)
  | invalidOctalDigit digit =>
    exact around "invalid digit '" (String.singleton digit) _ (by decide) (by decide) (by decide)
  | unknownEscape character =>
    exact around "unknown escape sequence '\\" (String.singleton character) _ (by decide)
      (by decide) (by decide)
  | _ => decide

/-! ## Division of a text -/

namespace Piece

def lexeme? (piece : Piece) : Option (List Char) :=
  if piece.kind = .token then some piece.text else none

def complaint? (piece : Piece) : Option String := piece.problem?.map LexicalProblem.message

/-- What is found in the pieces, with the offset of the piece. The first piece is at `offset`. -/
def placesOf {Found : Type} (find : Piece → Option Found) : Nat → List Piece → List (Nat × Found)
  | _, [] => []
  | offset, piece :: rest =>
    ((find piece).map fun found => (offset, found)).toList ++
      placesOf find (offset + byteLength piece.text) rest

end Piece

/-- The pieces make up the text that stands behind the earlier pieces, and each is of its kind and of
no other. -/
inductive Divides (dialect : Dialect) : List Piece → List Char → List Piece → Prop
  | nil (earlier : List Piece) : Divides dialect earlier [] []
  | cons {earlier : List Piece} {piece : Piece} {later : List Char} {pieces : List Piece} :
      (∀ kind, Describes dialect earlier piece.text later kind ↔ kind = piece.kind) →
      Divides dialect (earlier ++ [piece]) later pieces →
      Divides dialect earlier (piece.text ++ later) (piece :: pieces)

theorem Divides.textOf {dialect : Dialect} {earlier pieces : List Piece} {text : List Char}
    (divides : Divides dialect earlier text pieces) : Piece.textOf pieces = text := by
  induction divides with
  | nil => rfl
  | cons _ _ ih => rw [Piece.textOf_cons, ih]

namespace Scanner

variable {dialect : Dialect}

/-! ### One segment -/

theorem token_of_piece (scanner : Scanner) (segment : Segment) :
    ((scanner.tokenOf segment).toList.map fun token =>
      (token.location.offset, token.lexeme.toList)) =
    ((segment.piece scanner.reader.rest).lexeme?.map fun lexeme =>
      (scanner.reader.place.offset, lexeme)).toList := by
  cases kind : segment.kind with
  | blockComment closed =>
    cases closed <;> simp [tokenOf, Segment.piece, Piece.lexeme?, kind, SegmentKind.pieceKind]
  | token _ _ =>
    simp [tokenOf, Segment.piece, Piece.lexeme?, kind, SegmentKind.pieceKind, location,
      Place.location]
  | _ => simp [tokenOf, Segment.piece, Piece.lexeme?, kind, SegmentKind.pieceKind]

section Step

variable {earlier : List Piece} {segment : Segment} (scanner : Scanner)
  (fits : segment.Fits dialect earlier scanner.reader.rest)
include fits

theorem onTime_skip
    (onTime : scanner.reader.place.atLineStart = true ↔ AtLineStart earlier scanner.reader.rest) :
    (scanner.skip segment).reader.place.atLineStart = true ↔
      AtLineStart (earlier ++ [segment.piece scanner.reader.rest])
        (scanner.skip segment).reader.rest := by
  have occupies : (segment.piece scanner.reader.rest).occupiesLine = segment.occupiesLine := by
    simp only [Segment.piece, Piece.occupiesLine, Segment.occupiesLine]
    cases segment.kind with
    | blockComment closed => cases closed <;> rfl
    | _ => rfl
  rw [atLineStart_concat (Describes.inLine fits.describes), atLineStart_skip, rest_skip, occupies]
  simp [Segment.piece, onTime]

theorem problems_of_piece :
    (((segment.problems.map (scanner.placed segment)).filter fun problem =>
      isLayoutMessage problem.message).map fun problem =>
        (problem.location.offset, problem.message)) =
    ((segment.piece scanner.reader.rest).complaint?.map fun complaint =>
      (scanner.reader.place.offset, complaint)).toList := by
  have concerns : (fun problem : Diagnostic => isLayoutMessage problem.message) ∘
      scanner.placed segment = fun problem => problem.2.concernsLayout :=
    funext fun problem => isLayoutMessage_message problem.2
  have kept : (segment.problems.filter fun problem => problem.2.concernsLayout) = _ := fits.problems
  rw [List.filter_map, concerns, kept, Piece.complaint?]
  cases (segment.piece scanner.reader.rest).problem? <;> rfl

theorem divides_cons {pieces : List Piece}
    (divides : Divides dialect (earlier ++ [segment.piece scanner.reader.rest])
      (scanner.skip segment).reader.rest pieces) :
    Divides dialect earlier scanner.reader.rest
      (segment.piece scanner.reader.rest :: pieces) := by
  have only (kind : PieceKind) : Describes dialect earlier
      (segment.piece scanner.reader.rest).text (scanner.skip segment).reader.rest kind ↔
        kind = (segment.piece scanner.reader.rest).kind := by
    rw [rest_skip]
    constructor
    · intro describes
      exact describes.unique fits.describes
    · rintro rfl
      exact fits.describes
  have joined := Divides.cons only divides
  rwa [rest_skip, Segment.piece, List.take_append_drop] at joined

end Step

/-! ### All segments -/

/-- What a scanner still finds: pieces of the text ahead, their tokens and their problems. -/
structure Finds (dialect : Dialect) (scanner : Scanner) (earlier : List Piece) (tokens : List Token)
    (problems : List Diagnostic) : Prop where
  divides : ∃ pieces, Divides dialect earlier scanner.reader.rest pieces ∧
    (tokens.map fun token => (token.location.offset, token.lexeme.toList)) =
      Piece.placesOf Piece.lexeme? scanner.reader.place.offset pieces ∧
    ((problems.filter fun problem => isLayoutMessage problem.message).map fun problem =>
      (problem.location.offset, problem.message)) =
      Piece.placesOf Piece.complaint? scanner.reader.place.offset pieces
  notEnd : ∀ token ∈ tokens, token.kind ≠ .endOfFile

theorem Finds.step {scanner : Scanner} {earlier : List Piece} {segment : Segment}
    {tokens : List Token} {problems : List Diagnostic}
    (fits : segment.Fits dialect earlier scanner.reader.rest)
    (finds : Finds dialect (scanner.skip segment)
      (earlier ++ [segment.piece scanner.reader.rest]) tokens problems) :
    Finds dialect scanner earlier ((scanner.tokenOf segment).toList ++ tokens)
      (segment.problems.map (scanner.placed segment) ++ problems) := by
  obtain ⟨⟨pieces, divides, isToken, isProblem⟩, notEnd⟩ := finds
  refine ⟨⟨_, divides_cons scanner fits divides, ?_, ?_⟩, ?_⟩
  · rw [List.map_append, token_of_piece, isToken, offset_skip]
    rfl
  · rw [List.filter_append, List.map_append, problems_of_piece scanner fits, isProblem, offset_skip]
    rfl
  · intro token inTokens
    rcases List.mem_append.mp inTokens with isFirst | isLater
    · cases kind : segment.kind with
      | token tokenKind value =>
        simp only [tokenOf, kind, Option.toList_some, List.mem_singleton] at isFirst
        rw [isFirst]
        exact fits.notEnd tokenKind value kind
      | _ => simp [tokenOf, kind] at isFirst
    · exact notEnd token isLater

theorem drain_finds (dialect : Dialect) (scanner : Scanner) (found : Array Token) (earlier : List Piece)
    (onTime : scanner.reader.place.atLineStart = true ↔ AtLineStart earlier scanner.reader.rest) :
    ∃ tokens problems, Finds dialect scanner earlier tokens problems ∧
      (scanner.drain (cLanguage dialect) found).1.body.toList = found.toList ++ tokens ∧
      (scanner.drain (cLanguage dialect) found).2.toList =
        scanner.diagnostics.toList ++ problems := by
  fun_induction drain (cLanguage dialect) scanner found generalizing earlier with
  | case1 scanner found ended =>
    refine ⟨[], [], ⟨⟨[], ?_, rfl, rfl⟩, by simp⟩, by simp, by simp⟩
    rw [ended]
    exact .nil earlier
  | case2 scanner found first rest ahead segment more ih =>
    have fits : segment.Fits dialect earlier scanner.reader.rest := by
      rw [ahead] at onTime ⊢
      exact Segment.first_fits onTime
    obtain ⟨tokens, problems, finds, isBody, isList⟩ := ih _ (onTime_skip scanner fits onTime)
    refine ⟨_, _, finds.step fits, ?_, ?_⟩
    · rw [isBody]
      cases token : scanner.tokenOf segment <;> simp [more, token]
    · rw [isList, diagnostics_skip, List.append_assoc]

end Scanner

/-- Every text is divided into pieces that are one thing each. The tokens of the text are those of the
pieces in their order, each at the place of its piece. The problems of layout are those of the pieces
as well, one at the place of each stray character and of a comment that is not closed. -/
theorem tokenize_partitions (dialect : Dialect) (buffer : SourceBuffer)
    (diagnostics : Diagnostics) :
    ∃ pieces problems, Piece.textOf pieces = buffer.characters ∧
      Divides dialect [] buffer.characters pieces ∧
      (∀ token ∈ (tokenize (cLanguage dialect) buffer diagnostics).1.body.toList,
        token.kind ≠ .endOfFile) ∧
      ((tokenize (cLanguage dialect) buffer diagnostics).1.body.toList.map fun token =>
        (token.location.offset, token.lexeme.toList)) = Piece.placesOf Piece.lexeme? 0 pieces ∧
      (tokenize (cLanguage dialect) buffer diagnostics).2.toList =
        diagnostics.toList ++ problems ∧
      ((problems.filter fun problem => isLayoutMessage problem.message).map fun problem =>
        (problem.location.offset, problem.message)) = Piece.placesOf Piece.complaint? 0 pieces := by
  have starts : (Scanner.ofBuffer buffer diagnostics).reader.place.atLineStart = true ↔
      AtLineStart [] (Scanner.ofBuffer buffer diagnostics).reader.rest :=
    iff_of_true rfl (atLineStart_nil _)
  obtain ⟨tokens, problems, ⟨⟨pieces, divides, isToken, isProblem⟩, notEnd⟩, isBody, isList⟩ :=
    Scanner.drain_finds dialect (Scanner.ofBuffer buffer diagnostics) #[] [] starts
  rw [List.nil_append] at isBody
  refine ⟨pieces, problems, divides.textOf, divides, ?_, ?_, isList, isProblem⟩
  · rw [tokenize, isBody]
    exact notEnd
  · rw [tokenize, isBody]
    exact isToken

end CFrontEnd
