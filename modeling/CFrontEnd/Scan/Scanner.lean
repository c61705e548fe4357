import CFrontEnd.Diagnostic
import CFrontEnd.Scan.Segment
import CFrontEnd.Token.Stream

/-!
From a text to its tokens. The scanner takes one segment after the other, keeps track of the logical
place, which linemarkers move, and records the problems of each segment.
-/

namespace CFrontEnd

structure Place where
  file : String
  line : Nat := 1
  column : Nat := 1
  offset : Nat := 0
  atLineStart : Bool := true
  deriving DecidableEq, Repr

namespace Place

def location (place : Place) : SourceLocation :=
  ⟨place.file, place.line, place.column, place.offset⟩

/-- Line numbers stop at the largest one that a linemarker can name. -/
def newLine (place : Place) : Place :=
  { place with line := min (place.line + 1) Linemarker.maxLine, column := 1, atLineStart := true }

/-- The place after `character`; a CR in front of an LF leaves it to the LF to end the line. -/
def after (place : Place) (character : Char) (next : Option Char) : Place :=
  let moved := { place with offset := place.offset + character.utf8Size }
  if character == '\n' then moved.newLine
  else if character == '\r' then if next == some '\n' then moved else moved.newLine
  else { moved with column := place.column + 1 }

def relocate (place : Place) (marker : Linemarker) : Place :=
  { place with line := marker.line, column := 1, file := marker.file.getD place.file }

end Place

/-- What is left of a text, and where it begins. -/
structure Reader where
  rest : List Char
  place : Place
  deriving DecidableEq, Repr

namespace Reader

def advance : Nat → Reader → Reader
  | 0, reader => reader
  | _ + 1, ⟨[], place⟩ => ⟨[], place⟩
  | count + 1, ⟨character :: rest, place⟩ => advance count ⟨rest, place.after character rest.head?⟩

@[simp] theorem rest_advance (count : Nat) (reader : Reader) :
    (reader.advance count).rest = reader.rest.drop count := by
  induction count generalizing reader with
  | zero => rfl
  | succ count ih =>
    obtain ⟨rest, place⟩ := reader
    cases rest with
    | nil => rfl
    | cons character rest => exact ih _

end Reader

structure Scanner where
  reader : Reader
  diagnostics : Diagnostics
  /-- Whether the end of the text has been handed out as a token. -/
  finished : Bool := false

namespace Scanner

def ofBuffer (buffer : SourceBuffer) (diagnostics : Diagnostics) : Scanner :=
  { reader := ⟨buffer.characters, { file := buffer.name }⟩, diagnostics := diagnostics }

def location (scanner : Scanner) : SourceLocation := scanner.reader.place.location

/-- Where the segment that comes next is taken from. -/
def segmentStart (scanner : Scanner) (segment : Segment) : Reader :=
  let place := scanner.reader.place
  { scanner.reader with
    place := { place with atLineStart := place.atLineStart && !segment.occupiesLine } }

def report (reader : Reader) (diagnostics : Diagnostics) (problem : Nat × LexicalProblem) :
    Diagnostics :=
  diagnostics.report .lexical (reader.advance problem.1).place.location problem.2.message

/-- Moves past a segment and records its problems. -/
def skip (scanner : Scanner) (segment : Segment) : Scanner :=
  let start := scanner.segmentStart segment
  let reader := start.advance segment.length
  { scanner with
    reader := match segment.kind with
      | .directive (some marker) => { reader with place := reader.place.relocate marker }
      | _ => reader
    diagnostics := segment.problems.foldl (report start) scanner.diagnostics }

@[simp] theorem rest_skip (scanner : Scanner) (segment : Segment) :
    (scanner.skip segment).reader.rest = scanner.reader.rest.drop segment.length := by
  simp only [skip]
  split <;> simp [segmentStart]

/-- The token that a segment of the text ahead is, if it is one. -/
def tokenOf (scanner : Scanner) (segment : Segment) : Option Token :=
  match segment.kind with
  | .token kind value => some
      { kind := kind
        lexeme := String.ofList (scanner.reader.rest.take segment.length)
        location := scanner.location
        value := value }
  | _ => none

theorem skip_shortens (scanner : Scanner) (segment : Segment) (first : Char) (rest : List Char)
    (ahead : scanner.reader.rest = first :: rest) :
    (scanner.skip segment).reader.rest.length < scanner.reader.rest.length := by
  have positive := segment.length_pos
  simp only [rest_skip, List.length_drop, ahead, List.length_cons]
  omega

def segment (language : Language) (scanner : Scanner) (first : Char) (rest : List Char) : Segment :=
  Segment.first language scanner.reader.place.atLineStart first rest

/-- The next token. After the end of the text there is none. -/
def next (language : Language) (scanner : Scanner) : Option Token × Scanner :=
  if scanner.finished then (none, scanner)
  else match _ : scanner.reader.rest with
    | [] => (some (Token.endOfFile scanner.location), { scanner with finished := true })
    | first :: rest =>
      let segment := scanner.segment language first rest
      match scanner.tokenOf segment with
      | some token => (some token, scanner.skip segment)
      | none => next language (scanner.skip segment)
termination_by scanner.reader.rest.length
decreasing_by exact skip_shortens scanner _ first rest ‹_›

/-- All tokens that are left, behind those already found. -/
def drain (language : Language) (scanner : Scanner) (found : Array Token) :
    TokenStream × Diagnostics :=
  match _ : scanner.reader.rest with
  | [] => (⟨found, scanner.location⟩, scanner.diagnostics)
  | first :: rest =>
    let segment := scanner.segment language first rest
    let found := match scanner.tokenOf segment with
      | some token => found.push token
      | none => found
    drain language (scanner.skip segment) found
termination_by scanner.reader.rest.length
decreasing_by exact skip_shortens scanner _ first rest ‹_›

end Scanner

/-- The tokens of a text. New problems are recorded after those already in `diagnostics`. -/
def tokenize (language : Language) (buffer : SourceBuffer) (diagnostics : Diagnostics) :
    TokenStream × Diagnostics :=
  (Scanner.ofBuffer buffer diagnostics).drain language #[]

end CFrontEnd
