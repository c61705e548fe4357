import CFrontEnd.Scan.Linemarker
import CFrontEnd.Scan.Number
import CFrontEnd.Scan.Quoted
import CFrontEnd.Token.Basic

/-!
A text as a sequence of segments: tokens, and all that may stand between tokens. Each segment has at
least one character, and every text that is not empty begins with one.
-/

namespace CFrontEnd

inductive SegmentKind
  | blank
  /-- A backslash and the line end after it. -/
  | splice
  | directive (marker : Option Linemarker)
  | lineComment
  | blockComment (closed : Bool)
  | token (kind : TokenKind) (value : Option Literal)
  | stray
  deriving BEq, Repr

/-- Each problem comes with the number of the character at which it is found. -/
structure Segment where
  kind : SegmentKind
  length : Nat
  problems : List (Nat × LexicalProblem) := []
  length_pos : 0 < length := by omega

namespace Segment

/-- How many characters end the line at the beginning of `input`. -/
def lineEndLength : List Char → Nat
  | '\r' :: '\n' :: _ => 2
  | '\r' :: _ => 1
  | '\n' :: _ => 1
  | _ => 0

def spliceAt? (first : Char) (rest : List Char) : Option Segment :=
  if first == '\\' && lineEndLength rest ≠ 0 then
    some { kind := .splice, length := lineEndLength rest + 1 }
  else none

/-- A directive reaches to the end of its line and holds what ends the line. -/
def directiveAt? (language : Language) (atLineStart : Bool) (first : Char) (rest : List Char) :
    Option Segment :=
  if language.features.directives && atLineStart && first == '#' then
    let text := rest.takeWhile fun character => !isLineEnd character
    some
      { kind := .directive (Linemarker.parse? text)
        length := text.length + lineEndLength (rest.drop text.length) + 1 }
  else none

def lineCommentAt? (language : Language) (first : Char) (rest : List Char) : Option Segment :=
  match language.comments.line with
  | none => none
  | some opener =>
    if beginsWith opener (first :: rest) then
      let length := ((first :: rest).takeWhile fun character => !isLineEnd character).length
      if h : 0 < length then some { kind := .lineComment, length := length } else none
    else none

/-- How far a comment reaches whose opener stands in front of `input`, and whether it is closed. -/
def commentLength (closer : List Char) : List Char → Nat × Bool
  | [] => (0, false)
  | first :: rest =>
    if closer.isPrefixOf (first :: rest) then (closer.length, true)
    else
      let (length, closed) := commentLength closer rest
      (length + 1, closed)

def blockCommentAt? (language : Language) (first : Char) (rest : List Char) : Option Segment :=
  match language.comments.block with
  | none => none
  | some (opener, closer) =>
    if beginsWith opener (first :: rest) then
      let (length, closed) := commentLength closer.toList ((first :: rest).drop opener.length)
      let whole := opener.length + length
      if h : 0 < whole then
        some
          { kind := .blockComment closed
            length := whole
            problems := if closed then [] else [(0, .unterminatedComment)] }
      else none
    else none

def startsNumber (language : Language) (first : Char) (rest : List Char) : Bool :=
  language.classes.isDigit first
    || (first == '.' && rest.head?.any language.classes.isDigit)

def numberAt? (language : Language) (first : Char) (rest : List Char) : Option Segment :=
  if startsNumber language first rest then
    let number := NumberText.read language (first :: rest)
    let (value, problems) := number.judge language.numbers
    let kind := if number.isFloating then LiteralKind.floating else LiteralKind.integer
    if h : 0 < number.characters.length then
      some
        { kind := .token (.literal kind) (some value)
          length := number.characters.length
          problems := problems.map fun problem => (0, problem) }
    else none
  else none

/-- A literal whose opening quote stands after the first `before` characters of the token. -/
def quotedAt? (language : Language) (encoding : Encoding) (before : Nat) : List Char → Option Segment
  | [] => none
  | quote :: rest =>
    let reading := QuotedReading.read encoding quote language.marks.escape (before + 1) rest
    if quote == language.marks.stringQuote then
      let (value, problems) := reading.asString encoding
      some
        { kind := .token (.literal .string) (some value)
          length := before + reading.length + 1
          problems := problems }
    else if quote == language.marks.characterQuote then
      let (value, problems) := reading.asCharacter encoding
      some
        { kind := .token (.literal .character) (some value)
          length := before + reading.length + 1
          problems := problems }
    else none

/-- A word, or the literal that a word right in front of a quote gives its encoding. -/
def wordAt? (language : Language) (first : Char) (rest : List Char) : Option Segment :=
  if language.classes.startsIdentifier first then
    let word := first :: rest.takeWhile language.classes.continuesIdentifier
    let literal := (Encoding.ofSpelling? word).bind fun encoding =>
      quotedAt? language encoding word.length (rest.drop (word.length - 1))
    let kind := match language.keyword? (String.ofList word) with
      | some keyword => TokenKind.keyword keyword
      | none => .identifier
    literal <|> some { kind := .token kind none, length := word.length, length_pos := by simp [word] }
  else none

/-- The longest symbol of both tables; of two with one length the operator. -/
def symbolKind? (language : Language) (input : List Char) : Option (TokenKind × String) :=
  match language.matchOperator? input, language.matchPunctuator? input with
  | some entry, some other =>
    if entry.symbol.utf8ByteSize < other.symbol.utf8ByteSize then
      some (.punctuator other.punctuator, other.symbol)
    else some (.operator entry.operator, entry.symbol)
  | some entry, none => some (.operator entry.operator, entry.symbol)
  | none, some other => some (.punctuator other.punctuator, other.symbol)
  | none, none => none

def symbolAt? (language : Language) (first : Char) (rest : List Char) : Option Segment :=
  (symbolKind? language (first :: rest)).bind fun (kind, symbol) =>
    if h : 0 < symbol.length then some { kind := .token kind none, length := symbol.length }
    else none

def tokenAt? (language : Language) (first : Char) (rest : List Char) : Option Segment :=
  numberAt? language first rest
    <|> quotedAt? language .plain 0 (first :: rest)
    <|> wordAt? language first rest
    <|> symbolAt? language first rest

/-- The segment at the beginning of a text. Blanks and comments come before tokens, and a character
that begins nothing is stray. -/
def first (language : Language) (atLineStart : Bool) (first : Char) (rest : List Char) : Segment :=
  if language.classes.isBlank first then { kind := .blank, length := 1 }
  else
    let found := spliceAt? first rest
      <|> directiveAt? language atLineStart first rest
      <|> lineCommentAt? language first rest
      <|> blockCommentAt? language first rest
      <|> tokenAt? language first rest
    found.getD { kind := .stray, length := 1, problems := [(0, .stray first)] }

/-- Tokens and stray characters end the part of a line in which a directive may begin. -/
def occupiesLine (segment : Segment) : Bool :=
  match segment.kind with
  | .token _ _ => true
  | .stray => true
  | _ => false

end Segment

end CFrontEnd
