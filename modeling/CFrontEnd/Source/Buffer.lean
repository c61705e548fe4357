import CFrontEnd.Source.Location

/-!
The text of a program and its physical lines. LF, CRLF and a lone CR each end a line.
-/

namespace CFrontEnd

/-- What is left of `characters` after the first `count` bytes, rounded up to a whole character. -/
def dropBytes : Nat → List Char → List Char
  | 0, characters => characters
  | _, [] => []
  | count, character :: rest => dropBytes (count - character.utf8Size) rest

def byteLength : List Char → Nat
  | [] => 0
  | character :: rest => character.utf8Size + byteLength rest

def isLineEnd (character : Char) : Bool :=
  character == '\n' || character == '\r'

structure SourceBuffer where
  name : String
  text : String
  deriving DecidableEq, Repr, Inhabited

namespace SourceBuffer

def characters (buffer : SourceBuffer) : List Char := buffer.text.toList

/-- The size of the text in bytes. -/
def size (buffer : SourceBuffer) : Nat := byteLength buffer.characters

def isEmpty (buffer : SourceBuffer) : Bool := buffer.size == 0

/-- The offsets at which a line begins, after a first line that begins before `offset`. -/
def lineStartsFrom : Nat → List Char → List Nat
  | _, [] => []
  | offset, '\r' :: '\n' :: rest => (offset + 2) :: lineStartsFrom (offset + 2) rest
  | offset, '\r' :: rest => (offset + 1) :: lineStartsFrom (offset + 1) rest
  | offset, '\n' :: rest => (offset + 1) :: lineStartsFrom (offset + 1) rest
  | offset, character :: rest => lineStartsFrom (offset + character.utf8Size) rest

def lineStarts (buffer : SourceBuffer) : List Nat :=
  0 :: lineStartsFrom 0 buffer.characters

def lineCount (buffer : SourceBuffer) : Nat := buffer.lineStarts.length

/-- How many of `characters`, the first of which is at `offset`, begin before `limit`. -/
def startsBefore (limit : Nat) : Nat → List Char → Nat
  | _, [] => 0
  | offset, character :: rest =>
    if offset < limit then 1 + startsBefore limit (offset + character.utf8Size) rest else 0

/-- The physical location of `offset`; offsets past the end stand for the end of the text. -/
def locationAt (buffer : SourceBuffer) (offset : Nat) : SourceLocation :=
  let reached := min offset buffer.size
  let starts := buffer.lineStarts.takeWhile (· ≤ reached)
  let lineStart := starts.getLastD 0
  { file := buffer.name
    line := starts.length
    column := startsBefore reached lineStart (dropBytes lineStart buffer.characters) + 1
    offset := reached }

/-- The text of a line without what ends it; lines count from one. -/
def lineText (buffer : SourceBuffer) (line : Nat) : Option String :=
  if line = 0 then none
  else buffer.lineStarts[line - 1]?.map fun start =>
    String.ofList ((dropBytes start buffer.characters).takeWhile fun character => !isLineEnd character)

end SourceBuffer

end CFrontEnd
