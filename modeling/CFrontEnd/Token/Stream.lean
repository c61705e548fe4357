import CFrontEnd.Token.Basic

/-!
The tokens of one text with random access, and cursors over them. A stream ends with its only
end-of-file token: the type holds where that token is and makes the token itself, so a stream
without one cannot be built.
-/

namespace CFrontEnd

structure TokenStream where
  body : Array Token
  endLocation : SourceLocation

namespace TokenStream

def final (stream : TokenStream) : Token := Token.endOfFile stream.endLocation

/-- A stream of the given tokens. An end of file that is missing is put where the last token is. -/
def ofTokens (tokens : Array Token) : TokenStream :=
  match tokens.back? with
  | none => ⟨#[], ⟨"<input>", 1, 1, 0⟩⟩
  | some last =>
    if last.isEndOfFile then ⟨tokens.pop, last.location⟩ else ⟨tokens, last.location⟩

/-- The number of tokens, the end of file included. -/
def length (stream : TokenStream) : Nat := stream.body.size + 1

def isEmpty (stream : TokenStream) : Bool := stream.body.isEmpty

/-- The token at `index`; past the end there is only the end of file. -/
def get (stream : TokenStream) (index : Nat) : Token :=
  if h : index < stream.body.size then stream.body[index] else stream.final

def tokens (stream : TokenStream) : Array Token := stream.body.push stream.final

def toList (stream : TokenStream) : List Token := stream.body.toList ++ [stream.final]

/-- How many tokens stand at or after `position`. -/
def remaining (stream : TokenStream) (position : Nat) : Nat := stream.length - position

end TokenStream

/-- A place in a stream. To come back to a place is to use an old cursor again. -/
structure Cursor where
  stream : TokenStream
  position : Nat := 0

namespace Cursor

def peek (cursor : Cursor) : Token := cursor.stream.get cursor.position

def peekAhead (cursor : Cursor) (distance : Nat) : Token :=
  cursor.stream.get (cursor.position + distance)

/-- The cursor after the current token; at the end of file it stays. -/
def advance (cursor : Cursor) : Cursor :=
  if cursor.peek.isEndOfFile then cursor else { cursor with position := cursor.position + 1 }

def atEnd (cursor : Cursor) : Bool := cursor.peek.isEndOfFile

/-- The token before the cursor. -/
def previous? (cursor : Cursor) : Option Token :=
  if cursor.position = 0 then none else some (cursor.stream.get (cursor.position - 1))

end Cursor

def TokenStream.cursor (stream : TokenStream) : Cursor := { stream := stream }

end CFrontEnd
