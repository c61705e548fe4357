import CFrontEnd.Grammar.Parse

/-!
Where parsing resumes after a problem: past the next semicolon, or in front of a closing brace or of
a word that begins a statement or a declaration. Blocks on the way there are passed over whole.
-/

namespace CFrontEnd

/-- The words that begin a statement or a declaration plainly enough to resume at. -/
def Keyword.resumesParsing : Keyword → Bool
  | .ifWord | .whileWord | .forWord | .returnWord | .switchWord | .doWord | .structWord
  | .unionWord | .enumWord | .typedefWord | .voidWord | .charWord | .shortWord | .intWord
  | .longWord | .floatWord | .doubleWord | .signedWord | .unsignedWord | .boolWord => true
  | _ => false

/-- Where parsing resumes that stopped at `start`, if `braces` blocks are open at `position`. -/
def TokenStream.resumption (stream : TokenStream) (start braces position : Nat) : Nat :=
  if h : position < stream.body.size then
    match stream.body[position].kind, braces with
    | .endOfFile, _ => position
    | .punctuator .openBrace, braces => resumption stream start (braces + 1) (position + 1)
    | .punctuator .closeBrace, 0 => position
    | .punctuator .closeBrace, braces + 1 => resumption stream start braces (position + 1)
    | _, braces + 1 => resumption stream start (braces + 1) (position + 1)
    | .punctuator .semicolon, 0 => position + 1
    | .keyword word, 0 =>
      if word.resumesParsing && position != start then position
      else resumption stream start 0 (position + 1)
    | _, 0 => resumption stream start 0 (position + 1)
  else position
termination_by stream.body.size - position

/-- Nodes of a production that keeps those it has read where it is not completed. -/
structure Items where
  nodes : Array Node := #[]
  completed : Bool := true

namespace Parse

/-- Moves to where parsing resumes; from there on problems are recorded again. -/
def synchronize : Parse Unit := fun context state =>
  .ok ()
    { state with
      position := context.tokens.resumption state.position 0 state.position
      panicking := false }

/-- Resumes after an item that began at `start`, and not at its first token again. -/
def recoverFrom (start : Nat) : Parse Unit := do
  synchronize
  if (← position) = start then discard advance

/-- A production for one node. -/
def single (production : Parse Node) : Parse Items := do
  let node ← production
  return { nodes := #[node] }

/-- Adds what `finish` leads to: items that were complete stay so only if it succeeds. -/
def thenFinish (items : Items) (finish : Parse Unit) : Parse Items := do
  if items.completed then
    match ← attempt finish with
    | some _ => return items
    | none => return { items with completed := false }
  else return items

/-- Items with commas between them. -/
def separatedItems (item : Parse Node) : Parse Items :=
  iterate {} fun items => do
    match ← attempt item with
    | none => return .done { items with completed := false }
    | some node =>
      let items : Items := ⟨items.nodes.push node, true⟩
      if ← consumePunctuator .comma then return .yield items else return .done items

/-- Items up to a token that `stops` tells, or to the end of file. Parsing resumes after an item that
was not completed, and what was read of it stays. -/
def recoveringItems (stops : Token → Bool) (item : Parse Items) : Parse (Array Node) :=
  iterate #[] fun nodes => do
    let token ← peek
    if token.isEndOfFile || stops token then return .done nodes
    else
      let start ← position
      let items := (← attempt item).getD { completed := false }
      if !items.completed then recoverFrom start
      return .yield (nodes ++ items.nodes)

/-- The nodes of a production that was completed. -/
def completed (production : Parse Items) : Parse (Array Node) := do
  let items ← production
  if items.completed then return items.nodes else fun _ state => .error .givenUp state

end Parse

/-- A single declaration stands for itself; several, or none, are held together. -/
def groupDeclarations (location : SourceLocation) (nodes : Array Node) : Node :=
  match nodes.toList with
  | [node] => node
  | nodes => .ofChildren .declarationGroup location nodes

end CFrontEnd
