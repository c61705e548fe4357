import CFrontEnd.Grammar.Productions

/-!
Assembly in the text: statements with a template and up to four lists behind colons, and the
assembler names of declarators.
-/

namespace CFrontEnd

namespace Productions

open Parse

/-- An operand may have a name in brackets. Its constraint is checked and dropped. -/
def assemblyOperand (deeper : Productions) : Parse Node := do
  if ← consumePunctuator .openBracket then
    discard expectIdentifier
    discard (expectPunctuator .closeBracket "']'")
  discard stringLiteral
  discard (expectPunctuator .openParen "'(' before asm operand")
  let operand ← deeper.expression
  expectClosingParen
  return operand

/-- An item of a list: an operand in the lists of outputs and inputs, then a clobbered register, then
a label. Only operands are kept. -/
def assemblyItem (deeper : Productions) (list : Nat) : Parse (List Node) :=
  match list with
  | 0 | 1 => do return [← assemblyOperand deeper]
  | 2 => do
    discard stringLiteral
    return []
  | _ => do
    discard expectIdentifier
    return []

def assemblyItems (deeper : Productions) (list : Nat) : Parse (Array Node) :=
  iterate #[] fun operands => do
    let operands := operands ++ (← assemblyItem deeper list)
    if ← consumePunctuator .comma then return .yield operands else return .done operands

/-- What is behind the template. A list may be empty. -/
def assemblyLists (deeper : Productions) : Parse (Array Node) := do
  let (_, operands) ← iterate (0, #[]) fun (list, operands) => do
    if !(← consumePunctuator .colon) then return .done (list, operands)
    else
      let next ← peek
      if next.isPunctuator .colon || next.isPunctuator .closeParen then
        return .yield (list + 1, operands)
      else
        let items ← assemblyItems deeper list
        return .yield (list + 1, operands ++ items)
  return operands

def skipAssemblyWords : Parse Unit :=
  iterate () fun _ => do
    match (← peek).kind with
    | .keyword .volatileWord | .keyword .inlineWord | .keyword .gotoWord =>
      discard advance
      return .yield ()
    | _ => return .done ()

/-- The current token begins an assembly statement. -/
def assembly (deeper : Productions) : Parse Node := do
  let start ← location
  discard advance
  skipAssemblyWords
  discard (expectPunctuator .openParen "'(' after 'asm'")
  let template ← stringText
  let operands ← assemblyLists deeper
  discard (expectPunctuator .closeParen "')' after asm")
  expectSemicolon "asm"
  return ⟨.assembly, start, .name template, operands.toList⟩

/-- The name that the assembler is to know a declared object by. -/
def assemblerName? : Parse (Option String) := do
  if ← consume (.keyword .asmWord) then
    discard (expectPunctuator .openParen "'(' after 'asm'")
    let name ← stringText
    expectClosingParen
    return some name
  else return none

end Productions

end CFrontEnd
