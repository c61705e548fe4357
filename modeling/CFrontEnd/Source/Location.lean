/-!
Positions in a source text. Lines and columns count from one and a column counts characters, while
an offset counts the bytes of the text's UTF-8 form.
-/

namespace CFrontEnd

structure SourceLocation where
  file : String
  line : Nat
  column : Nat
  offset : Nat
  deriving DecidableEq, Repr, Inhabited

/-- A location is shown as file, line and column; the offset stays out of sight. -/
def SourceLocation.text (location : SourceLocation) : String :=
  location.file ++ ":" ++ toString location.line ++ ":" ++ toString location.column

end CFrontEnd
