import CFrontEnd.Text.Character

/-!
Directives that say which line of which file comes next: `# 12 "file.c"` and `#line 12 "file.c"`.
-/

namespace CFrontEnd

structure Linemarker where
  line : Nat
  file : Option String
  deriving DecidableEq, Repr

namespace Linemarker

def maxLine : Nat := 0xFFFFFFFF

/-- A name up to its closing quote; a backslash stands in front of quotes and backslashes. -/
def fileName : List Char → Option (List Char)
  | [] => none
  | '"' :: _ => some []
  | ['\\'] => none
  | '\\' :: character :: rest => (fileName rest).map (character :: ·)
  | character :: rest => (fileName rest).map (character :: ·)

def fileAt : List Char → Option String
  | '"' :: rest => (fileName rest).map String.ofList
  | _ => none

/-- The word `line` may stand in front of the number if white space follows it. -/
def skipLineWord (text : List Char) : List Char :=
  match text with
  | 'l' :: 'i' :: 'n' :: 'e' :: character :: rest =>
    if isAsciiWhiteSpace character then rest.dropWhile isWhiteSpace else text
  | _ => text

/-- Reads the text after the `#`. What stands after the file name does not matter. -/
def parse? (text : List Char) : Option Linemarker :=
  let number := skipLineWord (text.dropWhile isWhiteSpace)
  let digits := number.takeWhile Char.isDigit
  let line := numeral 10 digits
  if digits.isEmpty || maxLine < line then none
  else some ⟨line, fileAt ((number.drop digits.length).dropWhile isWhiteSpace)⟩

end Linemarker

end CFrontEnd
