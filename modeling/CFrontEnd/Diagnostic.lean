import CFrontEnd.Source.Location
import CFrontEnd.Text.Character

/-!
Problems found in a source text, in the order in which they were found. A text with a recorded
problem is not fit for the stages after parsing.
-/

namespace CFrontEnd

inductive DiagnosticKind
  | lexical
  | grammatical
  | internal
  deriving DecidableEq, Repr

def DiagnosticKind.text : DiagnosticKind → String
  | .lexical => "lex"
  | .grammatical => "parse"
  | .internal => "internal"

structure Diagnostic where
  kind : DiagnosticKind
  location : SourceLocation
  message : String
  deriving DecidableEq, Repr

def Diagnostic.text (diagnostic : Diagnostic) : String :=
  diagnostic.location.text ++ ": " ++ diagnostic.kind.text ++ " error: " ++ diagnostic.message

structure Diagnostics where
  entries : Array Diagnostic := #[]
  deriving DecidableEq, Repr

namespace Diagnostics

def empty : Diagnostics := {}

def toList (diagnostics : Diagnostics) : List Diagnostic := diagnostics.entries.toList

def report (diagnostics : Diagnostics) (kind : DiagnosticKind) (location : SourceLocation)
    (message : String) : Diagnostics :=
  ⟨diagnostics.entries.push ⟨kind, location, message⟩⟩

@[simp] theorem toList_report (diagnostics : Diagnostics) (kind : DiagnosticKind)
    (location : SourceLocation) (message : String) :
    (diagnostics.report kind location message).toList =
      diagnostics.toList ++ [⟨kind, location, message⟩] := by
  simp [report, toList]

def append (first second : Diagnostics) : Diagnostics := ⟨first.entries ++ second.entries⟩

@[simp] theorem toList_append (first second : Diagnostics) :
    (first.append second).toList = first.toList ++ second.toList := by
  simp [append, toList]

def count (diagnostics : Diagnostics) : Nat := diagnostics.entries.size

def countOf (diagnostics : Diagnostics) (kind : DiagnosticKind) : Nat :=
  (diagnostics.toList.filter fun diagnostic => diagnostic.kind == kind).length

def isEmpty (diagnostics : Diagnostics) : Bool := diagnostics.entries.isEmpty

def first? (diagnostics : Diagnostics) : Option Diagnostic := diagnostics.toList.head?

/-- One line for each problem. -/
def listing (diagnostics : Diagnostics) : String :=
  String.join (diagnostics.toList.map fun diagnostic => diagnostic.text ++ "\n")

/-- All problems as one message, or nothing to complain about. -/
def check (diagnostics : Diagnostics) : Except String Unit :=
  if diagnostics.isEmpty then .ok ()
  else .error (toString diagnostics.count ++ " error(s)\n" ++ trimEnd diagnostics.listing)

end Diagnostics

end CFrontEnd
