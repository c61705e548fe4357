import CFrontEnd.Diagnostic

/-!
Failures as they are told to a user: what could not be done, and the chain of its causes, the
immediate one first.
-/

namespace CFrontEnd

structure Failure where
  message : String
  causes : List String := []
  deriving DecidableEq, Repr

namespace Failure

/-- All on one line, if none of the texts has several. -/
def summary (failure : Failure) : String :=
  ": ".intercalate (failure.message :: failure.causes)

/-- A text behind `head`, with further lines moved in by `margin`. -/
def indented (head margin text : String) : String :=
  head ++ ("\n" ++ margin).intercalate (text.splitOn "\n")

/-- A number in front of the `index`th cause. -/
def numberedCause (index : Nat) (cause : String) : String :=
  let digits := toString index
  let padding := String.ofList (List.replicate (5 - digits.length) ' ')
  indented (padding ++ digits ++ ": ") "       " cause

/-- A cause on each line below the message. Several are numbered. -/
def report (failure : Failure) : String :=
  let causes :=
    match failure.causes with
    | [] => []
    | [cause] => [indented "    " "    " cause]
    | causes => causes.mapIdx numberedCause
  if causes.isEmpty then failure.message
  else failure.message ++ "\n\nCaused by:\n" ++ "\n".intercalate causes

end Failure

/-- The failure of a text in which the problems were found. -/
def Diagnostics.rejection? (diagnostics : Diagnostics) : Option Failure :=
  match diagnostics.check with
  | .ok () => none
  | .error problems => some ⟨"failed to parse translation unit", [problems]⟩

end CFrontEnd
