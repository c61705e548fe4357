import CFrontEnd.Text.Character

/-!
The standards of C and the dialects made of them: each standard with or without GNU extensions.
-/

namespace CFrontEnd

inductive Standard
  | c89
  | c99
  | c11
  | c17
  | c23
  deriving DecidableEq, Repr

namespace Standard

/-- The standards by age. -/
def rank : Standard → Nat
  | .c89 => 0
  | .c99 => 1
  | .c11 => 2
  | .c17 => 3
  | .c23 => 4

instance : LE Standard := ⟨fun earlier later => earlier.rank ≤ later.rank⟩

instance : LT Standard := ⟨fun earlier later => earlier.rank < later.rank⟩

instance (earlier later : Standard) : Decidable (earlier ≤ later) :=
  inferInstanceAs (Decidable (earlier.rank ≤ later.rank))

instance (earlier later : Standard) : Decidable (earlier < later) :=
  inferInstanceAs (Decidable (earlier.rank < later.rank))

/-- The two digits of the year. -/
def year : Standard → String
  | .c89 => "89"
  | .c99 => "99"
  | .c11 => "11"
  | .c17 => "17"
  | .c23 => "23"

def tag (standard : Standard) : String := "c" ++ standard.year

end Standard

structure Dialect where
  standard : Standard := .c17
  gnu : Bool := true
  deriving DecidableEq, Repr

/-- C17 with the extensions of GNU. -/
def gnuC17 : Dialect := ⟨.c17, true⟩

/-- C23 with the extensions of GNU. -/
def gnuC23 : Dialect := ⟨.c23, true⟩

namespace Dialect

/-- The dialect that is meant when none is named. -/
def standardDefault : Dialect := {}

def versionTag (dialect : Dialect) : String :=
  (if dialect.gnu then "gnu" else "c") ++ dialect.standard.year

/-- The standard that a year names; `90`, `18` and `2x` are other names of `89`, `17` and `23`. -/
def standardOfYear? : List Char → Option Standard
  | ['8', '9'] | ['9', '0'] => some .c89
  | ['9', '9'] => some .c99
  | ['1', '1'] => some .c11
  | ['1', '7'] | ['1', '8'] => some .c17
  | ['2', '3'] | ['2', 'x'] => some .c23
  | _ => none

/-- Reads names such as `gnu17` and `C99`. -/
def parse? (name : String) : Option Dialect :=
  match (lowercaseAscii name).toList with
  | 'g' :: 'n' :: 'u' :: year => (standardOfYear? year).map fun standard => ⟨standard, true⟩
  | 'c' :: year => (standardOfYear? year).map fun standard => ⟨standard, false⟩
  | _ => none

end Dialect

end CFrontEnd
