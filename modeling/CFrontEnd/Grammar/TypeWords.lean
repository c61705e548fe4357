import CFrontEnd.Token.Keyword

/-!
The built-in types. A type is written with one or several words in any order; `unsigned long` and
`long int unsigned` are one type, and each type has one canonical name.
-/

namespace CFrontEnd

/-- The words that say more about a type than which sort it is. -/
def Keyword.refinesType : Keyword → Bool
  | .shortWord | .longWord | .intWord | .signedWord | .unsignedWord | .complexWord => true
  | _ => false

/-- How often a word may be repeated in the name of one type. -/
def Keyword.maxRepetitions : Keyword → Nat
  | .longWord => 2
  | _ => 1

/-- What is said of a type beside its sort. -/
structure TypeRefinement where
  isSigned : Bool
  isUnsigned : Bool
  isShort : Bool
  longs : Nat
  isInt : Bool
  isComplex : Bool
  deriving DecidableEq, Repr

namespace TypeRefinement

def ofWords (words : List Keyword) : TypeRefinement where
  isSigned := words.contains .signedWord
  isUnsigned := words.contains .unsignedWord
  isShort := words.contains .shortWord
  longs := words.count .longWord
  isInt := words.contains .intWord
  isComplex := words.contains .complexWord

def hasSign (refinement : TypeRefinement) : Bool := refinement.isSigned || refinement.isUnsigned

def hasSize (refinement : TypeRefinement) : Bool := refinement.isShort || refinement.longs != 0

/-- Whether nothing but `_Complex` is said. -/
def isAtMostComplex (refinement : TypeRefinement) : Bool :=
  !refinement.hasSign && !refinement.hasSize && !refinement.isInt

/-- The name of a type that can be made complex. -/
def complexName (refinement : TypeRefinement) (name : String) : String :=
  if refinement.isComplex then name ++ " _Complex" else name

/-- Integer types are signed unless they are said to be unsigned. -/
def integerName (refinement : TypeRefinement) (name : String) : String :=
  if refinement.isUnsigned then "unsigned " ++ name else name

/-- The type without a word for its sort: `double _Complex`, or an integer type. -/
def sortlessName? (refinement : TypeRefinement) : Option String :=
  if refinement.isComplex then
    if refinement.isAtMostComplex then some "double _Complex" else none
  else if refinement.isShort then
    if refinement.longs = 0 then some (refinement.integerName "short") else none
  else
    match refinement.longs with
    | 0 => some (refinement.integerName "int")
    | 1 => some (refinement.integerName "long")
    | _ => some (refinement.integerName "long long")

/-- The type of the sort that `sort` names. -/
def nameOfSort? (refinement : TypeRefinement) (sort : Keyword) : Option String :=
  match sort with
  | .voidWord | .boolWord =>
    if refinement.isAtMostComplex && !refinement.isComplex then some sort.spelling else none
  | .charWord =>
    if refinement.hasSize || refinement.isInt || refinement.isComplex then none
    else if refinement.isSigned then some "signed char"
    else some (refinement.integerName "char")
  | .int128Word =>
    if refinement.hasSize || refinement.isInt || refinement.isComplex then none
    else some (refinement.integerName "__int128")
  | .doubleWord =>
    if refinement.hasSign || refinement.isShort || refinement.isInt then none
    else
      match refinement.longs with
      | 0 => some (refinement.complexName "double")
      | 1 => some (refinement.complexName "long double")
      | _ => none
  | _ => if refinement.isAtMostComplex then some (refinement.complexName sort.spelling) else none

end TypeRefinement

/-- The canonical name of the type that the words stand for, if they stand for one. -/
def builtinTypeName? (words : List Keyword) : Option String :=
  let refinement := TypeRefinement.ofWords words
  if words.any (fun word => word.maxRepetitions < words.count word)
      || refinement.isSigned && refinement.isUnsigned then
    none
  else
    match words.filter fun word => !word.refinesType with
    | [] => refinement.sortlessName?
    | [sort] => refinement.nameOfSort? sort
    | _ => none

/-- What is written for a type: nothing, the words of one type, or words that do not go together. -/
inductive WrittenType
  | missing
  | named (name : String)
  | invalid
  deriving DecidableEq, Repr

def writtenType (words : List Keyword) : WrittenType :=
  if words.isEmpty then .missing
  else
    match builtinTypeName? words with
    | some name => .named name
    | none => .invalid

theorem writtenType_eq_missing {words : List Keyword} : writtenType words = .missing ↔ words = [] := by
  cases words with
  | nil => exact iff_of_true rfl rfl
  | cons word rest =>
    refine iff_of_false ?_ (List.cons_ne_nil word rest)
    simp only [writtenType, List.isEmpty_cons]
    cases builtinTypeName? (word :: rest) <;> simp

theorem writtenType_eq_named {words : List Keyword} {name : String} :
    writtenType words = .named name ↔ words ≠ [] ∧ builtinTypeName? words = some name := by
  cases words with
  | nil => simp [writtenType]
  | cons word rest =>
    simp only [writtenType, List.isEmpty_cons]
    cases builtinTypeName? (word :: rest) <;> simp

end CFrontEnd
