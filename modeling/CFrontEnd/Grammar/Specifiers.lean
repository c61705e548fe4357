import CFrontEnd.Grammar.Declarator
import CFrontEnd.Grammar.Parse
import CFrontEnd.Grammar.TypeWords

/-!
What is said in front of the declarators of a declaration: storage, qualifiers, alignments, and the
type that all of the declarators start from.
-/

namespace CFrontEnd

/-- `named` is a type that is not made of words: of a tag, by a typedef name, with `typeof`,
`_Atomic` or `_BitInt`. `isPresent` says whether there was a specifier at all. -/
structure DeclarationSpecifiers where
  location : SourceLocation
  storage : Option StorageClass := none
  isTypedef : Bool := false
  isThreadLocal : Bool := false
  isInline : Bool := false
  isNoreturn : Bool := false
  qualifiers : Qualifiers := {}
  alignments : Array Node := #[]
  words : Array Keyword := #[]
  named : Option Node := none
  isPresent : Bool := false

def Keyword.storageClass? : Keyword → Option StorageClass
  | .externWord => some .external
  | .staticWord => some .static
  | .autoWord => some .automatic
  | .registerWord => some .register
  | .constexprWord => some .constexpr
  | _ => none

/-- The qualifiers with the one that `word` names; other words name none. -/
def Qualifiers.add? (qualifiers : Qualifiers) (word : Keyword) : Option Qualifiers :=
  match word with
  | .constWord => some { qualifiers with isConst := true }
  | .volatileWord => some { qualifiers with isVolatile := true }
  | .restrictWord => some { qualifiers with isRestrict := true }
  | .atomicWord => some { qualifiers with isAtomic := true }
  | _ => none

namespace DeclarationSpecifiers

def hasStorage (specifiers : DeclarationSpecifiers) : Bool :=
  specifiers.isTypedef || specifiers.storage.isSome

/-- Whether a bit-precise integer can stand with the words: there is none but a sign. -/
def isAtMostSigned (specifiers : DeclarationSpecifiers) : Bool :=
  match specifiers.words.toList with
  | [] | [.signedWord] | [.unsignedWord] => true
  | _ => false

end DeclarationSpecifiers

namespace Parse

/-- Types that do not go together are a problem, after which the type is the named one or `int`. -/
def unqualifiedBaseType (specifiers : DeclarationSpecifiers) : Parse Node := do
  let place := specifiers.location
  let int := Node.named .builtinType place "int"
  match specifiers.named with
  | some type =>
    if type.kind == .bitIntType && specifiers.isAtMostSigned then
      return { type with payload := .flag (specifiers.words.contains .unsignedWord) }
    else
      if !specifiers.words.isEmpty then complain place .multipleTypes
      return type
  | none =>
    match writtenType specifiers.words.toList with
    | .missing =>
      if ← afterC89 then complain place .missingTypeSpecifier
      return int
    | .named name => return .named .builtinType place name
    | .invalid =>
      complain place (.invalidTypeWords (specifiers.words.toList.map Keyword.spelling))
      return int

/-- The type that the specifiers give to the declarators behind them. -/
def baseType (specifiers : DeclarationSpecifiers) : Parse Node := do
  let type ← unqualifiedBaseType specifiers
  return specifiers.qualifiers.apply specifiers.location type

end Parse

end CFrontEnd
