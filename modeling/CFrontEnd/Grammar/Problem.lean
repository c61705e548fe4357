import CFrontEnd.Scope
import CFrontEnd.Token.Basic

/-!
What can be wrong with the tokens of a text.
-/

namespace CFrontEnd

inductive GrammarProblem
  | expected (what : String) (found : Token)
  | unexpected (found : Token)
  | unexpectedTypeName (name : String)
  | unexpectedStorageClass (found : Token)
  | unfinishedRule (found : Token) (rule : String)
  | nestedTooDeeply
  | mixedStringEncodings
  | multipleStorageClasses
  | multipleTypes
  | missingTypeSpecifier
  | invalidTypeWords (words : List String)
  | tagOfOtherKind (name : String)
  | tagRedeclared (name : String) (earlier : TagKind)
  | oldStyleParameters
  | parameterStorage
  | unknownTypeName (name : String)
  | functionDefinitionHere
  deriving BEq, Repr

def GrammarProblem.message : GrammarProblem → String
  | .expected what found => "expected " ++ what ++ ", found " ++ found.text
  | .unexpected found => "unexpected " ++ found.text
  | .unexpectedTypeName name => "unexpected type name '" ++ name ++ "': expected expression"
  | .unexpectedStorageClass found => "unexpected storage class " ++ found.text
  | .unfinishedRule found rule =>
    "unexpected " ++ found.text ++ " after " ++ rule.map fun c => if c == '_' then ' ' else c
  | .nestedTooDeeply => "code is nested too deeply"
  | .mixedStringEncodings =>
    "unsupported concatenation of string literals with different encodings"
  | .multipleStorageClasses => "multiple storage classes in declaration specifiers"
  | .multipleTypes => "two or more data types in declaration specifiers"
  | .missingTypeSpecifier => "type specifier missing, defaults to 'int'"
  | .invalidTypeWords words =>
    "invalid combination of type specifiers '" ++ " ".intercalate words ++ "'"
  | .tagOfOtherKind name =>
    "use of '" ++ name ++ "' with tag type that does not match previous declaration"
  | .tagRedeclared name earlier =>
    "'" ++ name ++ "' defined as wrong kind of tag (previously declared as "
      ++ earlier.spelling ++ ")"
  | .oldStyleParameters => "old-style parameter lists are not supported"
  | .parameterStorage => "invalid storage class for parameter"
  | .unknownTypeName name => "unknown type name '" ++ name ++ "'"
  | .functionDefinitionHere => "function definition is not allowed here"

end CFrontEnd
