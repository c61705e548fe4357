import CFrontEnd.Decimal.Notation
import CFrontEnd.Text.Character
import CFrontEnd.Tree.Walk

/-!
The listing of a tree: one line for each node, two blanks for each level, and on the line the kind,
what tells the node from others of its kind in quotes, and what else there is to say about it.
-/

namespace CFrontEnd

/-- A character constant is shown as a character if there is one to be seen. In narrow encodings
values beyond ASCII are bytes and no characters. -/
def characterLabel (value : Nat) (encoding : Encoding) : String :=
  match scalarValue? value with
  | some character =>
    if !isControl character && (isAscii character || !encoding.isNarrow) then
      String.singleton character
    else toString value
  | none => toString value

def Literal.label : Literal → String
  | .integer value _ => toString value
  | .floating value _ => positionalText value
  | .character value encoding => characterLabel value encoding
  | .string units encoding => escapeText (encoding.decode units)

namespace Node

/-- What stands in quotes. -/
def label? (node : Node) : Option String :=
  match node.operatorSpelling?, node.payload with
  | some spelling, _ => some spelling
  | none, .literal value => some value.label
  | none, .flag value => if node.kind = .booleanLiteral then some (toString value) else none
  | none, .qualifiers qualifiers => some qualifiers.text
  | none, _ => node.name?

/-- The words for which `holds` is true. -/
def wordsThatHold (words : List (String × Bool)) : List String :=
  words.filterMap fun (word, holds) => if holds then some word else none

def storageWords (storage : Option StorageClass) : List String :=
  (storage.map StorageClass.spelling).toList

/-- What stands behind the label. -/
def remarks (node : Node) : List String :=
  match node.payload with
  | .declaration info =>
    storageWords info.storage ++ wordsThatHold [("thread_local", info.isThreadLocal)]
      ++ (info.symbol.map fun symbol => "asm(\"" ++ symbol ++ "\")").toList
  | .function info =>
    storageWords info.storage
      ++ wordsThatHold
        [("inline", info.isInline), ("noreturn", info.isNoreturn),
          ("variadic", info.isVariadic), ("unprototyped", !info.isPrototyped)]
  | .tag _ hasBody => wordsThatHold [("definition", hasBody)]
  | .array qualifiers isStatic isStar =>
    wordsThatHold
      [(qualifiers.text, !qualifiers.isEmpty), ("static", isStatic), ("[*]", isStar)]
  | .functionType isVariadic isPrototyped =>
    wordsThatHold [("variadic", isVariadic), ("unprototyped", !isPrototyped)]
  | .flag value =>
    wordsThatHold
      [("unqual", value && node.kind == .typeofType),
        ("unsigned", value && node.kind == .bitIntType)]
  | _ => []

/-- The line of the node `depth` levels below the root. -/
def line (node : Node) (depth : Nat) : String :=
  String.join (List.replicate depth "  ") ++ node.kind.name
    ++ ((node.label?.map fun label => " '" ++ label ++ "'").getD "")
    ++ String.join (node.remarks.map fun remark => " " ++ remark) ++ "\n"

def listing (node : Node) : String :=
  String.join (node.outline.map fun (item, depth) => item.line depth)

end Node

end CFrontEnd
