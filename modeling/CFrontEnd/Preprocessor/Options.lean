import CFrontEnd.Host.Path

/-!
How the preprocessor is called. It is a tool of its own; what varies is where it looks for headers,
which macros it starts with, and what sort of tool it is.
-/

namespace CFrontEnd

/-- A macro from the command line, with or without a value. -/
structure MacroDefinition where
  name : String
  value : Option String := none
  deriving DecidableEq, Repr

namespace MacroDefinition

/-- The value stands behind the first equals sign. -/
def ofText (text : String) : MacroDefinition :=
  match text.splitOn "=" with
  | name :: value :: rest => { name := name, value := some ("=".intercalate (value :: rest)) }
  | _ => { name := text }

def text (definition : MacroDefinition) : String :=
  match definition.value with
  | some value => definition.name ++ "=" ++ value
  | none => definition.name

end MacroDefinition

/-- Both sorts of directories are searched in order, the user's first. -/
structure PreprocessorOptions where
  includes : List String := []
  systemIncludes : List String := []
  defines : List MacroDefinition := []
  undefines : List String := []
  target : Option String := none
  keepsComments : Bool := false
  keepsWhiteSpace : Bool := false
  expandsMacros : Bool := true
  deriving DecidableEq, Repr

/-- A tool that only preprocesses, or a compiler that has to be told to. -/
inductive PreprocessorFlavor
  | standalone
  | gcc
  | clang
  deriving DecidableEq, Repr

/-- Whether `part` occurs in the text. -/
def containsText (part : List Char) : List Char → Bool
  | [] => part.isEmpty
  | character :: rest => part.isPrefixOf (character :: rest) || containsText part rest

/-- The flavor is told by the name of the tool. -/
def PreprocessorFlavor.ofTool (tool : String) : PreprocessorFlavor :=
  let stem := ((fileStem? tool).getD "").toList
  if "cpp".toList.isSuffixOf stem then .standalone
  else if containsText "clang".toList stem then .clang
  else .gcc

/-- The arguments for the tool. Only a tool of the clang flavor can be given a target. -/
def PreprocessorOptions.arguments (options : PreprocessorOptions) (flavor : PreprocessorFlavor)
    (input : String) : List String :=
  (if flavor = .standalone then [] else ["-E", "-x", "c"])
    ++ (if flavor = .clang then (options.target.map ("--target=" ++ ·)).toList else [])
    ++ (if options.keepsComments then ["-C"] else [])
    ++ (if options.keepsWhiteSpace then ["-traditional-cpp"] else [])
    ++ (if options.expandsMacros then [] else ["-fdirectives-only"])
    ++ options.includes.map ("-I" ++ ·)
    ++ options.systemIncludes.flatMap (["-isystem", ·])
    ++ options.defines.map ("-D" ++ ·.text)
    ++ options.undefines.map ("-U" ++ ·)
    ++ [input]

end CFrontEnd
