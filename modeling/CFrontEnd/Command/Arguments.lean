/-!
Words of a command line, told apart into options and operands. Short options are one letter behind a
dash and may share it; long ones have a name behind two dashes. Behind a double dash on its own there
are operands only.
-/

namespace CFrontEnd

/-- Why the reading of a command line ends before its end. -/
inductive ArgumentStop
  | misuse
  | help
  | version
  deriving DecidableEq, Repr

/-- An option of a command. Where it may stand only once, a second one is a misuse, and so is a value
that it does not accept. -/
structure OptionRule (Name : Type) where
  name : Name
  short : Option Char := none
  long : Option String := none
  takesValue : Bool := false
  isRepeatable : Bool := false
  accepts : String → Bool := fun _ => true
  stops : Option ArgumentStop := none

/-- The options with their values, which are empty for those that take none, and the operands. -/
structure ArgumentList (Name : Type) where
  options : List (Name × String) := []
  operands : List String := []
  deriving DecidableEq, Repr

/-- Whether a word can only be an option. A dash alone is an operand. -/
def looksLikeOption (word : String) : Bool :=
  match word.toList with
  | '-' :: _ :: _ => true
  | _ => false

namespace ArgumentList

variable {Name : Type} [BEq Name]

def has (list : ArgumentList Name) (name : Name) : Bool :=
  list.options.any fun (other, _) => other == name

def values (list : ArgumentList Name) (name : Name) : List String :=
  list.options.filterMap fun (other, value) => if other == name then some value else none

def value? (list : ArgumentList Name) (name : Name) : Option String := (list.values name).head?

def addOption (list : ArgumentList Name) (rule : OptionRule Name) (value : String) :
    Except ArgumentStop (ArgumentList Name) :=
  match rule.stops with
  | some stop => .error stop
  | none =>
    if !rule.isRepeatable && list.has rule.name then .error .misuse
    else if !rule.accepts value then .error .misuse
    else .ok { list with options := list.options ++ [(rule.name, value)] }

/-- One operand is wanted, and it is not empty. -/
def addOperand (list : ArgumentList Name) (word : String) :
    Except ArgumentStop (ArgumentList Name) :=
  if list.operands.isEmpty && !word.isEmpty then .ok { list with operands := [word] }
  else .error .misuse

def addOperands (list : ArgumentList Name) (words : List String) :
    Except ArgumentStop (ArgumentList Name) :=
  words.foldlM addOperand list

/-- The letters of a word of short options, up to one that takes a value. The value is what stands
behind its letter, without an equals sign in front; if that is nothing, the option waits for it. -/
def addShortOptions (rules : List (OptionRule Name)) (list : ArgumentList Name) :
    List Char → Except ArgumentStop (ArgumentList Name × Option (OptionRule Name))
  | [] => .ok (list, none)
  | letter :: rest =>
    match rules.find? fun rule => rule.short == some letter with
    | none => .error .misuse
    | some rule =>
      if rule.takesValue then
        match rest with
        | [] => .ok (list, some rule)
        | '=' :: value => (list.addOption rule (String.ofList value)).map fun list => (list, none)
        | value => (list.addOption rule (String.ofList value)).map fun list => (list, none)
      else do
        let list ← list.addOption rule ""
        addShortOptions rules list rest

/-- A long option, given without its dashes. A value may follow an equals sign. -/
def addLongOption (rules : List (OptionRule Name)) (list : ArgumentList Name) (text : List Char) :
    Except ArgumentStop (ArgumentList Name × Option (OptionRule Name)) :=
  let name := String.ofList (text.takeWhile (· != '='))
  let attached := text.dropWhile (· != '=')
  match rules.find? fun rule => rule.long == some name with
  | none => .error .misuse
  | some rule =>
    match rule.takesValue, attached with
    | true, [] => .ok (list, some rule)
    | true, _ :: value =>
      (list.addOption rule (String.ofList value)).map fun list => (list, none)
    | false, [] => (list.addOption rule "").map fun list => (list, none)
    | false, _ :: _ => .error .misuse

/-- Reads the words from left to right. An option that waits for its value takes the next word, which
must not look like an option. -/
def readWords (rules : List (OptionRule Name)) (list : ArgumentList Name)
    (waiting : Option (OptionRule Name)) :
    List String → Except ArgumentStop (ArgumentList Name)
  | [] => if waiting.isSome then .error .misuse else .ok list
  | word :: rest =>
    match waiting with
    | some rule =>
      if looksLikeOption word then .error .misuse
      else do
        let list ← list.addOption rule word
        readWords rules list none rest
    | none =>
      match word.toList with
      | ['-', '-'] => list.addOperands rest
      | '-' :: '-' :: name => do
        let (list, waiting) ← list.addLongOption rules name
        readWords rules list waiting rest
      | '-' :: letter :: letters => do
        let (list, waiting) ← list.addShortOptions rules (letter :: letters)
        readWords rules list waiting rest
      | _ => do
        let list ← list.addOperand word
        readWords rules list none rest

end ArgumentList

end CFrontEnd
