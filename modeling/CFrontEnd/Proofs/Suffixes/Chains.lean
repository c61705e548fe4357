import CFrontEnd.Proofs.Spelling.Expressions

/-!
Suffixes one behind the other, and how they are written: the steps stand in parentheses with what they
belong to, and nothing is put around the base itself.
-/

namespace CFrontEnd

/-- What may stand behind an operand. -/
inductive SuffixForm
  | subscript (index : Node)
  | call (arguments : List Node)
  | member (name : String)
  | arrow (name : String)
  | stepUp
  | stepDown

structure Suffix where
  form : SuffixForm
  spot : SourceLocation

namespace Suffix

/-- The tree of the suffix behind a base. -/
def node (suffix : Suffix) (base : Node) : Node :=
  match suffix.form with
  | .subscript index => ⟨.subscript, suffix.spot, .none, [base, index]⟩
  | .call arguments => ⟨.call, suffix.spot, .none, base :: arguments⟩
  | .member name => ⟨.member, suffix.spot, .name name, [base]⟩
  | .arrow name => ⟨.arrow, suffix.spot, .name name, [base]⟩
  | .stepUp => ⟨.unary .laterStepUp, suffix.spot, .none, [base]⟩
  | .stepDown => ⟨.unary .laterStepDown, suffix.spot, .none, [base]⟩

/-- Indices and arguments are operator expressions, and members have names. -/
def IsWellFormed (suffix : Suffix) : Prop :=
  match suffix.form with
  | .subscript index => IsOperatorTree index
  | .call arguments => ∀ argument ∈ arguments, IsOperatorTree argument
  | .member name | .arrow name => IsName gnuC17 name
  | .stepUp | .stepDown => True

def isMember (suffix : Suffix) : Bool :=
  match suffix.form with
  | .member _ => true
  | _ => false

end Suffix

/-- The tree of the suffixes behind a base, the first one next to it. -/
def Node.withSuffixes (base : Node) (suffixes : List Suffix) : Node :=
  suffixes.foldl (fun tree suffix => suffix.node tree) base

namespace Suffix

variable {base : Node} {suffix : Suffix} {suffixes : List Suffix}

/-- A point may stand behind every operand but an integer of digits alone. -/
theorem isOperatorTree_node (isTree : IsOperatorTree base) (isWellFormed : suffix.IsWellFormed)
    (apart : base.isBareInteger = true → suffix.isMember = false) :
    IsOperatorTree (suffix.node base) := by
  obtain ⟨form, spot⟩ := suffix
  cases form with
  | subscript index => exact .subscript isTree isWellFormed
  | call arguments => exact .call isTree isWellFormed
  | member name =>
    refine .member isWellFormed ?_ isTree
    cases isBare : base.isBareInteger with
    | false => rfl
    | true => cases apart isBare
  | arrow name => exact .arrow isWellFormed isTree
  | stepUp => exact .unary .laterStepUp isTree
  | stepDown => exact .unary .laterStepDown isTree

theorem isBareInteger_node (suffix : Suffix) (base : Node) :
    (suffix.node base).isBareInteger = false := by
  obtain ⟨form, spot⟩ := suffix
  cases form <;> rfl

theorem isOperatorTree_withSuffixes (isTree : IsOperatorTree base)
    (wellFormed : ∀ suffix ∈ suffixes, suffix.IsWellFormed)
    (apart : base.isBareInteger = true → ∀ first ∈ suffixes.head?, first.isMember = false) :
    IsOperatorTree (base.withSuffixes suffixes) := by
  induction suffixes generalizing base with
  | nil => exact isTree
  | cons suffix rest ih =>
    refine ih ?_ (fun other inRest => wellFormed other (.tail _ inRest)) ?_
    · exact isOperatorTree_node isTree (wellFormed suffix List.mem_cons_self)
        fun isBare => apart isBare suffix rfl
    · intro isBare
      rw [isBareInteger_node] at isBare
      cases isBare

/-! ## Heights -/

theorem height_node (suffix : Suffix) (base : Node) : base.height + 1 ≤ (suffix.node base).height := by
  obtain ⟨form, spot⟩ := suffix
  cases form <;> exact Node.height_child (by simp)

theorem height_withSuffixes (base : Node) (suffixes : List Suffix) :
    base.height + suffixes.length ≤ (base.withSuffixes suffixes).height := by
  induction suffixes generalizing base with
  | nil => exact Nat.le_refl _
  | cons suffix rest ih =>
    have lower := height_node suffix base
    have higher := ih (suffix.node base)
    have same : base.withSuffixes (suffix :: rest) = (suffix.node base).withSuffixes rest := rfl
    rw [same, List.length_cons]
    omega

/-! ## Texts -/

/-- The parentheses that the suffix puts in front of its base. -/
def opening (suffix : Suffix) : Nat :=
  match suffix.form with
  | .stepUp | .stepDown => 1
  | _ => 0

/-- The symbol that stands next to the base. -/
def symbol (suffix : Suffix) : Word :=
  match suffix.form with
  | .subscript _ => .openBracket
  | .call _ => .openParen
  | .member _ => .operator .dot "."
  | .arrow _ => .operator .arrow "->"
  | .stepUp => .operator .increment "++"
  | .stepDown => .operator .decrement "--"

/-- What stands behind the symbol. -/
def remainder (suffix : Suffix) : String :=
  match suffix.form with
  | .subscript index => index.expressionText ++ "]"
  | .call arguments => ", ".intercalate (arguments.map Node.expressionText) ++ ")"
  | .member name | .arrow name => name
  | .stepUp | .stepDown => ")"

def text (suffix : Suffix) : List Char := suffix.symbol.lexeme.toList ++ suffix.remainder.toList

theorem expressionText_node (suffix : Suffix) (base : Node) :
    (suffix.node base).expressionText.toList =
      List.replicate suffix.opening '(' ++ (base.expressionText.toList ++ suffix.text) := by
  obtain ⟨form, spot⟩ := suffix
  cases form with
  | subscript index =>
    simp [node, Node.expressionText_subscript, opening, text, symbol, remainder, Word.openBracket,
      Word.punctuator]
  | call arguments =>
    simp [node, Node.expressionText_call, Spelling.parenthesized, opening, text, symbol, remainder,
      Word.openParen, Word.punctuator]
  | member name =>
    have same : (node ⟨.member name, spot⟩ base).expressionText =
        base.expressionText ++ "." ++ name := rfl
    simp [same, opening, text, symbol, remainder, Word.operator]
  | arrow name =>
    have same : (node ⟨.arrow name, spot⟩ base).expressionText =
        base.expressionText ++ "->" ++ name := rfl
    simp [same, opening, text, symbol, remainder, Word.operator]
  | stepUp =>
    have same : (node ⟨.stepUp, spot⟩ base).expressionText =
        Spelling.parenthesized (base.expressionText ++ "++") := Node.expressionText_after rfl
    simp [same, Spelling.parenthesized, opening, text, symbol, remainder, Word.operator]
  | stepDown =>
    have same : (node ⟨.stepDown, spot⟩ base).expressionText =
        Spelling.parenthesized (base.expressionText ++ "--") := Node.expressionText_after rfl
    simp [same, Spelling.parenthesized, opening, text, symbol, remainder, Word.operator]

/-- All parentheses of the steps stand in front of the base, and no other ones. -/
theorem expressionText_withSuffixes (base : Node) (suffixes : List Suffix) :
    (base.withSuffixes suffixes).expressionText.toList =
      List.replicate (suffixes.map opening).sum '(' ++
        (base.expressionText.toList ++ suffixes.flatMap text) := by
  induction suffixes generalizing base with
  | nil => simp [Node.withSuffixes]
  | cons suffix rest ih =>
    have same : base.withSuffixes (suffix :: rest) = (suffix.node base).withSuffixes rest := rfl
    rw [same, ih, expressionText_node, List.map_cons, List.sum_cons, List.flatMap_cons,
      Nat.add_comm, ← List.replicate_append_replicate]
    simp only [List.append_assoc]

theorem opening_le (suffix : Suffix) : suffix.opening ≤ 1 := by
  obtain ⟨form, spot⟩ := suffix
  cases form <;> simp [opening]

theorem sum_opening_le (suffixes : List Suffix) :
    (suffixes.map opening).sum ≤ suffixes.length := by
  induction suffixes with
  | nil => exact Nat.le_refl 0
  | cons suffix rest ih =>
    have atMost := suffix.opening_le
    rw [List.map_cons, List.sum_cons, List.length_cons]
    omega

end Suffix

/-! ## Scanning -/

theorem ScansAs.openParens {dialect : Dialect} {text next : List Char} {words : List Word}
    (count : Nat) (scans : ScansAs dialect text words next) :
    ScansAs dialect (List.replicate count '(' ++ text)
      (List.replicate count Word.openParen ++ words) next := by
  induction count with
  | zero => exact scans
  | succ count ih => exact .openParen ih

namespace Suffix

theorem scans_symbol {suffix : Suffix} (isWellFormed : suffix.IsWellFormed) (later : List Char) :
    ScansAs gnuC17 suffix.symbol.lexeme.toList [suffix.symbol]
      (suffix.remainder.toList ++ later) := by
  obtain ⟨form, spot⟩ := suffix
  have mark {kind : TokenKind} (symbol : String) (next : List Char)
      (known : (kind, symbol) ∈ cSymbolKinds) (noTails : symbolTails symbol = [])
      (notPoint : symbol ≠ ".") : ScansAs gnuC17 symbol.toList [⟨kind, symbol, none⟩] next :=
    .symbol known (.of_noTails noTails notPoint next)
  cases form with
  | subscript index => exact mark "[" _ (by decide) (by decide) (by decide)
  | call arguments => exact mark "(" _ (by decide) (by decide) (by decide)
  | member name =>
    have known : (TokenKind.operator .dot, ".") ∈ cSymbolKinds := by decide
    have isName : IsName gnuC17 name := isWellFormed
    exact .symbol known (.point_name isName.1 later)
  | arrow name =>
    have known : (TokenKind.operator .arrow, "->") ∈ cSymbolKinds := by decide
    have isName : IsName gnuC17 name := isWellFormed
    have begins : BeginsOperand (name.toList ++ later) := (beginsOperand_word isName.1).append later
    have notPoint : "->" ≠ "." := by decide
    exact .symbol known (.operand (mem_cSymbols known) notPoint begins)
  | stepUp => exact mark "++" _ (by decide) (by decide) (by decide)
  | stepDown => exact mark "--" _ (by decide) (by decide) (by decide)

/-- The symbols of suffixes make longer operands, and do not end them. -/
theorem extendsOperand_symbol (suffix : Suffix) : suffix.symbol.kind.extendsOperand = true := by
  obtain ⟨form, spot⟩ := suffix
  cases form <;> rfl

end Suffix

end CFrontEnd
