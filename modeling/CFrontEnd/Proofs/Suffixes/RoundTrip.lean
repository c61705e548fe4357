import CFrontEnd.Proofs.Scan.Prefixes
import CFrontEnd.Proofs.Spelling.ExpressionRoundTrip
import CFrontEnd.Proofs.Suffixes.Beginnings
import CFrontEnd.Proofs.Suffixes.TypeMeasures

/-!
Which operands with suffixes come back from their texts. Nothing is put around a base, so that the size
of a type loses its suffixes, and the digits of an integer go on with the point of a member.
-/

namespace CFrontEnd

/-- What suffixes are put behind: an operator expression, or the size or the alignment of a type. -/
inductive IsSuffixBase : Node → Prop
  | operand {tree : Node} (isTree : IsOperatorTree tree) : IsSuffixBase tree
  | typeMeasure (measure : TypeMeasure) {spot inside : SourceLocation} {typeWords : List Keyword}
      (isType : IsTypeWords typeWords) :
      IsSuffixBase (measure.node spot inside (wordsText typeWords))

/-- The base may be written right in front of its first suffix. -/
structure Node.TakesSuffix (base : Node) (first : Suffix) : Prop where
  notSize : base.kind ≠ .sizeofType
  notAlignment : base.kind ≠ .alignofType
  apart : base.isBareInteger = true → first.isMember = false

variable {base tree : Node} {first : Suffix} {rest suffixes : List Suffix} {diagnostics : Diagnostics}
  {tokens : TokenStream} {node : Node}

/-- The suffixes become outer parts of the tree. -/
theorem Node.BeginsWith.of_withSuffixes {kind : NodeKind} {base : Node} {suffixes : List Suffix}
    (literal : kind = .floatLiteral) (begins : (base.withSuffixes suffixes).BeginsWith kind) :
    base.BeginsWith kind := by
  induction suffixes generalizing base with
  | nil => exact begins
  | cons suffix rest ih =>
    subst literal
    obtain ⟨form, spot⟩ := suffix
    have inner : (Suffix.node ⟨form, spot⟩ base).BeginsWith .floatLiteral := ih begins
    cases form <;> (cases inner with | first begins => exact begins)

/-- Digits with a point behind them are read as another number. -/
theorem beginsWith_float_of_point {digits later : List Char} {text name : String} (count : Nat)
    (areDigits : ∀ digit ∈ digits, digit.isDigit = true) (notEmpty : digits ≠ [])
    (isText : text.toList = List.replicate count '(' ++ (digits ++ '.' :: later))
    (tokenized : tokenize (cLanguage gnuC17) ⟨name, text⟩ diagnostics = (tokens, diagnostics))
    (parsed : (cLanguage gnuC17).parseRule "expression" tokens diagnostics = (some node, diagnostics)) :
    node.BeginsWith .floatLiteral := by
  have parens : ScansAs gnuC17 (List.replicate count '(') (List.replicate count Word.openParen)
      (digits ++ '.' :: later) := by
    simpa using ScansAs.openParens count (.nil (digits ++ '.' :: later))
  obtain ⟨token, isToken, has⟩ := parens.hasWords_point areDigits notEmpty isText name diagnostics
  rw [tokenized] at has
  have opens : ∀ index < count, (tokens.get (0 + index)).kind = .punctuator .openParen := by
    intro index less
    have isParen : (tokens.get (0 + index)).word = Word.openParen := by
      refine has.get ?_
      rw [List.getElem?_append_left (by simpa using less)]
      simp [less]
    exact Token.kind_of_word isParen
  have isLiteral : (tokens.get (0 + count)).kind = .literal .floating := by
    have isNumber : (tokens.get (0 + count)).word = token.word := has.get (by simp)
    rw [Token.kind_of_word isNumber]
    exact isToken
  obtain ⟨next, read⟩ := Language.exists_read .expression parsed
  have notString : LiteralKind.floating ≠ .string := by decide
  have begins : YieldsFrom ((cLanguage gnuC17).context tokens) (.first diagnostics)
      (Productions.ofLevels maxNesting).expression (Node.BeginsWith .floatLiteral) :=
    yieldsFrom_literal notString count opens isLiteral maxNesting
  exact begins node next read

/-! ## The two failures -/

namespace Suffix

/-- The symbol of the first suffix stands right behind the base. -/
theorem flatMap_text_cons (first : Suffix) (rest : List Suffix) :
    (first :: rest).flatMap text =
      first.symbol.lexeme.toList ++ (first.remainder.toList ++ rest.flatMap text) := by
  rw [List.flatMap_cons, text, List.append_assoc]

end Suffix

theorem TypeMeasure.not_comesBack {measure : TypeMeasure} {spot inside : SourceLocation}
    {typeWords : List Keyword} {name : String} (isType : IsTypeWords typeWords)
    (isWellFormed : first.IsWellFormed)
    (low : 6 * ((measure.node spot inside (wordsText typeWords)).withSuffixes
      (first :: rest)).height + 8 ≤ maxNesting)
    (tokenized : tokenize (cLanguage gnuC17)
      ⟨name, ((measure.node spot inside (wordsText typeWords)).withSuffixes
        (first :: rest)).expressionText⟩ diagnostics = (tokens, diagnostics)) :
    ((cLanguage gnuC17).parseRule "expression" tokens diagnostics).2 ≠ diagnostics := by
  have higher := Suffix.height_withSuffixes (measure.node spot inside (wordsText typeWords))
    (first :: rest)
  have atMost := Suffix.sum_opening_le (first :: rest)
  have text := Suffix.expressionText_withSuffixes (measure.node spot inside (wordsText typeWords))
    (first :: rest)
  rw [Suffix.flatMap_text_cons] at text
  have measured : ScansAs gnuC17 (measure.node spot inside (wordsText typeWords)).expressionText.toList
      (measure.words typeWords)
      (first.symbol.lexeme.toList ++ (first.remainder.toList ++ rest.flatMap Suffix.text)) :=
    TypeMeasure.scans isType _
  have scans : ScansAs gnuC17 _ _ (first.remainder.toList ++ rest.flatMap Suffix.text) :=
    .openParens ((first :: rest).map Suffix.opening).sum
      (measured.append (Suffix.scans_symbol isWellFormed _))
  have has := scans.hasWords (by rw [text]; simp only [List.append_assoc]) name diagnostics
  rw [tokenized] at has
  exact not_read isType _ (by omega) has first.extendsOperand_symbol

theorem IsOperatorTree.eq_of_isBareInteger (isTree : IsOperatorTree base)
    (isBare : base.isBareInteger = true) :
    ∃ spot value, base = ⟨.integerLiteral, spot, .literal (.integer value {}), []⟩ := by
  cases isTree with
  | @integer spot value suffix isInteger =>
    obtain rfl : suffix = {} := eq_of_beq isBare
    exact ⟨spot, value, rfl⟩
  | _ => cases isBare

/-- A member behind digits alone is lost in another number. -/
theorem not_sameShape_member {value : Nat} {spot : SourceLocation} {name : String}
    (isMember : first.isMember = true)
    (tokenized : tokenize (cLanguage gnuC17)
      ⟨name, (Node.withSuffixes ⟨.integerLiteral, spot, .literal (.integer value {}), []⟩
        (first :: rest)).expressionText⟩ diagnostics = (tokens, diagnostics))
    (parsed : (cLanguage gnuC17).parseRule "expression" tokens diagnostics =
      (some node, diagnostics)) :
    ¬ node.sameShape (Node.withSuffixes ⟨.integerLiteral, spot, .literal (.integer value {}), []⟩
      (first :: rest)) = true := by
  intro same
  have areDigits : ∀ digit ∈ Nat.toDigits 10 value, digit.isDigit = true :=
    fun digit inDigits => Nat.isDigit_of_mem_toDigits (by decide) (by decide) inDigits
  have digits : (Node.expressionText ⟨.integerLiteral, spot, .literal (.integer value {}), []⟩).toList =
      Nat.toDigits 10 value := by
    have spelled : Node.expressionText ⟨.integerLiteral, spot, .literal (.integer value {}), []⟩ =
        toString value ++ "" := rfl
    simp [spelled]
  have isPoint : first.symbol.lexeme.toList = ['.'] := by
    obtain ⟨form, place⟩ := first
    cases form with
    | member name => simp [Suffix.symbol, Word.operator]
    | _ => cases isMember
  have text := Suffix.expressionText_withSuffixes
    ⟨.integerLiteral, spot, .literal (.integer value {}), []⟩ (first :: rest)
  rw [digits, Suffix.flatMap_text_cons, isPoint] at text
  have begins := beginsWith_float_of_point _ areDigits Nat.toDigits_ne_nil text tokenized parsed
  cases (begins.of_sameShape same).of_withSuffixes rfl

/-- Which operands come back from their texts with the suffixes that they have: all but the sizes and
alignments of types, and the integers of digits alone that have a member behind them. -/
theorem parseRule_suffixedText (base : Node) (isBase : IsSuffixBase base) (first : Suffix)
    (rest : List Suffix) (wellFormed : ∀ suffix ∈ first :: rest, suffix.IsWellFormed)
    (low : 6 * (base.withSuffixes (first :: rest)).height + 8 ≤ maxNesting) (name : String)
    (diagnostics : Diagnostics) :
    (∃ tokens node,
      tokenize (cLanguage gnuC17)
        ⟨name, (base.withSuffixes (first :: rest)).expressionText⟩ diagnostics =
          (tokens, diagnostics) ∧
      (cLanguage gnuC17).parseRule "expression" tokens diagnostics = (some node, diagnostics) ∧
      node.sameShape (base.withSuffixes (first :: rest)) = true) ↔ base.TakesSuffix first := by
  constructor
  · rintro ⟨tokens, node, tokenized, parsed, same⟩
    cases isBase with
    | typeMeasure measure isType =>
      -- What stands behind the parentheses of a type is taken as a suffix of nothing, and a
      -- problem is recorded.
      have failed := TypeMeasure.not_comesBack isType (wellFormed first List.mem_cons_self) low tokenized
      exact absurd (congrArg Prod.snd parsed) failed
    | operand isTree =>
      refine ⟨?_, ?_, fun isBare => ?_⟩
      · cases isTree <;> exact nofun
      · cases isTree <;> exact nofun
      -- Digits and a point behind them are one floating constant.
      · obtain ⟨spot, value, rfl⟩ := isTree.eq_of_isBareInteger isBare
        rw [← Bool.not_eq_true]
        exact fun isMember => not_sameShape_member isMember tokenized parsed same
  · intro takes
    cases isBase with
    | typeMeasure measure isType =>
      cases measure with
      | size => exact absurd rfl takes.notSize
      | alignment => exact absurd rfl takes.notAlignment
    | operand isTree =>
      have whole : IsOperatorTree (base.withSuffixes (first :: rest)) :=
        Suffix.isOperatorTree_withSuffixes isTree wellFormed fun isBare _ isFirst =>
          Option.some.inj isFirst ▸ takes.apart isBare
      obtain ⟨words, readsBack⟩ := whole.readsBack
      exact readsBack.parseRule low name diagnostics

/-- The suffixes of `f(x)[1]++`. -/
def sampleSuffixes : List Suffix :=
  let spot : SourceLocation := ⟨"<input>", 1, 1, 0⟩
  let one : Node := ⟨.integerLiteral, spot, .literal (.integer 1 {}), []⟩
  [⟨.subscript one, spot⟩, ⟨.stepUp, spot⟩]

theorem parseRule_suffixedText_sample :
    let spot : SourceLocation := ⟨"<input>", 1, 1, 0⟩
    let base : Node := ⟨.identifier, spot, .name "f", []⟩
    let first : Suffix := ⟨.call [⟨.identifier, spot, .name "x", []⟩], spot⟩
    IsSuffixBase base ∧ (∀ suffix ∈ first :: sampleSuffixes, suffix.IsWellFormed) ∧
    6 * (base.withSuffixes (first :: sampleSuffixes)).height + 8 ≤ maxNesting ∧
    ((∃ tokens node,
      tokenize (cLanguage gnuC17)
        ⟨"<input>", (base.withSuffixes (first :: sampleSuffixes)).expressionText⟩ .empty =
          (tokens, .empty) ∧
      (cLanguage gnuC17).parseRule "expression" tokens .empty = (some node, .empty) ∧
      node.sameShape (base.withSuffixes (first :: sampleSuffixes)) = true) ↔
        base.TakesSuffix first) := by
  intro spot base first
  have named (name : String) (isName : IsName gnuC17 name) (notBuiltin : name ≠ "__builtin_va_list") :
      IsOperatorTree ⟨.identifier, spot, .name name, []⟩ :=
    .identifier isName notBuiltin
  have isBase : IsSuffixBase base := .operand (named "f" (by decide) (by decide))
  have wellFormed : ∀ suffix ∈ first :: sampleSuffixes, suffix.IsWellFormed := by
    refine List.forall_mem_cons.mpr ⟨?_, List.forall_mem_cons.mpr ⟨?_, ?_⟩⟩
    · exact List.forall_mem_singleton.mpr (named "x" (by decide) (by decide))
    · exact .integer ⟨by decide, by decide⟩
    · exact List.forall_mem_singleton.mpr trivial
  have low : 6 * (base.withSuffixes (first :: sampleSuffixes)).height + 8 ≤ maxNesting := by decide
  exact ⟨isBase, wellFormed, low,
    parseRule_suffixedText base isBase first sampleSuffixes wellFormed low "<input>" .empty⟩

/-- What is written from the tree of `(sizeof(int))[p]` is not read without a problem. -/
theorem not_parseRule_sizeSubscript :
    let spot : SourceLocation := ⟨"<input>", 1, 1, 0⟩
    let index : Node := ⟨.identifier, spot, .name "p", []⟩
    let size : Node := TypeMeasure.node .size spot spot "int"
    let tree : Node := ⟨.subscript, spot, .none, [size, index]⟩
    tree.expressionText = "sizeof(int)[p]" ∧ ∀ tokens,
      tokenize (cLanguage gnuC17) ⟨"<input>", tree.expressionText⟩ .empty = (tokens, .empty) →
      ((cLanguage gnuC17).parseRule "expression" tokens .empty).2 ≠ .empty := by
  intro spot index size tree
  refine ⟨rfl, fun tokens tokenized => ?_⟩
  have isType : IsTypeWords [.intWord] := ⟨by decide, by decide⟩
  have isIndex : IsOperatorTree index := .identifier (by decide) (by decide)
  have isWellFormed : Suffix.IsWellFormed ⟨.subscript index, spot⟩ := isIndex
  have low : 6 * (Node.withSuffixes (TypeMeasure.node .size spot spot (wordsText [.intWord]))
      [⟨.subscript index, spot⟩]).height + 8 ≤ maxNesting := by decide
  exact TypeMeasure.not_comesBack isType isWellFormed low tokenized

end CFrontEnd
