import CFrontEnd.Language.C
import CFrontEnd.Token.Basic
import CFrontEnd.Tree.Operator
import Mathlib.Data.List.Nodup

/-!
What the tables of C say. No spelling stands twice among the reserved words, so that a word is found
exactly where the dialect allows it; and a later standard with the extensions of GNU allows every word
that an earlier one does. The operators are declared longest symbol first, so that building the language
leaves their order alone.
-/

namespace CFrontEnd

/-! ## Reserved words -/

section

theorem Standard.le_trans {first second third : Standard} (before : first ≤ second)
    (behind : second ≤ third) : first ≤ third :=
  Nat.le_trans before behind

/-- Later GNU dialects take no word back. -/
theorem Availability.allows_later {availability : Availability} {older newer : Standard}
    (inOrder : older ≤ newer) (allowed : availability.allows ⟨older, true⟩ = true) :
    availability.allows ⟨newer, true⟩ = true := by
  cases availability with
  | since standard =>
    have reached : standard ≤ older := by simpa [allows] using allowed
    simpa [allows] using Standard.le_trans reached inOrder
  | gnuOnly => rfl
  | sinceOrGnu standard => simp [allows]

theorem reservedWords_nodup : (reservedWords.map Prod.fst).Nodup := by
  decide +kernel

variable {dialect : Dialect} {lexeme : String} {word : Keyword}

theorem mem_reservedIn :
    (lexeme, word) ∈ reservedIn dialect ↔
      ∃ availability, (lexeme, word, availability) ∈ reservedWords ∧
        availability.allows dialect = true := by
  simp [reservedIn]

theorem reservedIn_nodup (dialect : Dialect) : ((reservedIn dialect).map Prod.fst).Nodup := by
  have sublist : ((reservedIn dialect).map Prod.fst).Sublist (reservedWords.map Prod.fst) := by
    have filtered := (reservedWords.filter_sublist
      (p := fun entry => entry.2.2.allows dialect)).map Prod.fst
    simpa [reservedIn, Function.comp_def] using filtered
  exact reservedWords_nodup.sublist sublist

theorem keywords_cLanguage (dialect : Dialect) :
    (cLanguage dialect).keywords = reservedIn dialect :=
  List.map_id _

/-- A word is found where the dialect reserves it, and is the word of the table. -/
theorem keyword?_cLanguage :
    (cLanguage dialect).keyword? lexeme = some word ↔ (lexeme, word) ∈ reservedIn dialect := by
  have spelled : (cLanguage dialect).keyword? lexeme =
      ((reservedIn dialect).reverse.find? fun entry => entry.1 == lexeme).map Prod.snd := by
    rw [← keywords_cLanguage]
    rfl
  rw [spelled]
  constructor
  · intro found
    obtain ⟨⟨spelling, other⟩, isFirst, rfl⟩ := Option.map_eq_some_iff.mp found
    have same : spelling = lexeme := by simpa using List.find?_some isFirst
    have member := List.mem_of_find?_eq_some isFirst
    rw [List.mem_reverse, same] at member
    exact member
  · intro member
    cases isFirst : (reservedIn dialect).reverse.find? fun entry => entry.1 == lexeme with
    | none =>
      have missing := List.find?_eq_none.mp isFirst (lexeme, word) (List.mem_reverse.mpr member)
      simp at missing
    | some entry =>
      have same : entry.1 = lexeme := by simpa using List.find?_some isFirst
      have inTable := List.mem_reverse.mp (List.mem_of_find?_eq_some isFirst)
      have unique := List.inj_on_of_nodup_map (reservedIn_nodup dialect) inTable member same
      rw [unique]
      rfl

/-- A word of a GNU dialect is the same word in every later one. -/
theorem keyword?_later {older newer : Standard} (inOrder : older ≤ newer)
    (found : (cLanguage ⟨older, true⟩).keyword? lexeme = some word) :
    (cLanguage ⟨newer, true⟩).keyword? lexeme = some word := by
  rw [keyword?_cLanguage, mem_reservedIn] at found ⊢
  obtain ⟨availability, inTable, allowed⟩ := found
  exact ⟨availability, inTable, availability.allows_later inOrder allowed⟩

end

/-! ## Operators -/

theorem longestFirst_cOperators :
    longestFirst OperatorEntry.symbol cOperators = cOperators :=
  List.mergeSort_of_pairwise (by decide)

theorem longestFirst_cPunctuators :
    longestFirst PunctuatorEntry.symbol cPunctuators = cPunctuators :=
  List.mergeSort_of_pairwise (by decide)

@[simp] theorem operators_cLanguage (dialect : Dialect) :
    (cLanguage dialect).operators = cOperators :=
  longestFirst_cOperators

@[simp] theorem punctuators_cLanguage (dialect : Dialect) :
    (cLanguage dialect).punctuators = cPunctuators :=
  longestFirst_cPunctuators

/-- Every binary operator of C has one of the ten levels between conditions and unary operators, and
groups from the left. -/
theorem binary_operatorEntry (dialect : Dialect) {operator : Operator} {binary : BinaryOperator}
    (isBinary : BinaryOperator.ofOperator? operator = some binary) :
    ∃ entry, Language.operatorEntry? (cLanguage dialect) operator = some entry ∧
      3 ≤ entry.precedence ∧ entry.precedence ≤ 12 ∧ entry.associativity = .left := by
  cases operator <;> simp [BinaryOperator.ofOperator?] at isBinary <;>
    simp [cOperators, Language.operatorEntry?, OperatorEntry.atLevel, Precedence.level]

theorem binary_level {dialect : Dialect} {operator : Operator} {binary : BinaryOperator}
    {level : Nat} (isBinary : BinaryOperator.ofOperator? operator = some binary)
    (hasLevel : (cLanguage dialect).precedence? operator = some level) : 3 ≤ level ∧ level ≤ 12 := by
  obtain ⟨entry, found, low, high, _⟩ := binary_operatorEntry dialect isBinary
  have levelEq : entry.precedence = level := by
    simpa [Language.precedence?, found] using hasLevel
  exact levelEq ▸ ⟨low, high⟩

/-- The assignment operators have the loosest level. -/
theorem assignment_precedence (dialect : Dialect) {operator : Operator}
    {assignment : AssignmentOperator}
    (isAssignment : AssignmentOperator.ofOperator? operator = some assignment) :
    (cLanguage dialect).precedence? operator = some 1 := by
  cases operator <;> simp [AssignmentOperator.ofOperator?] at isAssignment <;>
    simp [Language.precedence?, Language.operatorEntry?, cOperators, OperatorEntry.atLevel,
      Precedence.level]

/-- Whether every binary operator that the kind may be has a level below `limit`. -/
def Language.BinaryBelow (language : Language) (limit : Nat) (kind : TokenKind) : Prop :=
  ∀ operator binary level, kind = .operator operator →
    BinaryOperator.ofOperator? operator = some binary →
    language.precedence? operator = some level → level < limit

theorem Language.binaryBelow_of_notBinary {language : Language} {limit : Nat} {kind : TokenKind}
    (notBinary : ∀ operator, kind = .operator operator →
      BinaryOperator.ofOperator? operator = none) : language.BinaryBelow limit kind := by
  intro operator binary level same isBinary
  rw [notBinary operator same] at isBinary
  cases isBinary

theorem Language.exists_of_not_binaryBelow {language : Language} {limit : Nat} {kind : TokenKind}
    (notBelow : ¬ language.BinaryBelow limit kind) :
    ∃ operator binary level, kind = .operator operator ∧
      BinaryOperator.ofOperator? operator = some binary ∧
      language.precedence? operator = some level ∧ limit ≤ level := by
  simpa [BinaryBelow] using notBelow

theorem Language.BinaryBelow.mono {language : Language} {limit higher : Nat} {kind : TokenKind}
    (below : language.BinaryBelow limit kind) (le : limit ≤ higher) :
    language.BinaryBelow higher kind := by
  intro operator binary level same isBinary hasLevel
  exact Nat.lt_of_lt_of_le (below operator binary level same isBinary hasLevel) le

end CFrontEnd
