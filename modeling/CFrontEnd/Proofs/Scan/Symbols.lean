import CFrontEnd.Proofs.Scan.TokenSegments

/-!
Symbols are taken as long as they can be. The tables are ordered by length, so that the first symbol
found in one is the longest of those that the text begins with; the order is stable, so that of the
declarations of one symbol the first counts.
-/

namespace CFrontEnd

/-- Both tables as one: the symbols with the kinds of their tokens. -/
def cSymbolKinds : List (TokenKind × String) :=
  (cOperators.map fun entry => (.operator entry.operator, entry.symbol)) ++
    cPunctuators.map fun entry => (.punctuator entry.punctuator, entry.symbol)

theorem mem_cSymbols {kind : TokenKind} {symbol : String} (known : (kind, symbol) ∈ cSymbolKinds) :
    symbol ∈ cSymbols := by
  have inSymbols := List.mem_map_of_mem (f := Prod.snd) known
  simpa [cSymbolKinds, cSymbols, Function.comp_def] using inSymbols

/-- No symbol stands for two kinds of tokens. -/
theorem cSymbolKinds_unique : ∀ first ∈ cSymbolKinds, ∀ second ∈ cSymbolKinds,
    first.2 = second.2 → first = second := by
  decide +kernel

theorem utf8ByteSize_cSymbols : ∀ symbol ∈ cSymbols,
    symbol.utf8ByteSize = symbol.toList.length := by
  decide

/-- What is found first in a list by falling size is as large as anything to be found. -/
theorem find?_largest {Entry : Type} {size : Entry → Nat} {entries : List Entry}
    {isMatch : Entry → Bool} {found : Entry}
    (sorted : entries.Pairwise fun first second => size second ≤ size first)
    (isFound : entries.find? isMatch = some found) :
    ∀ entry ∈ entries, isMatch entry = true → size entry ≤ size found := by
  induction entries with
  | nil => cases isFound
  | cons first rest ih =>
      obtain ⟨largest, sortedRest⟩ := List.pairwise_cons.mp sorted
      intro entry inEntries entryMatches
      by_cases firstMatches : isMatch first = true
      · rw [List.find?_cons_of_pos firstMatches] at isFound
        obtain rfl := Option.some.inj isFound
        rcases List.mem_cons.mp inEntries with rfl | inRest
        · exact Nat.le_refl _
        · exact largest entry inRest
      · rw [List.find?_cons_of_neg firstMatches] at isFound
        rcases List.mem_cons.mp inEntries with rfl | inRest
        · exact absurd entryMatches firstMatches
        · exact ih sortedRest isFound entry inRest entryMatches

/-! ## Tables by falling length -/

/-- Both tables have longer symbols in front of shorter ones. -/
structure Language.LongestFirst (language : Language) : Prop where
  operators : language.operators.Pairwise fun first second =>
    second.symbol.utf8ByteSize ≤ first.symbol.utf8ByteSize
  punctuators : language.punctuators.Pairwise fun first second =>
    second.symbol.utf8ByteSize ≤ first.symbol.utf8ByteSize

section Tables

variable {Entry : Type} {symbol : Entry → String} {entries : List Entry} {input : List Char}
  {found : Entry}

theorem longestFirst_order (symbol : Entry → String) :
    (∀ first second third, (symbol second).utf8ByteSize ≤ (symbol first).utf8ByteSize →
      (symbol third).utf8ByteSize ≤ (symbol second).utf8ByteSize →
        (symbol third).utf8ByteSize ≤ (symbol first).utf8ByteSize) ∧
    ∀ first second, (symbol second).utf8ByteSize ≤ (symbol first).utf8ByteSize ∨
      (symbol first).utf8ByteSize ≤ (symbol second).utf8ByteSize :=
  ⟨fun _ _ _ nearer further => Nat.le_trans further nearer, fun _ _ => Nat.le_total _ _⟩

theorem longestFirst_sorted (symbol : Entry → String) (entries : List Entry) :
    (longestFirst symbol entries).Pairwise fun first second =>
      (symbol second).utf8ByteSize ≤ (symbol first).utf8ByteSize := by
  have order := longestFirst_order symbol
  have sorted : (longestFirst symbol entries).Pairwise fun first second =>
      decide ((symbol second).utf8ByteSize ≤ (symbol first).utf8ByteSize) = true :=
    List.pairwise_mergeSort (by simpa using order.1) (by simpa using order.2) entries
  exact sorted.imp of_decide_eq_true

theorem mem_longestFirst : found ∈ longestFirst symbol entries ↔ found ∈ entries :=
  List.mem_mergeSort

/-- Entries of one symbol stay in their order, as sorting is stable. -/
theorem filter_longestFirst (symbol : Entry → String) (entries : List Entry) (name : String) :
    (longestFirst symbol entries).filter (fun entry => symbol entry == name) =
      entries.filter fun entry => symbol entry == name := by
  have order := longestFirst_order symbol
  have ofOneSize : (entries.filter fun entry => symbol entry == name).Pairwise fun first second =>
      decide ((symbol second).utf8ByteSize ≤ (symbol first).utf8ByteSize) = true := by
    refine List.pairwise_of_forall_mem_list fun first isFirst second isSecond => ?_
    have firstNamed : symbol first = name := by simpa using (List.mem_filter.mp isFirst).2
    have secondNamed : symbol second = name := by simpa using (List.mem_filter.mp isSecond).2
    rw [firstNamed, secondNamed]
    exact decide_eq_true (Nat.le_refl _)
  have inOrder : (entries.filter fun entry => symbol entry == name).Sublist
      (longestFirst symbol entries) :=
    List.sublist_mergeSort (by simpa using order.1) (by simpa using order.2) ofOneSize
      List.filter_sublist
  have named := inOrder.filter fun entry => symbol entry == name
  rw [List.filter_filter, List.filter_congr fun _ _ => Bool.and_self _] at named
  exact (named.eq_of_length
    ((List.mergeSort_perm entries _).filter fun entry => symbol entry == name).length_eq.symm).symm

/-- What is found first is the longest entry that the text begins with, and of entries with its symbol the
first one. -/
theorem find?_longestFirst
    (isFound : (longestFirst symbol entries).find? (fun entry => beginsWith (symbol entry) input) =
      some found) :
    beginsWith (symbol found) input = true ∧
      (∀ entry ∈ entries, beginsWith (symbol entry) input = true →
        (symbol entry).utf8ByteSize ≤ (symbol found).utf8ByteSize) ∧
      entries.find? (fun entry => symbol entry == symbol found) = some found := by
  have begins : beginsWith (symbol found) input = true := by simpa using List.find?_some isFound
  refine ⟨begins, fun entry inTable => ?_, ?_⟩
  · exact find?_largest (longestFirst_sorted symbol entries) isFound entry
      (mem_longestFirst.mpr inTable)
  · obtain ⟨_, earlier, later, isTable, notEarlier⟩ := List.find?_eq_some_iff_append.mp isFound
    have isFirst : (longestFirst symbol entries).find? (fun entry => symbol entry == symbol found) =
        some found := by
      refine List.find?_eq_some_iff_append.mpr
        ⟨by simp, earlier, later, isTable, fun entry isEarlier => ?_⟩
      have notBegins := notEarlier entry isEarlier
      cases same : symbol entry == symbol found with
      | false => rfl
      | true =>
        rw [eq_of_beq same, begins] at notBegins
        cases notBegins
    rw [← List.head?_filter, ← filter_longestFirst, List.head?_filter]
    exact isFirst

end Tables

theorem longestFirst_build (declaration : Language.Declaration) : declaration.build.LongestFirst :=
  ⟨longestFirst_sorted _ _, longestFirst_sorted _ _⟩

namespace Segment

variable {dialect : Dialect} {kind : TokenKind} {symbol : String} {input next : List Char}

theorem mem_of_symbolKind? (found : symbolKind? (cLanguage dialect) input = some (kind, symbol)) :
    (kind, symbol) ∈ cSymbolKinds := by
  cases symbolKind?_rule found with
  | @operator entry matched =>
    have inTable := List.mem_of_find?_eq_some matched
    rw [operators_cLanguage] at inTable
    exact List.mem_append_left _ (List.mem_map.mpr ⟨entry, inTable, rfl⟩)
  | @punctuator entry matched =>
    have inTable := List.mem_of_find?_eq_some matched
    rw [punctuators_cLanguage] at inTable
    exact List.mem_append_right _ (List.mem_map.mpr ⟨entry, inTable, rfl⟩)

/-- What is found is as long as any symbol of either table that the text begins with. -/
theorem SymbolRule.longest {language : Language} (sorted : language.LongestFirst)
    (rule : SymbolRule language input kind symbol) :
    (∀ entry ∈ language.operators, beginsWith entry.symbol input = true →
      entry.symbol.utf8ByteSize ≤ symbol.utf8ByteSize) ∧
    ∀ entry ∈ language.punctuators, beginsWith entry.symbol input = true →
      entry.symbol.utf8ByteSize ≤ symbol.utf8ByteSize := by
  have operator {entry found : OperatorEntry} (matched : language.matchOperator? input = some found)
      (inTable : entry ∈ language.operators) (begins : beginsWith entry.symbol input = true) :
      entry.symbol.utf8ByteSize ≤ found.symbol.utf8ByteSize :=
    find?_largest sorted.operators matched entry inTable begins
  have punctuator {entry found : PunctuatorEntry}
      (matched : language.matchPunctuator? input = some found)
      (inTable : entry ∈ language.punctuators) (begins : beginsWith entry.symbol input = true) :
      entry.symbol.utf8ByteSize ≤ found.symbol.utf8ByteSize :=
    find?_largest sorted.punctuators matched entry inTable begins
  cases rule with
  | operator matched noLonger =>
    refine ⟨fun entry => operator matched, fun entry inTable begins => ?_⟩
    cases other : language.matchPunctuator? input with
    | none => exact absurd begins (List.find?_eq_none.mp other entry inTable)
    | some found => exact Nat.le_trans (punctuator other inTable begins) (noLonger found other)
  | punctuator matched longer =>
    refine ⟨fun entry inTable begins => ?_, fun entry => punctuator matched⟩
    cases other : language.matchOperator? input with
    | none => exact absurd begins (List.find?_eq_none.mp other entry inTable)
    | some found =>
      exact Nat.le_trans (operator other inTable begins) (Nat.le_of_lt (longer found other))

/-- The symbol that is found is the longest of those that the text begins with. -/
theorem symbolKind?_longest
    (found : symbolKind? (cLanguage dialect) input = some (kind, symbol)) :
    ∀ other ∈ cSymbols, other.toList <+: input → other.utf8ByteSize ≤ symbol.utf8ByteSize := by
  intro other isSymbol ahead
  have notEmpty : other ≠ "" := by
    rintro rfl
    exact absurd (cSymbols_length_pos "" isSymbol) (by decide)
  have begins := beginsWith_iff.mpr ⟨notEmpty, ahead⟩
  obtain ⟨operators, punctuators⟩ := (symbolKind?_rule found).longest (longestFirst_build _)
  rcases List.mem_append.mp isSymbol with isOperator | isPunctuator
  · obtain ⟨entry, inTable, rfl⟩ := List.mem_map.mp isOperator
    rw [← operators_cLanguage dialect] at inTable
    exact operators entry inTable begins
  · obtain ⟨entry, inTable, rfl⟩ := List.mem_map.mp isPunctuator
    rw [← punctuators_cLanguage dialect] at inTable
    exact punctuators entry inTable begins

end Segment

/-! ## Declared symbols -/

namespace Language.Declaration

def symbols (declaration : Declaration) : List String :=
  declaration.operators.map OperatorEntry.symbol ++ declaration.punctuators.map PunctuatorEntry.symbol

/-- What a symbol is declared as: an operator rather than a punctuator, and of two declarations in one
table the one that was made first. -/
def kindOf? (declaration : Declaration) (symbol : String) : Option TokenKind :=
  match declaration.operators.find? fun entry => entry.symbol == symbol with
  | some entry => some (.operator entry.operator)
  | none => (declaration.punctuators.find? fun entry => entry.symbol == symbol).map fun entry =>
      .punctuator entry.punctuator

theorem mem_symbols {declaration : Declaration} {symbol : String} {kind : TokenKind}
    (declared : declaration.kindOf? symbol = some kind) : symbol ∈ declaration.symbols := by
  unfold kindOf? at declared
  split at declared
  · rename_i entry isFirst
    have same : entry.symbol = symbol := by simpa using List.find?_some isFirst
    rw [← same]
    exact List.mem_append_left _ (List.mem_map_of_mem (List.mem_of_find?_eq_some isFirst))
  · obtain ⟨entry, isFirst, _⟩ := Option.map_eq_some_iff.mp declared
    have same : entry.symbol = symbol := by simpa using List.find?_some isFirst
    rw [← same]
    exact List.mem_append_right _ (List.mem_map_of_mem (List.mem_of_find?_eq_some isFirst))

end Language.Declaration

namespace Segment

variable {declaration : Language.Declaration} {kind : TokenKind} {symbol : String}
  {input : List Char} {first : Char} {rest : List Char} {segment : Segment}

theorem SymbolRule.declared (rule : SymbolRule declaration.build input kind symbol) :
    beginsWith symbol input = true ∧
      (∀ other ∈ declaration.symbols, beginsWith other input = true →
        other.utf8ByteSize ≤ symbol.utf8ByteSize) ∧
      declaration.kindOf? symbol = some kind := by
  obtain ⟨operators, punctuators⟩ := rule.longest (longestFirst_build declaration)
  have longest : ∀ other ∈ declaration.symbols, beginsWith other input = true →
      other.utf8ByteSize ≤ symbol.utf8ByteSize := by
    intro other isSymbol
    rcases List.mem_append.mp isSymbol with isOperator | isPunctuator
    · obtain ⟨entry, inTable, rfl⟩ := List.mem_map.mp isOperator
      exact operators entry (mem_longestFirst.mpr inTable)
    · obtain ⟨entry, inTable, rfl⟩ := List.mem_map.mp isPunctuator
      exact punctuators entry (mem_longestFirst.mpr inTable)
  cases rule with
  | @operator entry matched =>
    obtain ⟨begins, _, isFirst⟩ := find?_longestFirst matched
    exact ⟨begins, longest, by rw [Language.Declaration.kindOf?, isFirst]⟩
  | @punctuator entry matched longer =>
    obtain ⟨begins, _, isFirst⟩ := find?_longestFirst matched
    -- An operator with this symbol would have been found, and the punctuator is no longer than it.
    have noOperator : declaration.operators.find? (fun other => other.symbol == entry.symbol) =
        none := by
      refine List.find?_eq_none.mpr fun other inTable same => ?_
      have begins : beginsWith other.symbol input = true := by rwa [eq_of_beq same]
      cases isOther : declaration.build.matchOperator? input with
      | none => exact List.find?_eq_none.mp isOther other (mem_longestFirst.mpr inTable) begins
      | some found =>
        have atLeast := (find?_longestFirst isOther).2.1 other inTable begins
        have shorter := longer found isOther
        rw [eq_of_beq same] at atLeast
        omega
    refine ⟨begins, longest, ?_⟩
    rw [Language.Declaration.kindOf?, noOperator, isFirst]
    rfl

theorem symbolKind?_build_eq_none (named : ∀ symbol ∈ declaration.symbols, symbol ≠ "") :
    symbolKind? declaration.build input = none ↔
      ∀ symbol ∈ declaration.symbols, ¬ symbol.toList <+: input := by
  have begins : ∀ symbol ∈ declaration.symbols,
      (¬ beginsWith symbol input = true) ↔ ¬ symbol.toList <+: input := by
    intro symbol isSymbol
    rw [beginsWith_iff, and_iff_right (named symbol isSymbol)]
  rw [symbolKind?_eq_none]
  constructor
  · rintro ⟨noOperator, noPunctuator⟩ symbol isSymbol
    refine (begins symbol isSymbol).mp ?_
    rcases List.mem_append.mp isSymbol with isOperator | isPunctuator
    · obtain ⟨entry, inTable, rfl⟩ := List.mem_map.mp isOperator
      exact List.find?_eq_none.mp noOperator entry (mem_longestFirst.mpr inTable)
    · obtain ⟨entry, inTable, rfl⟩ := List.mem_map.mp isPunctuator
      exact List.find?_eq_none.mp noPunctuator entry (mem_longestFirst.mpr inTable)
  · intro noPrefix
    have notBegins (symbol : String) (isSymbol : symbol ∈ declaration.symbols) :=
      (begins symbol isSymbol).mpr (noPrefix symbol isSymbol)
    refine ⟨List.find?_eq_none.mpr fun entry inTable => ?_,
      List.find?_eq_none.mpr fun entry inTable => ?_⟩
    · exact notBegins _ (List.mem_append_left _ (List.mem_map_of_mem (mem_longestFirst.mp inTable)))
    · exact notBegins _ (List.mem_append_right _ (List.mem_map_of_mem (mem_longestFirst.mp inTable)))

theorem symbolAt?_of_symbolKind? {language : Language}
    (found : symbolKind? language (first :: rest) = some (kind, symbol))
    (begins : beginsWith symbol (first :: rest) = true) :
    symbolAt? language first rest =
      some
        { kind := .token kind none, length := symbol.length,
          length_pos := length_pos_of_beginsWith begins } := by
  simp [symbolAt?, found, length_pos_of_beginsWith begins]

end Segment

/-- Whatever symbols a language declares, and in whatever order, the symbol that is taken is the longest
of those that the text begins with, as what it is declared as. -/
theorem longestMatch_build (declaration : Language.Declaration)
    (named : ∀ symbol ∈ declaration.symbols, symbol ≠ "") (first : Char) (rest : List Char) :
    (Segment.symbolAt? declaration.build first rest = none ↔
      ∀ symbol ∈ declaration.symbols, ¬ symbol.toList <+: first :: rest) ∧
    ∀ segment, Segment.symbolAt? declaration.build first rest = some segment →
      ∃ symbol kind, symbol.toList <+: first :: rest ∧
        (∀ other ∈ declaration.symbols, other.toList <+: first :: rest →
          other.utf8ByteSize ≤ symbol.utf8ByteSize) ∧
        declaration.kindOf? symbol = some kind ∧ segment.kind = .token kind none ∧
        segment.length = symbol.length ∧ segment.problems = [] := by
  cases found : Segment.symbolKind? declaration.build (first :: rest) with
  | none =>
    have noSegment : Segment.symbolAt? declaration.build first rest = none := by
      rw [Segment.symbolAt?, found]
      rfl
    rw [noSegment]
    exact ⟨iff_of_true rfl ((Segment.symbolKind?_build_eq_none named).mp found), by simp⟩
  | some entry =>
    obtain ⟨kind, symbol⟩ := entry
    obtain ⟨begins, longest, declared⟩ := (Segment.symbolKind?_rule found).declared
    have ahead := (beginsWith_iff.mp begins).2
    rw [Segment.symbolAt?_of_symbolKind? found begins]
    constructor
    · refine iff_of_false (by simp) fun noPrefix => ?_
      rw [(Segment.symbolKind?_build_eq_none named).mpr noPrefix] at found
      cases found
    · rintro _ ⟨⟩
      exact ⟨symbol, kind, ahead,
        fun other isSymbol isAhead =>
          longest other isSymbol (beginsWith_iff.mpr ⟨named other isSymbol, isAhead⟩),
        declared, rfl, rfl, rfl⟩

/-- A table in which a longer symbol stands behind a shorter one, one operator is declared twice and one
symbol is in both tables. -/
def tiedDeclaration : Language.Declaration where
  name := "tied"
  version := "1"
  operators := [⟨"<", .less, 9, .left⟩, ⟨"<<", .shiftLeft, 10, .left⟩, ⟨"<<", .less, 9, .left⟩]
  punctuators := [⟨"<<", .comma⟩, ⟨".", .colon⟩, ⟨"...", .ellipsis⟩]

theorem longestMatch_build_tied :
    (∀ symbol ∈ tiedDeclaration.symbols, symbol ≠ "") ∧
    (Segment.symbolAt? tiedDeclaration.build '<' ['<', '.'] = none ↔
      ∀ symbol ∈ tiedDeclaration.symbols, ¬ symbol.toList <+: ['<', '<', '.']) ∧
    ∃ segment, Segment.symbolAt? tiedDeclaration.build '<' ['<', '.'] = some segment ∧
      segment.kind = .token (.operator .shiftLeft) none ∧ segment.length = 2 := by
  have named : ∀ symbol ∈ tiedDeclaration.symbols, symbol ≠ "" := by decide
  obtain ⟨noneFound, isFound⟩ := longestMatch_build tiedDeclaration named '<' ['<', '.']
  refine ⟨named, noneFound, ?_⟩
  cases found : Segment.symbolAt? tiedDeclaration.build '<' ['<', '.'] with
  | none => exact absurd (noneFound.mp found) (by decide)
  | some segment =>
    obtain ⟨symbol, kind, ahead, longest, declared, isKind, isLength, _⟩ := isFound segment found
    have onlyOne : ∀ symbol ∈ tiedDeclaration.symbols, symbol.toList <+: ['<', '<', '.'] →
        "<<".utf8ByteSize ≤ symbol.utf8ByteSize → symbol = "<<" := by
      decide
    have isLong := longest "<<" (by decide) (by decide)
    obtain rfl := onlyOne symbol (Language.Declaration.mem_symbols declared) ahead isLong
    obtain rfl := Option.some.inj declared
    exact ⟨segment, rfl, isKind, isLength⟩

/-- The characters that make of a symbol the beginning of a longer one, or of a comment. -/
def symbolTails (symbol : String) : List Char :=
  (cSymbols.filterMap fun other =>
    if symbol.toList.isPrefixOf other.toList then other.toList[symbol.toList.length]? else none) ++
    if symbol = "/" then ['/', '*'] else []

/-- A symbol stops here: what comes next does not go on with it, nor makes a number of a point. -/
def EndsSymbol (symbol : String) (next : List Char) : Prop :=
  ∀ character, next.head? = some character →
    character ∉ symbolTails symbol ∧ (symbol = "." → character.isDigit = false)

namespace Segment

variable {dialect : Dialect} {kind : TokenKind} {symbol : String} {next : List Char}

theorem symbolKind?_eq (known : (kind, symbol) ∈ cSymbolKinds) (ends : EndsSymbol symbol next) :
    symbolKind? (cLanguage dialect) (symbol.toList ++ next) = some (kind, symbol) := by
  have isSymbol := mem_cSymbols known
  have ahead : symbol.toList <+: symbol.toList ++ next := List.prefix_append _ _
  cases found : symbolKind? (cLanguage dialect) (symbol.toList ++ next) with
  | none => exact absurd ahead (symbolKind?_none found symbol isSymbol)
  | some entry =>
    obtain ⟨otherKind, other⟩ := entry
    have otherKnown := mem_of_symbolKind? found
    obtain ⟨_, otherSymbol, otherAhead⟩ := symbolKind?_some found
    have longest := symbolKind?_longest found symbol isSymbol ahead
    rw [utf8ByteSize_cSymbols symbol isSymbol, utf8ByteSize_cSymbols other otherSymbol] at longest
    have isPrefix := List.prefix_of_prefix_length_le ahead otherAhead longest
    obtain ⟨tail, whole⟩ := isPrefix
    cases tail with
    | nil =>
      have same : other = symbol := String.toList_inj.mp (by rw [← whole, List.append_nil])
      rw [cSymbolKinds_unique _ otherKnown _ known same]
    | cons character rest =>
      -- A longer symbol would go on with the first character of what comes next.
      rw [← whole, List.prefix_append_right_inj] at otherAhead
      obtain ⟨later, isNext⟩ := otherAhead
      have isTail : character ∈ symbolTails symbol := by
        refine List.mem_append_left _ (List.mem_filterMap.mpr ⟨other, otherSymbol, ?_⟩)
        simp [← whole]
      exact absurd isTail (ends character (by simp [← isNext])).1

end Segment

end CFrontEnd
