import CFrontEnd.Grammar.TypeWords
import CFrontEnd.Proofs.Grammar.Specifiers

/-!
Which words stand for a type. It does not matter in which order they are written, only how often each of
them is.
-/

namespace CFrontEnd

/-! ## Words of types -/

/-- The sorts of types that can be made complex and nothing else. -/
def plainSorts : List Keyword :=
  [.floatWord, .imaginaryWord, .float16Word, .float32Word, .float64Word, .float128Word,
    .float32xWord, .float64xWord, .decimal32Word, .decimal64Word, .decimal128Word, .autoTypeWord]

/-- At most one word for the sign, and what it puts in front of the name of an integer type. -/
inductive IsSign : List Keyword → String → Prop
  | none : IsSign [] ""
  | signed : IsSign [.signedWord] ""
  | unsigned : IsSign [.unsignedWord] "unsigned "

/-- At most one `_Complex`, and what it puts behind the name. -/
inductive IsComplexity : List Keyword → String → Prop
  | real : IsComplexity [] ""
  | complex : IsComplexity [.complexWord] " _Complex"

/-- The words for the size of an integer. -/
inductive IsSize : List Keyword → String → Prop
  | short : IsSize [.shortWord] "short"
  | long : IsSize [.longWord] "long"
  | longLong : IsSize [.longWord, .longWord] "long long"

/-- The words of a type in one of their orders, with the name of the type. -/
inductive NamesType : List Keyword → String → Prop
  | void : NamesType [.voidWord] "void"
  | bool : NamesType [.boolWord] "_Bool"
  | plain {sort : Keyword} {complexity : List Keyword} {suffix : String} (isPlain : sort ∈ plainSorts)
      (isComplexity : IsComplexity complexity suffix) :
      NamesType (sort :: complexity) (sort.spelling ++ suffix)
  | double {complexity : List Keyword} {suffix : String}
      (isComplexity : IsComplexity complexity suffix) :
      NamesType (.doubleWord :: complexity) ("double" ++ suffix)
  | longDouble {complexity : List Keyword} {suffix : String}
      (isComplexity : IsComplexity complexity suffix) :
      NamesType (.longWord :: .doubleWord :: complexity) ("long double" ++ suffix)
  | complex : NamesType [.complexWord] "double _Complex"
  | char : NamesType [.charWord] "char"
  | signedChar : NamesType [.signedWord, .charWord] "signed char"
  | unsignedChar : NamesType [.unsignedWord, .charWord] "unsigned char"
  | int128 {sign : List Keyword} {front : String} (isSign : IsSign sign front) :
      NamesType (sign ++ [.int128Word]) (front ++ "__int128")
  | sized {sign size int : List Keyword} {front name : String} (isSign : IsSign sign front)
      (isSize : IsSize size name) (isInt : int = [] ∨ int = [.intWord]) :
      NamesType (sign ++ size ++ int) (front ++ name)
  | int {sign : List Keyword} {front : String} (isSign : IsSign sign front) :
      NamesType (sign ++ [.intWord]) (front ++ "int")
  | sign {sign : List Keyword} {front : String} (isSign : IsSign sign front) (notEmpty : sign ≠ []) :
      NamesType sign (front ++ "int")

/-! ## Permutations -/

section Permutations

variable {words others : List Keyword}

theorem TypeRefinement.ofWords_perm (same : words.Perm others) :
    TypeRefinement.ofWords words = TypeRefinement.ofWords others := by
  simp only [TypeRefinement.ofWords, same.contains_eq, same.count_eq]

theorem builtinTypeName?_perm (same : words.Perm others) :
    builtinTypeName? words = builtinTypeName? others := by
  have repeated : (words.any fun word => word.maxRepetitions < words.count word) =
      others.any fun word => word.maxRepetitions < others.count word := by
    rw [Bool.eq_iff_iff, List.any_eq_true, List.any_eq_true]
    simp only [same.mem_iff, same.count_eq]
  have sorts := same.filter fun word => !word.refinesType
  simp only [builtinTypeName?, repeated, TypeRefinement.ofWords_perm same]
  split
  · rfl
  · generalize words.filter (fun word => !word.refinesType) = first at sorts ⊢
    generalize others.filter (fun word => !word.refinesType) = second at sorts ⊢
    rcases first with _ | ⟨sort, _ | ⟨another, more⟩⟩
    · rw [← sorts.nil_eq]
    · rw [← List.singleton_perm.mp sorts]
    · have length := sorts.length_eq
      rcases second with _ | ⟨other, _ | ⟨next, rest⟩⟩
      · simp at length
      · simp at length
      · rfl

theorem writtenType_perm (same : words.Perm others) : writtenType words = writtenType others := by
  have empty : words.isEmpty = others.isEmpty := by
    rw [Bool.eq_iff_iff, List.isEmpty_iff_length_eq_zero, List.isEmpty_iff_length_eq_zero,
      same.length_eq]
  simp only [writtenType, empty, builtinTypeName?_perm same]

end Permutations

/-! ## From words to types -/

theorem NamesType.named {words : List Keyword} {name : String} (isWords : NamesType words name) :
    builtinTypeName? words = some name := by
  cases isWords with
  | plain isPlain isComplexity =>
    have decided : ∀ sort ∈ plainSorts, builtinTypeName? [sort] = some (sort.spelling ++ "") ∧
        builtinTypeName? [sort, .complexWord] = some (sort.spelling ++ " _Complex") := by
      decide
    cases isComplexity with
    | real => exact (decided _ isPlain).1
    | complex => exact (decided _ isPlain).2
  | double isComplexity => cases isComplexity <;> decide
  | longDouble isComplexity => cases isComplexity <;> decide
  | int128 isSign => cases isSign <;> decide
  | sized isSign isSize isInt =>
    rcases isInt with rfl | rfl <;> cases isSign <;> cases isSize <;> decide
  | int isSign => cases isSign <;> decide
  | sign isSign notEmpty =>
    cases isSign with
    | none => exact absurd rfl notEmpty
    | signed => decide
    | unsigned => decide
  | _ => decide

theorem NamesType.ne_nil {words : List Keyword} {name : String} (isWords : NamesType words name) :
    words ≠ [] := by
  cases isWords with
  | sign _ notEmpty => exact notEmpty
  | sized _ isSize _ => cases isSize <;> simp
  | _ => simp

/-! ## From types to words -/

namespace TypeRefinement

variable {refinement : TypeRefinement} {name : String}

def signWords (refinement : TypeRefinement) : List Keyword :=
  List.replicate refinement.isSigned.toNat .signedWord ++
    List.replicate refinement.isUnsigned.toNat .unsignedWord

def sizeWords (refinement : TypeRefinement) : List Keyword :=
  List.replicate refinement.isShort.toNat .shortWord ++ List.replicate refinement.longs .longWord

def intWords (refinement : TypeRefinement) : List Keyword :=
  List.replicate refinement.isInt.toNat .intWord

def complexWords (refinement : TypeRefinement) : List Keyword :=
  List.replicate refinement.isComplex.toNat .complexWord

/-- The words that say what is said beside the sort. -/
def words (refinement : TypeRefinement) : List Keyword :=
  refinement.signWords ++ refinement.sizeWords ++ refinement.intWords ++ refinement.complexWords

/-- What words say beside the sort of the type is all that they say beside it. -/
theorem perm_words {words : List Keyword}
    (inBounds : ∀ word ∈ words, words.count word ≤ word.maxRepetitions) :
    words.Perm ((words.filter fun word => !word.refinesType) ++ (ofWords words).words) := by
  have bounded (word : Keyword) : words.count word ≤ word.maxRepetitions := by
    by_cases isWord : word ∈ words
    · exact inBounds word isWord
    · rw [List.count_eq_zero_of_not_mem isWord]
      exact Nat.zero_le _
  have once (word : Keyword) (isOnce : word.maxRepetitions = 1) :
      (words.contains word).toNat = words.count word := by
    have atMostOnce := isOnce ▸ bounded word
    by_cases isWord : word ∈ words
    · have positive := List.count_pos_iff.mpr isWord
      rw [List.contains_iff_mem.mpr isWord, Bool.toNat_true]
      omega
    · simp [List.count_eq_zero_of_not_mem isWord, isWord]
  rw [List.perm_iff_count]
  intro word
  have said : (ofWords words).words.count word = if word.refinesType then words.count word else 0 := by
    simp only [TypeRefinement.words, signWords, sizeWords, intWords, complexWords, ofWords,
      once .signedWord rfl, once .unsignedWord rfl, once .shortWord rfl, once .intWord rfl,
      once .complexWord rfl, List.count_append, List.count_replicate]
    cases word <;> simp [Keyword.refinesType]
  rw [List.count_append, said]
  cases refines : word.refinesType with
  | true =>
    have notLeft : word ∉ words.filter fun word => !word.refinesType := by simp [refines]
    simp [List.count_eq_zero_of_not_mem notLeft]
  | false => simp [List.count_filter, refines]

/-- A sign goes in front of the name of an integer type. -/
theorem exists_isSign (oneSign : (refinement.isSigned && refinement.isUnsigned) = false) :
    ∃ front, IsSign refinement.signWords front ∧
      ∀ name, refinement.integerName name = front ++ name := by
  unfold signWords integerName
  cases isSigned : refinement.isSigned <;> cases isUnsigned : refinement.isUnsigned
  · exact ⟨"", .none, fun name => by simp⟩
  · exact ⟨"unsigned ", .unsigned, fun name => rfl⟩
  · exact ⟨"", .signed, fun name => by simp⟩
  · simp [isSigned, isUnsigned] at oneSign

theorem exists_isComplexity (refinement : TypeRefinement) :
    ∃ suffix, IsComplexity refinement.complexWords suffix ∧
      ∀ name, refinement.complexName name = name ++ suffix := by
  unfold complexWords complexName
  cases refinement.isComplex
  · exact ⟨"", .real, fun name => by simp⟩
  · exact ⟨" _Complex", .complex, fun name => rfl⟩

theorem words_of_isAtMostComplex (atMostComplex : refinement.isAtMostComplex = true) :
    refinement.words = refinement.complexWords := by
  simp only [isAtMostComplex, hasSign, hasSize, Bool.and_eq_true, Bool.not_eq_true',
    Bool.or_eq_false_iff, bne_eq_false_iff_eq] at atMostComplex
  obtain ⟨⟨⟨isSigned, isUnsigned⟩, isShort, longs⟩, isInt⟩ := atMostComplex
  simp [words, signWords, sizeWords, intWords, isSigned, isUnsigned, isShort, longs, isInt]

/-- Without a size, `int` and `_Complex`, the sign is all that is said. -/
theorem words_of_sizeless
    (sizeless : ¬ (refinement.hasSize || refinement.isInt || refinement.isComplex) = true) :
    refinement.words = refinement.signWords := by
  simp only [hasSize, Bool.or_eq_true, not_or, Bool.not_eq_true, bne_eq_false_iff_eq] at sizeless
  obtain ⟨⟨⟨isShort, longs⟩, isInt⟩, isComplex⟩ := sizeless
  simp [words, sizeWords, intWords, complexWords, isShort, longs, isInt, isComplex]

theorem namesType_integer (notEmpty : refinement.words ≠ [])
    (oneSign : (refinement.isSigned && refinement.isUnsigned) = false)
    (isReal : refinement.isComplex = false)
    (isSize : IsSize refinement.sizeWords name ∨ refinement.sizeWords = [] ∧ name = "int") :
    NamesType refinement.words (refinement.integerName name) := by
  obtain ⟨front, isSign, front_eq⟩ := exists_isSign oneSign
  have noComplex : refinement.complexWords = [] := by simp [complexWords, isReal]
  have isInt : refinement.intWords = [] ∨ refinement.intWords = [.intWord] := by
    unfold intWords
    cases refinement.isInt
    · exact .inl rfl
    · exact .inr rfl
  rw [front_eq]
  unfold words at notEmpty ⊢
  rw [noComplex, List.append_nil] at notEmpty ⊢
  rcases isSize with isSize | ⟨noSize, rfl⟩
  · exact .sized isSign isSize isInt
  · rw [noSize, List.append_nil] at notEmpty ⊢
    rcases isInt with noInt | isInt
    · rw [noInt, List.append_nil] at notEmpty ⊢
      exact .sign isSign notEmpty
    · rw [isInt]
      exact .int isSign

/-- The size that the name of a real type without a sort tells, and the words for it. -/
theorem exists_size (isReal : refinement.isComplex = false) (longs : refinement.longs ≤ 2)
    (isName : refinement.sortlessName? = some name) :
    ∃ base, name = refinement.integerName base ∧
      (IsSize refinement.sizeWords base ∨ refinement.sizeWords = [] ∧ base = "int") := by
  simp only [sortlessName?, isReal, Bool.false_eq_true, if_false] at isName
  unfold sizeWords
  split at isName
  · rename_i isShort
    obtain ⟨notLong, isName⟩ := Option.ite_none_right_eq_some.mp isName
    rw [isShort, notLong]
    exact ⟨_, (Option.some.inj isName).symm, .inl .short⟩
  · rename_i notShort
    rw [Bool.not_eq_true] at notShort
    split at isName
    · rename_i noLong
      rw [notShort, noLong]
      exact ⟨_, (Option.some.inj isName).symm, .inr ⟨rfl, rfl⟩⟩
    · rename_i oneLong
      rw [notShort, oneLong]
      exact ⟨_, (Option.some.inj isName).symm, .inl .long⟩
    · rename_i notNone notOne
      rw [imp_false] at notNone notOne
      have twoLongs : refinement.longs = 2 := by omega
      rw [notShort, twoLongs]
      exact ⟨_, (Option.some.inj isName).symm, .inl .longLong⟩

theorem namesType_sortless (notEmpty : refinement.words ≠ [])
    (oneSign : (refinement.isSigned && refinement.isUnsigned) = false)
    (longs : refinement.longs ≤ 2) (isName : refinement.sortlessName? = some name) :
    NamesType refinement.words name := by
  cases isComplex : refinement.isComplex with
  | true =>
    rw [sortlessName?, isComplex, if_pos rfl] at isName
    obtain ⟨atMostComplex, ⟨⟩⟩ := Option.ite_none_right_eq_some.mp isName
    rw [words_of_isAtMostComplex atMostComplex, complexWords, isComplex]
    exact .complex
  | false =>
    obtain ⟨base, rfl, isSize⟩ := exists_size isComplex longs isName
    exact namesType_integer notEmpty oneSign isComplex isSize

/-- Each word for a sort is of one of six kinds. -/
theorem sort_cases {sort : Keyword} (spells : sort.spellsType = true)
    (isSort : sort.refinesType = false) :
    sort ∈ plainSorts ∨ sort = .voidWord ∨ sort = .boolWord ∨ sort = .charWord ∨
      sort = .int128Word ∨ sort = .doubleWord := by
  revert spells isSort
  cases sort <;> decide

theorem nameOfSort?_plain {sort : Keyword} (isPlain : sort ∈ plainSorts) :
    refinement.nameOfSort? sort =
      if refinement.isAtMostComplex then some (refinement.complexName sort.spelling) else none := by
  simp only [plainSorts, List.mem_cons, List.not_mem_nil, or_false] at isPlain
  rcases isPlain with rfl | rfl | rfl | rfl | rfl | rfl | rfl | rfl | rfl | rfl | rfl | rfl <;> rfl

theorem exists_namesType_char
    (oneSign : (refinement.isSigned && refinement.isUnsigned) = false)
    (isName : refinement.nameOfSort? .charWord = some name) :
    ∃ listed, NamesType listed name ∧ (.charWord :: refinement.words).Perm listed := by
  obtain ⟨sizeless, isName⟩ := Option.ite_none_left_eq_some.mp isName
  rw [words_of_sizeless sizeless, signWords]
  unfold integerName at isName
  cases isSigned : refinement.isSigned <;> cases isUnsigned : refinement.isUnsigned <;>
    simp only [isSigned, isUnsigned, if_true, if_false, Bool.false_eq_true] at isName oneSign
  all_goals obtain rfl := Option.some.inj isName
  · exact ⟨_, .char, .refl _⟩
  · exact ⟨_, .unsignedChar, .swap _ _ _⟩
  · exact ⟨_, .signedChar, .swap _ _ _⟩
  · cases oneSign

theorem exists_namesType_double (isName : refinement.nameOfSort? .doubleWord = some name) :
    ∃ listed, NamesType listed name ∧ (.doubleWord :: refinement.words).Perm listed := by
  obtain ⟨suffix, isComplexity, suffix_eq⟩ := exists_isComplexity refinement
  obtain ⟨unsized, isName⟩ := Option.ite_none_left_eq_some.mp isName
  simp only [hasSign, Bool.or_eq_true, not_or, Bool.not_eq_true] at unsized
  obtain ⟨⟨⟨isSigned, isUnsigned⟩, isShort⟩, isInt⟩ := unsized
  have words_eq : refinement.words =
      List.replicate refinement.longs .longWord ++ refinement.complexWords := by
    simp [words, signWords, sizeWords, intWords, isSigned, isUnsigned, isShort, isInt]
  rw [words_eq]
  split at isName
  · rename_i noLong
    obtain rfl := Option.some.inj isName
    rw [noLong, suffix_eq]
    exact ⟨_, .double isComplexity, .refl _⟩
  · rename_i oneLong
    obtain rfl := Option.some.inj isName
    rw [oneLong, suffix_eq]
    exact ⟨_, .longDouble isComplexity, .swap _ _ _⟩
  · cases isName

theorem exists_namesType_sort {sort : Keyword} (spells : sort.spellsType = true)
    (isSort : sort.refinesType = false)
    (oneSign : (refinement.isSigned && refinement.isUnsigned) = false)
    (isName : refinement.nameOfSort? sort = some name) :
    ∃ listed, NamesType listed name ∧ (sort :: refinement.words).Perm listed := by
  have alone (bare : (refinement.isAtMostComplex && !refinement.isComplex) = true) :
      refinement.words = [] := by
    obtain ⟨atMostComplex, isReal⟩ := Bool.and_eq_true_iff.mp bare
    rw [Bool.not_eq_true'] at isReal
    rw [words_of_isAtMostComplex atMostComplex, complexWords, isReal]
    rfl
  rcases sort_cases spells isSort with isPlain | rfl | rfl | rfl | rfl | rfl
  · rw [nameOfSort?_plain isPlain] at isName
    obtain ⟨atMostComplex, isName⟩ := Option.ite_none_right_eq_some.mp isName
    obtain rfl := Option.some.inj isName
    obtain ⟨suffix, isComplexity, suffix_eq⟩ := exists_isComplexity refinement
    rw [words_of_isAtMostComplex atMostComplex, suffix_eq]
    exact ⟨_, .plain isPlain isComplexity, .refl _⟩
  · obtain ⟨bare, ⟨⟩⟩ := Option.ite_none_right_eq_some.mp isName
    exact ⟨_, .void, by rw [alone bare]⟩
  · obtain ⟨bare, ⟨⟩⟩ := Option.ite_none_right_eq_some.mp isName
    exact ⟨_, .bool, by rw [alone bare]⟩
  · exact exists_namesType_char oneSign isName
  · obtain ⟨sizeless, isName⟩ := Option.ite_none_left_eq_some.mp isName
    obtain rfl := Option.some.inj isName
    obtain ⟨front, isSign, front_eq⟩ := exists_isSign oneSign
    rw [words_of_sizeless sizeless, front_eq]
    exact ⟨_, .int128 isSign, (List.perm_append_singleton _ _).symm⟩
  · exact exists_namesType_double isName

end TypeRefinement

/-- Words that stand for a type are in the table, in some order. -/
theorem exists_namesType {words : List Keyword} {name : String} (notEmpty : words ≠ [])
    (spell : ∀ word ∈ words, word.spellsType = true) (named : builtinTypeName? words = some name) :
    ∃ listed, NamesType listed name ∧ words.Perm listed := by
  unfold builtinTypeName? at named
  obtain ⟨accepted, named⟩ := Option.ite_none_left_eq_some.mp named
  rw [Bool.or_eq_true, not_or, Bool.not_eq_true, Bool.not_eq_true, List.any_eq_false] at accepted
  obtain ⟨inBounds, oneSign⟩ := accepted
  have inBounds : ∀ word ∈ words, words.count word ≤ word.maxRepetitions := fun word isWord => by
    simpa using inBounds word isWord
  -- The words are those of the refinement and those of the sorts; the table has a row for what
  -- remains.
  have parts := TypeRefinement.perm_words inBounds
  split at named
  · rename_i noSort
    rw [noSort, List.nil_append] at parts
    have longs : words.count .longWord ≤ 2 := by
      by_cases isLong : Keyword.longWord ∈ words
      · exact inBounds _ isLong
      · rw [List.count_eq_zero_of_not_mem isLong]
        exact Nat.zero_le 2
    have someWords : (TypeRefinement.ofWords words).words ≠ [] := fun noWords =>
      notEmpty (noWords ▸ parts).eq_nil
    exact ⟨_, TypeRefinement.namesType_sortless someWords oneSign longs named, parts⟩
  · rename_i sort sorts
    have isSort : sort ∈ words.filter fun word => !word.refinesType := by
      rw [sorts]
      exact List.mem_singleton_self sort
    obtain ⟨inWords, isSort⟩ := List.mem_filter.mp isSort
    rw [Bool.not_eq_true'] at isSort
    rw [sorts, List.singleton_append] at parts
    obtain ⟨listed, isListed, same⟩ :=
      TypeRefinement.exists_namesType_sort (spell sort inWords) isSort oneSign named
    exact ⟨listed, isListed, parts.trans same⟩
  · cases named

/-- Words stand for a type exactly if they are in the table, in any order. -/
theorem writtenType_eq_named_iff {words : List Keyword} {name : String}
    (spell : ∀ word ∈ words, word.spellsType = true) :
    writtenType words = .named name ↔ ∃ listed, NamesType listed name ∧ words.Perm listed := by
  rw [writtenType_eq_named]
  constructor
  · rintro ⟨notEmpty, named⟩
    exact exists_namesType notEmpty spell named
  · rintro ⟨listed, isListed, same⟩
    have named := isListed.named
    rw [← builtinTypeName?_perm same] at named
    exact ⟨fun noWords => isListed.ne_nil (noWords ▸ same).nil_eq.symm, named⟩

end CFrontEnd
