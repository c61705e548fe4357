import CFrontEnd.Proofs.Language.Tables
import CFrontEnd.Proofs.Scan.Chains
import CFrontEnd.Proofs.Types.TypeWords

/-!
The canonical names of the built-in types. Each is made of words that stand for the type again, so that
a name that is written down is read as the same type.
-/

namespace CFrontEnd

/-- Words that stand for a type stand for one with this name. -/
def IsBuiltinName (name : String) : Prop :=
  ∃ words : List Keyword, (∀ word ∈ words, word.spellsType = true) ∧
    builtinTypeName? words = some name

def wordsText (words : List Keyword) : String := " ".intercalate (words.map Keyword.spelling)

/-- The words that the canonical names consist of. -/
def canonicalWords : List (List Keyword) :=
  [[.voidWord], [.boolWord], [.charWord], [.signedWord, .charWord], [.unsignedWord, .charWord],
    [.shortWord], [.unsignedWord, .shortWord], [.intWord], [.unsignedWord, .intWord], [.longWord],
    [.unsignedWord, .longWord], [.longWord, .longWord], [.unsignedWord, .longWord, .longWord],
    [.int128Word], [.unsignedWord, .int128Word], [.doubleWord], [.doubleWord, .complexWord],
    [.longWord, .doubleWord], [.longWord, .doubleWord, .complexWord]]
  ++ plainSorts.map (fun sort => [sort])
  ++ plainSorts.map (fun sort => [sort, .complexWord])

def canonicalNames : List String := canonicalWords.map wordsText

theorem NamesType.mem_canonicalNames {words : List Keyword} {name : String}
    (isWords : NamesType words name) : name ∈ canonicalNames := by
  cases isWords with
  | plain isPlain isComplexity =>
    have decided : ∀ sort ∈ plainSorts, sort.spelling ++ "" ∈ canonicalNames ∧
        sort.spelling ++ " _Complex" ∈ canonicalNames := by
      decide
    cases isComplexity with
    | real => exact (decided _ isPlain).1
    | complex => exact (decided _ isPlain).2
  | double isComplexity => cases isComplexity <;> decide
  | longDouble isComplexity => cases isComplexity <;> decide
  | int128 isSign => cases isSign <;> decide
  | sized isSign isSize _ => cases isSign <;> cases isSize <;> decide
  | int isSign => cases isSign <;> decide
  | sign isSign _ => cases isSign <;> decide
  | _ => decide

/-- There are no other names than the canonical ones. -/
theorem IsBuiltinName.canonical {name : String} (isName : IsBuiltinName name) :
    ∃ words ∈ canonicalWords, name = wordsText words := by
  obtain ⟨words, spell, named⟩ := isName
  have known : name ∈ canonicalNames := by
    by_cases noWords : words = []
    · obtain rfl := noWords
      obtain rfl := Option.some.inj named
      decide
    · obtain ⟨listed, isListed, _⟩ := exists_namesType noWords spell named
      exact isListed.mem_canonicalNames
  obtain ⟨words, isCanonical, rfl⟩ := List.mem_map.mp known
  exact ⟨words, isCanonical, rfl⟩

/-- A canonical name stands for itself. -/
theorem builtinTypeName?_canonical : ∀ words ∈ canonicalWords,
    builtinTypeName? words = some (wordsText words) := by
  decide

theorem spellsType_canonical : ∀ words ∈ canonicalWords, ∀ word ∈ words,
    word.spellsType = true := by
  decide

theorem canonicalWords_ne_nil : ∀ words ∈ canonicalWords, words ≠ [] := by
  decide

/-! ## Words in a text -/

/-- The word of a keyword in its own spelling. -/
def Word.ofKeyword (keyword : Keyword) : Word := .keyword keyword keyword.spelling

/-- The dialect has the keyword, and it looks like a word. -/
def Keyword.IsSpelledIn (dialect : Dialect) (keyword : Keyword) : Prop :=
  isIdentifierText keyword.spelling = true ∧
    (cLanguage dialect).keyword? keyword.spelling = some keyword

instance (dialect : Dialect) (keyword : Keyword) : Decidable (keyword.IsSpelledIn dialect) :=
  inferInstanceAs (Decidable (_ ∧ _))

/-- GNU C23 has the keyword, and it looks like a word. -/
def Keyword.IsSpelled (keyword : Keyword) : Prop := keyword.IsSpelledIn gnuC23

instance (keyword : Keyword) : Decidable keyword.IsSpelled :=
  inferInstanceAs (Decidable (keyword.IsSpelledIn gnuC23))

theorem Keyword.isSpelled_of_reserved {keyword : Keyword}
    (isText : isIdentifierText keyword.spelling = true)
    (reserved : (keyword.spelling, keyword) ∈ reservedIn gnuC23) : keyword.IsSpelled :=
  ⟨isText, keyword?_cLanguage.mpr reserved⟩

theorem Keyword.isSpelled_of_spellsType (keyword : Keyword) (spells : keyword.spellsType = true) :
    keyword.IsSpelled := by
  apply isSpelled_of_reserved <;>
    (cases keyword <;> first | exact absurd spells (by decide) | decide)

theorem blank_not_mem {name : String} (isText : isIdentifierText name = true) :
    ' ' ∉ name.toList := by
  unfold isIdentifierText at isText
  split at isText
  · cases isText
  · rename_i first rest characters
    obtain ⟨starts, continues⟩ := Bool.and_eq_true_iff.mp isText
    rw [characters]
    intro inName
    rcases List.mem_cons.mp inName with rfl | inRest
    · exact absurd starts (by decide)
    · exact absurd (List.all_eq_true.mp continues ' ' inRest) (by decide)

/-- Blanks separate the words of a text again. -/
theorem splitOn_wordsText {words : List Keyword} (notEmpty : words ≠ [])
    (spell : ∀ word ∈ words, word.spellsType = true) :
    (wordsText words).toList.splitOn ' ' = words.map fun word => word.spelling.toList := by
  rw [wordsText, String.toList_intercalate, List.map_map]
  refine List.splitOn_intercalate ' ' ?_ (by simpa using notEmpty)
  intro text isWord
  obtain ⟨word, inWords, rfl⟩ := List.mem_map.mp isWord
  exact blank_not_mem (Keyword.isSpelled_of_spellsType word (spell word inWords)).1

/-- No two lists of words for types have the same text. -/
theorem wordsText_inj {words others : List Keyword} (notEmpty : words ≠ [])
    (someOthers : others ≠ []) (spell : ∀ word ∈ words, word.spellsType = true)
    (spellOthers : ∀ word ∈ others, word.spellsType = true)
    (same : wordsText words = wordsText others) : words = others := by
  -- The language finds each word by its spelling.
  have found {words : List Keyword} (spell : ∀ word ∈ words, word.spellsType = true) :
      (words.map fun word => word.spelling.toList).map
        (fun text => (cLanguage gnuC23).keyword? (String.ofList text)) = words.map some := by
    rw [List.map_map]
    refine List.map_congr_left fun word inWords => ?_
    rw [Function.comp_apply, String.ofList_toList]
    exact (Keyword.isSpelled_of_spellsType word (spell word inWords)).2
  have texts := splitOn_wordsText notEmpty spell
  rw [same, splitOn_wordsText someOthers spellOthers] at texts
  have both : words.map some = others.map some := by
    rw [← found spell, ← found spellOthers, texts]
  exact List.map_inj_right (fun _ _ => Option.some.inj) |>.mp both

/-- The name of a type is made of words, and whoever reads them again finds the same name. -/
theorem writtenType_wordsText {words again : List Keyword} {name : String}
    (spell : ∀ word ∈ words, word.spellsType = true) (named : writtenType words = .named name)
    (spellAgain : ∀ word ∈ again, word.spellsType = true) (isName : wordsText again = name) :
    writtenType again = .named name := by
  obtain ⟨_, isType⟩ := writtenType_eq_named.mp named
  obtain ⟨canonical, isCanonical, name_eq⟩ := IsBuiltinName.canonical ⟨words, spell, isType⟩
  have notEmpty := canonicalWords_ne_nil canonical isCanonical
  have someAgain : again ≠ [] := by
    rintro rfl
    have named : ∀ canonical ∈ canonicalWords, wordsText canonical ≠ wordsText [] := by decide
    exact named canonical isCanonical (name_eq.symm.trans isName.symm)
  obtain rfl := wordsText_inj someAgain notEmpty spellAgain (spellsType_canonical _ isCanonical)
    (isName.trans name_eq)
  rw [name_eq]
  exact writtenType_eq_named.mpr ⟨someAgain, builtinTypeName?_canonical again isCanonical⟩

/-- Which words stand for a type depends on how often each of them is written, and the words of the name
stand for the type again. -/
theorem writtenType_table {words : List Keyword} (spell : ∀ word ∈ words, word.spellsType = true) :
    (writtenType words = .missing ↔ words = []) ∧
      (∀ name, writtenType words = .named name ↔
        ∃ listed, NamesType listed name ∧ words.Perm listed) ∧
      (writtenType words = .invalid ↔
        words ≠ [] ∧ ¬ ∃ name listed, NamesType listed name ∧ words.Perm listed) ∧
      (∀ permuted, permuted.Perm words → writtenType permuted = writtenType words) ∧
      ∀ name, writtenType words = .named name →
        (∃ again, (∀ word ∈ again, word.spellsType = true) ∧ wordsText again = name) ∧
          ∀ again, (∀ word ∈ again, word.spellsType = true) → wordsText again = name →
            writtenType again = .named name := by
  refine ⟨writtenType_eq_missing, fun name => writtenType_eq_named_iff spell, ?_,
    fun permuted => writtenType_perm, fun name named => ⟨?_, fun again => ?_⟩⟩
  · simp only [← writtenType_eq_named_iff spell, ← not_congr writtenType_eq_missing]
    cases writtenType words <;> simp
  · obtain ⟨_, isType⟩ := writtenType_eq_named.mp named
    obtain ⟨canonical, isCanonical, name_eq⟩ := IsBuiltinName.canonical ⟨words, spell, isType⟩
    exact ⟨canonical, spellsType_canonical canonical isCanonical, name_eq.symm⟩
  · exact writtenType_wordsText spell named

theorem writtenType_table_unsignedLongLong :
    (∀ word ∈ [Keyword.longWord, .unsignedWord, .longWord, .intWord], word.spellsType = true) ∧
      writtenType [.longWord, .unsignedWord, .longWord, .intWord] = .named "unsigned long long" ∧
      writtenType [.unsignedWord, .longWord, .longWord] = .named "unsigned long long" := by
  have spell : ∀ word ∈ [Keyword.longWord, .unsignedWord, .longWord, .intWord],
      word.spellsType = true := by
    decide
  obtain ⟨_, named, _, _, again⟩ := writtenType_table spell
  have isNamed := (named "unsigned long long").mpr
    ⟨[.unsignedWord, .longWord, .longWord, .intWord], .sized .unsigned .longLong (.inr rfl),
      by decide⟩
  exact ⟨spell, isNamed, (again _ isNamed).2 _ (by decide) (by decide)⟩

section

variable {dialect : Dialect} {next : List Char}

theorem ScansAs.ofKeyword {keyword : Keyword} (spelled : keyword.IsSpelledIn dialect)
    (ends : EndsWord next) :
    ScansAs dialect keyword.spelling.toList [.ofKeyword keyword] next :=
  .keyword spelled.1 spelled.2 ends

theorem ScansAs.keywords {keywords : List Keyword} (notEmpty : keywords ≠ [])
    (spelled : ∀ keyword ∈ keywords, keyword.IsSpelledIn dialect) (ends : EndsWord next) :
    ScansAs dialect (wordsText keywords).toList (keywords.map Word.ofKeyword) next := by
  induction keywords with
  | nil => exact absurd rfl notEmpty
  | cons first rest ih =>
    cases rest with
    | nil =>
      rw [wordsText, List.map_singleton, String.intercalate_singleton]
      exact .ofKeyword (spelled first (by simp)) ends
    | cons second others =>
      have scansRest := ih (by simp) fun keyword inRest =>
        spelled keyword (List.mem_cons_of_mem first inRest)
      rw [wordsText, List.map_cons, List.map_cons, String.intercalate_cons_cons,
        String.toList_append, String.toList_append, List.append_assoc]
      have endsFirst : EndsWord (' ' :: (wordsText (second :: others)).toList ++ next) :=
        .cons _ (by decide)
      exact (ScansAs.ofKeyword (spelled first (by simp)) endsFirst).append (.space scansRest)

end

/-! ## Qualifiers -/

theorem Keyword.isSpelled_qualifier : ∀ keyword ∈
    [Keyword.constWord, .volatileWord, .restrictWord, .atomicWord], keyword.IsSpelled := by
  have reserved : ∀ keyword ∈ [Keyword.constWord, .volatileWord, .restrictWord, .atomicWord],
      isIdentifierText keyword.spelling = true ∧
        (keyword.spelling, keyword) ∈ reservedIn gnuC23 := by
    decide
  exact fun keyword isQualifier =>
    isSpelled_of_reserved (reserved keyword isQualifier).1 (reserved keyword isQualifier).2

namespace Qualifiers

def keywords (qualifiers : Qualifiers) : List Keyword :=
  (if qualifiers.isConst then [.constWord] else [])
    ++ (if qualifiers.isVolatile then [.volatileWord] else [])
    ++ (if qualifiers.isRestrict then [.restrictWord] else [])
    ++ (if qualifiers.isAtomic then [.atomicWord] else [])

theorem text_eq (qualifiers : Qualifiers) : qualifiers.text = wordsText qualifiers.keywords := by
  obtain ⟨isConst, isVolatile, isRestrict, isAtomic⟩ := qualifiers
  cases isConst <;> cases isVolatile <;> cases isRestrict <;> cases isAtomic <;> rfl

theorem keywords_ne_nil {qualifiers : Qualifiers} (some : qualifiers.isEmpty = false) :
    qualifiers.keywords ≠ [] := by
  obtain ⟨isConst, isVolatile, isRestrict, isAtomic⟩ := qualifiers
  revert some
  cases isConst <;> cases isVolatile <;> cases isRestrict <;> cases isAtomic <;> decide

/-- One after the other, the keywords add up to the qualifiers. -/
theorem foldlM_keywords (qualifiers : Qualifiers) :
    qualifiers.keywords.foldlM Qualifiers.add? {} = some qualifiers := by
  obtain ⟨isConst, isVolatile, isRestrict, isAtomic⟩ := qualifiers
  cases isConst <;> cases isVolatile <;> cases isRestrict <;> cases isAtomic <;> rfl

theorem mem_keywords {qualifiers : Qualifiers} {keyword : Keyword}
    (inKeywords : keyword ∈ qualifiers.keywords) :
    keyword ∈ [Keyword.constWord, .volatileWord, .restrictWord, .atomicWord] := by
  simp only [keywords, List.mem_append, List.mem_ite_nil_right, List.mem_singleton] at inKeywords
  rcases inKeywords with ((⟨_, rfl⟩ | ⟨_, rfl⟩) | ⟨_, rfl⟩) | ⟨_, rfl⟩ <;> simp

theorem isSpelled_keywords {qualifiers : Qualifiers} :
    ∀ keyword ∈ qualifiers.keywords, keyword.IsSpelled :=
  fun keyword inKeywords => Keyword.isSpelled_qualifier keyword (mem_keywords inKeywords)

end Qualifiers

end CFrontEnd
