import CFrontEnd.Proofs.Literals.Scanning

/-!
What a literal without problems has between its quotes: nothing but items. Each escape that is read without
a problem is one, and a text is cut into them as it is read.
-/

namespace CFrontEnd

namespace LiteralItem

variable {quote : Char}

theorem EndsBefore.of_append {item : LiteralItem} {front back : List Char}
    (ends : item.EndsBefore (front ++ back)) : item.EndsBefore front := by
  have isHead {character : Char} (isNext : front.head? = some character) :
      (front ++ back).head? = some character := by
    rw [List.head?_append, isNext, Option.some_or]
  cases item with
  | octal digits => exact fun fewer character isNext => ends fewer character (isHead isNext)
  | hexadecimal digits => exact fun character isNext => ends character (isHead isNext)
  | _ => trivial

/-- An item that is written as an escape, and what stands behind it. -/
structure IsCutFrom (quote : Char) (input : List Char) (length : Nat) (item : LiteralItem) : Prop where
  isItem : item.IsItem quote
  text : item.text = '\\' :: input.take length
  ends : item.EndsBefore (input.drop length)

namespace IsCutFrom

variable {input : List Char} {length : Nat} {item : LiteralItem}

theorem eq_append (isCut : item.IsCutFrom quote input length) :
    '\\' :: input = item.text ++ input.drop length := by
  rw [isCut.text, List.cons_append, List.take_append_drop]

theorem length_text (isCut : item.IsCutFrom quote input length) (few : length ≤ input.length) :
    item.text.length = length + 1 := by
  rw [isCut.text, List.length_cons, List.length_take, Nat.min_eq_left few]

end IsCutFrom

end LiteralItem

/-! ## Escapes -/

namespace EscapeReading

variable {encoding : Encoding} {quote : Char} {first : Char} {rest : List Char}

theorem mem_simpleEscapes {letter : Char} {unit : Nat} (isSimple : simple? letter = some unit) :
    (letter, unit) ∈ simpleEscapes := by
  unfold simple? at isSimple
  split at isSimple <;> cases isSimple <;> decide

/-- The digits that are taken are all, or as many as may be. -/
theorem head?_drop_takeWhile {rest : List Char} {holds : Char → Bool} {count : Nat}
    (fewer : ((rest.take count).takeWhile holds).length < count) :
    ∀ character, (rest.drop ((rest.take count).takeWhile holds).length).head? = some character →
      holds character = false := by
  intro character isNext
  induction rest generalizing count with
  | nil => simp at isNext
  | cons next rest ih =>
    obtain ⟨count, rfl⟩ : ∃ before, count = before + 1 := ⟨count - 1, by omega⟩
    cases held : holds next with
    | true =>
      simp only [List.take_succ_cons, List.takeWhile_cons, held, if_true, List.length_cons,
        List.drop_succ_cons] at fewer isNext
      exact ih (by omega) isNext
    | false =>
      simp only [List.take_succ_cons, List.takeWhile_cons, held, Bool.false_eq_true, if_false,
        List.length_nil, List.drop_zero, List.head?_cons] at isNext
      exact Option.some.inj isNext ▸ held

theorem head?_drop_run {holds : Char → Bool} :
    ∀ character, (rest.drop (rest.takeWhile holds).length).head? = some character →
      holds character = false := by
  have whole : rest.take (rest.length + 1) = rest := List.take_of_length_le (Nat.le_succ _)
  have fewer : ((rest.take (rest.length + 1)).takeWhile holds).length < rest.length + 1 := by
    rw [whole]
    exact Nat.lt_succ_of_le (List.takeWhile_prefix holds).length_le
  have stops := head?_drop_takeWhile fewer
  rwa [whole] at stops

theorem take_takeWhile (holds : Char → Bool) (count : Nat) (rest : List Char) :
    rest.take ((rest.take count).takeWhile holds).length = (rest.take count).takeWhile holds :=
  (List.prefix_iff_eq_take.mp ((List.takeWhile_prefix _).trans (List.take_prefix _ _))).symm

theorem holds_of_mem_takeWhile {holds : Char → Bool} {text : List Char} :
    ∀ character ∈ text.takeWhile holds, holds character = true :=
  fun _ inRun => List.mem_takeWhile_imp inRun

theorem exists_hexadecimal (isHex : first = 'x')
    (clean : (read encoding (first :: rest)).problem = none) :
    ∃ item : LiteralItem, item.IsCutFrom quote (first :: rest) (read encoding (first :: rest)).length := by
  subst isHex
  have inLine : isLineEnd 'x' = false := rfl
  have notSimple : simple? 'x' = none := rfl
  by_cases noDigits : rest.takeWhile isHexDigit = []
  · simp [read, inLine, notSimple, noDigits] at clean
  · have length : (read encoding ('x' :: rest)).length = (rest.takeWhile isHexDigit).length + 1 := by
      simp [read, inLine, notSimple, noDigits, Nat.add_comm]
    refine ⟨.hexadecimal (rest.takeWhile isHexDigit),
      .hexadecimal noDigits holds_of_mem_takeWhile, ?_, ?_⟩
    · rw [length, List.take_succ_cons, ← List.prefix_iff_eq_take.mp (List.takeWhile_prefix _)]
      rfl
    · rw [length, List.drop_succ_cons]
      exact head?_drop_run

theorem exists_octal (isOctal : isOctalDigit first = true) :
    ∃ item : LiteralItem, item.IsCutFrom quote (first :: rest) (read encoding (first :: rest)).length := by
  obtain ⟨inLine, notSimple, notHex⟩ := octalDigit_begins isOctal
  have length : (read encoding (first :: rest)).length =
      ((rest.take 2).takeWhile isOctalDigit).length + 1 := by
    simp [read, inLine, notSimple, notHex, isOctal]
  have few : ((rest.take 2).takeWhile isOctalDigit).length ≤ 2 :=
    Nat.le_trans (List.takeWhile_prefix _).length_le (List.length_take_le _ _)
  refine ⟨.octal (first :: (rest.take 2).takeWhile isOctalDigit), .octal (List.cons_ne_nil _ _) ?_ ?_,
    ?_, ?_⟩
  · exact Nat.succ_le_succ few
  · exact List.forall_mem_cons.mpr ⟨isOctal, holds_of_mem_takeWhile⟩
  · rw [length, List.take_succ_cons, take_takeWhile]
    rfl
  · rw [length, List.drop_succ_cons]
    intro fewer
    exact head?_drop_takeWhile (Nat.lt_of_succ_lt_succ fewer)

theorem exists_universal {wanted : Nat}
    (count : first = 'u' ∧ wanted = 4 ∨ first = 'U' ∧ wanted = 8)
    (isName : read encoding (first :: rest) = universal encoding wanted rest)
    (clean : (read encoding (first :: rest)).problem = none) :
    ∃ item : LiteralItem, item.IsCutFrom quote (first :: rest) (read encoding (first :: rest)).length := by
  rw [isName] at clean ⊢
  by_cases short : ((rest.take wanted).takeWhile isHexDigit).length < wanted
  · simp [universal, short] at clean
  -- As there are as many digits as wanted, nothing but digits was looked at.
  · have isRun : rest.take wanted = (rest.take wanted).takeWhile isHexDigit := by
      have sublist := List.takeWhile_prefix (l := rest.take wanted) isHexDigit
      have few := List.length_take_le wanted rest
      exact (sublist.eq_of_length (by have := sublist.length_le; omega)).symm
    rw [← isRun] at short
    have length : (rest.take wanted).length = wanted := by
      have few := List.length_take_le wanted rest
      omega
    cases isScalar : scalarValue? (numeral 16 (rest.take wanted)) with
    | none =>
      simp only [universal, ← isRun, if_neg short, isScalar] at clean
      cases clean
    | some character =>
      have isLength : (universal encoding wanted rest).length = wanted + 1 := by
        simp only [universal, ← isRun, if_neg short, isScalar, Nat.add_comm]
      refine ⟨.universal first (rest.take wanted) character, .universal ?_ ?_ ?_, ?_, trivial⟩
      · rw [length]
        exact count
      · rw [isRun]
        exact holds_of_mem_takeWhile
      · exact (toNat_of_scalarValue? isScalar).symm
      · rw [isLength, List.take_succ_cons]
        rfl

theorem exists_item (quote : Char) (inLine : isLineEnd first = false)
    (clean : (read encoding (first :: rest)).problem = none) :
    ∃ item : LiteralItem, item.IsCutFrom quote (first :: rest) (read encoding (first :: rest)).length := by
  cases isSimple : simple? first with
  | some unit =>
    refine ⟨.simple first unit, .simple (mem_simpleEscapes isSimple), ?_, trivial⟩
    simp [read, inLine, isSimple, LiteralItem.text]
  | none =>
    by_cases isHex : first = 'x'
    · exact exists_hexadecimal isHex clean
    · by_cases isOctal : isOctalDigit first = true
      · exact exists_octal isOctal
      · by_cases isShort : first = 'u'
        · exact exists_universal (.inl ⟨isShort, rfl⟩) (by rw [isShort]; rfl) clean
        · by_cases isLong : first = 'U'
          · exact exists_universal (.inr ⟨isLong, rfl⟩) (by rw [isLong]; rfl) clean
          · simp [read, inLine, isSimple, isHex, isOctal, isShort, isLong] at clean

end EscapeReading

/-! ## Literals -/

theorem QuotedReading.exists_items {encoding : Encoding} {quote : Char}
    (quoteInLine : isLineEnd quote = false) {index : Nat} {input : List Char}
    (closed : (read encoding quote '\\' index input).terminated = true)
    (clean : (read encoding quote '\\' index input).problems = []) :
    ∃ items next, AreItems quote items ∧ input = itemsText items ++ quote :: next ∧
      (read encoding quote '\\' index input).length = (itemsText items).length + 1 := by
  fun_induction read encoding quote '\\' index input with
  | case1 => cases closed
  | case2 index first rest isQuote =>
    obtain rfl := eq_of_beq isQuote
    exact ⟨[], rest, .nil, rfl, rfl⟩
  | case3 => cases closed
  | case4 index first rest _ _ isEscape sequence more ih =>
    obtain rfl := eq_of_beq isEscape
    obtain ⟨noProblem, othersClean⟩ := List.append_eq_nil_iff.mp clean
    have escapeClean : (EscapeReading.read encoding rest).problem = none := by
      simpa using noProblem
    by_cases stops : ∀ next, rest.head? = some next → isLineEnd next = true
    -- an escape of nothing is where the literal stops, and then it is not closed
    · have nothing : sequence = ⟨0, [], none⟩ := EscapeReading.read_eq_empty encoding stops
      have unclosed : more = ⟨0, [], false, []⟩ := by
        refine read_stops quoteInLine _ ?_
        rw [nothing]
        exact stops
      rw [unclosed] at closed
      cases closed
    · obtain ⟨letter, tail, rfl, inLine⟩ :
          ∃ letter tail, rest = letter :: tail ∧ isLineEnd letter = false := by
        cases rest with
        | nil => exact absurd (fun _ isNext => by cases isNext) stops
        | cons letter tail =>
          refine ⟨letter, tail, rfl, Bool.eq_false_iff.mpr fun isEnd => stops ?_⟩
          rintro _ ⟨⟩
          exact isEnd
      obtain ⟨item, isCut⟩ := EscapeReading.exists_item quote inLine escapeClean
      obtain ⟨items, next, areItems, isRest, length⟩ := ih closed othersClean
      have itemLength := isCut.length_text (EscapeReading.length_le encoding _)
      have ends := isCut.ends
      rw [isRest] at ends
      refine ⟨item :: items, next, .cons isCut.isItem ends.of_append areItems, ?_, ?_⟩
      · rw [itemsText_cons, List.append_assoc, ← isRest, isCut.eq_append]
      · change 1 + (EscapeReading.read encoding (letter :: tail)).length + more.length = _
        rw [itemsText_cons, List.length_append, itemLength, length]
        omega
  | case5 index first rest notQuote inLine notEscape more ih =>
    obtain ⟨items, next, areItems, isRest, length⟩ := ih closed clean
    have isItem : (LiteralItem.raw first).IsItem quote :=
      .raw (by simpa using notQuote) (by simpa using notEscape) (by simpa using inLine)
    refine ⟨.raw first :: items, next, .cons isItem trivial areItems, ?_, ?_⟩
    · rw [isRest, itemsText_cons]
      rfl
    · rw [itemsText_cons, List.length_append, length]
      simp [LiteralItem.text, Nat.add_assoc]

end CFrontEnd
