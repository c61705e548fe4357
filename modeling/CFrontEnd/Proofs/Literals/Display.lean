import CFrontEnd.Proofs.Literals.Scanning

/-!
How the units of a string literal are displayed. Bytes are put together to characters again, and so are
units that are characters by themselves; the two units of a surrogate pair are displayed one by one.
-/

namespace CFrontEnd

/-- The characters that are displayed for the units of a text. -/
def displayed (encoding : Encoding) (text : List Char) : List Char :=
  text.flatMap fun character =>
    if encoding = .utf16 ∧ 0x10000 ≤ character.toNat then [replacementCharacter, replacementCharacter]
    else [character]

/-! ## Texts without escapes -/

section RawText

variable {text : List Char}

theorem areItems_raw {quote : Char}
    (areRaw : ∀ character ∈ text,
      character ≠ quote ∧ character ≠ '\\' ∧ isLineEnd character = false) :
    AreItems quote (text.map LiteralItem.raw) := by
  induction text with
  | nil => exact .nil
  | cons character rest ih =>
    obtain ⟨⟨notQuote, notEscape, inLine⟩, areRestRaw⟩ := List.forall_mem_cons.mp areRaw
    exact .cons (.raw notQuote notEscape inLine) trivial (ih areRestRaw)

theorem itemsText_raw (text : List Char) : itemsText (text.map LiteralItem.raw) = text := by
  rw [itemsText, List.flatMap_map]
  exact List.flatMap_singleton' text

theorem itemsUnits_raw (encoding : Encoding) (text : List Char) :
    itemsUnits encoding (text.map LiteralItem.raw) = text.flatMap encoding.units := by
  rw [itemsUnits, List.flatMap_map]
  rfl

end RawText

/-! ## Units of 16 bits -/

theorem utf16Units_single {character : Char} (isOne : character.toNat < 0x10000) :
    utf16Units character = [character.toNat] := by
  simp [utf16Units, isOne]

/-- The units of a pair are no characters. -/
theorem utf16Units_pair {character : Char} (isPair : 0x10000 ≤ character.toNat) :
    ∃ high low, utf16Units character = [high, low] ∧
      scalarValue? high = none ∧ scalarValue? low = none := by
  have range := scalar_range character
  have noScalar {unit : Nat} (surrogate : 0xD800 ≤ unit ∧ unit < 0xE000) :
      scalarValue? unit = none := by
    have invalid : ¬unit.isValidChar := by
      simp only [Nat.isValidChar]
      omega
    exact dif_neg invalid
  refine ⟨0xD800 + (character.toNat - 0x10000) / 0x400, 0xDC00 + (character.toNat - 0x10000) % 0x400,
    ?_, noScalar (by omega), noScalar (by omega)⟩
  rw [utf16Units, if_neg (Nat.not_lt.mpr isPair)]

/-! ## Display -/

/-- Units that are bytes are displayed as the characters that they decode to. -/
theorem Encoding.decode_bytes {encoding : Encoding} (isNarrow : encoding.isNarrow = true)
    {units : List Nat} (areBytes : ∀ unit ∈ units, unit ≤ 0xFF) :
    encoding.decode units = String.ofList (decodeUtf8 units) := by
  have unchanged : ∀ unit ∈ units, unit % 0x100 = unit :=
    fun unit inUnits => Nat.mod_eq_of_lt (Nat.lt_succ_of_le (areBytes unit inUnits))
  rw [decode, isNarrow, if_pos rfl, List.map_congr_left unchanged, List.map_id']

theorem displayed_of_one {encoding : Encoding} {text : List Char}
    (areOne : ∀ character ∈ text, ¬(encoding = .utf16 ∧ 0x10000 ≤ character.toNat)) :
    displayed encoding text = text := by
  rw [displayed, List.flatMap_congr fun character inText => if_neg (areOne character inText)]
  exact List.flatMap_singleton' text

theorem Encoding.map_units {encoding : Encoding} (isWide : encoding.isNarrow = false)
    (character : Char) :
    (encoding.units character).map (fun unit => (scalarValue? unit).getD replacementCharacter) =
      if encoding = .utf16 ∧ 0x10000 ≤ character.toNat then
        [replacementCharacter, replacementCharacter]
      else [character] := by
  cases encoding with
  | plain | utf8 => cases isWide
  | wide | utf32 => simp [Encoding.units, scalarValue?_toNat]
  | utf16 =>
    by_cases isPair : 0x10000 ≤ character.toNat
    · obtain ⟨high, low, areUnits, notHigh, notLow⟩ := utf16Units_pair isPair
      rw [if_pos ⟨rfl, isPair⟩, Encoding.units, areUnits, List.map_cons, List.map_singleton, notHigh,
        notLow]
      rfl
    · rw [if_neg fun pair => isPair pair.2, Encoding.units, utf16Units_single (Nat.not_le.mp isPair),
        List.map_singleton, scalarValue?_toNat, Option.getD_some]

theorem Encoding.decode_units (encoding : Encoding) (text : List Char) :
    encoding.decode (text.flatMap encoding.units) = String.ofList (displayed encoding text) := by
  by_cases isWide : encoding.isNarrow = false
  · rw [decode, isWide, if_neg Bool.false_ne_true, List.map_flatMap, displayed]
    refine congrArg String.ofList (List.flatMap_congr fun character _ => ?_)
    exact encoding.map_units isWide character
  · have isNarrow := Bool.of_not_eq_false isWide
    have areOne : displayed encoding text = text :=
      displayed_of_one fun _ _ pair => by rw [pair.1] at isNarrow; cases isNarrow
    have isUtf8 : text.flatMap encoding.units = text.flatMap utf8Units := by
      cases encoding <;> first | rfl | cases isNarrow
    have areBytes : ∀ unit ∈ text.flatMap utf8Units, unit ≤ 0xFF := by
      intro unit inUnits
      obtain ⟨character, _, inCharacter⟩ := List.mem_flatMap.mp inUnits
      exact Encoding.units_le .plain character unit inCharacter
    rw [isUtf8, decode_bytes isNarrow areBytes, decodeUtf8_flatMap, areOne]

/-- A pair makes the display longer than the text, and nothing makes it shorter. -/
theorem displayed_eq_iff (encoding : Encoding) (text : List Char) :
    displayed encoding text = text ↔
      (encoding = .utf16 → ∀ character ∈ text, character.toNat < 0x10000) := by
  have longer (text : List Char) : text.length ≤ (displayed encoding text).length := by
    induction text with
    | nil => exact Nat.le_refl _
    | cons character rest ih =>
      rw [displayed, List.flatMap_cons, List.length_append, ← displayed, List.length_cons]
      split <;> simp only [List.length_cons, List.length_nil] <;> omega
  constructor
  · intro same pairs
    induction text with
    | nil => exact fun _ inNone => absurd inNone List.not_mem_nil
    | cons character rest ih =>
      have restLonger := longer rest
      rw [displayed, List.flatMap_cons, ← displayed] at same
      by_cases isPair : 0x10000 ≤ character.toNat
      · have lengths := congrArg List.length same
        rw [if_pos ⟨pairs, isPair⟩] at lengths
        simp only [List.length_append, List.length_cons, List.length_nil] at lengths
        omega
      · rw [if_neg fun pair => isPair pair.2, List.singleton_append] at same
        exact List.forall_mem_cons.mpr ⟨Nat.not_le.mp isPair, ih (List.cons.inj same).2⟩
  · exact fun areOne => displayed_of_one fun character inText pair =>
      Nat.not_lt.mpr pair.2 (areOne pair.1 character inText)

theorem tokenize_raw (dialect : Dialect) (encoding : Encoding) {text : List Char}
    (areRaw : ∀ character ∈ text, character ≠ '"' ∧ character ≠ '\\' ∧ isLineEnd character = false)
    (name : String) (diagnostics : Diagnostics) :
    ∃ tokens,
      tokenize (cLanguage dialect) ⟨name, literalText encoding '"' text⟩ diagnostics =
        (tokens, diagnostics) ∧
      tokens.body.toList.map Token.word = [⟨.literal .string, literalText encoding '"' text,
        some (.string (text.flatMap encoding.units) encoding)⟩] := by
  have clean : ∀ item ∈ text.map LiteralItem.raw, item.problem? encoding = none :=
    List.forall_mem_map.mpr fun _ _ => rfl
  have scans : ScansAs dialect _ _ [] := .literalItems (areItems_raw areRaw) clean []
  simp only [scannedItems, itemsText_raw, itemsUnits_raw] at scans
  exact scans.tokenize name diagnostics

/-- A text without escapes is scanned as one literal with the units of its characters. They are displayed
as the text, but where the encoding takes two units for one of the characters. -/
theorem decode_tokenize_raw (dialect : Dialect) (encoding : Encoding) (text : List Char)
    (areRaw : ∀ character ∈ text, character ≠ '"' ∧ character ≠ '\\' ∧ isLineEnd character = false)
    (name : String) (diagnostics : Diagnostics) :
    ∃ tokens units,
      tokenize (cLanguage dialect) ⟨name, literalText encoding '"' text⟩ diagnostics =
        (tokens, diagnostics) ∧
      tokens.body.toList.map Token.word =
        [⟨.literal .string, literalText encoding '"' text, some (.string units encoding)⟩] ∧
      encoding.decode units = String.ofList (displayed encoding text) ∧
      (encoding.decode units = String.ofList text ↔
        (encoding = .utf16 → ∀ character ∈ text, character.toNat < 0x10000)) := by
  obtain ⟨tokens, tokenized, isWord⟩ := tokenize_raw dialect encoding areRaw name diagnostics
  refine ⟨tokens, text.flatMap encoding.units, tokenized, isWord, encoding.decode_units text, ?_⟩
  rw [encoding.decode_units, String.ofList_inj, displayed_eq_iff]

theorem decode_tokenize_raw_letters :
    (∀ character ∈ ['a', 'é', '😀'],
      character ≠ '"' ∧ character ≠ '\\' ∧ isLineEnd character = false) ∧
    ∃ tokens units,
      tokenize (cLanguage gnuC17) ⟨"<input>", "u\"aé😀\""⟩ .empty = (tokens, .empty) ∧
      tokens.body.toList.map Token.word =
        [⟨.literal .string, "u\"aé😀\"", some (.string units .utf16)⟩] ∧
      Encoding.utf16.decode units = "aé\uFFFD\uFFFD" ∧
      (Encoding.utf16.decode units = "aé😀" ↔
        (Encoding.utf16 = .utf16 → ∀ character ∈ ['a', 'é', '😀'], character.toNat < 0x10000)) :=
  have areRaw : ∀ character ∈ ['a', 'é', '😀'],
      character ≠ '"' ∧ character ≠ '\\' ∧ isLineEnd character = false := by
    simp [isLineEnd]
  ⟨areRaw, decode_tokenize_raw gnuC17 .utf16 ['a', 'é', '😀'] areRaw "<input>" .empty⟩

/-- A character of two units is scanned without a problem, and is not displayed. -/
theorem not_decode_tokenize_pair :
    ∃ tokens,
      tokenize (cLanguage gnuC17) ⟨"<input>", "u\"😀\""⟩ .empty = (tokens, .empty) ∧
      tokens.body.toList.map Token.word =
        [⟨.literal .string, "u\"😀\"", some (.string [0xD83D, 0xDE00] .utf16)⟩] ∧
      Encoding.utf16.decode [0xD83D, 0xDE00] ≠ "😀" := by
  have areRaw : ∀ character ∈ ['😀'],
      character ≠ '"' ∧ character ≠ '\\' ∧ isLineEnd character = false :=
    List.forall_mem_singleton.mpr (by decide)
  have shown := Encoding.utf16.decode_units ['😀']
  obtain ⟨tokens, tokenized, isWord⟩ := tokenize_raw gnuC17 .utf16 areRaw "<input>" .empty
  refine ⟨tokens, tokenized, isWord, fun isText => ?_⟩
  exact absurd (shown.symm.trans isText) (by decide)

end CFrontEnd
