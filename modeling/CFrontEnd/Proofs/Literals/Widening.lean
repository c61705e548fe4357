import CFrontEnd.Grammar.StringLiteral
import CFrontEnd.Proofs.Literals.Display

/-!
The units of items as bytes that are encoded again for a wide literal, and their units in that literal. The
two agree up to the first number that is no ASCII character: as a byte it begins a character of several
bytes, which has fewer units, or stands for the replacement character.
-/

namespace CFrontEnd

/-! ## Items that are characters -/

/-- The item is one character in every encoding. -/
def LiteralItem.IsCharacter (item : LiteralItem) (character : Char) : Prop :=
  ∀ encoding : Encoding, item.units encoding = encoding.units character

theorem exists_ascii {value : Nat} (ascii : value < 0x80) :
    ∃ character : Char, character.toNat = value := by
  have decided : ∀ value : Fin 0x80, (Char.ofNat value.val).toNat = value.val := by decide
  exact ⟨Char.ofNat value, decided ⟨value, ascii⟩⟩

theorem Encoding.exists_units_ascii {value : Nat} (ascii : value < 0x80) :
    ∃ character : Char, ∀ encoding : Encoding, encoding.units character = [value] := by
  obtain ⟨character, rfl⟩ := exists_ascii ascii
  exact ⟨character, fun encoding => encoding.units_ascii ascii⟩

namespace LiteralItem

variable {quote : Char} {item : LiteralItem}

theorem units_of_number? {value : Nat} (isNumber : item.number? = some value) (encoding : Encoding) :
    item.units encoding = [min value encoding.maxUnit] := by
  cases item with
  | octal digits | hexadecimal digits =>
    rw [← Option.some.inj isNumber]
    rfl
  | _ => cases isNumber

theorem IsItem.exists_character (isItem : item.IsItem quote)
    (ascii : ∀ value, item.number? = some value → value < 0x80) :
    ∃ character, item.IsCharacter character := by
  cases isNumber : item.number? with
  | some value =>
    have small := ascii value isNumber
    obtain ⟨character, isCharacter⟩ := Encoding.exists_units_ascii small
    refine ⟨character, fun encoding => ?_⟩
    rw [units_of_number? isNumber, isCharacter, Nat.min_eq_left (encoding.ascii_le small)]
  | none =>
    cases isItem with
    | raw _ _ _ => exact ⟨_, fun _ => rfl⟩
    | universal _ _ _ => exact ⟨_, fun _ => rfl⟩
    | @simple letter unit known =>
      have decided : ∀ entry ∈ simpleEscapes, entry.2 < 0x80 := by decide
      obtain ⟨character, isCharacter⟩ := Encoding.exists_units_ascii (decided _ known)
      exact ⟨character, fun encoding => (isCharacter encoding).symm⟩
    | octal _ _ _ => cases isNumber
    | hexadecimal _ _ => cases isNumber

theorem IsItem.character_or_number (isItem : item.IsItem quote) :
    ((∃ character, item.IsCharacter character) ∧
      ∀ value, item.number? = some value → value < 0x80) ∨
    ∃ value, item.number? = some value ∧ 0x80 ≤ value := by
  by_cases ascii : ∀ value, item.number? = some value → value < 0x80
  · exact .inl ⟨isItem.exists_character ascii, ascii⟩
  · obtain ⟨value, isNumber, large⟩ : ∃ value, item.number? = some value ∧ ¬value < 0x80 := by
      simpa using ascii
    exact .inr ⟨value, isNumber, Nat.not_lt.mp large⟩

/-- A number without a problem fits a byte, and then every unit. -/
theorem number?_le (clean : item.problem? .plain = none) {value : Nat}
    (isNumber : item.number? = some value) : value ≤ 0xFF := by
  cases item with
  | octal digits | hexadecimal digits =>
    rw [← Option.some.inj isNumber]
    by_contra large
    simp [problem?, Encoding.maxUnit, large] at clean
  | _ => cases isNumber

theorem problem?_of_plain (clean : item.problem? .plain = none) (encoding : Encoding) :
    item.problem? encoding = none := by
  have fits : 0xFF ≤ encoding.maxUnit := by cases encoding <;> decide
  cases item with
  | octal digits | hexadecimal digits =>
    have small := number?_le clean rfl
    exact if_pos (Nat.le_trans small fits)
  | _ => rfl

end LiteralItem

theorem AreItems.isItem {quote : Char} {items : List LiteralItem} (areItems : AreItems quote items) :
    ∀ item ∈ items, item.IsItem quote := by
  induction areItems with
  | nil => exact fun _ inNone => absurd inNone List.not_mem_nil
  | cons isItem _ _ ih => exact List.forall_mem_cons.mpr ⟨isItem, ih⟩

/-! ## Continuation bytes -/

theorem not_isContinuation_of_utf8Units {character : Char} {first : Nat} {tail : List Nat}
    (isUnits : utf8Units character = first :: tail) : ¬IsContinuation first := by
  intro isContinuation
  obtain ⟨low, high⟩ := isContinuation
  unfold utf8Units at isUnits
  simp only at isUnits
  split_ifs at isUnits <;> obtain ⟨rfl, _⟩ := List.cons.inj isUnits <;> omega

/-- Continuation bytes in front are numbers, one byte and one unit each. -/
theorem exists_drop_of_continuations {quote : Char} {items : List LiteralItem}
    (areItems : ∀ item ∈ items, item.IsItem quote) (encoding : Encoding) {count : Nat}
    (enough : count ≤ (itemsUnits .plain items).length)
    (continuations : ∀ byte ∈ (itemsUnits .plain items).take count, IsContinuation byte) :
    ∃ rest, (∀ item ∈ rest, item ∈ items) ∧ rest.length ≤ items.length ∧
      (itemsUnits .plain items).drop count = itemsUnits .plain rest ∧
      (itemsUnits encoding items).length = count + (itemsUnits encoding rest).length := by
  induction count generalizing items with
  | zero => exact ⟨items, fun _ => id, Nat.le_refl _, rfl, (Nat.zero_add _).symm⟩
  | succ count ih =>
    cases items with
    | nil => cases enough
    | cons item items =>
      obtain ⟨isItem, restAreItems⟩ := List.forall_mem_cons.mp areItems
      rcases isItem.character_or_number with ⟨⟨character, isCharacter⟩, _⟩ | ⟨value, isNumber, _⟩
      -- A character never begins with a continuation byte.
      · obtain ⟨first, tail, isUnits, _⟩ := decodeCharacter_utf8Units character []
        refine absurd (continuations first ?_) (not_isContinuation_of_utf8Units isUnits)
        have isPlain : Encoding.plain.units character = first :: tail := isUnits
        rw [itemsUnits_cons, isCharacter .plain, isPlain, List.cons_append, List.take_succ_cons]
        exact List.mem_cons_self
      · have isUnit := LiteralItem.units_of_number? isNumber
        rw [itemsUnits_cons, isUnit, List.singleton_append] at enough continuations
        rw [List.take_succ_cons] at continuations
        obtain ⟨rest, inItems, fewer, dropped, length⟩ :=
          ih restAreItems (Nat.le_of_succ_le_succ enough) (List.forall_mem_cons.mp continuations).2
        refine ⟨rest, fun other inRest => List.mem_cons_of_mem _ (inItems other inRest),
          Nat.le_succ_of_le fewer, ?_, ?_⟩
        · rw [itemsUnits_cons, isUnit, List.singleton_append, List.drop_succ_cons, dropped]
        · rw [itemsUnits_cons, isUnit, List.singleton_append, List.length_cons, length]
          omega

/-! ## Units -/

namespace Encoding

variable {encoding : Encoding}

theorem length_units_le (isWide : encoding.isNarrow = false) (character : Char) :
    (encoding.units character).length ≤ 2 ∧
      (character.toNat < 0x10000 → (encoding.units character).length = 1) := by
  cases encoding with
  | plain | utf8 => cases isWide
  | wide | utf32 => exact ⟨Nat.le_succ 1, fun _ => rfl⟩
  | utf16 =>
    refine ⟨?_, fun isOne => by rw [units, utf16Units_single isOne, List.length_singleton]⟩
    simp only [units, utf16Units]
    split_ifs <;> simp

theorem units_replacement (isWide : encoding.isNarrow = false) :
    encoding.units replacementCharacter = [0xFFFD] := by
  cases encoding <;> first | rfl | cases isWide

end Encoding

/-- The units of items without prefix, read as UTF-8 and encoded again. -/
def widenedUnits (encoding : Encoding) (items : List LiteralItem) : List Nat :=
  (decodeUtf8 (itemsUnits .plain items)).flatMap encoding.units

section Widened

variable {encoding : Encoding} {quote : Char} {item : LiteralItem} {items : List LiteralItem}

theorem widenedUnits_character {character : Char} (isCharacter : item.IsCharacter character) :
    widenedUnits encoding (item :: items) = item.units encoding ++ widenedUnits encoding items := by
  have isPlain : item.units .plain = utf8Units character := isCharacter .plain
  rw [widenedUnits, itemsUnits_cons, isPlain, decodeUtf8_append, List.flatMap_cons,
    isCharacter encoding]
  rfl

theorem widenedUnits_byte {byte : Nat} (isByte : item.units .plain = [byte]) (encoding : Encoding)
    (items : List LiteralItem) :
    widenedUnits encoding (item :: items) =
      let decoded := decodeCharacter byte (itemsUnits .plain items)
      encoding.units decoded.2 ++
        (decodeUtf8 ((itemsUnits .plain items).drop decoded.1)).flatMap encoding.units := by
  rw [widenedUnits, itemsUnits_cons, isByte, List.singleton_append, decodeUtf8_cons,
    List.flatMap_cons]

/-- A byte that is no ASCII character takes some of the items behind it with it. There are fewer units
then, or the replacement character is in front. -/
theorem widenedUnits_number (isWide : encoding.isNarrow = false) {value : Nat}
    (isNumber : item.number? = some value) (large : 0x80 ≤ value)
    (areItems : ∀ item ∈ items, item.IsItem quote) :
    ∃ character rest, (∀ item ∈ rest, item ∈ items) ∧ rest.length ≤ items.length ∧
      widenedUnits encoding (item :: items) =
        encoding.units character ++ widenedUnits encoding rest ∧
      (itemsUnits encoding rest).length < (itemsUnits encoding (item :: items)).length ∧
      (character = replacementCharacter ∨
        (encoding.units character).length + (itemsUnits encoding rest).length <
          (itemsUnits encoding (item :: items)).length) := by
  have isUnit := LiteralItem.units_of_number? isNumber
  have isHigh : 0x80 ≤ min value Encoding.plain.maxUnit := Nat.le_min.mpr ⟨large, by decide⟩
  have isWidened := widenedUnits_byte (isUnit .plain) encoding items
  have isDecoded := decodeCharacter_high isHigh (itemsUnits .plain items)
  generalize decodeCharacter _ _ = decoded at isDecoded isWidened
  obtain ⟨taken, character⟩ := decoded
  obtain ⟨⟨enough, continuations⟩, isReplaced⟩ := isDecoded
  obtain ⟨rest, inItems, fewer, dropped, length⟩ :=
    exists_drop_of_continuations areItems encoding enough continuations
  have more : (itemsUnits encoding (item :: items)).length =
      (itemsUnits encoding items).length + 1 := by
    rw [itemsUnits_cons, isUnit, List.singleton_append, List.length_cons]
  have bound := encoding.length_units_le isWide character
  simp only at isWidened isReplaced length
  rw [dropped] at isWidened
  -- A byte that is decoded with others stands for fewer units than there were bytes.
  refine ⟨character, rest, inItems, fewer, isWidened, by omega, isReplaced.imp_right ?_⟩
  rintro ⟨some, several | isOne⟩
  · omega
  · have single := bound.2 isOne
    omega

/-- No item makes more units out of fewer. -/
theorem length_widenedUnits_le (isWide : encoding.isNarrow = false)
    (areItems : ∀ item ∈ items, item.IsItem quote) :
    (widenedUnits encoding items).length ≤ (itemsUnits encoding items).length := by
  generalize length : items.length = bound
  induction bound using Nat.strongRecOn generalizing items with
  | ind bound ih =>
    cases items with
    | nil => simp [widenedUnits, decodeUtf8]
    | cons item items =>
      obtain ⟨isItem, restAreItems⟩ := List.forall_mem_cons.mp areItems
      rw [List.length_cons] at length
      rcases isItem.character_or_number with ⟨⟨character, isCharacter⟩, _⟩ | ⟨value, isNumber, large⟩
      · have behind := ih items.length (by omega) restAreItems rfl
        rw [widenedUnits_character isCharacter, itemsUnits_cons, List.length_append,
          List.length_append]
        omega
      · obtain ⟨character, rest, inItems, fewer, isWidened, fewerUnits, isReplaced⟩ :=
          widenedUnits_number isWide isNumber large restAreItems
        have behind := ih rest.length (by omega) (fun other inRest =>
          restAreItems other (inItems other inRest)) rfl
        rw [isWidened, List.length_append]
        rcases isReplaced with rfl | shorter
        · rw [Encoding.units_replacement isWide, List.length_singleton]
          omega
        · omega

theorem widenedUnits_eq_iff (isWide : encoding.isNarrow = false)
    (areItems : ∀ item ∈ items, item.IsItem quote)
    (fit : ∀ item ∈ items, ∀ value, item.number? = some value → value ≤ 0xFF) :
    widenedUnits encoding items = itemsUnits encoding items ↔
      ∀ item ∈ items, ∀ value, item.number? = some value → value < 0x80 := by
  induction items with
  | nil => simp [widenedUnits, decodeUtf8]
  | cons item items ih =>
    obtain ⟨isItem, restAreItems⟩ := List.forall_mem_cons.mp areItems
    obtain ⟨itemFits, restFit⟩ := List.forall_mem_cons.mp fit
    rw [List.forall_mem_cons]
    -- a character in front is the same on both sides, and any other item makes them differ
    rcases isItem.character_or_number with ⟨⟨character, isCharacter⟩, ascii⟩ | ⟨value, isNumber, large⟩
    · rw [widenedUnits_character isCharacter, itemsUnits_cons, List.append_right_inj,
        ih restAreItems restFit]
      exact ⟨fun areRest => ⟨ascii, areRest⟩, fun areAll => areAll.2⟩
    · refine iff_of_false (fun same => ?_) fun areAscii =>
        absurd (areAscii.1 value isNumber) (Nat.not_lt.mpr large)
      obtain ⟨character, rest, inItems, _, isWidened, _, isReplaced⟩ :=
        widenedUnits_number isWide isNumber large restAreItems
      have small := itemFits value isNumber
      have behind := length_widenedUnits_le isWide fun other inRest =>
        restAreItems other (inItems other inRest)
      rw [isWidened] at same
      rcases isReplaced with rfl | shorter
      · rw [Encoding.units_replacement isWide, itemsUnits_cons,
          LiteralItem.units_of_number? isNumber, List.singleton_append, List.singleton_append] at same
        have heads := (List.cons.inj same).1
        omega
      · have lengths := congrArg List.length same
        rw [List.length_append] at lengths
        omega

theorem StringPieces.widen_itemsUnits (encoding : Encoding) (areItems : AreItems '"' items) :
    widen encoding (itemsUnits .plain items) = widenedUnits encoding items := by
  have fit : ∀ unit ∈ (QuotedReading.read .plain '"' '\\' 0 (itemsText items ++ ['"'])).units,
      unit ≤ Encoding.plain.maxUnit :=
    QuotedReading.units_read_le _ _ _ _
  rw [QuotedReading.read_items .plain areItems (.inl rfl) 0 []] at fit
  rw [widen, Encoding.decode_bytes rfl fit, String.toList_ofList, widenedUnits]

end Widened

end CFrontEnd
