import Mathlib.Data.List.Basic
import CFrontEnd.Token.Literal

/-!
UTF-8 as bytes and back. The bytes of characters decode to the characters; among other bytes, one that is
no ASCII character takes nothing with it but continuation bytes right behind it.
-/

namespace CFrontEnd

theorem scalar_range (character : Char) :
    character.toNat < 0xD800 ∨ 0xDFFF < character.toNat ∧ character.toNat < 0x110000 := by
  have valid : Nat.isValidChar character.toNat := character.valid
  exact valid

theorem scalarValue?_toNat (character : Char) : scalarValue? character.toNat = some character := by
  have valid : Nat.isValidChar character.toNat := character.valid
  rw [scalarValue?, dif_pos valid]
  rfl

theorem toNat_of_scalarValue? {value : Nat} {character : Char}
    (isScalar : scalarValue? value = some character) : character.toNat = value := by
  by_cases valid : value.isValidChar
  · rw [scalarValue?, dif_pos valid] at isScalar
    rw [← Option.some.inj isScalar]
    rfl
  · rw [scalarValue?, dif_neg valid] at isScalar
    cases isScalar

/-! ## Characters as bytes -/

theorem continueCharacter_cons {value missing low high byte : Nat} (rest : List Nat)
    (inRange : low ≤ byte ∧ byte ≤ high) :
    continueCharacter value (missing + 1) low high (byte :: rest) =
      ((continueCharacter (value * 0x40 + (byte - 0x80)) missing 0x80 0xBF rest).1 + 1,
        (continueCharacter (value * 0x40 + (byte - 0x80)) missing 0x80 0xBF rest).2) := by
  rw [continueCharacter, if_pos inRange]

variable {value : Nat}

theorem leadByte_two (low : 0x80 ≤ value) (high : value < 0x800) :
    leadByte (0xC0 + value / 0x40) = some (value / 0x40, 1, 0x80, 0xBF) := by
  rw [leadByte, if_neg (by omega), if_pos (by omega), Nat.add_sub_cancel_left]

/-- Which bytes may be second depends on the first one: not all of them would be the shortest form, and
surrogates are no characters. -/
theorem leadByte_three (low : 0x800 ≤ value) (high : value < 0x10000)
    (scalar : value < 0xD800 ∨ 0xDFFF < value) :
    ∃ least most, leadByte (0xE0 + value / 0x1000) = some (value / 0x1000, 2, least, most) ∧
      least ≤ 0x80 + value / 0x40 % 0x40 ∧ 0x80 + value / 0x40 % 0x40 ≤ most := by
  by_cases isLeast : value / 0x1000 = 0
  · refine ⟨0xA0, 0xBF, ?_, by omega, by omega⟩
    rw [isLeast]
    rfl
  · by_cases besideSurrogates : value / 0x1000 = 0xD
    · refine ⟨0x80, 0x9F, ?_, by omega, by omega⟩
      rw [besideSurrogates]
      rfl
    · refine ⟨0x80, 0xBF, ?_, by omega, by omega⟩
      rw [leadByte, if_neg (by omega), if_neg (by omega), if_neg (by omega), if_neg (by omega),
        if_pos (by omega), Nat.add_sub_cancel_left]

theorem leadByte_four (low : 0x10000 ≤ value) (high : value < 0x110000) :
    ∃ least most, leadByte (0xF0 + value / 0x40000) = some (value / 0x40000, 3, least, most) ∧
      least ≤ 0x80 + value / 0x1000 % 0x40 ∧ 0x80 + value / 0x1000 % 0x40 ≤ most := by
  by_cases isLeast : value / 0x40000 = 0
  · refine ⟨0x90, 0xBF, ?_, by omega, by omega⟩
    rw [isLeast]
    rfl
  · by_cases isMost : value / 0x40000 = 4
    · refine ⟨0x80, 0x8F, ?_, by omega, by omega⟩
      rw [isMost]
      rfl
    · refine ⟨0x80, 0xBF, ?_, by omega, by omega⟩
      rw [leadByte, if_neg (by omega), if_neg (by omega), if_neg (by omega), if_neg (by omega),
        if_neg (by omega), if_neg (by omega), if_neg (by omega), if_pos (by omega),
        Nat.add_sub_cancel_left]

/-- The first byte of a character tells how many follow it, and they give the character back. -/
theorem decodeCharacter_utf8Units (character : Char) (rest : List Nat) :
    ∃ first tail, utf8Units character = first :: tail ∧
      decodeCharacter first (tail ++ rest) = (tail.length, character) := by
  have range := scalar_range character
  have isScalar := scalarValue?_toNat character
  unfold utf8Units
  generalize character.toNat = value at range isScalar
  have decoded {parts : Nat} (same : parts = value) :
      ((some parts).bind scalarValue?).getD replacementCharacter = character := by
    rw [same, Option.bind_some, isScalar, Option.getD_some]
  -- By the number of bytes. In each case what was divided is put together again.
  by_cases isOne : value < 0x80
  · refine ⟨value, [], by simp [isOne], ?_⟩
    simp [decodeCharacter, leadByte, isOne, continueCharacter, isScalar]
  · by_cases areTwo : value < 0x800
    · refine ⟨0xC0 + value / 0x40, [0x80 + value % 0x40], by simp [isOne, areTwo], ?_⟩
      simp only [decodeCharacter, leadByte_two (by omega : 0x80 ≤ value) areTwo]
      rw [List.singleton_append, continueCharacter_cons _ (by omega), continueCharacter]
      have whole : value / 0x40 * 0x40 + (0x80 + value % 0x40 - 0x80) = value := by
        omega
      rw [decoded whole]
      rfl
    · by_cases areThree : value < 0x10000
      · obtain ⟨least, most, isLead, second⟩ :=
          leadByte_three (by omega : 0x800 ≤ value) areThree (by omega)
        refine ⟨0xE0 + value / 0x1000, [0x80 + value / 0x40 % 0x40, 0x80 + value % 0x40],
          by simp [isOne, areTwo, areThree], ?_⟩
        simp only [decodeCharacter, isLead]
        rw [List.cons_append, continueCharacter_cons _ second, List.singleton_append,
          continueCharacter_cons _ (by omega), continueCharacter]
        have whole : (value / 0x1000 * 0x40 + (0x80 + value / 0x40 % 0x40 - 0x80)) * 0x40 +
          (0x80 + value % 0x40 - 0x80) = value := by
          omega
        rw [decoded whole]
        rfl
      · obtain ⟨least, most, isLead, second⟩ :=
          leadByte_four (by omega : 0x10000 ≤ value) (by omega)
        refine ⟨0xF0 + value / 0x40000, [0x80 + value / 0x1000 % 0x40, 0x80 + value / 0x40 % 0x40,
          0x80 + value % 0x40], by simp [isOne, areTwo, areThree], ?_⟩
        simp only [decodeCharacter, isLead]
        rw [List.cons_append, continueCharacter_cons _ second, List.cons_append,
          continueCharacter_cons _ (by omega), List.singleton_append,
          continueCharacter_cons _ (by omega), continueCharacter]
        have whole : ((value / 0x40000 * 0x40 + (0x80 + value / 0x1000 % 0x40 - 0x80)) * 0x40 +
          (0x80 + value / 0x40 % 0x40 - 0x80)) * 0x40 + (0x80 + value % 0x40 - 0x80) = value := by
          omega
        rw [decoded whole]
        rfl

/-- The bytes are those that the texts of Lean are stored as. -/
theorem utf8Units_eq (character : Char) :
    utf8Units character = (String.utf8EncodeChar character).map UInt8.toNat := by
  have range := scalar_range character
  have isNumber : character.val.toNat = character.toNat := rfl
  simp only [utf8Units, String.utf8EncodeChar, isNumber]
  generalize character.toNat = value at range
  have byte {number : Nat} (small : number < 0x100) : (UInt8.ofNat number).toNat = number :=
    Nat.mod_eq_of_lt small
  by_cases isOne : value < 0x80
  · rw [if_pos isOne, if_pos (by omega), List.map_singleton, byte (by omega)]
  · by_cases areTwo : value < 0x800
    · rw [if_neg isOne, if_pos areTwo, if_neg (by omega), if_pos (by omega)]
      simp only [List.map_cons, List.map_nil, List.cons.injEq, and_true]
      rw [byte (by omega), byte (by omega)]
      omega
    · by_cases areThree : value < 0x10000
      · rw [if_neg isOne, if_neg areTwo, if_pos areThree, if_neg (by omega), if_neg (by omega),
          if_pos (by omega)]
        simp only [List.map_cons, List.map_nil, List.cons.injEq, and_true]
        rw [byte (by omega), byte (by omega), byte (by omega)]
        omega
      · rw [if_neg isOne, if_neg areTwo, if_neg areThree, if_neg (by omega), if_neg (by omega),
          if_neg (by omega)]
        simp only [List.map_cons, List.map_nil, List.cons.injEq, and_true]
        rw [byte (by omega), byte (by omega), byte (by omega), byte (by omega)]
        omega

theorem decodeUtf8_cons (first : Nat) (rest : List Nat) :
    decodeUtf8 (first :: rest) = (decodeCharacter first rest).2 ::
      decodeUtf8 (rest.drop (decodeCharacter first rest).1) := by
  rw [decodeUtf8]

theorem decodeUtf8_append (character : Char) (rest : List Nat) :
    decodeUtf8 (utf8Units character ++ rest) = character :: decodeUtf8 rest := by
  obtain ⟨first, tail, isUnits, isDecoded⟩ := decodeCharacter_utf8Units character rest
  rw [isUnits, List.cons_append, decodeUtf8_cons, isDecoded, List.drop_left]

theorem decodeUtf8_flatMap (text : List Char) : decodeUtf8 (text.flatMap utf8Units) = text := by
  induction text with
  | nil => rw [List.flatMap_nil, decodeUtf8]
  | cons character rest ih => rw [List.flatMap_cons, decodeUtf8_append, ih]

/-! ## Bytes that need not be characters -/

/-- The bytes that are second or later in a character. -/
def IsContinuation (byte : Nat) : Prop := 0x80 ≤ byte ∧ byte ≤ 0xBF

/-- Only continuation bytes are gathered, and as many as are missing if the character is whole. -/
theorem continueCharacter_taken {low high : Nat} (isLow : 0x80 ≤ low) (isHigh : high ≤ 0xBF)
    (value missing : Nat) (rest : List Nat) :
    ((continueCharacter value missing low high rest).1 ≤ rest.length ∧
      ∀ byte ∈ rest.take (continueCharacter value missing low high rest).1, IsContinuation byte) ∧
    ((continueCharacter value missing low high rest).2.isSome →
      (continueCharacter value missing low high rest).1 = missing) := by
  induction missing generalizing value low high rest with
  | zero => simp [continueCharacter]
  | succ missing ih =>
    cases rest with
    | nil => simp [continueCharacter]
    | cons byte rest =>
      by_cases inRange : low ≤ byte ∧ byte ≤ high
      · obtain ⟨⟨few, areContinuations⟩, whole⟩ :=
          ih (Nat.le_refl _) (Nat.le_refl _) (value * 0x40 + (byte - 0x80)) rest
        rw [continueCharacter_cons rest inRange]
        refine ⟨⟨Nat.succ_le_succ few, ?_⟩, fun isWhole => congrArg (· + 1) (whole isWhole)⟩
        rw [List.take_succ_cons]
        exact List.forall_mem_cons.mpr ⟨⟨by omega, by omega⟩, areContinuations⟩
      · simp [continueCharacter, inRange]

theorem leadByte_high {byte missing low high : Nat} (notAscii : 0x80 ≤ byte)
    (isLead : leadByte byte = some (value, missing, low, high)) :
    0 < missing ∧ 0x80 ≤ low ∧ high ≤ 0xBF ∧ (missing = 1 → value < 0x20) := by
  unfold leadByte at isLead
  split_ifs at isLead <;> simp only [Option.some.injEq, Prod.mk.injEq] at isLead <;> omega

/-- A byte that is no ASCII character begins a longer one, or stands for the replacement character. It
takes nothing but continuation bytes, more than one of them if the character has two units of 16 bits. -/
theorem decodeCharacter_high {first : Nat} (notAscii : 0x80 ≤ first) (rest : List Nat) :
    ((decodeCharacter first rest).1 ≤ rest.length ∧
      ∀ byte ∈ rest.take (decodeCharacter first rest).1, IsContinuation byte) ∧
    ((decodeCharacter first rest).2 = replacementCharacter ∨ 0 < (decodeCharacter first rest).1 ∧
      (1 < (decodeCharacter first rest).1 ∨ (decodeCharacter first rest).2.toNat < 0x10000)) := by
  cases isLead : leadByte first with
  | none => simp [decodeCharacter, isLead]
  | some lead =>
    obtain ⟨value, missing, low, high⟩ := lead
    obtain ⟨isLonger, isLow, isHigh, short⟩ := leadByte_high notAscii isLead
    obtain ⟨gathered, isWhole⟩ := continueCharacter_taken isLow isHigh value missing rest
    simp only [decodeCharacter, isLead]
    refine ⟨gathered, ?_⟩
    cases whole : (continueCharacter value missing low high rest).2 with
    | none => exact .inl rfl
    | some number =>
      have taken := isWhole (by rw [whole]; rfl)
      cases isScalar : scalarValue? number with
      | none => exact .inl (by simp [isScalar])
      | some character =>
        refine .inr ⟨by omega, ?_⟩
        -- With one byte behind it a character has at most eleven bits, so it needs no second
        -- unit.
        by_cases isOne : missing = 1
        · subst isOne
          refine .inr ?_
          cases rest with
          | nil => cases whole
          | cons byte rest =>
            by_cases inRange : low ≤ byte ∧ byte ≤ high
            · rw [continueCharacter_cons rest inRange, continueCharacter] at whole
              have isNumber := Option.some.inj whole
              have isCharacter := toNat_of_scalarValue? isScalar
              have fewBits := short rfl
              simp only [Option.bind_some, isScalar, Option.getD_some]
              omega
            · simp [continueCharacter, inRange] at whole
        · exact .inl (by omega)

end CFrontEnd
