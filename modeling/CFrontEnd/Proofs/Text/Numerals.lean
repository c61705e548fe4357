import Mathlib.Data.Nat.Digits.Defs
import CFrontEnd.Text.Character

/-!
Numbers and their digits: what is written in a radix is read back as the number.
-/

namespace CFrontEnd

theorem hexDigitValue?_digitChar {digit : Nat} (small : digit < 16) :
    hexDigitValue? digit.digitChar = some digit := by
  have decided : ∀ digit : Fin 16, hexDigitValue? digit.val.digitChar = some digit.val := by decide
  exact decided ⟨digit, small⟩

variable {radix value : Nat}

theorem numeral_concat (radix : Nat) (digits : List Char) (digit : Char) :
    numeral radix (digits ++ [digit]) =
      numeral radix digits * radix + (hexDigitValue? digit).getD 0 := by
  simp [numeral]

theorem numeral_zeros (radix count : Nat) (digits : List Char) :
    numeral radix (List.replicate count '0' ++ digits) = numeral radix digits := by
  induction count with
  | zero => rfl
  | succ count ih =>
    have isZero : 0 * radix + (hexDigitValue? '0').getD 0 = 0 := by
      rw [Nat.zero_mul]
      rfl
    rw [List.replicate_succ, List.cons_append, ← ih, numeral, List.foldl_cons, isZero]
    rfl

theorem numeral_toDigits (isRadix : 1 < radix) (few : radix ≤ 16) (value : Nat) :
    numeral radix (Nat.toDigits radix value) = value := by
  induction value using Nat.strongRecOn with
  | ind value ih =>
    rcases Nat.lt_or_ge value radix with small | large
    · rw [Nat.toDigits_of_lt_base small]
      simp [numeral, hexDigitValue?_digitChar (Nat.lt_of_lt_of_le small few)]
    · have positive : 0 < radix := by omega
      have digit : value % radix < 16 := Nat.lt_of_lt_of_le (Nat.mod_lt _ positive) few
      have shorter : value / radix < value := Nat.div_lt_self (by omega) isRadix
      rw [Nat.toDigits_of_base_le isRadix large, numeral_concat, ih _ shorter,
        hexDigitValue?_digitChar digit, Option.getD_some, Nat.div_add_mod']

theorem digit_of_mem_toDigits (isRadix : 1 < radix) {character : Char}
    (inDigits : character ∈ Nat.toDigits radix value) :
    ∃ digit < radix, character = digit.digitChar := by
  induction value using Nat.strongRecOn with
  | ind value ih =>
    rcases Nat.lt_or_ge value radix with small | large
    · rw [Nat.toDigits_of_lt_base small] at inDigits
      exact ⟨value, small, List.mem_singleton.mp inDigits⟩
    · rw [Nat.toDigits_of_base_le isRadix large, List.mem_append, List.mem_singleton] at inDigits
      rcases inDigits with isEarlier | isLast
      · exact ih _ (Nat.div_lt_self (by omega) isRadix) isEarlier
      · exact ⟨value % radix, Nat.mod_lt _ (by omega), isLast⟩

theorem isHexDigit_of_mem_toDigits {character : Char}
    (inDigits : character ∈ Nat.toDigits 16 value) : isHexDigit character = true := by
  obtain ⟨digit, small, rfl⟩ := digit_of_mem_toDigits (by decide) inDigits
  rw [isHexDigit, hexDigitValue?_digitChar small]
  rfl

/-! ## Runs of digits -/

theorem of_isAscii (holds : Char → Prop) (decided : ∀ value : Fin 0x80, holds (Char.ofNat value.val))
    {character : Char} (ascii : character.toNat < 0x80) : holds character := by
  have held := decided ⟨character.toNat, ascii⟩
  rwa [Char.ofNat_toNat] at held

theorem ascii_of_isHexDigit {character : Char} (isDigit : isHexDigit character = true) :
    character.toNat < 0x80 := by
  have bounded {most : Char} (below : character ≤ most) : character.toNat ≤ most.toNat := below
  unfold isHexDigit hexDigitValue? at isDigit
  split at isDigit
  · rename_i range
    exact Nat.lt_of_le_of_lt (bounded range.2) (by decide)
  · split at isDigit
    · rename_i range
      exact Nat.lt_of_le_of_lt (bounded range.2) (by decide)
    · split at isDigit
      · rename_i range
        exact Nat.lt_of_le_of_lt (bounded range.2) (by decide)
      · cases isDigit

theorem isHexDigit_of_isOctalDigit {character : Char} (isDigit : isOctalDigit character = true) :
    isHexDigit character = true := by
  simp only [isOctalDigit, Bool.and_eq_true, decide_eq_true_eq] at isDigit
  have inDecimals : '0' ≤ character ∧ character ≤ '9' :=
    ⟨isDigit.1, Char.le_trans isDigit.2 (by decide)⟩
  rw [isHexDigit, hexDigitValue?, if_pos inDecimals]
  rfl

theorem takeWhile_run {holds : Char → Bool} {run next : List Char}
    (inRun : ∀ character ∈ run, holds character = true)
    (ends : ∀ character, next.head? = some character → holds character = false) :
    (run ++ next).takeWhile holds = run := by
  rw [List.takeWhile_append_of_pos inRun]
  cases next with
  | nil => rw [List.takeWhile_nil, List.append_nil]
  | cons character rest =>
    rw [List.takeWhile_cons_of_neg (by simp [ends character rfl]), List.append_nil]

/-! ## Three octal digits -/

theorem toList_octalDigits (value : Nat) :
    (octalDigits value).toList =
      List.replicate (3 - (Nat.toDigits 8 value).length) '0' ++ Nat.toDigits 8 value := by
  simp [octalDigits]

theorem length_octalDigits (small : value < 0o1000) : (octalDigits value).toList.length = 3 := by
  have short : (Nat.toDigits 8 value).length ≤ 3 :=
    (Nat.length_toDigits_le_iff (by decide) (by decide)).mpr small
  rw [toList_octalDigits, List.length_append, List.length_replicate]
  omega

theorem numeral_octalDigits (value : Nat) : numeral 8 (octalDigits value).toList = value := by
  rw [toList_octalDigits, numeral_zeros, numeral_toDigits (by decide) (by decide)]

theorem digit_of_mem_octalDigits {character : Char}
    (inDigits : character ∈ (octalDigits value).toList) :
    ∃ digit < 8, character = digit.digitChar := by
  rw [toList_octalDigits, List.mem_append] at inDigits
  rcases inDigits with isZero | isDigit
  · exact ⟨0, by decide, List.eq_of_mem_replicate isZero⟩
  · exact digit_of_mem_toDigits (by decide) isDigit

theorem isOctalDigit_of_mem_octalDigits {character : Char}
    (inDigits : character ∈ (octalDigits value).toList) : isOctalDigit character = true := by
  obtain ⟨digit, small, rfl⟩ := digit_of_mem_octalDigits inDigits
  have decided : ∀ digit : Fin 8, isOctalDigit digit.val.digitChar = true := by decide
  exact decided ⟨digit, small⟩

end CFrontEnd
