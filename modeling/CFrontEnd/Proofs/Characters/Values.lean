import CFrontEnd.Proofs.Scan.Origins
import CFrontEnd.Scan.Quoted

/-!
The values of character constants. Every unit between the quotes fits its encoding, and so does the
value of a wide constant, which is its last unit; bytes are packed into one number, which need not fit.
-/

namespace CFrontEnd

/-- A character has units of its encoding. -/
theorem Encoding.units_le (encoding : Encoding) (character : Char) :
    ∀ unit ∈ encoding.units character, unit ≤ encoding.maxUnit := by
  have small : character.toNat < 0x110000 := by
    have valid := character.valid
    simp only [UInt32.isValidChar, Nat.isValidChar] at valid
    change character.val.toNat < 0x110000
    omega
  intro unit inUnits
  cases encoding with
  | plain | utf8 =>
    simp only [units, utf8Units] at inUnits
    split_ifs at inUnits <;> simp only [List.mem_cons, List.not_mem_nil, or_false] at inUnits <;>
      simp only [maxUnit] <;> omega
  | utf16 =>
    simp only [units, utf16Units] at inUnits
    split_ifs at inUnits <;> simp only [List.mem_cons, List.not_mem_nil, or_false] at inUnits <;>
      simp only [maxUnit] <;> omega
  | wide | utf32 =>
    obtain rfl := List.mem_singleton.mp inUnits
    simp only [maxUnit]
    omega

namespace EscapeReading

variable {encoding : Encoding}

/-- All units of the escape fit its encoding. -/
def Fits (encoding : Encoding) (reading : EscapeReading) : Prop :=
  ∀ unit ∈ reading.units, unit ≤ encoding.maxUnit

theorem fits_without (length : Nat) (problem : Option LexicalProblem) :
    Fits encoding ⟨length, [], problem⟩ :=
  fun _ inNone => absurd inNone List.not_mem_nil

theorem fits_numeric (length value : Nat) (tooLarge : LexicalProblem) :
    (numeric encoding length value tooLarge).Fits encoding := by
  unfold numeric
  split
  · exact List.forall_mem_singleton.mpr (Nat.le_refl _)
  · rename_i small
    exact List.forall_mem_singleton.mpr (Nat.not_lt.mp small)

theorem fits_universal (wanted : Nat) (rest : List Char) :
    (universal encoding wanted rest).Fits encoding := by
  simp only [universal]
  split
  · exact fits_without _ _
  · split
    · exact encoding.units_le _
    · exact fits_without _ _

theorem simple?_le {character : Char} {unit : Nat} (isSimple : simple? character = some unit) :
    unit ≤ encoding.maxUnit := by
  have isByte : unit ≤ 0xFF := by
    unfold simple? at isSimple
    split at isSimple <;> cases isSimple <;> decide
  cases encoding <;> simp only [Encoding.maxUnit] <;> omega

theorem fits_read (input : List Char) : (read encoding input).Fits encoding := by
  cases input with
  | nil => exact fits_without _ _
  | cons first rest =>
    simp only [read]
    split
    · exact fits_without _ _
    · split
      · rename_i isSimple
        exact List.forall_mem_singleton.mpr (simple?_le isSimple)
      · split
        · split
          · exact fits_without _ _
          · exact fits_numeric _ _ _
        · split
          · exact fits_numeric _ _ _
          · split
            · exact fits_universal _ _
            · split
              · exact fits_universal _ _
              · exact encoding.units_le first

end EscapeReading

namespace QuotedReading

variable {encoding : Encoding}

theorem units_read_le (quote escape : Char) (index : Nat) (input : List Char) :
    ∀ unit ∈ (read encoding quote escape index input).units, unit ≤ encoding.maxUnit := by
  fun_induction read encoding quote escape index input with
  | case1 | case2 | case3 => exact fun _ inNone => absurd inNone List.not_mem_nil
  | case4 index first rest _ _ _ sequence more ih =>
    exact List.forall_mem_append.mpr ⟨EscapeReading.fits_read rest, ih⟩
  | case5 index first rest _ _ _ more ih =>
    exact List.forall_mem_append.mpr ⟨encoding.units_le first, ih⟩

theorem characterValue_le (isWide : encoding.isNarrow = false) {units : List Nat}
    (fit : ∀ unit ∈ units, unit ≤ encoding.maxUnit) :
    characterValue encoding units ≤ encoding.maxUnit := by
  rw [characterValue, isWide]
  rw [if_neg Bool.false_ne_true, List.getLastD_eq_getLast?]
  cases isLast : units.getLast? with
  | none => exact Nat.zero_le _
  | some last => exact fit last (List.mem_of_getLast? isLast)

theorem characterValue_single {unit : Nat} (fits : unit ≤ encoding.maxUnit) :
    characterValue encoding [unit] = unit := by
  cases encoding <;> simp [characterValue, Encoding.isNarrow, Encoding.maxUnit] at fits ⊢ <;> omega

end QuotedReading

namespace Segment

variable {language : Language} {encoding : Encoding} {before : Nat} {input : List Char}
  {segment : Segment} {value : Option Literal}

theorem quotedAt?_character (found : quotedAt? language encoding before input = some segment)
    (isCharacter : segment.kind = .token (.literal .character) value) :
    ∃ units, (∀ unit ∈ units, unit ≤ encoding.maxUnit) ∧
      value = some (.character (QuotedReading.characterValue encoding units) encoding) := by
  cases input with
  | nil => cases found
  | cons quote rest =>
    simp only [quotedAt?] at found
    split at found
    · rw [← Option.some.inj found] at isCharacter
      cases isCharacter
    · split at found
      · rw [← Option.some.inj found] at isCharacter
        refine ⟨_, QuotedReading.units_read_le quote language.marks.escape (before + 1) rest, ?_⟩
        exact (SegmentKind.token.inj isCharacter).2.symm
      · cases found

end Segment

/-- A character constant has a value, which fits its encoding if that is no encoding of bytes. -/
theorem Token.IsFoundIn.exists_character {language : Language} {first : Char} {rest : List Char}
    {segment : Segment} {token : Token} (isFoundIn : token.IsFoundIn language first rest segment)
    (isCharacter : token.kind = .literal .character) :
    ∃ value encoding, token.value = some (.character value encoding) ∧
      (encoding.isNarrow = false → value ≤ encoding.maxUnit) := by
  have isToken := isFoundIn.isToken
  rw [isCharacter] at isToken
  have apart {kind : TokenKind} {value : Option Literal}
      (isOther : segment.kind = .token kind value) : kind = .literal .character := by
    rw [isToken] at isOther
    exact (SegmentKind.token.inj isOther).1.symm
  cases Segment.tokenAt?_rule isFoundIn.found with
  | number found =>
    obtain ⟨kind, value, isNumber, isKind⟩ := Segment.numberAt?_kind found
    rcases isKind with rfl | rfl <;> cases apart isNumber
  | quoted encoding word input _ found =>
    obtain ⟨units, fit, isValue⟩ := Segment.quotedAt?_character found isToken
    exact ⟨_, encoding, isValue, fun isWide => QuotedReading.characterValue_le isWide fit⟩
  | name kind isName isOther =>
    rcases isName with rfl | ⟨keyword, rfl⟩ <;> cases apart isOther
  | symbol kind _ isSymbol isOther =>
    rcases (Segment.symbolKind?_begins isSymbol).2 with ⟨operator, rfl⟩ | ⟨punctuator, rfl⟩ <;>
      cases apart isOther

end CFrontEnd
