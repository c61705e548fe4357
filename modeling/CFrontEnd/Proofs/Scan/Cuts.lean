import Mathlib.Data.List.TakeWhile
import CFrontEnd.Proofs.Scan.Symbols

/-!
The texts of tokens are known by their own characters: what stands behind one may be replaced by any
text that begins with white space.
-/

namespace CFrontEnd

/-- The first characters of a text, and behind them white space in place of what was there. -/
def cutAt (blank : Char) (tail : List Char) (count : Nat) (input : List Char) : List Char :=
  input.take count ++ blank :: tail

section Cut

variable {blank : Char} {tail input : List Char} {count : Nat}

theorem cutAt_zero : cutAt blank tail 0 input = blank :: tail := by
  simp [cutAt]

theorem cutAt_nil : cutAt blank tail count [] = blank :: tail := by
  simp [cutAt]

theorem cutAt_cons (character : Char) :
    cutAt blank tail (count + 1) (character :: input) = character :: cutAt blank tail count input := by
  simp [cutAt]

theorem cutAt_append (first later : List Char) :
    cutAt blank tail first.length (first ++ later) = first ++ blank :: tail := by
  simp [cutAt]

theorem drop_cutAt {dropped : Nat} (inCount : dropped ≤ count) (inInput : dropped ≤ input.length) :
    (cutAt blank tail count input).drop dropped =
      cutAt blank tail (count - dropped) (input.drop dropped) := by
  have inTaken : dropped ≤ (input.take count).length := by
    rw [List.length_take]
    omega
  rw [cutAt, List.drop_append_of_le_length inTaken, List.drop_take, cutAt]

theorem takeWhile_take_cutAt {holds : Char → Bool} (stops : holds blank = false) (limit : Nat)
    (short : ((input.take limit).takeWhile holds).length ≤ count) :
    ((cutAt blank tail count input).take limit).takeWhile holds =
      (input.take limit).takeWhile holds := by
  induction input generalizing limit count with
  | nil =>
    cases limit with
    | zero => rfl
    | succ limit => simp [cutAt_nil, stops]
  | cons character rest ih =>
    cases limit with
    | zero => rfl
    | succ limit =>
      rw [List.take_succ_cons] at short ⊢
      by_cases held : holds character = true
      · rw [List.takeWhile_cons_of_pos held] at short ⊢
        rw [List.length_cons] at short
        obtain ⟨fewer, rfl⟩ : ∃ fewer, count = fewer + 1 := ⟨count - 1, by omega⟩
        rw [cutAt_cons, List.take_succ_cons, List.takeWhile_cons_of_pos held, ih limit (by omega)]
      · rw [List.takeWhile_cons_of_neg held]
        cases count with
        | zero => simp [cutAt_zero, stops]
        | succ fewer => rw [cutAt_cons, List.take_succ_cons, List.takeWhile_cons_of_neg held]

theorem takeWhile_cutAt {holds : Char → Bool} (stops : holds blank = false)
    (short : (input.takeWhile holds).length ≤ count) :
    (cutAt blank tail count input).takeWhile holds = input.takeWhile holds := by
  have inputWhole : input.take (input.length + (cutAt blank tail count input).length) = input :=
    List.take_of_length_le (by omega)
  have cutWhole : (cutAt blank tail count input).take
      (input.length + (cutAt blank tail count input).length) = cutAt blank tail count input :=
    List.take_of_length_le (by omega)
  rw [← inputWhole] at short
  have bounded : ((cutAt blank tail count input).take _).takeWhile holds = _ :=
    takeWhile_take_cutAt stops _ short
  rwa [inputWhole, cutWhole] at bounded

/-- The character at a place before the cut stays, and at the cut there is white space. -/
theorem head?_cutAt {holds : Char → Bool} (stops : holds blank = false)
    (fails : input.head?.any holds = false) :
    (cutAt blank tail count input).head?.any holds = false := by
  cases input with
  | nil => simp [cutAt_nil, stops]
  | cons character rest =>
    cases count with
    | zero => simp [cutAt_zero, stops]
    | succ fewer => simpa [cutAt_cons] using fails

end Cut

/-! ## Numbers -/

/-- White space is in no other class of characters. -/
structure IsApart (dialect : Dialect) (blank : Char) : Prop where
  digit : blank.isDigit = false
  hexDigit : isHexDigit blank = false
  octalDigit : isOctalDigit blank = false
  binaryDigit : isBinaryDigit blank = false
  suffixLetter : NumberText.isSuffixLetter blank = false
  inWord : (cLanguage dialect).classes.continuesIdentifier blank = false
  mark : blank ∉ ['.', '0', 'x', 'X', 'b', 'B', '+', '-', '"', '\'', '\\']
  exponent : blank.toLower ≠ 'p' ∧ blank.toLower ≠ 'e'

theorem IsApart.ofBlank (dialect : Dialect) {blank : Char} (isBlank : blank ∈ cWhiteSpace) :
    IsApart dialect blank := by
  simp only [cWhiteSpace, List.mem_cons, List.not_mem_nil, or_false] at isBlank
  rcases isBlank with rfl | rfl | rfl | rfl | rfl | rfl <;>
    exact ⟨by decide, by decide, by decide, by decide, by decide, rfl, by decide, by decide⟩

namespace NumberText

variable {dialect : Dialect} {blank : Char} {tail input : List Char} {count : Nat}
  {forms : NumberForms} {radix : Nat} (apart : IsApart dialect blank)
include apart

theorem isDigitOf_blank (radix : Nat) : isDigitOf radix blank = false := by
  unfold isDigitOf
  split
  · exact apart.hexDigit
  · split
    · exact apart.binaryDigit
    · exact apart.digit

/-- No radix is announced where white space is among the first three characters. -/
theorem announcedRadix_blank (before : List Char) (few : before.length ≤ 2) :
    announcedRadix forms (before ++ blank :: tail) = (10, 0) := by
  have notMark := apart.mark
  simp only [List.mem_cons, List.not_mem_nil, or_false, not_or] at notMark
  match before with
  | [] => simp [announcedRadix, notMark]
  | [first] =>
    cases tail with
    | nil => simp [announcedRadix]
    | cons third rest =>
      unfold announcedRadix
      split
      · rename_i same
        simp only [List.cons_append, List.nil_append, List.cons.injEq] at same
        obtain ⟨_, rfl, _⟩ := same
        simp [notMark]
      · rfl
  | [first, second] =>
    unfold announcedRadix
    split
    · rename_i same
      simp only [List.cons_append, List.nil_append, List.cons.injEq] at same
      obtain ⟨_, _, rfl, _⟩ := same
      simp [notMark, apart.hexDigit, apart.binaryDigit]
    · rfl
  | _ :: _ :: _ :: _ => simp at few

theorem announcedRadix_cutAt (inCount : (announcedRadix forms input).2 = 2 → 3 ≤ count) :
    announcedRadix forms (cutAt blank tail count input) = announcedRadix forms input := by
  by_cases whole : 3 ≤ count ∧ 3 ≤ input.length
  · obtain ⟨enough, long⟩ := whole
    obtain ⟨fewer, rfl⟩ : ∃ fewer, count = fewer + 3 := ⟨count - 3, by omega⟩
    match input with
    | first :: second :: third :: rest =>
      by_cases zero : first = '0'
      · subst zero
        rfl
      · simp [cutAt_cons, announcedRadix, zero]
    | [] | [_] | [_, _] => simp at long
  · have few : (input.take count).length ≤ 2 := by
      rw [List.length_take]
      omega
    rw [cutAt, announcedRadix_blank apart _ few]
    rcases Segment.announcedRadix_length forms input with decimal | marked
    · exact decimal.symm
    · have enough := inCount marked
      have short : input.length ≤ 2 := by omega
      have none : announcedRadix forms input = (10, 0) := by
        match input with
        | [] | [_] | [_, _] => simp [announcedRadix]
        | _ :: _ :: _ :: _ => simp at short
      exact none.symm

theorem fractionAt_cutAt
    (short : (pointAndFraction (fractionAt forms radix input)).length ≤ count) :
    fractionAt forms radix (cutAt blank tail count input) = fractionAt forms radix input := by
  have notPoint : blank ≠ '.' := fun same => apart.mark (by simp [same])
  have atBlank : fractionAt forms radix (blank :: tail) = none := by
    simp [fractionAt, notPoint]
  cases input with
  | nil =>
    rw [cutAt_nil, atBlank]
    rfl
  | cons first rest =>
    cases count with
    | zero =>
      rw [cutAt_zero, atBlank]
      cases found : fractionAt forms radix (first :: rest) with
      | none => rfl
      | some digits => simp [found, pointAndFraction] at short
    | succ fewer =>
      rw [cutAt_cons]
      by_cases point : first = '.'
      · subst point
        by_cases hasFraction : (radix ≠ 2 && forms.fraction) = true
        · simp only [fractionAt, hasFraction, if_true, pointAndFraction, List.length_cons,
            Nat.add_le_add_iff_right] at short ⊢
          rw [takeWhile_cutAt (isDigitOf_blank apart radix) short]
        · simp only [fractionAt, hasFraction, Bool.false_eq_true, if_false]
      · simp [fractionAt, point]

theorem signedDigits_cutAt
    (short : ∀ digits, signedDigits input = some digits → digits.length ≤ count) :
    signedDigits (cutAt blank tail count input) = signedDigits input := by
  have notSign : blank ≠ '+' ∧ blank ≠ '-' :=
    ⟨fun same => apart.mark (by simp [same]), fun same => apart.mark (by simp [same])⟩
  have atBlank : signedDigits (blank :: tail) = none := by
    simp [signedDigits, apart.digit, notSign]
  cases input with
  | nil => rw [cutAt_nil, atBlank, signedDigits]
  | cons first rest =>
    cases count with
    | zero =>
      rw [cutAt_zero, atBlank]
      cases found : signedDigits (first :: rest) with
      | none => rfl
      | some digits =>
        have empty : digits = [] := List.length_eq_zero_iff.mp (Nat.le_zero.mp (short digits found))
        subst empty
        simp only [signedDigits] at found
        split at found
        -- Digits that reach no further than where the text is cut are none at all.
        · cases found
        · split at found
          · split at found <;> cases found
          · cases found
    | succ fewer =>
      rw [cutAt_cons]
      by_cases isDigit : first.isDigit = true
      · simp only [signedDigits, isDigit, if_true, Option.some.injEq, forall_eq', List.length_cons,
          Nat.add_le_add_iff_right] at short ⊢
        rw [takeWhile_cutAt apart.digit short]
      · by_cases isSign : (first == '+' || first == '-') = true
        · have run : (rest.takeWhile Char.isDigit).length ≤ fewer := by
            cases digits : rest.takeWhile Char.isDigit with
            | nil => simp
            | cons digit more =>
              have bound := short (first :: digit :: more) (by
                simp [signedDigits, isDigit, isSign, digits])
              simpa using bound
          simp only [signedDigits, isDigit, isSign, takeWhile_cutAt apart.digit run]
        · simp only [signedDigits, isDigit, isSign, Bool.false_eq_true, if_false]

theorem exponentAt_cutAt
    (short : (letterAndExponent (exponentAt forms radix input)).length ≤ count) :
    exponentAt forms radix (cutAt blank tail count input) = exponentAt forms radix input := by
  have notLetter : (blank.toLower == (if radix = 16 then 'p' else 'e')) = false := by
    split
    · simpa using apart.exponent.1
    · simpa using apart.exponent.2
  have atBlank : exponentAt forms radix (blank :: tail) = none := by
    simp [exponentAt, notLetter]
  cases input with
  | nil => rw [cutAt_nil, atBlank, exponentAt]
  | cons letter rest =>
    cases count with
    | zero =>
      rw [cutAt_zero, atBlank]
      cases found : exponentAt forms radix (letter :: rest) with
      | none => rfl
      | some exponent => simp [found, letterAndExponent] at short
    | succ fewer =>
      rw [cutAt_cons]
      by_cases isExponent : (radix ≠ 2 && forms.exponent &&
          letter.toLower == (if radix = 16 then 'p' else 'e')) = true
      · have digitsShort : ∀ digits, signedDigits rest = some digits → digits.length ≤ fewer := by
          intro digits found
          simp only [exponentAt, isExponent, if_true, found, Option.map_some, letterAndExponent,
            List.length_cons, Nat.add_le_add_iff_right] at short
          exact short
        simp only [exponentAt, isExponent, if_true, signedDigits_cutAt apart digitsShort]
      · simp only [exponentAt, isExponent, Bool.false_eq_true, if_false]

end NumberText

namespace NumberText

variable {dialect : Dialect} {blank : Char} {tail input : List Char} {count : Nat}

/-- Behind the mark of a radix there is a digit or a point. -/
theorem marked_length
    (marked : (announcedRadix (cLanguage dialect).numbers input).2 = 2) :
    3 ≤ (read (cLanguage dialect) input).characters.length := by
  unfold announcedRadix at marked
  split at marked
  · rename_i mark digit rest
    split at marked
    · rename_i isHexadecimal
      have announced : announcedRadix (cLanguage dialect).numbers ('0' :: mark :: digit :: rest) =
          (16, 2) := if_pos isHexadecimal
      simp only [Bool.and_eq_true, Bool.or_eq_true, beq_iff_eq] at isHexadecimal
      by_cases isDigit : isHexDigit digit = true
      · have inRadix : isDigitOf 16 digit = true := isDigit
        simp only [characters, body, read, announced, List.drop_succ_cons, List.drop_zero,
          List.takeWhile_cons_of_pos inRadix, List.length_append, List.length_cons,
          List.take_succ_cons]
        omega
      -- Without a digit it is the point of a hexadecimal constant.
      · obtain ⟨rfl, hasFraction⟩ := isHexadecimal.2.resolve_left isDigit
        have notDigit : isDigitOf 16 '.' = false := by decide
        have fraction : fractionAt (cLanguage dialect).numbers 16 ('.' :: rest) =
            some (rest.takeWhile (isDigitOf 16)) := by
          simp [fractionAt, hasFraction]
        simp only [characters, body, read, announced, List.drop_succ_cons, List.drop_zero,
          List.takeWhile_cons_of_neg (by simp [notDigit] : ¬ isDigitOf 16 '.' = true),
          List.length_nil, fraction, pointAndFraction, List.length_append, List.length_cons,
          List.take_succ_cons]
        omega
    · rename_i notHexadecimal
      split at marked
      · rename_i isBinary
        have announced : announcedRadix (cLanguage dialect).numbers ('0' :: mark :: digit :: rest) =
            (2, 2) := (if_neg notHexadecimal).trans (if_pos isBinary)
        have inRadix : isDigitOf 2 digit = true := ((Bool.and_eq_true _ _).mp isBinary).2
        simp only [characters, body, read, announced, List.drop_succ_cons, List.drop_zero,
          List.takeWhile_cons_of_pos inRadix, List.length_append, List.length_cons,
          List.take_succ_cons]
        omega
      · cases marked
  · cases marked

/-- A number is read as before where white space stands behind it. -/
theorem read_cutAt (apart : IsApart dialect blank)
    (inCount : (read (cLanguage dialect) input).characters.length ≤ count) :
    read (cLanguage dialect) (cutAt blank tail count input) = read (cLanguage dialect) input := by
  have radixSame : announcedRadix (cLanguage dialect).numbers (cutAt blank tail count input) =
      announcedRadix (cLanguage dialect).numbers input :=
    announcedRadix_cutAt apart fun marked => Nat.le_trans (marked_length marked) inCount
  have markBound : (announcedRadix (cLanguage dialect).numbers input).2 ≤ input.length := by
    unfold announcedRadix
    split
    · split
      · simp
      · split <;> simp
    · simp
  simp only [characters, body, read, List.length_append, List.length_take_of_le markBound]
    at inCount
  simp only [read, radixSame]
  generalize announcedRadix (cLanguage dialect).numbers input = announced at *
  obtain ⟨radix, markLength⟩ := announced
  simp only at *
  have markTaken : (cutAt blank tail count input).take markLength = input.take markLength := by
    rw [cutAt, List.take_append_of_le_length (by rw [List.length_take]; omega), List.take_take,
      Nat.min_eq_left (by omega)]
  rw [markTaken, drop_cutAt (by omega) markBound]
  generalize input.drop markLength = afterMark at *
  -- Each part is as before, and with it the place where the next one begins.
  rw [takeWhile_cutAt (isDigitOf_blank apart radix) (by omega)]
  have wholeBound := (List.takeWhile_prefix (isDigitOf radix) (l := afterMark)).length_le
  rw [drop_cutAt (by omega) wholeBound]
  generalize afterMark.drop (afterMark.takeWhile (isDigitOf radix)).length = afterWhole at *
  rw [fractionAt_cutAt apart (by omega)]
  have fractionBound : (pointAndFraction
      (fractionAt (cLanguage dialect).numbers radix afterWhole)).length ≤ afterWhole.length :=
    fraction_starts.1.length_le
  rw [drop_cutAt (by omega) fractionBound]
  generalize afterWhole.drop
    (pointAndFraction (fractionAt (cLanguage dialect).numbers radix afterWhole)).length =
      afterFraction at *
  rw [exponentAt_cutAt apart (by omega)]
  have exponentBound : (letterAndExponent
      (exponentAt (cLanguage dialect).numbers radix afterFraction)).length ≤ afterFraction.length :=
    exponent_starts.1.length_le
  rw [drop_cutAt (by omega) exponentBound]
  generalize afterFraction.drop
    (letterAndExponent (exponentAt (cLanguage dialect).numbers radix afterFraction)).length =
      afterExponent at *
  rw [takeWhile_cutAt apart.suffixLetter (by omega)]
  have lettersBound := (List.takeWhile_prefix isSuffixLetter (l := afterExponent)).length_le
  rw [drop_cutAt (by omega) lettersBound, takeWhile_cutAt apart.inWord (by omega)]

end NumberText

/-! ## Literals in quotes -/

/-- A way to take characters that stops at white space, wherever that stands. -/
structure IsRun (run : List Char → List Char) : Prop where
  isPrefix : ∀ input, run input <+: input
  cut : ∀ {dialect : Dialect} {blank : Char} {tail input : List Char} {count : Nat},
    IsApart dialect blank → (run input).length ≤ count →
      run (cutAt blank tail count input) = run input

namespace IsRun

theorem nothing : IsRun fun _ => [] :=
  ⟨fun _ => List.nil_prefix, fun _ _ => rfl⟩

theorem hexDigits : IsRun fun input => input.takeWhile isHexDigit :=
  ⟨fun _ => List.takeWhile_prefix _, fun apart short => takeWhile_cutAt apart.hexDigit short⟩

theorem fewHexDigits (wanted : Nat) : IsRun fun input => (input.take wanted).takeWhile isHexDigit :=
  ⟨fun _ => (List.takeWhile_prefix _).trans (List.take_prefix _ _),
    fun apart short => takeWhile_take_cutAt apart.hexDigit wanted short⟩

theorem fewOctalDigits (wanted : Nat) :
    IsRun fun input => (input.take wanted).takeWhile isOctalDigit :=
  ⟨fun _ => (List.takeWhile_prefix _).trans (List.take_prefix _ _),
    fun apart short => takeWhile_take_cutAt apart.octalDigit wanted short⟩

end IsRun

namespace EscapeReading

variable {dialect : Dialect} {blank : Char} {tail input : List Char} {count : Nat}

/-- A universal name knows of the text only its digits. -/
theorem universal_run (encoding : Encoding) (wanted : Nat) (rest : List Char) :
    universal encoding wanted ((rest.take wanted).takeWhile isHexDigit) =
      universal encoding wanted rest := by
  have few : ((rest.take wanted).takeWhile isHexDigit).length ≤ wanted :=
    Nat.le_trans (List.takeWhile_prefix _).length_le (List.length_take_le _ _)
  have whole : ((rest.take wanted).takeWhile isHexDigit).takeWhile isHexDigit =
      (rest.take wanted).takeWhile isHexDigit :=
    List.takeWhile_eq_self_iff.mpr (List.all_eq_true.mp List.all_takeWhile)
  rw [universal, universal, List.take_of_length_le few, whole]

theorem exists_run_universal (encoding : Encoding) (wanted : Nat) :
    ∃ (run : List Char → List Char) (make : List Char → EscapeReading), IsRun run ∧
      ∀ rest, universal encoding wanted rest = make (run rest) ∧
        (make (run rest)).length = 1 + (run rest).length :=
  ⟨_, universal encoding wanted, .fewHexDigits wanted, fun rest =>
    ⟨(universal_run encoding wanted rest).symm, by rw [universal_run, length_universal]⟩⟩

/-- An escape sequence is its first character and a run of digits that depends on it. -/
theorem read_run (encoding : Encoding) {first : Char} (notEnd : isLineEnd first = false) :
    ∃ (run : List Char → List Char) (make : List Char → EscapeReading), IsRun run ∧
      ∀ rest, read encoding (first :: rest) = make (run rest) ∧
        (make (run rest)).length = 1 + (run rest).length := by
  cases simple : simple? first with
  | some unit =>
    refine ⟨_, fun _ => ⟨1, [unit], none⟩, .nothing, fun rest => ⟨?_, rfl⟩⟩
    simp [read, notEnd, simple]
  | none =>
    by_cases isHex : (first == 'x') = true
    · refine ⟨_, fun digits => if digits.isEmpty then ⟨1, [], some .hexEscapeWithoutDigits⟩
        else numeric encoding (1 + digits.length) (numeral 16 digits) .hexEscapeOutOfRange,
        .hexDigits, fun rest => ⟨?_, ?_⟩⟩
      · simp only [read, notEnd, simple, isHex, Bool.false_eq_true, if_true, if_false]
      · simp only
        split
        · simp_all
        · exact length_numeric _ _ _
    · by_cases isOctal : isOctalDigit first = true
      · refine ⟨_, fun digits => numeric encoding (first :: digits).length
          (numeral 8 (first :: digits)) .octalEscapeOutOfRange, .fewOctalDigits 2,
          fun rest => ⟨?_, ?_⟩⟩
        · simp only [read, notEnd, simple, isHex, isOctal, Bool.false_eq_true, if_true, if_false]
        · rw [length_numeric, List.length_cons, Nat.add_comm]
      · by_cases isShort : (first == 'u') = true
        · simpa only [read, notEnd, simple, isHex, isOctal, isShort, Bool.false_eq_true, if_true,
            if_false] using exists_run_universal encoding 4
        · by_cases isLong : (first == 'U') = true
          · simpa only [read, notEnd, simple, isHex, isOctal, isShort, isLong, Bool.false_eq_true,
              if_true, if_false] using exists_run_universal encoding 8
          · refine ⟨_, fun _ => ⟨1, encoding.units first, some (.unknownEscape first)⟩, .nothing,
              fun rest => ⟨?_, rfl⟩⟩
            simp only [read, notEnd, simple, isHex, isOctal, isShort, isLong, Bool.false_eq_true,
              if_false]

theorem read_eq_empty (encoding : Encoding)
    (ends : ∀ next, input.head? = some next → isLineEnd next = true) :
    read encoding input = ⟨0, [], none⟩ := by
  cases input with
  | nil => rfl
  | cons first rest => simp [read, ends first rfl]

theorem length_le (encoding : Encoding) (input : List Char) :
    (read encoding input).length ≤ input.length := by
  cases input with
  | nil => exact Nat.le_refl _
  | cons first rest =>
    cases notEnd : isLineEnd first with
    | true => simp [read, notEnd]
    | false =>
      obtain ⟨run, make, isRun, isRead⟩ := read_run encoding notEnd
      obtain ⟨same, length⟩ := isRead rest
      have bound := (isRun.isPrefix rest).length_le
      rw [same, length, List.length_cons]
      omega

/-- There is nothing to read only in front of a line end, or at the end of the text. -/
theorem ends_of_length (encoding : Encoding) (empty : (read encoding input).length = 0) :
    ∀ next, input.head? = some next → isLineEnd next = true := by
  intro next isNext
  obtain ⟨rest, rfl⟩ := List.head?_eq_some_iff.mp isNext
  cases notEnd : isLineEnd next with
  | true => rfl
  | false =>
    obtain ⟨run, make, _, isRead⟩ := read_run encoding notEnd
    obtain ⟨same, length⟩ := isRead rest
    rw [same, length] at empty
    omega

theorem read_cutAt (encoding : Encoding) (apart : IsApart dialect blank)
    (inCount : (read encoding input).length ≤ count)
    (further : isLineEnd blank = true ∨ 0 < (read encoding input).length) :
    read encoding (cutAt blank tail count input) = read encoding input := by
  -- An empty sequence is an escape at the end of its line, and white space has to end the line to
  -- leave it empty.
  by_cases empty : (read encoding input).length = 0
  · have ends := ends_of_length encoding empty
    have blankEnds := further.resolve_right (by omega)
    rw [read_eq_empty encoding ends]
    refine read_eq_empty encoding fun next isNext => ?_
    simp only [cutAt, List.head?_append, List.head?_cons, List.head?_take] at isNext
    split at isNext
    · exact Option.some.inj isNext ▸ blankEnds
    · cases isHead : input.head? with
      | none =>
        rw [isHead] at isNext
        exact Option.some.inj isNext ▸ blankEnds
      | some first =>
        rw [isHead] at isNext
        exact Option.some.inj isNext ▸ ends first isHead
  · cases input with
    | nil => exact absurd rfl empty
    | cons first rest =>
      obtain ⟨fewer, rfl⟩ : ∃ fewer, count = fewer + 1 := ⟨count - 1, by omega⟩
      rw [cutAt_cons]
      cases notEnd : isLineEnd first with
      | true => simp [read, notEnd]
      | false =>
        obtain ⟨run, make, isRun, isRead⟩ := read_run encoding notEnd
        obtain ⟨same, length⟩ := isRead rest
        rw [same, length] at inCount
        rw [same, (isRead _).1, isRun.cut apart (by omega)]

end EscapeReading

namespace QuotedReading

variable {dialect : Dialect} {blank : Char} {tail input : List Char} {count : Nat}
  {encoding : Encoding} {quote escape : Char}

theorem read_stops (quoteInLine : isLineEnd quote = false) (index : Nat)
    (ends : ∀ next, input.head? = some next → isLineEnd next = true) :
    read encoding quote escape index input = ⟨0, [], false, []⟩ := by
  cases input with
  | nil => rw [read]
  | cons first rest =>
    have isEnd := ends first rfl
    have notQuote : (first == quote) = false := by
      rw [beq_eq_false_iff_ne]
      rintro rfl
      rw [isEnd] at quoteInLine
      cases quoteInLine
    rw [read]
    simp [notQuote, isEnd]

/-- A literal is read as before where white space stands behind it, if it is closed or that white
space ends its line. -/
theorem read_cutAt (apart : IsApart dialect blank) (quoteInLine : isLineEnd quote = false)
    (index : Nat) (inCount : (read encoding quote escape index input).length ≤ count)
    (further : isLineEnd blank = true ∨ (read encoding quote escape index input).terminated = true) :
    read encoding quote escape index (cutAt blank tail count input) =
      read encoding quote escape index input := by
  have atEnd (index : Nat) (blankEnds : isLineEnd blank = true) :
      read encoding quote escape index (blank :: tail) = ⟨0, [], false, []⟩ := by
    refine read_stops quoteInLine index ?_
    rintro _ ⟨⟩
    exact blankEnds
  fun_induction read encoding quote escape index input generalizing count with
  | case1 index =>
    rw [cutAt_nil]
    exact atEnd index (further.resolve_right (by simp))
  | case2 index first rest isQuote =>
    obtain ⟨fewer, rfl⟩ : ∃ fewer, count = fewer + 1 := ⟨count - 1, by simp at inCount; omega⟩
    rw [cutAt_cons, read]
    simp only [isQuote, if_true]
  | case3 index first rest notFirst isEnd =>
    cases count with
    | zero =>
      rw [cutAt_zero]
      exact atEnd index (further.resolve_right (by simp))
    | succ fewer =>
      rw [cutAt_cons]
      refine read_stops quoteInLine index ?_
      rintro _ ⟨⟩
      exact isEnd
  | case4 index first rest notFirst notEnd isEscape sequence more =>
    rename_i ih
    simp only at inCount further
    obtain ⟨fewer, rfl⟩ : ∃ fewer, count = fewer + 1 := ⟨count - 1, by omega⟩
    -- An escape without anything behind it leaves the literal open.
    have sequenceFurther : isLineEnd blank = true ∨ 0 < sequence.length := by
      refine further.imp_right fun isClosed => Nat.pos_of_ne_zero fun empty => ?_
      have ends := EscapeReading.ends_of_length encoding empty
      have isOpen : more = ⟨0, [], false, []⟩ := by
        simp only [more, empty, List.drop_zero]
        exact read_stops quoteInLine _ ends
      rw [isOpen] at isClosed
      cases isClosed
    have sequenceSame : EscapeReading.read encoding (cutAt blank tail fewer rest) = sequence :=
      EscapeReading.read_cutAt encoding apart (show sequence.length ≤ fewer by omega)
        sequenceFurther
    have dropped : (cutAt blank tail fewer rest).drop sequence.length =
        cutAt blank tail (fewer - sequence.length) (rest.drop sequence.length) :=
      drop_cutAt (by omega) (EscapeReading.length_le encoding rest)
    rw [cutAt_cons, read]
    simp only [notFirst, notEnd, isEscape, Bool.false_eq_true, if_true, if_false, sequenceSame,
      dropped, ih (show more.length ≤ fewer - sequence.length by omega) further, more]
  | case5 index first rest notFirst notEnd notEscape more =>
    rename_i ih
    simp only at inCount further
    obtain ⟨fewer, rfl⟩ : ∃ fewer, count = fewer + 1 := ⟨count - 1, by omega⟩
    rw [cutAt_cons, read]
    simp only [notFirst, notEnd, notEscape, Bool.false_eq_true, if_false,
      ih (show more.length ≤ fewer by omega) further, more]

end QuotedReading

end CFrontEnd
