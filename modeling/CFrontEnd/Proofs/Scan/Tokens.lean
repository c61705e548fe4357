import CFrontEnd.Proofs.Scan.Pieces

/-!
The texts of tokens: each is the beginning of the text ahead, and lies within one line.
-/

namespace CFrontEnd

theorem inLine_cons {character : Char} {text : List Char} :
    InLine (character :: text) ↔ isLineEnd character = false ∧ InLine text := by
  simp [InLine]

theorem inLine_append {front back : List Char} :
    InLine (front ++ back) ↔ InLine front ∧ InLine back :=
  List.forall_mem_append

/-- The text is the beginning of `input`, and no line ends within it. -/
def StartsInLine (text input : List Char) : Prop := text <+: input ∧ InLine text

namespace StartsInLine

variable {first second text input : List Char} {character : Char}

theorem nil (input : List Char) : StartsInLine [] input := ⟨List.nil_prefix, by simp [InLine]⟩

theorem cons (inLine : isLineEnd character = false) (starts : StartsInLine text input) :
    StartsInLine (character :: text) (character :: input) :=
  ⟨List.cons_prefix_cons.mpr ⟨rfl, starts.1⟩, inLine_cons.mpr ⟨inLine, starts.2⟩⟩

theorem append (isFirst : StartsInLine first input)
    (isSecond : StartsInLine second (input.drop first.length)) :
    StartsInLine (first ++ second) input := by
  obtain ⟨⟨rest, rfl⟩, firstInLine⟩ := isFirst
  rw [List.drop_left] at isSecond
  refine ⟨(List.prefix_append_right_inj first).mpr isSecond.1, ?_⟩
  intro character inBoth
  rcases List.mem_append.mp inBoth with inOne | inOne
  · exact firstInLine character inOne
  · exact isSecond.2 character inOne

theorem append_drop {count : Nat} (isFirst : StartsInLine (input.take count) input)
    (isSecond : StartsInLine second (input.drop count)) :
    StartsInLine (input.take count ++ second) input := by
  refine isFirst.append ?_
  by_cases inside : count ≤ input.length
  · rwa [List.length_take_of_le inside]
  · rw [List.drop_eq_nil_of_le (by omega)] at isSecond
    rw [List.take_of_length_le (by omega), List.drop_length]
    exact isSecond

theorem take_cons {count : Nat} (inLine : isLineEnd character = false)
    (starts : StartsInLine (input.take count) input) :
    StartsInLine ((character :: input).take (1 + count)) (character :: input) := by
  rw [Nat.add_comm, List.take_succ_cons]
  exact .cons inLine starts

theorem take_add {count more : Nat} (isFirst : StartsInLine (input.take count) input)
    (isSecond : StartsInLine ((input.drop count).take more) (input.drop count)) :
    StartsInLine (input.take (count + more)) input := by
  rw [List.take_add]
  exact isFirst.append_drop isSecond

theorem takeWhile {holds : Char → Bool} (notLineFeed : holds '\n' = false)
    (notReturn : holds '\r' = false) (input : List Char) :
    StartsInLine (input.takeWhile holds) input := by
  refine ⟨List.takeWhile_prefix _, ?_⟩
  intro character inText
  have inClass := List.all_eq_true.mp List.all_takeWhile character inText
  cases ends : isLineEnd character with
  | false => rfl
  | true =>
    simp only [isLineEnd, Bool.or_eq_true, beq_iff_eq] at ends
    rcases ends with rfl | rfl
    · rw [notLineFeed] at inClass
      cases inClass
    · rw [notReturn] at inClass
      cases inClass

theorem take_length (starts : StartsInLine text input) : input.take text.length = text :=
  (List.prefix_iff_eq_take.mp starts.1).symm

end StartsInLine

/-! ## Numbers -/

namespace NumberText

variable {language : Language} {forms : NumberForms} {radix : Nat} {input : List Char}

theorem mark_starts :
    StartsInLine (input.take (announcedRadix forms input).2) input := by
  unfold announcedRadix
  split
  · rename_i mark digit rest
    split
    · rename_i isHexadecimal
      simp only [Bool.and_eq_true, Bool.or_eq_true, beq_iff_eq] at isHexadecimal
      rcases isHexadecimal.1.1 with rfl | rfl <;>
        exact .cons (by decide) (.cons (by decide) (.nil _))
    · split
      · rename_i isBinary
        simp only [Bool.and_eq_true, Bool.or_eq_true, beq_iff_eq] at isBinary
        rcases isBinary.1.1 with rfl | rfl <;>
          exact .cons (by decide) (.cons (by decide) (.nil _))
      · exact .nil _
  · exact .nil _

theorem digits_start (input : List Char) :
    StartsInLine (input.takeWhile (isDigitOf radix)) input := by
  refine .takeWhile ?_ ?_ input <;>
  · unfold isDigitOf
    split
    · decide
    · split <;> decide

theorem fraction_starts : StartsInLine (pointAndFraction (fractionAt forms radix input)) input := by
  unfold fractionAt
  split
  · split
    · exact .cons (by decide) (digits_start _)
    · exact .nil _
  · exact .nil _

theorem signedDigits_starts {digits : List Char} (found : signedDigits input = some digits) :
    StartsInLine digits input := by
  have run (rest : List Char) : StartsInLine (rest.takeWhile Char.isDigit) rest :=
    .takeWhile (by decide) (by decide) rest
  cases input with
  | nil => cases found
  | cons first rest =>
    simp only [signedDigits] at found
    split at found
    · rename_i isDigit
      rw [← Option.some.inj found]
      have whole := run (first :: rest)
      rwa [List.takeWhile_cons_of_pos isDigit] at whole
    · split at found
      · rename_i isSign
        split at found
        · cases found
        · rw [← Option.some.inj found]
          refine .cons ?_ (run rest)
          simp only [Bool.or_eq_true, beq_iff_eq] at isSign
          rcases isSign with rfl | rfl <;> decide
      · cases found

theorem exponent_starts : StartsInLine (letterAndExponent (exponentAt forms radix input)) input := by
  cases input with
  | nil => exact .nil _
  | cons letter rest =>
    by_cases isExponent : (radix ≠ 2 && forms.exponent &&
        letter.toLower == (if radix = 16 then 'p' else 'e')) = true
    · cases found : signedDigits rest with
      | none =>
        simp only [exponentAt, isExponent, if_true, found]
        exact .nil _
      | some digits =>
        simp only [exponentAt, isExponent, if_true, found]
        refine .cons ?_ (signedDigits_starts found)
        cases ends : isLineEnd letter with
        | false => rfl
        | true =>
          simp only [isLineEnd, Bool.or_eq_true, beq_iff_eq] at ends
          rcases ends with rfl | rfl <;> by_cases radix = 16 <;> simp_all
    · simp only [exponentAt, isExponent]
      exact .nil _

theorem characters_start (notLineFeed : language.classes.continuesIdentifier '\n' = false)
    (notReturn : language.classes.continuesIdentifier '\r' = false) (input : List Char) :
    StartsInLine (read language input).characters input := by
  have suffix (input : List Char) : StartsInLine
      (input.takeWhile isSuffixLetter ++
        (input.drop (input.takeWhile isSuffixLetter).length).takeWhile
          language.classes.continuesIdentifier) input :=
    .append (.takeWhile (by decide) (by decide) input) (.takeWhile notLineFeed notReturn _)
  simp only [characters, body, read, List.append_assoc]
  refine mark_starts.append_drop ?_
  refine (digits_start _).append (fraction_starts.append (exponent_starts.append ?_))
  exact suffix _

end NumberText

/-! ## Literals in quotes -/

namespace EscapeReading

variable {encoding : Encoding} {first : Char} {rest : List Char}

@[simp] theorem length_numeric (length value : Nat) (tooLarge : LexicalProblem) :
    (numeric encoding length value tooLarge).length = length := by
  unfold numeric
  split <;> rfl

/-- As many digits are read as there are, up to the number wanted. -/
theorem length_universal (wanted : Nat) (rest : List Char) :
    (universal encoding wanted rest).length =
      1 + ((rest.take wanted).takeWhile isHexDigit).length := by
  have atMost : ((rest.take wanted).takeWhile isHexDigit).length ≤ wanted :=
    Nat.le_trans (List.takeWhile_prefix _).length_le (List.length_take_le _ _)
  simp only [universal]
  split
  · rfl
  · split <;> simp only <;> omega

theorem run_starts (holds : Char → Bool) (notLineFeed : holds '\n' = false)
    (notReturn : holds '\r' = false) (wanted : Nat) (rest : List Char) :
    StartsInLine (rest.take ((rest.take wanted).takeWhile holds).length) rest := by
  have run := StartsInLine.takeWhile notLineFeed notReturn (rest.take wanted)
  have whole : StartsInLine ((rest.take wanted).takeWhile holds) rest :=
    ⟨run.1.trans (List.take_prefix _ _), run.2⟩
  rwa [whole.take_length]

/-- An escape sequence stays within its line. -/
theorem read_starts (encoding : Encoding) (input : List Char) :
    StartsInLine (input.take (read encoding input).length) input := by
  cases input with
  | nil => exact .nil _
  | cons first rest =>
    cases ends : isLineEnd first with
    | true =>
      simp only [read, ends, if_true]
      exact .nil _
    | false =>
      -- Each kind of escape is its first character, with or without a run of digits behind it.
      have single : StartsInLine ((first :: rest).take 1) (first :: rest) := .cons ends (.nil _)
      have universal (wanted : Nat) :
          StartsInLine ((first :: rest).take (EscapeReading.universal encoding wanted rest).length)
            (first :: rest) := by
        rw [length_universal]
        exact .take_cons ends (run_starts isHexDigit (by decide) (by decide) wanted rest)
      simp only [read, ends, Bool.false_eq_true, if_false]
      split
      · exact single
      · split
        · split
          · exact single
          · rw [length_numeric]
            have run := run_starts isHexDigit (by decide) (by decide) rest.length rest
            rw [List.take_length] at run
            exact .take_cons ends run
        · split
          · rw [length_numeric, List.length_cons, Nat.add_comm]
            exact .take_cons ends (run_starts isOctalDigit (by decide) (by decide) 2 rest)
          · split
            · exact universal 4
            · split
              · exact universal 8
              · exact single

end EscapeReading

/-- A literal in quotes stays within its line. -/
theorem QuotedReading.read_starts (encoding : Encoding) {quote escape : Char}
    (quoteInLine : isLineEnd quote = false) (index : Nat) (input : List Char) :
    StartsInLine (input.take (read encoding quote escape index input).length) input := by
  fun_induction read encoding quote escape index input with
  | case1 => exact .nil _
  | case2 index first rest isQuote =>
    rw [beq_iff_eq] at isQuote
    exact .cons (isQuote ▸ quoteInLine) (.nil _)
  | case3 => exact .nil _
  | case4 index first rest _ notEnd _ sequence more ih =>
    rw [Nat.add_assoc]
    exact .take_cons (by simpa using notEnd)
      ((EscapeReading.read_starts encoding rest).take_add ih)
  | case5 index first rest _ notEnd _ more ih => exact .take_cons (by simpa using notEnd) ih

/-! ## Problems -/

/-- The problems that are found outside of tokens. -/
def LexicalProblem.concernsLayout : LexicalProblem → Bool
  | .unterminatedComment | .stray _ => true
  | _ => false

/-- What can be wrong with a number, with what the problem repeats of it. -/
inductive NumberText.Lacks (number : NumberText) : LexicalProblem → Prop
  | integerSuffix : Lacks number (.invalidIntegerSuffix (String.ofList number.suffix))
  | floatSuffix : Lacks number (.invalidFloatSuffix (String.ofList number.suffix))
  | exponent : Lacks number .hexFloatWithoutExponent
  | form : Lacks number (.malformedFloat (String.ofList number.body))
  | octalDigit {digit : Char} (inWhole : digit ∈ number.whole) : Lacks number (.invalidOctalDigit digit)
  | size : Lacks number .integerTooLarge

namespace NumberText

variable {forms : NumberForms} {number : NumberText} {problem : LexicalProblem}

theorem lacks_of_boundedNumeral {radix : Nat} {digits : List Char}
    (inList : problem ∈ (boundedNumeral radix digits).2) : number.Lacks problem := by
  simp only [boundedNumeral] at inList
  split at inList
  · rw [List.mem_singleton.mp inList]
    exact .size
  · cases inList

theorem lacks_of_integerValue (inList : problem ∈ (number.integerValue forms).2) :
    number.Lacks problem := by
  unfold integerValue at inList
  split at inList
  · rename_i isWhole _
    split at inList
    · rename_i found
      rw [List.mem_singleton.mp inList]
      exact .octalDigit (isWhole ▸ List.mem_cons_of_mem _ (List.mem_of_find?_eq_some found))
    · exact lacks_of_boundedNumeral inList
  · exact lacks_of_boundedNumeral inList

theorem lacks_of_judge (inList : problem ∈ (number.judge forms).2) : number.Lacks problem := by
  unfold judge at inList
  split at inList
  · rw [List.mem_singleton.mp inList]
    exact .floatSuffix
  · rw [List.mem_singleton.mp inList]
    exact .integerSuffix
  · simp only [judgeFloat, List.mem_map, List.mem_filter] at inList
    obtain ⟨entry, ⟨inEntries, _⟩, rfl⟩ := inList
    simp only [List.mem_cons, List.not_mem_nil, or_false] at inEntries
    rcases inEntries with rfl | rfl | rfl
    · exact .exponent
    · exact .floatSuffix
    · exact .form
  · simp only [judgeInteger] at inList
    split at inList
    · rcases List.mem_cons.mp inList with rfl | inList
      · exact .integerSuffix
      · exact lacks_of_integerValue inList
    · exact lacks_of_integerValue inList

theorem judge_problems (forms : NumberForms) (number : NumberText) :
    ∀ problem ∈ (number.judge forms).2, problem.concernsLayout = false := by
  intro problem inList
  cases lacks_of_judge inList <;> rfl

end NumberText

/-- What can be wrong with an escape sequence. A line end begins none. -/
inductive EscapeReading.Lacks : LexicalProblem → Prop
  | hexDigits : Lacks .hexEscapeWithoutDigits
  | hexRange : Lacks .hexEscapeOutOfRange
  | octalRange : Lacks .octalEscapeOutOfRange
  | universalDigits : Lacks .incompleteUniversalName
  | universalCharacter : Lacks .invalidUniversalCharacter
  | meaning {character : Char} (inLine : isLineEnd character = false) :
      Lacks (.unknownEscape character)

namespace EscapeReading

variable {encoding : Encoding} {problem : LexicalProblem}

theorem lacks_of_numeric {length value : Nat} {tooLarge : LexicalProblem}
    (found : problem ∈ (numeric encoding length value tooLarge).problem) : problem = tooLarge := by
  unfold numeric at found
  split at found
  · exact (Option.some.inj found).symm
  · cases found

theorem lacks_of_universal {wanted : Nat} {rest : List Char}
    (found : problem ∈ (universal encoding wanted rest).problem) : Lacks problem := by
  simp only [universal] at found
  split at found
  · rw [← Option.some.inj found]
    exact .universalDigits
  · split at found
    · cases found
    · rw [← Option.some.inj found]
      exact .universalCharacter

theorem lacks_of_read {input : List Char} (found : problem ∈ (read encoding input).problem) :
    Lacks problem := by
  cases input with
  | nil => cases found
  | cons first rest =>
    simp only [read] at found
    split at found
    · cases found
    · rename_i inLine
      split at found
      · cases found
      · split at found
        · split at found
          · rw [← Option.some.inj found]
            exact .hexDigits
          · rw [lacks_of_numeric found]
            exact .hexRange
        · split at found
          · rw [lacks_of_numeric found]
            exact .octalRange
          · split at found
            · exact lacks_of_universal found
            · split at found
              · exact lacks_of_universal found
              · rw [← Option.some.inj found]
                exact .meaning (by simpa using inLine)

end EscapeReading

namespace QuotedReading

/-- All that is wrong inside a literal is wrong with one of its escape sequences. -/
theorem lacks_of_read {encoding : Encoding} {quote escape : Char} {index : Nat} {input : List Char} :
    ∀ problem ∈ (read encoding quote escape index input).problems, EscapeReading.Lacks problem.2 := by
  fun_induction read encoding quote escape index input with
  | case1 => simp
  | case2 => simp
  | case3 => simp
  | case4 index first rest _ _ _ sequence more ih =>
    intro problem inList
    rcases List.mem_append.mp inList with inSequence | inMore
    · simp only [Option.mem_toList, Option.map_eq_some_iff] at inSequence
      obtain ⟨inner, found, rfl⟩ := inSequence
      exact EscapeReading.lacks_of_read found
    · exact ih problem inMore
  | case5 index first rest _ _ _ more ih => exact ih

theorem read_problems (encoding : Encoding) (quote escape : Char) (index : Nat)
    (input : List Char) :
    ∀ problem ∈ (read encoding quote escape index input).problems,
      problem.2.concernsLayout = false := by
  rintro ⟨_, problem⟩ inList
  cases lacks_of_read _ inList <;> rfl

end QuotedReading

end CFrontEnd
