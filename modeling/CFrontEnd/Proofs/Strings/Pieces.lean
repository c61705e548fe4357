import CFrontEnd.Proofs.Scan.Chains
import CFrontEnd.Proofs.Strings.Units

/-!
The literals that a list of code units is written as. The text of the list is cut at its seams, and
each of the pieces is scanned as one literal with the units of the piece.
-/

namespace CFrontEnd

/-- The units in front of the first seam, and those of the pieces behind it. -/
def cutAtSeams (afterHex : Bool) : List Nat → List Nat × List (List Nat)
  | [] => ([], [])
  | unit :: rest =>
    let spelling := UnitSpelling.ofUnit unit
    let (piece, others) := cutAtSeams spelling.endsInHex rest
    if afterHex && spelling.extendsHex then ([], (unit :: piece) :: others)
    else (unit :: piece, others)

/-- No unit of the piece goes on with a hexadecimal escape in front of it. -/
inductive Seamless : Bool → List Nat → Prop
  | nil (afterHex : Bool) : Seamless afterHex []
  | cons {afterHex : Bool} {unit : Nat} {rest : List Nat}
      (noSeam : (afterHex && (UnitSpelling.ofUnit unit).extendsHex) = false)
      (behind : Seamless (UnitSpelling.ofUnit unit).endsInHex rest) :
      Seamless afterHex (unit :: rest)

theorem flatten_cutAtSeams (afterHex : Bool) (units : List Nat) :
    (cutAtSeams afterHex units).1 ++ (cutAtSeams afterHex units).2.flatten = units := by
  induction units generalizing afterHex with
  | nil => rfl
  | cons unit rest ih =>
    have behind := ih (UnitSpelling.ofUnit unit).endsInHex
    simp only [cutAtSeams]
    split
    · rw [List.nil_append, List.flatten_cons, List.cons_append, behind]
    · rw [List.cons_append, behind]

theorem cutAtSeams_seamless (afterHex : Bool) (units : List Nat) :
    Seamless afterHex (cutAtSeams afterHex units).1 ∧
      ∀ piece ∈ (cutAtSeams afterHex units).2, Seamless false piece := by
  induction units generalizing afterHex with
  | nil => exact ⟨.nil afterHex, fun _ inNone => absurd inNone List.not_mem_nil⟩
  | cons unit rest ih =>
    obtain ⟨isFirst, areOthers⟩ := ih (UnitSpelling.ofUnit unit).endsInHex
    simp only [cutAtSeams]
    split
    · exact ⟨.nil afterHex, List.forall_mem_cons.mpr ⟨.cons rfl isFirst, areOthers⟩⟩
    · rename_i noSeam
      exact ⟨.cons (by simpa using noSeam) isFirst, areOthers⟩

/-! ## Texts -/

/-- What the units of a piece are written as. -/
def unitCharacters (piece : List Nat) : List Char :=
  piece.flatMap fun unit => (UnitSpelling.ofUnit unit).text.toList

/-- One literal with its quotes. -/
def pieceCharacters (encoding : Encoding) (piece : List Nat) : List Char :=
  encoding.spelling.toList ++ '"' :: (unitCharacters piece ++ ['"'])

theorem toList_unitTexts (encoding : Encoding) (afterHex : Bool) (units : List Nat) :
    (String.join (unitTexts encoding afterHex units)).toList ++ ['"'] =
      unitCharacters (cutAtSeams afterHex units).1 ++ '"' ::
        (cutAtSeams afterHex units).2.flatMap fun piece => ' ' :: pieceCharacters encoding piece := by
  induction units generalizing afterHex with
  | nil => rfl
  | cons unit rest ih =>
    have behind := ih (UnitSpelling.ofUnit unit).endsInHex
    have joined (first second : String) (texts : List String) :
        (String.join (first :: second :: texts)).toList =
          first.toList ++ (second.toList ++ (String.join texts).toList) := by
      simp [String.join_cons]
    simp only [unitTexts, cutAtSeams, joined, List.append_assoc, behind]
    split <;> simp [unitCharacters, pieceCharacters]

/-- A list of units is written as its pieces with blanks between them. -/
theorem toList_stringSpelling (units : List Nat) (encoding : Encoding) :
    (stringSpelling units encoding).toList =
      pieceCharacters encoding (cutAtSeams false units).1 ++
        (cutAtSeams false units).2.flatMap fun piece => ' ' :: pieceCharacters encoding piece := by
  have body := toList_unitTexts encoding false units
  have whole : (stringSpelling units encoding).toList = encoding.spelling.toList ++ '"' ::
      ((String.join (unitTexts encoding false units)).toList ++ ['"']) := by
    simp [stringSpelling]
  rw [whole, body]
  simp [pieceCharacters]

/-! ## Scanning -/

/-- A string literal as it is written when no seam is in it. -/
def Word.string (units : List Nat) (encoding : Encoding) : Word :=
  ⟨.literal .string, String.ofList (pieceCharacters encoding units), some (.string units encoding)⟩

variable {dialect : Dialect} {encoding : Encoding} {piece : List Nat}

namespace QuotedReading

theorem read_piece {afterHex : Bool} (seamless : Seamless afterHex piece)
    (fits : ∀ unit ∈ piece, unit ≤ encoding.maxUnit) (index : Nat) (next : List Char) :
    read encoding '"' '\\' index (unitCharacters piece ++ '"' :: next) =
      ⟨(unitCharacters piece).length + 1, piece, true, []⟩ := by
  -- A digit behind a hexadecimal escape would be a seam.
  induction seamless generalizing index with
  | nil =>
    rw [read.eq_def]
    rfl
  | @cons afterHex unit rest noSeam behind ih =>
    obtain ⟨unitFits, restFits⟩ := List.forall_mem_cons.mp fits
    have ends : (UnitSpelling.ofUnit unit).endsInHex = true → ∀ character,
        (unitCharacters rest ++ '"' :: next).head? = some character →
          isHexDigit character = false := by
      intro isHex character isNext
      cases behind with
      | nil =>
        obtain rfl : '"' = character := by simpa [unitCharacters] using isNext
        rfl
      | cons nextSeam _ =>
        rw [isHex, Bool.true_and] at nextSeam
        rw [unitCharacters, List.flatMap_cons, List.append_assoc] at isNext
        exact UnitSpelling.head_text nextSeam isNext
    have read := read_spelling (UnitSpelling.ofUnit_spells unit) unitFits ends index
    rw [unitCharacters, List.flatMap_cons, List.append_assoc, ← unitCharacters, read, ih restFits]
    simp [withUnit, Nat.add_assoc]

end QuotedReading

namespace Segment

theorem quotedAt?_piece (seamless : Seamless false piece)
    (fits : ∀ unit ∈ piece, unit ≤ encoding.maxUnit) (before : Nat) (next : List Char) :
    quotedAt? (cLanguage dialect) encoding before ('"' :: (unitCharacters piece ++ '"' :: next)) =
      some { kind := .token (.literal .string) (some (.string piece encoding)),
             length := before + ((unitCharacters piece).length + 1) + 1 } := by
  have read : QuotedReading.read encoding '"' (cLanguage dialect).marks.escape (before + 1)
      (unitCharacters piece ++ '"' :: next) = _ := QuotedReading.read_piece seamless fits _ next
  have isQuote : (cLanguage dialect).marks.stringQuote = '"' := rfl
  simp [quotedAt?, read, isQuote, QuotedReading.asString]

end Segment

/-- The prefixes are words. -/
theorem Encoding.spelling_word {encoding : Encoding} (prefixed : encoding ≠ .plain) :
    ∃ first tail, encoding.spelling.toList = first :: tail ∧
      (first == '_' || first.isAlpha) = true ∧
      (∀ character ∈ tail, (character == '_' || character.isAlphanum) = true) ∧
      Encoding.ofSpelling? (first :: tail) = some encoding := by
  cases encoding with
  | plain => exact absurd rfl prefixed
  | wide => exact ⟨'L', [], rfl, by decide, by simp, rfl⟩
  | utf8 => exact ⟨'u', ['8'], rfl, by decide, List.forall_mem_singleton.mpr (by decide), rfl⟩
  | utf16 => exact ⟨'u', [], rfl, by decide, by simp, rfl⟩
  | utf32 => exact ⟨'U', [], rfl, by decide, by simp, rfl⟩

/-- What a quote begins, alone or behind a prefix, is the first segment of a text. -/
theorem Segment.exists_first_quoted (dialect : Dialect) (encoding : Encoding) {quote : Char}
    (isQuote : quote = '"' ∨ quote = '\'') :
    ∃ first tail, (∀ body, encoding.spelling.toList ++ quote :: body = first :: (tail ++ body)) ∧
      ∀ body segment, quotedAt? (cLanguage dialect) encoding encoding.spelling.toList.length
          (quote :: body) = some segment →
        ∀ atLineStart, Segment.first (cLanguage dialect) atLineStart first (tail ++ body) = segment := by
  by_cases plain : encoding = .plain
  · subst plain
    refine ⟨quote, [], fun _ => rfl, fun body segment found atLineStart => ?_⟩
    have noNumber : numberAt? (cLanguage dialect) quote body = none := by
      rcases isQuote with rfl | rfl <;>
        exact numberAt?_eq_none rfl fun isPoint => absurd isPoint (by decide)
    have plainFound : quotedAt? (cLanguage dialect) .plain 0 (quote :: body) = some segment := found
    have isToken : tokenAt? (cLanguage dialect) quote body = some segment := by
      simp [tokenAt?, noNumber, plainFound]
    rcases isQuote with rfl | rfl <;>
      exact first_of_tokenAt? atLineStart (by decide) (by decide) (by decide) (by simp) (by simp) isToken
  · obtain ⟨first, tail, letters, starts, continues, asksFor⟩ := Encoding.spelling_word plain
    refine ⟨first, tail ++ [quote], fun body => by simp [letters], fun body segment found => ?_⟩
    intro atLineStart
    have isText : tail ++ [quote] ++ body = tail ++ quote :: body := by simp
    have isStart : (cLanguage dialect).classes.startsIdentifier first = true := starts
    have quoteApart : (quote == '_' || quote.isAlphanum) = false := by
      rcases isQuote with rfl | rfl <;> rfl
    have run : (tail ++ quote :: body).takeWhile (cLanguage dialect).classes.continuesIdentifier =
        tail := by
      change List.takeWhile (fun character => character == '_' || character.isAlphanum) _ = tail
      rw [List.takeWhile_append_of_pos continues, List.takeWhile_cons_of_neg (by simp [quoteApart]),
        List.append_nil]
    have behind : (tail ++ quote :: body).drop ((first :: tail).length - 1) = quote :: body := by
      rw [List.length_cons, Nat.add_sub_cancel, List.drop_left]
    have isLiteral : wordAt? (cLanguage dialect) first (tail ++ quote :: body) = some segment := by
      rw [letters] at found
      simp only [wordAt?, isStart, run, behind, asksFor, if_true, Option.bind_some, found]
      rfl
    rw [isText]
    exact first_of_wordAt? atLineStart starts isLiteral

/-- A literal ends with its quote, whatever comes next. -/
theorem ScansAs.quoted {body next : List Char} {value : Option Literal}
    (found : Segment.quotedAt? (cLanguage dialect) encoding encoding.spelling.toList.length
      ('"' :: (body ++ '"' :: next)) =
        some { kind := .token (.literal .string) value,
               length := encoding.spelling.toList.length + (body.length + 1) + 1 }) :
    ScansAs dialect (encoding.spelling.toList ++ '"' :: (body ++ ['"']))
      [⟨.literal .string, String.ofList (encoding.spelling.toList ++ '"' :: (body ++ ['"'])), value⟩]
      next := by
  obtain ⟨first, tail, opens, isFirst⟩ :=
    Segment.exists_first_quoted dialect encoding (.inl (Eq.refl '"'))
  have whole := opens (body ++ ['"'])
  have isText : tail ++ (body ++ ['"']) ++ next = tail ++ (body ++ '"' :: next) := by simp
  have length := congrArg List.length whole
  rw [whole]
  refine .token (fun atLineStart => isText ▸ isFirst _ _ found atLineStart) ?_ rfl rfl
  rw [← length]
  simp
  omega

theorem ScansAs.string (seamless : Seamless false piece)
    (fits : ∀ unit ∈ piece, unit ≤ encoding.maxUnit) (next : List Char) :
    ScansAs dialect (pieceCharacters encoding piece) [.string piece encoding] next :=
  .quoted (Segment.quotedAt?_piece seamless fits _ next)

theorem ScansAs.strings {others : List (List Nat)} (next : List Char)
    (seamless : ∀ piece ∈ others, Seamless false piece)
    (fits : ∀ piece ∈ others, ∀ unit ∈ piece, unit ≤ encoding.maxUnit) :
    ScansAs dialect (others.flatMap fun piece => ' ' :: pieceCharacters encoding piece)
      (others.map fun piece => .string piece encoding) next := by
  induction others with
  | nil => exact .nil next
  | cons piece rest ih =>
    obtain ⟨isFirst, areRest⟩ := List.forall_mem_cons.mp seamless
    obtain ⟨firstFits, restFit⟩ := List.forall_mem_cons.mp fits
    rw [List.flatMap_cons, List.map_cons]
    exact (ScansAs.space (.string isFirst firstFits _)).append (ih areRest restFit)

theorem ScansAs.stringSpelling {units : List Nat} (fits : ∀ unit ∈ units, unit ≤ encoding.maxUnit)
    (next : List Char) :
    ScansAs dialect (stringSpelling units encoding).toList
      (((cutAtSeams false units).1 :: (cutAtSeams false units).2).map fun piece =>
        .string piece encoding) next := by
  obtain ⟨isFirst, areOthers⟩ := cutAtSeams_seamless false units
  have whole := flatten_cutAtSeams false units
  have firstFits : ∀ unit ∈ (cutAtSeams false units).1, unit ≤ encoding.maxUnit := by
    intro unit inFirst
    exact fits unit (whole ▸ List.mem_append_left _ inFirst)
  have othersFit : ∀ piece ∈ (cutAtSeams false units).2, ∀ unit ∈ piece,
      unit ≤ encoding.maxUnit := by
    intro piece isPiece unit inPiece
    exact fits unit (whole ▸ List.mem_append_right _ (List.mem_flatten.mpr ⟨piece, isPiece, inPiece⟩))
  rw [toList_stringSpelling, List.map_cons]
  exact (ScansAs.string isFirst firstFits _).append (.strings next areOthers othersFit)

end CFrontEnd
