import CFrontEnd.Language.C
import CFrontEnd.Scan.Scanner

/-!
Texts divided into pieces, and what each kind of piece looks like. The descriptions do not speak of
the scanner. They need to know what stands around a piece: a directive needs a line start before it,
and a comment the line end behind it.
-/

namespace CFrontEnd

inductive PieceKind
  | token
  | blank
  | splice
  | directive
  | lineComment
  | blockComment
  | openComment
  | stray
  deriving DecidableEq, Repr

structure Piece where
  kind : PieceKind
  text : List Char
  deriving DecidableEq, Repr

namespace Piece

/-- No directive begins behind such a piece in the same line. -/
def occupiesLine (piece : Piece) : Bool := piece.kind == .token || piece.kind == .stray

def textOf (pieces : List Piece) : List Char := pieces.flatMap text

@[simp] theorem textOf_nil : textOf [] = [] := rfl

@[simp] theorem textOf_cons (piece : Piece) (pieces : List Piece) :
    textOf (piece :: pieces) = piece.text ++ textOf pieces := rfl

@[simp] theorem textOf_append (first second : List Piece) :
    textOf (first ++ second) = textOf first ++ textOf second :=
  List.flatMap_append

end Piece

/-! ## Lines -/

/-- Whether a line ends within the text in front of `next`. A CR in front of an LF leaves it to the
LF to end the line. -/
def endsLine : List Char → Option Char → Bool
  | [], _ => false
  | character :: rest, next =>
    character == '\n' || (character == '\r' && rest.head?.or next != some '\n')
      || endsLine rest next

theorem endsLine_append (first second : List Char) (next : Option Char) :
    endsLine (first ++ second) next =
      (endsLine first (second.head?.or next) || endsLine second next) := by
  induction first with
  | nil => rfl
  | cons character rest ih =>
      have following : (rest ++ second).head?.or next = rest.head?.or (second.head?.or next) := by
        cases rest <;> simp
      simp only [List.cons_append, endsLine, ih, following, Bool.or_assoc]

theorem endsLine_false {text : List Char} (next : Option Char)
    (inLine : ∀ character ∈ text, isLineEnd character = false) : endsLine text next = false := by
  induction text with
  | nil => rfl
  | cons character rest ih =>
      have notEnd := inLine character (by simp)
      simp only [isLineEnd, Bool.or_eq_false_iff] at notEnd
      simp [endsLine, notEnd, ih fun other inRest => inLine other (by simp [inRest])]

/-- Since the last line start there has been nothing that occupies the line. -/
def AtLineStart (earlier : List Piece) (later : List Char) : Prop :=
  ∃ before layout, earlier = before ++ layout ∧
    (∀ piece ∈ layout, piece.occupiesLine = false) ∧
    (before = [] ∨ endsLine (Piece.textOf layout) later.head? = true)

theorem atLineStart_nil (later : List Char) : AtLineStart [] later :=
  ⟨[], [], rfl, by simp, .inl rfl⟩

/-- A piece keeps the line start in front of it, if it does not occupy the line, or ends the line. -/
theorem atLineStart_concat {earlier : List Piece} {piece : Piece} {later : List Char}
    (inLine : piece.occupiesLine = true → ∀ character ∈ piece.text, isLineEnd character = false) :
    AtLineStart (earlier ++ [piece]) later ↔
      AtLineStart earlier (piece.text ++ later) ∧ piece.occupiesLine = false ∨
        endsLine piece.text later.head? = true := by
  constructor
  · rintro ⟨before, layout, same, free, starts⟩
    -- Either the piece itself ends the line, or the line starts in front of it and it belongs to
    -- the layout behind that start.
    rcases List.eq_nil_or_concat layout with rfl | ⟨layout, last, rfl⟩
    · rw [List.append_nil] at same
      rcases starts with rfl | ends
      · simp at same
      · simp [endsLine] at ends
    · rw [List.concat_eq_append, ← List.append_assoc] at same
      obtain ⟨rfl, lastSame⟩ := List.append_inj' same rfl
      obtain rfl : piece = last := by simpa using lastSame
      have pieceFree := free piece (by simp)
      have layoutFree : ∀ other ∈ layout, other.occupiesLine = false :=
        fun other inLayout => free other (by simp [inLayout])
      rcases starts with rfl | ends
      · exact .inl ⟨⟨[], layout, rfl, layoutFree, .inl rfl⟩, pieceFree⟩
      · simp only [List.concat_eq_append, Piece.textOf_append, Piece.textOf_cons,
          Piece.textOf_nil, List.append_nil, endsLine_append, Bool.or_eq_true] at ends
        rcases ends with ends | ends
        · refine .inl ⟨⟨before, layout, rfl, layoutFree, .inr ?_⟩, pieceFree⟩
          rwa [List.head?_append]
        · exact .inr ends
  · rintro (⟨⟨before, layout, rfl, free, starts⟩, pieceFree⟩ | ends)
    · refine ⟨before, layout ++ [piece], by simp, ?_, ?_⟩
      · intro other inLayout
        rcases List.mem_append.mp inLayout with inLayout | isPiece
        · exact free other inLayout
        · rw [List.mem_singleton.mp isPiece]
          exact pieceFree
      · rcases starts with rfl | ends
        · exact .inl rfl
        · right
          rw [List.head?_append] at ends
          simp [endsLine_append, ends]
    · refine ⟨earlier, [piece], rfl, ?_, .inr (by simpa using ends)⟩
      intro other isPiece
      rw [List.mem_singleton.mp isPiece]
      cases occupies : piece.occupiesLine with
      | false => rfl
      | true =>
        rw [endsLine_false _ (inLine occupies)] at ends
        cases ends

/-! ## Kinds of pieces -/

/-- What ends a line: LF, CRLF, or a CR without an LF behind it. -/
def IsLineEnding (ending later : List Char) : Prop :=
  ending = ['\n'] ∨ ending = ['\r', '\n'] ∨ ending = ['\r'] ∧ later.head? ≠ some '\n'

def InLine (text : List Char) : Prop := ∀ character ∈ text, isLineEnd character = false

instance (text : List Char) : Decidable (InLine text) :=
  List.decidableBAll (fun character => isLineEnd character = false) text

/-- A string literal is such a string, so its characters need not be decoded. -/
theorem inLine_ofList {text : List Char} (inLine : InLine text) :
    InLine (String.ofList text).toList := by
  rwa [String.toList_ofList]

def cWhiteSpace : List Char := [' ', '\t', '\n', '\x0b', '\x0c', '\r']

def cSymbols : List String :=
  cOperators.map OperatorEntry.symbol ++ cPunctuators.map PunctuatorEntry.symbol

/-- Comments that reach to the end of the line came with C99, and earlier in GNU C. -/
def Dialect.HasLineComments (dialect : Dialect) : Prop :=
  dialect.gnu = true ∨ Standard.c99 ≤ dialect.standard

/-- A digit, a quote, a letter or an underscore begins a token, and so does every symbol. -/
def BeginsToken : List Char → Prop
  | [] => False
  | first :: rest =>
    first.isDigit = true ∨ first = '"' ∨ first = '\'' ∨ first = '_' ∨ first.isAlpha = true ∨
      ∃ symbol ∈ cSymbols, symbol.toList <+: first :: rest

/-- Whether blanks, a splice, a directive or a comment begins the text behind the earlier pieces. -/
def BeginsLayout (dialect : Dialect) (earlier : List Piece) (input : List Char) : Prop :=
  (∃ blank ∈ cWhiteSpace, [blank] <+: input) ∨ ['\\', '\n'] <+: input ∨ ['\\', '\r'] <+: input ∨
    ['#'] <+: input ∧ AtLineStart earlier input ∨
    dialect.HasLineComments ∧ ['/', '/'] <+: input ∨ ['/', '*'] <+: input

/-- What a piece of each kind looks like between the earlier pieces and the later text. -/
def Describes (dialect : Dialect) (earlier : List Piece) (text later : List Char) :
    PieceKind → Prop
  | .token =>
    ¬ BeginsLayout dialect earlier (text ++ later) ∧ BeginsToken (text ++ later) ∧ text ≠ [] ∧
      InLine text
  | .blank => ∃ blank ∈ cWhiteSpace, text = [blank]
  | .splice => ∃ ending, text = '\\' :: ending ∧ IsLineEnding ending later
  | .directive =>
    AtLineStart earlier (text ++ later) ∧ ∃ body ending, text = '#' :: (body ++ ending) ∧
      InLine body ∧ (IsLineEnding ending later ∨ ending = [] ∧ later = [])
  | .lineComment =>
    dialect.HasLineComments ∧ (∃ body, text = '/' :: '/' :: body ∧ InLine body) ∧
      ∀ next, later.head? = some next → isLineEnd next = true
  | .blockComment =>
    ∃ body, text = '/' :: '*' :: (body ++ ['*', '/']) ∧ ¬ ['*', '/'] <:+: body ++ ['*']
  | .openComment => later = [] ∧ ∃ body, text = '/' :: '*' :: body ∧ ¬ ['*', '/'] <:+: body
  | .stray =>
    ¬ BeginsLayout dialect earlier (text ++ later) ∧ ¬ BeginsToken (text ++ later) ∧
      ∃ character, text = [character]

namespace Describes

variable {dialect : Dialect} {earlier : List Piece} {text later : List Char}
  {kind other : PieceKind}

/-- All but tokens and stray characters begin with what begins layout. -/
theorem beginsLayout (describes : Describes dialect earlier text later kind)
    (notToken : kind ≠ .token) (notStray : kind ≠ .stray) :
    BeginsLayout dialect earlier (text ++ later) := by
  cases kind with
  | token => exact absurd rfl notToken
  | stray => exact absurd rfl notStray
  | blank =>
    obtain ⟨blank, isBlank, rfl⟩ := describes
    exact .inl ⟨blank, isBlank, by simp⟩
  | splice =>
    obtain ⟨ending, rfl, rfl | rfl | ⟨rfl, _⟩⟩ := describes
    · exact .inr (.inl (by simp))
    · exact .inr (.inr (.inl (by simp)))
    · exact .inr (.inr (.inl (by simp)))
  | directive =>
    obtain ⟨starts, body, ending, rfl, _⟩ := describes
    exact .inr (.inr (.inr (.inl ⟨by simp, starts⟩)))
  | lineComment =>
    obtain ⟨has, ⟨body, rfl, _⟩, _⟩ := describes
    exact .inr (.inr (.inr (.inr (.inl ⟨has, by simp⟩))))
  | blockComment =>
    obtain ⟨body, rfl, _⟩ := describes
    exact .inr (.inr (.inr (.inr (.inr (by simp)))))
  | openComment =>
    obtain ⟨_, body, rfl, _⟩ := describes
    exact .inr (.inr (.inr (.inr (.inr (by simp)))))

/-- The first two characters of each kind of layout. Only the two kinds of block comments share
theirs. -/
def opening : PieceKind → List Char → Prop
  | .blank, text => ∃ blank ∈ cWhiteSpace, text.head? = some blank
  | .splice, text => text.head? = some '\\'
  | .directive, text => text.head? = some '#'
  | .lineComment, text => text.head? = some '/' ∧ text[1]? = some '/'
  | .blockComment, text | .openComment, text => text.head? = some '/' ∧ text[1]? = some '*'
  | .token, _ | .stray, _ => True

theorem opens (describes : Describes dialect earlier text later kind) : opening kind text := by
  cases kind with
  | token => trivial
  | stray => trivial
  | blank =>
    obtain ⟨blank, isBlank, rfl⟩ := describes
    exact ⟨blank, isBlank, rfl⟩
  | splice =>
    obtain ⟨ending, rfl, _⟩ := describes
    rfl
  | directive =>
    obtain ⟨_, body, ending, rfl, _⟩ := describes
    rfl
  | lineComment =>
    obtain ⟨_, ⟨body, rfl, _⟩, _⟩ := describes
    exact ⟨rfl, rfl⟩
  | blockComment =>
    obtain ⟨body, rfl, _⟩ := describes
    exact ⟨rfl, rfl⟩
  | openComment =>
    obtain ⟨_, body, rfl, _⟩ := describes
    exact ⟨rfl, rfl⟩

/-- A comment that is closed is not open. -/
theorem closed_ne_open (closed : Describes dialect earlier text later .blockComment)
    (opened : Describes dialect earlier text later .openComment) : False := by
  obtain ⟨body, rfl, _⟩ := closed
  obtain ⟨_, other, same, notClosed⟩ := opened
  simp only [List.cons.injEq, true_and] at same
  exact notClosed ⟨body, [], by simp [same]⟩

/-- No line ends in a piece that occupies its line. -/
theorem inLine {piece : Piece} (describes : Describes dialect earlier piece.text later piece.kind)
    (occupies : piece.occupiesLine = true) : InLine piece.text := by
  obtain ⟨kind, text⟩ := piece
  simp only [Piece.occupiesLine, Bool.or_eq_true, beq_iff_eq] at occupies
  rcases occupies with rfl | rfl
  · exact describes.2.2.2
  · obtain ⟨noLayout, _, character, rfl⟩ := describes
    intro other isCharacter
    rw [List.mem_singleton.mp isCharacter]
    cases ends : isLineEnd character with
    | false => rfl
    | true =>
      have isBlank : character ∈ cWhiteSpace := by
        simp only [isLineEnd, Bool.or_eq_true, beq_iff_eq] at ends
        rcases ends with rfl | rfl <;> decide
      exact absurd (.inl ⟨character, isBlank, by simp⟩) noLayout

/-- No piece is of two kinds. -/
theorem unique (first : Describes dialect earlier text later kind)
    (second : Describes dialect earlier text later other) : kind = other := by
  -- Tokens and strays are told apart by whether there is a token; layout is told apart by its
  -- first characters, and block comments by whether they are closed.
  by_cases isToken : kind = .token
  · subst isToken
    by_cases otherToken : other = .token
    · exact otherToken.symm
    · by_cases otherStray : other = .stray
      · subst otherStray
        exact absurd first.2.1 second.2.1
      · exact absurd (second.beginsLayout otherToken otherStray) first.1
  · by_cases isStray : kind = .stray
    · subst isStray
      by_cases otherStray : other = .stray
      · exact otherStray.symm
      · by_cases otherToken : other = .token
        · subst otherToken
          exact absurd second.2.1 first.2.1
        · exact absurd (second.beginsLayout otherToken otherStray) first.1
    · have begins := first.beginsLayout isToken isStray
      have otherToken : other ≠ .token := by
        rintro rfl
        exact second.1 begins
      have otherStray : other ≠ .stray := by
        rintro rfl
        exact second.1 begins
      have firstOpens := first.opens
      have secondOpens := second.opens
      cases kind <;> cases other <;> simp_all [opening, cWhiteSpace]
      · exact closed_ne_open first second
      · exact closed_ne_open second first

end Describes

end CFrontEnd
